import A3sBench.ArchivePipelineRuns

/-!
# Archives that fit

While nothing fails by itself, the pipeline of an archive within the limit
returns its length, on every schedule.
-/

namespace A3sBench.ArchivePipeline

open Library Library.System

/-- The pump has given up, and its error is not lost on the monitor. -/
def gaveUp (s : State) : Bool :=
  match s.pump with
  | .stopped (.error _) | .sent (.error _) => true
  | .received => s.pumpResult.isNone
  | _ => false

/-- An undisturbed event by which a child fails only once the pump has given up. -/
structure Orderly (s : State) (e : Event) : Prop where
  undisturbed : Undisturbed s e
  children : ∀ success, e = .copyExit success ∨ e = .extractExit success →
    success = true ∨ gaveUp s = true

/-- The archive is within the limit. -/
structure Fitting (c : Config) (reads : List Nat) : Prop where
  fits : reads.sum ≤ c.maxBytes
  word : c.maxBytes ≤ u64Max

/-- The pump passes on an archive of this length, or has done so. -/
def Passing (total : Nat) (pumpResult : Option Nat) : Pump → Prop
  | .running transferred reads => transferred + reads.sum = total
  | .stopped result | .sent result => result = .ok total
  | .received => pumpResult = some total

/-- The monitor leaves its loop with everything it waits for. -/
def Ending (total : Nat) (s : State) : Prop :=
  match s.monitor with
  | .closing abort => abort = none ∧ s.copyStatus = some true ∧ s.extractStatus = some true ∧
      s.pumpResult = some total
  | .returned result => result = .ok total
  | _ => True

structure Delivering (total : Nat) (s : State) : Prop where
  clock : s.expired = false
  passing : Passing total s.pumpResult s.pump
  result : ∀ bytes, s.pumpResult = some bytes → bytes = total
  copy : s.copy ≠ .exited false
  extract : s.extract ≠ .exited false
  copyStatus : s.copyStatus ≠ some false
  extractStatus : s.extractStatus ≠ some false
  ending : Ending total s

theorem Delivering.not_gaveUp {total : Nat} {s : State} (h : Delivering total s) :
    gaveUp s = false := by
  have hpassing := h.passing
  unfold gaveUp
  cases hp : s.pump with
  | running transferred reads => rfl
  | stopped result | sent result =>
    rw [hp] at hpassing
    obtain rfl : result = .ok total := hpassing
    rfl
  | received =>
    rw [hp] at hpassing
    exact congrArg Option.isNone hpassing

theorem delivering_start {reads : List Nat} : Delivering reads.sum (start reads) where
  clock := rfl
  passing := Nat.zero_add _
  result bytes h := by cases h
  copy h := by cases h
  extract h := by cases h
  copyStatus h := by cases h
  extractStatus h := by cases h
  ending := trivial

theorem pollChild_ne_failed {child : Child} {status : Option Bool} (hchild : child ≠ .exited false)
    (hstatus : status ≠ some false) :
    ∃ next, pollChild none child status = .ok next ∧ next ≠ some false := by
  cases status with
  | some success => exact ⟨_, rfl, hstatus⟩
  | none => exact ⟨_, rfl, fun h => hchild (tryWait_eq_some h)⟩

/-- A turn of the monitor. -/
theorem delivering_monitor {c : Config} {total : Nat} {s s' : State} (h : Delivering total s)
    (hstep : monitorStep c none s = some s') : Delivering total s' := by
  have hending := h.ending
  unfold Ending at hending
  unfold monitorStep at hstep
  cases hm : s.monitor with
  | deadline =>
    simp only [hm, h.clock, Bool.false_eq_true, if_false, Option.some.injEq] at hstep
    subst hstep
    exact { h with clock := rfl, ending := trivial }
  | copy =>
    obtain ⟨next, hpoll, hnext⟩ := pollChild_ne_failed h.copy h.copyStatus
    simp only [hm, hpoll, if_neg hnext, Option.some.injEq] at hstep
    subst hstep
    exact { h with copyStatus := hnext, ending := trivial }
  | extract =>
    obtain ⟨next, hpoll, hnext⟩ := pollChild_ne_failed h.extract h.extractStatus
    simp only [hm, hpoll, if_neg hnext, Option.some.injEq] at hstep
    subst hstep
    exact { h with extractStatus := hnext, ending := trivial }
  | channel =>
    cases hresult : s.pumpResult with
    | some bytes =>
      simp only [hm, hresult, Option.some.injEq] at hstep
      subst hstep
      exact
        { h with
          passing := hresult ▸ h.passing
          result := fun bytes' hbytes => h.result bytes' (hresult ▸ hbytes)
          ending := trivial }
    | none =>
      have hpassing := h.passing
      rw [hresult] at hpassing
      cases hp : s.pump with
      | running transferred reads | stopped result =>
        rw [hp] at hpassing
        simp only [hm, hresult, hp, Option.some.injEq] at hstep
        subst hstep
        exact { h with passing := hpassing, result := fun bytes hb => (by cases hb), ending := trivial }
      | sent result =>
        rw [hp] at hpassing
        obtain rfl : result = .ok total := hpassing
        simp only [hm, hresult, hp, Option.some.injEq] at hstep
        subst hstep
        exact
          { h with
            passing := rfl
            result := fun bytes hb => (Option.some.inj hb).symm
            ending := trivial }
      | received =>
        rw [hp] at hpassing
        cases hpassing
  | complete =>
    simp only [hm, Option.some.injEq] at hstep
    subst hstep
    refine { h with ending := ?_ }
    unfold Ending
    dsimp only
    split_ifs with hall
    · obtain ⟨hcopy, hextract, hresult⟩ := hall
      obtain ⟨copy, hcopy⟩ := Option.isSome_iff_exists.mp hcopy
      obtain ⟨extract, hextract⟩ := Option.isSome_iff_exists.mp hextract
      obtain ⟨bytes, hbytes⟩ := Option.isSome_iff_exists.mp hresult
      refine ⟨rfl, ?_, ?_, ?_⟩
      · cases copy with
        | true => exact hcopy
        | false => exact absurd hcopy h.copyStatus
      · cases extract with
        | true => exact hextract
        | false => exact absurd hextract h.extractStatus
      · rw [hbytes, h.result bytes hbytes]
    · trivial
  | closing abort =>
    rw [hm] at hending
    obtain ⟨rfl, hcopy, hextract, hresult⟩ := hending
    have hfinish : finish c s none = .ok total := by simp [finish, hcopy, hextract, hresult]
    have hnext : s' = { s with monitor := .returned (finish c s none) } := by
      simp only [hm] at hstep
      split at hstep
      · exact (Option.some.inj hstep).symm
      · exact (Option.some.inj hstep).symm
      · cases hstep
    subst hnext
    exact { h with ending := hfinish }
  | returned result =>
    simp only [hm] at hstep
    cases hstep

theorem passing_pumpArchive {c : Config} {total transferred : Nat} {reads : List Nat}
    (hsum : transferred + reads.sum = total) (hfits : total ≤ c.maxBytes) (hword : c.maxBytes ≤ u64Max)
    (pumpResult : Option Nat) :
    Passing total pumpResult (pumpArchive c.maxBytes false none none transferred reads) := by
  cases reads with
  | nil => exact congrArg Except.ok hsum
  | cons count rest =>
    rw [List.sum_cons] at hsum
    have hcount : transferred + count ≤ total := by omega
    have hlimit : ¬ c.maxBytes < transferred + count := by omega
    have hcarry : ¬ u64Max < transferred + count := by omega
    simp only [pumpArchive, Bool.false_eq_true, if_false, if_neg hcarry, if_neg hlimit, Passing]
    omega

theorem delivering_apply {c : Config} {total : Nat} {s s' : State} {e : Event}
    (hfits : total ≤ c.maxBytes) (hword : c.maxBytes ≤ u64Max) (h : Delivering total s)
    (he : Orderly s e) (hstep : apply c s e = some s') : Delivering total s' := by
  have hexit : ∀ success, e = .copyExit success ∨ e = .extractExit success →
      Child.exited success ≠ .exited false := by
    rintro success hsuccess ⟨⟩
    rcases he.children false hsuccess with hfalse | hgaveUp
    · cases hfalse
    · rw [h.not_gaveUp] at hgaveUp
      cases hgaveUp
  cases e with
  | expire => exact he.undisturbed.elim
  | pump readFault writeFault =>
    obtain ⟨rfl, rfl⟩ := he.undisturbed
    have hpassing := h.passing
    cases hp : s.pump with
    | running transferred reads =>
      rw [hp] at hpassing
      simp only [apply, hp, h.clock, Option.some.injEq] at hstep
      subst hstep
      exact { h with passing := passing_pumpArchive hpassing hfits hword _, clock := rfl }
    | stopped result | sent result | received => simp [apply, hp] at hstep
  | send =>
    have hpassing := h.passing
    cases hp : s.pump with
    | stopped result =>
      rw [hp] at hpassing
      simp only [apply, hp, Option.some.injEq] at hstep
      subst hstep
      exact { h with passing := hpassing }
    | running transferred reads | sent result | received => simp [apply, hp] at hstep
  | copyExit success =>
    simp only [apply] at hstep
    split_ifs at hstep
    obtain rfl := Option.some.inj hstep
    exact { h with copy := hexit success (.inl rfl) }
  | extractExit success =>
    simp only [apply] at hstep
    split_ifs at hstep
    obtain rfl := Option.some.inj hstep
    exact { h with extract := hexit success (.inr rfl) }
  | monitor fault =>
    obtain rfl : fault = none := he.undisturbed
    exact delivering_monitor h hstep

/-- On every orderly schedule an archive that fits is delivered. -/
theorem delivered_of_run {c : Config} {reads : List Nat} (harchive : Fitting c reads)
    {h : List (State × Event)} {s : State} (hrun : Run (pipelineSystem c reads) h s)
    (horderly : Guarded Orderly h) {result : Except Failure Nat} (hend : s.monitor = .returned result) :
    result = .ok reads.sum := by
  have hdelivering : Delivering reads.sum s := by
    refine hrun.guarded_invariant (fun s hinit => ?_) (fun s e s' hs he hstep => ?_) horderly
    · obtain rfl := hinit
      exact delivering_start
    · exact delivering_apply harchive.fits harchive.word hs he hstep
  have hending := hdelivering.ending
  rw [Ending, hend] at hending
  exact hending

theorem undisturbed_of_orderly {h : List (State × Event)} (horderly : Guarded Orderly h) :
    Guarded Undisturbed h :=
  fun p hp => (horderly p hp).undisturbed

end A3sBench.ArchivePipeline
