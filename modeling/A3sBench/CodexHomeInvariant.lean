import A3sBench.CodexHomeSteps

/-!
# What the calls on homes rely on

The steps that the sweeps of others are not disturbed by, and the invariant that
such steps keep.
-/

namespace A3sBench.CodexHomes

open Library Library.System

/-! ## The condition -/

/-- The home that the call is making, from the choice of its name on. -/
def Phase.making : Phase → Option String
  | .make _ name => some name
  | .secure _ name _ _ => some name
  | .temporary name _ _ => some name
  | .fill name _ _ => some name
  | .unwind _ name _ _ => some name
  | _ => none

/-- The home that is there and not finished. -/
def Phase.working : Phase → Option String
  | .secure _ name _ _ => some name
  | .temporary name _ _ => some name
  | .fill name _ _ => some name
  | _ => none

/-- The home that the call looks at. -/
def Phase.looking : Phase → Option (Purpose × String)
  | .owned purpose name => some (purpose, name)
  | .marker purpose name => some (purpose, name)
  | .read purpose name => some (purpose, name)
  | .remove purpose name _ => some (purpose, name)
  | _ => none

/-- The home that a sweep removes. -/
def Phase.removing : Phase → Option String
  | .remove (.sweep _) name _ => some name
  | _ => none

/-- What the next system call of a removal takes away. -/
def Phase.target : Phase → Option (String × List String)
  | .remove _ name frames => (CodexHomes.target frames).map fun path => (name, path)
  | _ => none

/-- The next step of the call leaves the sweeps of others alone, and has room. -/
structure CallSpares (w : World) (c : Call) : Prop where
  /-- No home is removed between a sweep's first look at it and its second. -/
  home : ∀ name, c.phase.target = some (name, []) → ∀ i c' seen, w.calls i = some c' →
    c'.phase ≠ .owned (.sweep seen) name
  /-- No marker is removed between a sweep's look at it and its read. -/
  marker : ∀ name, c.phase.target = some (name, [ownerMarker]) → ∀ i c' seen,
    w.calls i = some c' → c'.phase ≠ .read (.sweep seen) name
  /-- No home comes back under a name that a sweep is looking at for a stale one. -/
  back : ∀ tries name, c.phase = .make tries name → w.homes name = none → ∀ i c' seen,
    w.calls i = some c' → c'.phase.looking = some (.sweep seen, name) →
      ¬ staleHomeAge < c'.now - seen.modified
  /-- No home is found stale before it is finished. -/
  finished : ∀ seen name, c.phase = .read (.sweep seen) name →
    staleHomeAge < c.now - seen.modified → ∀ i c', w.calls i = some c' →
      c'.phase.working ≠ some name
  /-- The last name of the tries is free. -/
  room : ∀ tries name, c.phase = .make tries name → tries + 1 = maxTries → w.homes name = none
  /-- The sequence has not wrapped. -/
  sequence : ∀ tries sequence, c.phase = .allocate tries → w.running c.pid = some sequence →
    sequence < 2 ^ 64

def Spares (w : World) : Event → Prop
  | .advance i _ => ∀ c, w.calls i = some c → CallSpares w c
  | _ => True

/-! ## The invariant -/

abbrev History := List (World × Event)

/-- The sweep looked at the home. -/
def Looked (h : History) (name : String) (seen : Seen) : Prop :=
  ∃ p ∈ h, ∃ home, p.1.homes name = some home ∧ home.id = seen.id ∧ home.modified = seen.modified

/-- The home had the marker in it. -/
def Carried (h : History) (name : String) (id : Nat) : Prop :=
  ∃ p ∈ h, ∃ home, p.1.homes name = some home ∧ home.id = id ∧
    lookup (some home) [ownerMarker] = some (.file ownerMarkerContent)

/-- A home under the name is this one. -/
def Same (slot : Option Home) (id : Nat) : Prop := ∀ home, slot = some home → home.id = id

/-- The home is there, with this in it. -/
def Holds (slot : Option Home) (id : Nat) (t : Dir) : Prop :=
  ∃ home, slot = some home ∧ home.id = id ∧ home.tree = some t

/-- A sweep that saw a stale home still sees that one. -/
def SameIfStale (slot : Option Home) (now : Nat) (seen : Seen) : Prop :=
  staleHomeAge < now - seen.modified → Same slot seen.id

/-- What a call relies on. -/
def PhaseInv (h : History) (homes : String → Option Home) (now : Nat) : Phase → Prop
  | .owned (.sweep seen) name =>
    Looked h name seen ∧ SameIfStale (homes name) now seen ∧ (homes name).isSome
  | .marker (.sweep seen) name => Looked h name seen ∧ SameIfStale (homes name) now seen
  | .read (.sweep seen) name =>
    Looked h name seen ∧ SameIfStale (homes name) now seen ∧ Marked (homes name)
  | .remove (.sweep seen) name frames =>
    Looked h name seen ∧ Same (homes name) seen.id ∧ staleHomeAge < now - seen.modified ∧
      Carried h name seen.id ∧ Clears (homes name) frames
  | .owned (.cleanup id) name => Same (homes name) id
  | .marker (.cleanup id) name => Same (homes name) id
  | .read (.cleanup id) name => Same (homes name) id
  | .remove (.cleanup id) name _ => Same (homes name) id
  | .allocate tries => tries < maxTries
  | .make tries _ => tries < maxTries
  | .secure _ name id rest =>
    Holds (homes name) id .empty ∧ ∀ call ∈ rest, call ∈ secureDirectory []
  | .temporary name id _ => Holds (homes name) id .empty
  | .fill name id rest => ∃ t, Holds (homes name) id t ∧ Fills t rest
  | .unwind _ _ _ _ => False
  | .done (.error _) => False
  | _ => True

/-- The name has a number that the process has given out. -/
def Numbered (w : World) (pid : UInt32) (name : String) : Prop :=
  ∃ sequence, w.running pid = some sequence ∧ ∃ number < sequence, name = homeName pid number

structure Inv (h : History) (w : World) : Prop where
  fresh : ∀ name home, w.homes name = some home → home.id < w.next
  markers : MarkersAreFiles w.homes
  phases : ∀ i c, w.calls i = some c → PhaseInv h w.homes c.now c.phase
  making : ∀ i c, w.calls i = some c → ∀ name, c.phase.making = some name →
    Numbered w c.pid name
  cleaning : ∀ i c, w.calls i = some c → ∀ name id,
    c.phase.looking = some (.cleanup id, name) → Numbered w c.pid name
  apart : ∀ i j c c', i ≠ j → w.calls i = some c → w.calls j = some c' → ∀ name,
    c.phase.making = some name →
      c'.phase.making ≠ some name ∧ ∀ id, c'.phase.looking ≠ some (.cleanup id, name)
  spared : ∀ i j c c', w.calls i = some c → w.calls j = some c' → ∀ name,
    c.phase.working = some name → c'.phase.removing ≠ some name
  live : ∀ l ∈ w.live, Numbered w l.pid l.name ∧ Same (w.homes l.name) l.id ∧
    ∀ i c, w.calls i = some c → c.phase.making ≠ some l.name
  names : (w.live.map Live.name).Nodup

theorem Numbered.mono {w w' : World} {pid : UInt32} {name : String} (h : Numbered w pid name)
    (hrunning : ∀ sequence, w.running pid = some sequence →
      ∃ sequence' ≥ sequence, w'.running pid = some sequence') : Numbered w' pid name := by
  obtain ⟨sequence, hpid, number, hlt, hname⟩ := h
  obtain ⟨sequence', hle, hpid'⟩ := hrunning sequence hpid
  exact ⟨sequence', hpid', number, hlt.trans_le hle, hname⟩

/-- A number that is not given out yet makes a name that nobody has. -/
theorem Numbered.ne_next {w : World} {pid pid' : UInt32} {name : String} {sequence : Nat}
    (h : Numbered w pid' name) (hsequence : w.running pid = some sequence) :
    name ≠ homeName pid sequence := by
  obtain ⟨sequence', hpid', number, hlt, rfl⟩ := h
  intro heq
  obtain ⟨rfl, rfl⟩ := homeName_inj heq
  obtain rfl := Option.some.inj (hsequence.symm.trans hpid')
  exact lt_irrefl _ hlt

theorem working_making {phase : Phase} {name : String} (h : phase.working = some name) :
    phase.making = some name := by
  cases phase <;> first | exact h | cases h

theorem PhaseInv.history {h : History} {homes : String → Option Home} {now : Nat} {phase : Phase}
    (hphase : PhaseInv h homes now phase) (p : World × Event) :
    PhaseInv (p :: h) homes now phase := by
  have hlooked : ∀ {name seen}, Looked h name seen → Looked (p :: h) name seen :=
    fun ⟨q, hq, hhome⟩ => ⟨q, List.mem_cons_of_mem p hq, hhome⟩
  have hcarried : ∀ {name id}, Carried h name id → Carried (p :: h) name id :=
    fun ⟨q, hq, hhome⟩ => ⟨q, List.mem_cons_of_mem p hq, hhome⟩
  cases phase with
  | owned purpose name | marker purpose name | read purpose name =>
    cases purpose with
    | sweep seen => exact ⟨hlooked hphase.1, hphase.2⟩
    | cleanup id => exact hphase
  | remove purpose name frames =>
    cases purpose with
    | sweep seen =>
      obtain ⟨hlook, hsame, hstale, hcarry, hclears⟩ := hphase
      exact ⟨hlooked hlook, hsame, hstale, hcarried hcarry, hclears⟩
    | cleanup id => exact hphase
  | done result =>
    cases result with
    | error errno => exact hphase.elim
    | ok value => trivial
  | _ => exact hphase

/-! ## What a step does to one home -/

inductive Effect (w : World) (c : Call) (name : String) (slot' : Option Home) : Prop where
  | kept : slot' = w.homes name → Effect w c name slot'
  | made (tries : Nat) : c.phase = .make tries name → w.homes name = none →
      slot' = some (newHome w.stamp) → Effect w c name slot'
  | worked (home : Home) (t t' : Dir) : c.phase.working = some name → w.homes name = some home →
      home.tree = some t → slot' = some (home.put t t' w.clock) → MarkerKept t t' →
      Effect w c name slot'
  | took (purpose : Purpose) (path : List String) : c.phase.looking = some (purpose, name) →
      c.phase.target = some (name, path) → Took path (w.homes name) slot' → Effect w c name slot'

theorem Took.same_id {path : List String} {slot slot' : Option Home} {id : Nat}
    (h : Took path slot slot') (hsame : Same slot id) : Same slot' id := by
  intro home' hhome'
  obtain ⟨home, hhome, hid⟩ := h.same home' hhome'
  exact hid ▸ hsame home hhome

theorem Effect.markers {w : World} {c : Call} {name : String} {slot' : Option Home}
    (h : Effect w c name slot') (hmarkers : MarkersAreFiles w.homes) :
    MarkersAreFiles (Function.update w.homes name slot') := by
  intro n content hlookup
  obtain rfl | hn := eq_or_ne n name
  · rw [Function.update_self] at hlookup
    cases h with
    | kept heq => exact hmarkers n content (heq ▸ hlookup)
    | made tries _ _ heq =>
      rw [heq] at hlookup
      cases hlookup
    | worked home t t' _ _ _ heq hkept =>
      rw [heq, lookup_some rfl] at hlookup
      exact hkept.file content hlookup
    | took purpose path _ _ htook => exact hmarkers n content (htook.shrinks _ _ hlookup)
  · rw [Function.update_of_ne hn] at hlookup
    exact hmarkers n content hlookup

theorem Effect.fresh {w : World} {c : Call} {name : String} {slot' : Option Home}
    (h : Effect w c name slot') (hfresh : ∀ name home, w.homes name = some home → home.id < w.next) :
    ∀ n home, Function.update w.homes name slot' n = some home → home.id < w.next + 1 := by
  intro n home hhome
  obtain rfl | hn := eq_or_ne n name
  · rw [Function.update_self] at hhome
    cases h with
    | kept heq => exact (hfresh n home (heq ▸ hhome)).trans (Nat.lt_succ_self _)
    | made tries _ _ heq =>
      obtain rfl := Option.some.inj (heq.symm.trans hhome)
      exact Nat.lt_succ_self _
    | worked before t t' _ hbefore _ heq _ =>
      obtain rfl := Option.some.inj (heq.symm.trans hhome)
      exact (hfresh n before hbefore).trans (Nat.lt_succ_self _)
    | took purpose path _ _ htook =>
      obtain ⟨before, hbefore, hid⟩ := htook.same home hhome
      exact hid ▸ (hfresh n before hbefore).trans (Nat.lt_succ_self _)
  · rw [Function.update_of_ne hn] at hhome
    exact (hfresh n home hhome).trans (Nat.lt_succ_self _)

/-- Whoever did not see a new home come sees the same one as before. -/
theorem Effect.same {w : World} {c : Call} {name n : String} {slot' : Option Home} {id : Nat}
    (h : Effect w c name slot') (hmade : ∀ tries, c.phase = .make tries n → w.homes n ≠ none)
    (hsame : Same (w.homes n) id) : Same (Function.update w.homes name slot' n) id := by
  intro home hhome
  obtain rfl | hn := eq_or_ne n name
  · rw [Function.update_self] at hhome
    cases h with
    | kept heq => exact hsame home (heq ▸ hhome)
    | made tries hphase hnone _ => exact absurd hnone (hmade tries hphase)
    | worked before t t' _ hbefore _ heq _ =>
      obtain rfl := Option.some.inj (heq.symm.trans hhome)
      exact hsame before hbefore
    | took purpose path _ _ htook => exact htook.same_id hsame home hhome
  · rw [Function.update_of_ne hn] at hhome
    exact hsame home hhome

theorem Effect.holds {w : World} {c : Call} {name n : String} {slot' : Option Home} {id : Nat}
    {t : Dir} (h : Effect w c name slot') (hmaking : c.phase.making ≠ some n)
    (hlooking : ∀ purpose path, c.phase.looking = some (purpose, n) →
      c.phase.target ≠ some (n, path)) (hholds : Holds (w.homes n) id t) :
    Holds (Function.update w.homes name slot' n) id t := by
  obtain rfl | hn := eq_or_ne n name
  · rw [Function.update_self]
    cases h with
    | kept heq => exact heq ▸ hholds
    | made tries hphase _ _ =>
      rw [hphase] at hmaking
      exact absurd rfl hmaking
    | worked home t t' hworking _ _ _ _ => exact absurd (working_making hworking) hmaking
    | took purpose path hlook htarget _ => exact absurd htarget (hlooking purpose path hlook)
  · rwa [Function.update_of_ne hn]

/-- Only removals go on in a home that nobody makes. -/
theorem Effect.clears {w : World} {c : Call} {name n : String} {slot' : Option Home}
    {frames : List Frame} (h : Effect w c name slot')
    (hmade : ∀ tries, c.phase = .make tries n → w.homes n ≠ none)
    (hworking : c.phase.working ≠ some n) (hclears : Clears (w.homes n) frames) :
    Clears (Function.update w.homes name slot' n) frames := by
  obtain rfl | hn := eq_or_ne n name
  · rw [Function.update_self]
    cases h with
    | kept heq => exact heq ▸ hclears
    | made tries hphase hnone _ => exact absurd hnone (hmade tries hphase)
    | worked home t t' hwork _ _ _ _ => exact absurd hwork hworking
    | took purpose path _ _ htook => exact hclears.mono htook.shrinks
  · rwa [Function.update_of_ne hn]

theorem Effect.isSome {w : World} {c : Call} {name n : String} {slot' : Option Home}
    (h : Effect w c name slot') (htarget : c.phase.target ≠ some (n, []))
    (hsome : (w.homes n).isSome) : (Function.update w.homes name slot' n).isSome := by
  obtain rfl | hn := eq_or_ne n name
  · rw [Function.update_self]
    cases h with
    | kept heq => exact heq ▸ hsome
    | made tries _ _ heq => exact heq ▸ rfl
    | worked home t t' _ _ _ heq _ => exact heq ▸ rfl
    | took purpose path _ hpath htook =>
      refine htook.stays (fun hnil => htarget ?_) hsome
      exact hnil ▸ hpath
  · rwa [Function.update_of_ne hn]

theorem Effect.marked {w : World} {c : Call} {name n : String} {slot' : Option Home}
    (h : Effect w c name slot') (htarget : c.phase.target ≠ some (n, [ownerMarker]))
    (hmarked : Marked (w.homes n)) : Marked (Function.update w.homes name slot' n) := by
  obtain rfl | hn := eq_or_ne n name
  · rw [Function.update_self]
    obtain ⟨bytes, hbytes⟩ := hmarked
    cases h with
    | kept heq => exact heq ▸ ⟨bytes, hbytes⟩
    | made tries _ hnone _ =>
      rw [hnone] at hbytes
      cases hbytes
    | worked home t t' _ hhome htree heq hkept =>
      rw [hhome, lookup_some htree] at hbytes
      obtain ⟨content, hcontent⟩ := Option.isSome_iff_exists.mp
        (hkept.stays (by rw [hbytes]; rfl))
      obtain ⟨bytes', rfl⟩ := hkept.file content hcontent
      exact ⟨bytes', by rw [heq, lookup_some rfl, hcontent]⟩
    | took purpose path _ hpath htook =>
      refine htook.marked (fun hmarker => htarget ?_) ⟨bytes, hbytes⟩
      exact hmarker ▸ hpath
  · rwa [Function.update_of_ne hn]

theorem removing_of_target {phase : Phase} {seen : Seen} {name n : String} {path : List String}
    (hlooking : phase.looking = some (.sweep seen, name)) (htarget : phase.target = some (n, path)) :
    phase.removing = some name := by
  cases phase with
  | remove purpose name' frames =>
    obtain ⟨rfl, rfl⟩ := Prod.mk.inj (Option.some.inj hlooking)
    rfl
  | _ => cases htarget

/-- A step of another call leaves what a call relies on. -/
theorem PhaseInv.other {h : History} {w : World} {i j : Nat} {c c' : Call} {name : String}
    {slot' : Option Home} (hinv : Inv h w) (hij : i ≠ j) (hi : w.calls i = some c)
    (hj : w.calls j = some c') (heffect : Effect w c name slot') (hspares : CallSpares w c) :
    PhaseInv h (Function.update w.homes name slot') c'.now c'.phase := by
  have hphase := hinv.phases j c' hj
  have hseen : ∀ {n seen}, c'.phase.looking = some (.sweep seen, n) →
      staleHomeAge < c'.now - seen.modified → ∀ tries, c.phase = .make tries n → w.homes n ≠ none :=
    fun hlooking hstale tries hmake hnone =>
      hspares.back tries _ hmake hnone j c' _ hj hlooking hstale
  have hcleaned : ∀ {n id}, c'.phase.looking = some (.cleanup id, n) →
      ∀ tries, c.phase = .make tries n → w.homes n ≠ none := by
    intro n id hlooking tries hmake _
    exact (hinv.apart i j c c' hij hi hj n (by rw [hmake]; rfl)).2 id hlooking
  have hholds : ∀ {n id t}, c'.phase.working = some n → Holds (w.homes n) id t →
      Holds (Function.update w.homes name slot' n) id t := by
    intro n id t hworking hholds
    obtain ⟨hmaking, hcleaning⟩ :=
      hinv.apart j i c' c (Ne.symm hij) hj hi n (working_making hworking)
    refine heffect.holds hmaking (fun purpose path hlooking htarget => ?_) hholds
    cases purpose with
    | sweep seen =>
      exact hinv.spared j i c' c hj hi n hworking (removing_of_target hlooking htarget)
    | cleanup id => exact hcleaning id hlooking
  generalize hsame : c'.phase = phase at hphase hseen hcleaned hholds ⊢
  cases phase with
  | owned purpose n =>
    cases purpose with
    | sweep seen =>
      obtain ⟨hlooked, hid, hsome⟩ := hphase
      refine ⟨hlooked, fun hstale => heffect.same (hseen rfl hstale) (hid hstale),
        heffect.isSome (fun htarget => ?_) hsome⟩
      exact hspares.home n htarget j c' seen hj hsame
    | cleanup id => exact heffect.same (hcleaned rfl) hphase
  | marker purpose n =>
    cases purpose with
    | sweep seen =>
      exact ⟨hphase.1, fun hstale => heffect.same (hseen rfl hstale) (hphase.2 hstale)⟩
    | cleanup id => exact heffect.same (hcleaned rfl) hphase
  | read purpose n =>
    cases purpose with
    | sweep seen =>
      obtain ⟨hlooked, hid, hmarked⟩ := hphase
      refine ⟨hlooked, fun hstale => heffect.same (hseen rfl hstale) (hid hstale),
        heffect.marked (fun htarget => ?_) hmarked⟩
      exact hspares.marker n htarget j c' seen hj hsame
    | cleanup id => exact heffect.same (hcleaned rfl) hphase
  | remove purpose n frames =>
    cases purpose with
    | sweep seen =>
      obtain ⟨hlooked, hid, hstale, hcarried, hclears⟩ := hphase
      refine ⟨hlooked, heffect.same (hseen rfl hstale) hid, hstale, hcarried,
        heffect.clears (hseen rfl hstale) (fun hworking => ?_) hclears⟩
      exact hinv.spared i j c c' hi hj n hworking (by rw [hsame]; rfl)
    | cleanup id => exact heffect.same (hcleaned rfl) hphase
  | secure unwinds n id rest => exact ⟨hholds rfl hphase.1, hphase.2⟩
  | temporary n id tries => exact hholds rfl hphase
  | fill n id rest =>
    obtain ⟨t, hhold, hfills⟩ := hphase
    exact ⟨t, hholds rfl hhold, hfills⟩
  | done result =>
    cases result with
    | error errno => exact hphase.elim
    | ok value => trivial
  | _ => exact hphase

/-! ## What a step does to all of it -/

theorem calls_become {w : World} {i j : Nat} {c c' : Call} {phase : Phase}
    (h : (w.become i c phase).calls j = some c') :
    j = i ∧ c' = { c with phase := phase } ∨ j ≠ i ∧ w.calls j = some c' := by
  obtain rfl | hj := eq_or_ne j i
  · simp only [World.become, Function.update_self, Option.some.injEq] at h
    exact .inl ⟨rfl, h.symm⟩
  · simp only [World.become, Function.update_of_ne hj] at h
    exact .inr ⟨hj, h⟩

/-- The call goes on in one home, with nothing new on its hands but a home it just made or a removal
of a finished one. -/
structure Moves (h : History) (w : World) (i : Nat) (c : Call) (choice : Choice) (name : String)
    (slot' : Option Home) (phase' : Phase) : Prop where
  effect : Effect w c name slot'
  phase : PhaseInv ((w, .advance i choice) :: h) (Function.update w.homes name slot') c.now phase'
  making : ∀ n, phase'.making = some n → c.phase.making = some n
  cleaning : ∀ n id, phase'.looking = some (.cleanup id, n) →
    c.phase.looking = some (.cleanup id, n)
  working : ∀ n, phase'.working = some n →
    c.phase.working = some n ∨ w.homes n = none ∧ ∃ tries, c.phase = .make tries n
  removing : ∀ n, phase'.removing = some n →
    c.phase.removing = some n ∨ ∀ j c', w.calls j = some c' → c'.phase.working ≠ some n

theorem not_working_removing {phase : Phase} {name n : String} (h : phase.working = some name) :
    phase.removing ≠ some n := by
  cases phase with
  | secure | temporary | fill => exact fun hremoving => by cases hremoving
  | _ => cases h

theorem PhaseInv.removing {h : History} {homes : String → Option Home} {now : Nat} {phase : Phase}
    {name : String} (hrelies : PhaseInv h homes now phase) (hremoving : phase.removing = some name) :
    ∃ seen, phase.looking = some (.sweep seen, name) ∧ staleHomeAge < now - seen.modified := by
  cases phase with
  | remove purpose n frames =>
    cases purpose with
    | sweep seen =>
      obtain rfl := Option.some.inj hremoving
      exact ⟨seen, rfl, hrelies.2.2.1⟩
    | cleanup id => cases hremoving
  | _ => cases hremoving

theorem Inv.moves {h : History} {w : World} {i : Nat} {c : Call} {choice : Choice} {name : String}
    {slot' : Option Home} {phase' : Phase} (hinv : Inv h w) (hi : w.calls i = some c)
    (hspares : CallSpares w c) (hmoves : Moves h w i c choice name slot' phase') :
    Inv ((w, .advance i choice) :: h) ((w.setHome name slot').become i c phase') where
  fresh := hmoves.effect.fresh hinv.fresh
  markers := hmoves.effect.markers hinv.markers
  phases := by
    intro j c' hj
    obtain ⟨rfl, rfl⟩ | ⟨hne, hj⟩ := calls_become hj
    · exact hmoves.phase
    · exact (PhaseInv.other hinv (Ne.symm hne) hi hj hmoves.effect hspares).history _
  making := by
    intro j c' hj n hmaking
    obtain ⟨rfl, rfl⟩ | ⟨-, hj⟩ := calls_become hj
    · exact hinv.making j c hi n (hmoves.making n hmaking)
    · exact hinv.making j c' hj n hmaking
  cleaning := by
    intro j c' hj n id hlooking
    obtain ⟨rfl, rfl⟩ | ⟨-, hj⟩ := calls_become hj
    · exact hinv.cleaning j c hi n id (hmoves.cleaning n id hlooking)
    · exact hinv.cleaning j c' hj n id hlooking
  apart := by
    intro a b ca cb hab ha hb n hmaking
    obtain ⟨rfl, rfl⟩ | ⟨-, hca⟩ := calls_become ha
    · obtain ⟨rfl, -⟩ | ⟨-, hcb⟩ := calls_become hb
      · exact absurd rfl hab
      · exact hinv.apart a b c cb hab hi hcb n (hmoves.making n hmaking)
    · obtain ⟨rfl, rfl⟩ | ⟨-, hcb⟩ := calls_become hb
      · obtain ⟨hmake, hclean⟩ := hinv.apart a b ca c hab hca hi n hmaking
        exact ⟨fun heq => hmake (hmoves.making n heq),
          fun id heq => hclean id (hmoves.cleaning n id heq)⟩
      · exact hinv.apart a b ca cb hab hca hcb n hmaking
  spared := by
    intro a b ca cb ha hb n hworking
    obtain ⟨rfl, rfl⟩ | ⟨-, hca⟩ := calls_become ha
    · obtain ⟨rfl, rfl⟩ | ⟨-, hcb⟩ := calls_become hb
      · exact not_working_removing hworking
      · obtain hold | ⟨hnone, tries, hmake⟩ := hmoves.working n hworking
        · exact hinv.spared a b c cb hi hcb n hold
        · intro hremoving
          obtain ⟨seen, hlooking, hstale⟩ := (hinv.phases b cb hcb).removing hremoving
          exact hspares.back tries n hmake hnone b cb seen hcb hlooking hstale
    · obtain ⟨rfl, rfl⟩ | ⟨-, hcb⟩ := calls_become hb
      · intro hremoving
        obtain hold | hfinished := hmoves.removing n hremoving
        · exact hinv.spared a b ca c hca hi n hworking hold
        · exact hfinished a ca hca hworking
      · exact hinv.spared a b ca cb hca hcb n hworking
  live := by
    intro l hl
    obtain ⟨hnumbered, hsame, hmaking⟩ := hinv.live l hl
    refine ⟨hnumbered, hmoves.effect.same (fun tries hmake _ => ?_) hsame, fun j c' hj heq => ?_⟩
    · exact hmaking i c hi (by rw [hmake]; rfl)
    · obtain ⟨rfl, rfl⟩ | ⟨-, hj⟩ := calls_become hj
      · exact hmaking j c hi (hmoves.making _ heq)
      · exact hmaking j c' hj heq
  names := hinv.names

theorem setHome_self (w : World) (name : String) : w.setHome name (w.homes name) = w := by
  rw [World.setHome, Function.update_eq_self]

/-- A phase in which the call has no home of its own and does not remove one. -/
structure Phase.Idle (phase : Phase) : Prop where
  making : phase.making = none
  looking : ∀ id name, phase.looking ≠ some (.cleanup id, name)
  removing : phase.removing = none

theorem Phase.idle_of_none {phase : Phase} (hmaking : phase.making = none)
    (hlooking : phase.looking = none) (hremoving : phase.removing = none) : phase.Idle where
  making := hmaking
  looking := fun id name heq => by cases hlooking.symm.trans heq
  removing := hremoving

theorem Phase.idle_of_sweep {phase : Phase} {seen : Seen} {name : String}
    (hmaking : phase.making = none) (hlooking : phase.looking = some (.sweep seen, name))
    (hremoving : phase.removing = none) : phase.Idle where
  making := hmaking
  looking := fun id n heq => by cases hlooking.symm.trans heq
  removing := hremoving

theorem Moves.quiet {h : History} {w : World} {i : Nat} {c : Call} {choice : Choice}
    {phase' : Phase} (name : String)
    (hphase : PhaseInv ((w, .advance i choice) :: h) w.homes c.now phase') (hidle : phase'.Idle) :
    Moves h w i c choice name (w.homes name) phase' where
  effect := .kept rfl
  phase := (Function.update_eq_self name w.homes).symm ▸ hphase
  making := by
    intro n hmaking
    rw [hidle.making] at hmaking
    cases hmaking
  cleaning := fun n id hlooking => absurd hlooking (hidle.looking id n)
  working := by
    intro n hworking
    have := working_making hworking
    rw [hidle.making] at this
    cases this
  removing := by
    intro n hremoving
    rw [hidle.removing] at hremoving
    cases hremoving

section Advance

variable {h : History} {w : World} {i : Nat} {c : Call} (choice : Choice) (hinv : Inv h w)
  (hi : w.calls i = some c) (hspares : CallSpares w c)

include hinv hi hspares

theorem Inv.quiet {phase' : Phase}
    (hphase : PhaseInv ((w, .advance i choice) :: h) w.homes c.now phase') (hidle : phase'.Idle) :
    Inv ((w, .advance i choice) :: h) (w.become i c phase') := by
  have := hinv.moves hi hspares (Moves.quiet "" hphase hidle)
  rwa [setHome_self] at this

/-- The call goes on with the home it has. -/
theorem Inv.keeps {phase' : Phase}
    (hphase : PhaseInv ((w, .advance i choice) :: h) w.homes c.now phase')
    (hmaking : phase'.making = c.phase.making) (hlooking : phase'.looking = c.phase.looking)
    (hworking : phase'.working = c.phase.working)
    (hremoving : ∀ n, phase'.removing = some n →
      c.phase.removing = some n ∨ ∀ j c', w.calls j = some c' → c'.phase.working ≠ some n) :
    Inv ((w, .advance i choice) :: h) (w.become i c phase') := by
  have hmoves : Moves h w i c choice "" (w.homes "") phase' :=
    { effect := .kept rfl
      phase := (Function.update_eq_self "" w.homes).symm ▸ hphase
      making := fun n heq => hmaking ▸ heq
      cleaning := fun n id heq => hlooking ▸ heq
      working := fun n heq => .inl (hworking ▸ heq)
      removing := hremoving }
  have := hinv.moves hi hspares hmoves
  rwa [setHome_self] at this

theorem Inv.after (purpose : Purpose) :
    Inv ((w, .advance i choice) :: h) (w.become i c purpose.after) := by
  cases purpose with
  | sweep seen => exact hinv.quiet choice hi hspares trivial (Phase.idle_of_none rfl rfl rfl)
  | cleanup id => exact hinv.quiet choice hi hspares trivial (Phase.idle_of_none rfl rfl rfl)

theorem Inv.cleanedUp (id : Nat) (errno : Errno) :
    Inv ((w, .advance i choice) :: h) (w.become i c ((Purpose.cleanup id).fail errno)) := by
  have hidle : ∀ result, (Phase.cleaned result).Idle :=
    fun result => Phase.idle_of_none rfl rfl rfl
  cases errno <;> exact hinv.quiet choice hi hspares trivial (hidle _)

theorem Inv.advance_entry (hphase : c.phase = .entry) :
    Inv ((w, .advance i choice) :: h) (w.advance i c choice) := by
  rw [World.advance, hphase]
  cases choice.entry with
  | none =>
    exact hinv.quiet choice hi hspares (by decide : 0 < maxTries) (Phase.idle_of_none rfl rfl rfl)
  | some name =>
    dsimp only
    split
    · exact hinv.quiet choice hi hspares trivial (Phase.idle_of_none rfl rfl rfl)
    · exact hinv.quiet choice hi hspares trivial (Phase.idle_of_none rfl rfl rfl)

theorem Inv.advance_metadata {name : String} (hphase : c.phase = .metadata name) :
    Inv ((w, .advance i choice) :: h) (w.advance i c choice) := by
  rw [World.advance, hphase]
  cases hhome : w.homes name with
  | none =>
    simp only [hhome]
    exact hinv.quiet choice hi hspares trivial (Phase.idle_of_none rfl rfl rfl)
  | some home =>
    simp only [hhome]
    split
    · refine hinv.quiet choice hi hspares
        ⟨⟨_, List.mem_cons_self, home, hhome, rfl, rfl⟩, fun _ home' heq => ?_, ?_⟩
        (Phase.idle_of_sweep rfl rfl rfl)
      · exact congrArg Home.id (Option.some.inj (heq.symm.trans hhome))
      · rw [hhome]
        rfl
    · exact hinv.quiet choice hi hspares trivial (Phase.idle_of_none rfl rfl rfl)

theorem Inv.advance_owned {purpose : Purpose} {name : String}
    (hphase : c.phase = .owned purpose name) :
    Inv ((w, .advance i choice) :: h) (w.advance i c choice) := by
  have hrelies := (hinv.phases i c hi).history (w, .advance i choice)
  rw [hphase] at hrelies
  rw [World.advance, hphase]
  cases purpose with
  | sweep seen =>
    obtain ⟨hlooked, hsame, hsome⟩ := hrelies
    obtain ⟨home, hhome⟩ := Option.isSome_iff_exists.mp hsome
    simp only [hhome]
    split
    · exact hinv.quiet choice hi hspares ⟨hlooked, hsame⟩ (Phase.idle_of_sweep rfl rfl rfl)
    · exact hinv.after choice hi hspares (.sweep seen)
  | cleanup id =>
    cases hhome : w.homes name with
    | none =>
      simp only [hhome]
      exact hinv.cleanedUp choice hi hspares id .notFound
    | some home =>
      simp only [hhome]
      split
      · exact hinv.keeps choice hi hspares hrelies (by rw [hphase]; rfl) (by rw [hphase]; rfl)
          (by rw [hphase]; rfl) (fun n heq => by cases heq)
      · exact hinv.after choice hi hspares (.cleanup id)

theorem Inv.advance_marker {purpose : Purpose} {name : String}
    (hphase : c.phase = .marker purpose name) :
    Inv ((w, .advance i choice) :: h) (w.advance i c choice) := by
  have hrelies := (hinv.phases i c hi).history (w, .advance i choice)
  rw [hphase] at hrelies
  rw [World.advance, hphase]
  dsimp only
  split
  · exact hinv.after choice hi hspares purpose
  · rename_i bytes hfile
    cases purpose with
    | sweep seen =>
      exact hinv.quiet choice hi hspares ⟨hrelies.1, hrelies.2, bytes, hfile⟩
        (Phase.idle_of_sweep rfl rfl rfl)
    | cleanup id =>
      exact hinv.keeps choice hi hspares hrelies (by rw [hphase]; rfl) (by rw [hphase]; rfl)
        (by rw [hphase]; rfl) (fun n heq => by cases heq)
  · rename_i content hcontent hlookup
    obtain ⟨bytes, rfl⟩ := hinv.markers name _ hlookup
    exact absurd rfl (hcontent bytes)

theorem Inv.advance_read {purpose : Purpose} {name : String}
    (hphase : c.phase = .read purpose name) :
    Inv ((w, .advance i choice) :: h) (w.advance i c choice) := by
  have hrelies := (hinv.phases i c hi).history (w, .advance i choice)
  rw [hphase] at hrelies
  rw [World.advance, hphase]
  dsimp only
  split
  · rename_i hnone
    cases purpose with
    | sweep seen =>
      obtain ⟨-, -, bytes, hbytes⟩ := hrelies
      cases hnone.symm.trans hbytes
    | cleanup id => exact hinv.cleanedUp choice hi hspares id .notFound
  · rename_i bytes hfile
    split
    · rename_i hremoves
      cases purpose with
      | sweep seen =>
        obtain ⟨hlooked, hsame, -⟩ := hrelies
        have hstale : staleHomeAge < c.now - seen.modified := of_decide_eq_true hremoves.2
        obtain ⟨home, t, hhome, htree, -⟩ := @lookup_append _ [] _ _ hfile
        refine hinv.keeps choice hi hspares
          ⟨hlooked, hsame hstale, hstale,
            ⟨_, List.mem_cons_self, home, hhome, hsame hstale home hhome, ?_⟩, ?_, rfl⟩
          (by rw [hphase]; rfl) (by rw [hphase]; rfl) (by rw [hphase]; rfl) (fun n heq => .inr ?_)
        · rw [← hhome, hfile, hremoves.1]
        · intro content hlookup
          rw [hhome] at hlookup
          simp only [lookup, Option.bind_some, htree, Option.some.injEq] at hlookup
          exact hlookup.symm
        · obtain rfl := Option.some.inj heq
          exact fun j c' hj => hspares.finished seen name hphase hstale j c' hj
      | cleanup id =>
        exact hinv.keeps choice hi hspares hrelies (by rw [hphase]; rfl) (by rw [hphase]; rfl)
          (by rw [hphase]; rfl) (fun n heq => by cases heq)
    · exact hinv.after choice hi hspares purpose
  · rename_i content hcontent hlookup
    obtain ⟨bytes, rfl⟩ := hinv.markers name _ hlookup
    exact absurd rfl (hcontent bytes)

theorem Inv.removes {purpose : Purpose} {name : String} {frames frames' : List Frame}
    {slot' : Option Home} (hphase : c.phase = .remove purpose name frames)
    (hstep : removeStep w.clock (w.homes name) frames = .ok (slot', frames')) {phase' : Phase}
    (hrelies : PhaseInv ((w, .advance i choice) :: h) (Function.update w.homes name slot') c.now
      phase') (hnext : phase' = purpose.after ∨ ∃ frames', phase' = .remove purpose name frames') :
    Inv ((w, .advance i choice) :: h) ((w.setHome name slot').become i c phase') := by
  refine hinv.moves hi hspares ⟨?_, hrelies, ?_, ?_, ?_, ?_⟩
  · obtain hsame | ⟨path, htarget, htook⟩ := removeStep_ok hstep
    · exact .kept hsame
    · refine .took purpose path (by rw [hphase]; rfl) ?_ htook
      rw [hphase]
      exact congrArg (Option.map fun path => (name, path)) htarget
  · obtain rfl | ⟨frames', rfl⟩ := hnext
    · cases purpose <;> exact fun n heq => by cases heq
    · exact fun n heq => by cases heq
  · obtain rfl | ⟨frames', rfl⟩ := hnext
    · cases purpose <;> exact fun n id heq => by cases heq
    · rw [hphase]
      exact fun n id heq => heq
  · obtain rfl | ⟨frames', rfl⟩ := hnext
    · cases purpose <;> exact fun n heq => by cases heq
    · exact fun n heq => by cases heq
  · obtain rfl | ⟨frames', rfl⟩ := hnext
    · cases purpose <;> exact fun n heq => by cases heq
    · rw [hphase]
      cases purpose with
      | sweep seen => exact fun n heq => .inl heq
      | cleanup id => exact fun n heq => by cases heq

theorem Inv.advance_remove {purpose : Purpose} {name : String} {frames : List Frame}
    (hphase : c.phase = .remove purpose name frames) :
    Inv ((w, .advance i choice) :: h) (w.advance i c choice) := by
  have hrelies := (hinv.phases i c hi).history (w, .advance i choice)
  rw [hphase] at hrelies
  rw [World.advance, hphase]
  dsimp only
  have hsame : ∀ {slot' frames' id}, removeStep w.clock (w.homes name) frames = .ok (slot', frames') →
      Same (w.homes name) id → Same (Function.update w.homes name slot' name) id := by
    intro slot' frames' id hstep hid
    rw [Function.update_self]
    obtain rfl | ⟨path, -, htook⟩ := removeStep_ok hstep
    · exact hid
    · exact htook.same_id hid
  cases purpose with
  | sweep seen =>
    obtain ⟨hlooked, hid, hstale, hcarried, hclears⟩ := hrelies
    obtain ⟨slot', frames', hstep, hclears'⟩ := hclears.step w.clock
    rw [hstep]
    cases frames' with
    | nil =>
      exact hinv.removes choice hi hspares hphase hstep trivial (.inl rfl)
    | cons frame frames' =>
      refine hinv.removes choice hi hspares hphase hstep
        ⟨hlooked, hsame hstep hid, hstale, hcarried, ?_⟩ (.inr ⟨_, rfl⟩)
      rwa [Function.update_self]
  | cleanup id =>
    cases hstep : removeStep w.clock (w.homes name) frames with
    | error errno => exact hinv.cleanedUp choice hi hspares id errno
    | ok next =>
      obtain ⟨slot', frames'⟩ := next
      cases frames' with
      | nil => exact hinv.removes choice hi hspares hphase hstep trivial (.inl rfl)
      | cons frame frames' =>
        exact hinv.removes choice hi hspares hphase hstep (hsame hstep hrelies) (.inr ⟨_, rfl⟩)

theorem Inv.advance_make {tries : Nat} {name : String} (hphase : c.phase = .make tries name) :
    Inv ((w, .advance i choice) :: h) (w.advance i c choice) := by
  have hrelies := hinv.phases i c hi
  rw [hphase] at hrelies
  rw [World.advance, hphase]
  cases hhome : w.homes name with
  | some home =>
    simp only [hhome]
    have hroom : tries + 1 < maxTries := by
      refine lt_of_le_of_ne (Nat.succ_le_of_lt hrelies) fun hlast => ?_
      rw [hspares.room tries name hphase hlast] at hhome
      cases hhome
    exact hinv.quiet choice hi hspares hroom (Phase.idle_of_none rfl rfl rfl)
  | none =>
    simp only [hhome]
    have hmaking : c.phase.making = some name := by rw [hphase]; rfl
    refine hinv.moves hi hspares ⟨.made tries hphase hhome rfl, ⟨⟨newHome w.stamp, ?_, rfl, rfl⟩,
      fun call hcall => hcall⟩, fun n heq => heq ▸ hmaking, fun n id heq => (by cases heq),
      fun n heq => ?_, fun n heq => by cases heq⟩
    · rw [Function.update_self]
    · obtain rfl := Option.some.inj heq
      exact .inr ⟨hhome, tries, hphase⟩

/-- A system call in the home that the call makes. -/
theorem Inv.works {name : String} {home : Home} {t t' : Dir}
    (hworking : c.phase.working = some name) (hhome : w.homes name = some home)
    (htree : home.tree = some t) (hkept : MarkerKept t t') {phase' : Phase}
    (hrelies : Holds (some (home.put t t' w.clock)) home.id t' →
      PhaseInv ((w, .advance i choice) :: h)
        (Function.update w.homes name (some (home.put t t' w.clock))) c.now phase')
    (hnext : phase'.working = some name) :
    Inv ((w, .advance i choice) :: h)
      ((w.setHome name (some (home.put t t' w.clock))).become i c phase') := by
  have hmaking := working_making hworking
  have hmaking' := working_making hnext
  have hlooking : ∀ n id, phase'.looking ≠ some (.cleanup id, n) := by
    cases phase' with
    | owned | marker | read | remove => cases hnext
    | _ => exact fun n id heq => by cases heq
  refine hinv.moves hi hspares ⟨.worked home t t' hworking hhome htree rfl hkept,
    hrelies ⟨_, rfl, rfl, rfl⟩, fun n heq => ?_, fun n id heq => absurd heq (hlooking n id),
    fun n heq => ?_, fun n heq => ?_⟩
  · obtain rfl := Option.some.inj (hmaking'.symm.trans heq)
    exact hmaking
  · obtain rfl := Option.some.inj (hnext.symm.trans heq)
    exact .inl hworking
  · exact absurd heq (not_working_removing hnext)

theorem Inv.advance_secure {unwinds : Bool} {name : String} {id : Nat} {rest : List Syscall}
    (hphase : c.phase = .secure unwinds name id rest) :
    Inv ((w, .advance i choice) :: h) (w.advance i c choice) := by
  have hrelies := hinv.phases i c hi
  rw [hphase] at hrelies
  obtain ⟨hholds, hrest⟩ := hrelies
  rw [World.advance, hphase]
  cases rest with
  | nil =>
    cases unwinds with
    | true =>
      exact hinv.keeps choice hi hspares hholds (by rw [hphase]; rfl) (by rw [hphase]; rfl)
        (by rw [hphase]; rfl) (fun n heq => by cases heq)
    | false =>
      exact hinv.keeps choice hi hspares ⟨hholds, fun call hcall => hcall⟩ (by rw [hphase]; rfl)
        (by rw [hphase]; rfl) (by rw [hphase]; rfl) (fun n heq => by cases heq)
  | cons call rest =>
    obtain ⟨home, hhome, rfl, htree⟩ := hholds
    have hcall := onTree_secureDirectory (hrest call List.mem_cons_self) .empty
    have hrun := run_of w.stamp htree hcall
    simp only [hhome, hrun]
    refine hinv.works choice hi hspares (by rw [hphase]; rfl) hhome htree
      (.of_none rfl rfl)
      (fun hholds => ⟨?_, fun call hcall => hrest call (List.mem_cons_of_mem _ hcall)⟩) rfl
    rwa [Function.update_self]

theorem Inv.advance_temporary {name : String} {id tries : Nat}
    (hphase : c.phase = .temporary name id tries) :
    Inv ((w, .advance i choice) :: h) (w.advance i c choice) := by
  have hrelies := hinv.phases i c hi
  rw [hphase] at hrelies
  obtain ⟨home, hhome, rfl, htree⟩ := hrelies
  have hne := StateFs.temporaryName_ne ownerMarker c.pid choice.number
  obtain ⟨t', hcreate, hfind⟩ := PathTree.create_of (t := (.empty : Dir))
    (p := [StateFs.temporaryName ownerMarker c.pid choice.number]) (.file ownerMarkerContent)
    ⟨List.cons_ne_nil _ _, .inl rfl⟩ rfl
  have hmarker : t'.find [ownerMarker] = none := by
    rw [hfind, Function.update_of_ne (by simpa using Ne.symm hne)]
    rfl
  have hcall : (Syscall.create [StateFs.temporaryName ownerMarker c.pid choice.number]
      (.file ownerMarkerContent)).onTree .empty = .ok t' := hcreate
  have hrun := run_of w.stamp htree hcall
  rw [World.advance, hphase]
  simp only [hhome, hrun]
  refine hinv.works choice hi hspares (by rw [hphase]; rfl) hhome htree
    (.of_none rfl hmarker) (fun hholds => ⟨t', ?_, fills_fill c.auth rfl hne hfind⟩) rfl
  rwa [Function.update_self]

theorem Inv.advance_fill {name : String} {id : Nat} {rest : List Syscall}
    (hphase : c.phase = .fill name id rest) :
    Inv ((w, .advance i choice) :: h) (w.advance i c choice) := by
  have hrelies := hinv.phases i c hi
  have hmaking : c.phase.making = some name := by rw [hphase]; rfl
  rw [hphase] at hrelies
  obtain ⟨t, ⟨home, hhome, rfl, htree⟩, hfills⟩ := hrelies
  rw [World.advance, hphase]
  cases rest with
  | nil =>
    have hdone : Inv ((w, .advance i choice) :: h) (w.become i c (.done (.ok ()))) :=
      hinv.quiet choice hi hspares trivial (Phase.idle_of_none rfl rfl rfl)
    refine { hdone with live := fun l hl => ?_, names := ?_ }
    · obtain rfl | hl := List.mem_cons.mp hl
      · refine ⟨hinv.making i c hi name hmaking, fun home' hhome' => ?_, fun j c' hj heq => ?_⟩
        · exact congrArg Home.id (Option.some.inj (hhome'.symm.trans hhome))
        · obtain ⟨rfl, rfl⟩ | ⟨hne, hj⟩ := calls_become hj
          · cases heq
          · exact (hinv.apart i j c c' (Ne.symm hne) hi hj name hmaking).1 heq
      · exact hdone.live l hl
    · refine List.nodup_cons.mpr ⟨fun hmem => ?_, hinv.names⟩
      obtain ⟨l, hl, hname⟩ := List.mem_map.mp hmem
      exact (hinv.live l hl).2.2 i c hi (hname ▸ hmaking)
  | cons call rest =>
    obtain ⟨t', hcall, hkept, hrest⟩ := hfills
    have hrun := run_of w.stamp htree hcall
    simp only [hhome, hrun]
    refine hinv.works choice hi hspares (by rw [hphase]; rfl) hhome htree hkept
      (fun hholds => ⟨t', ?_, hrest⟩) rfl
    rwa [Function.update_self]

theorem Inv.advance_allocate {tries : Nat} (hphase : c.phase = .allocate tries) :
    Inv ((w, .advance i choice) :: h) (w.advance i c choice) := by
  have htries := hinv.phases i c hi
  rw [hphase] at htries
  rw [World.advance, hphase]
  dsimp only
  split
  · exact { hinv with phases := fun j c' hj => (hinv.phases j c' hj).history _ }
  · rename_i sequence hsequence
    rw [if_neg (Nat.ne_of_lt htries), Nat.mod_eq_of_lt (hspares.sequence tries sequence hphase hsequence)]
    have hmono : ∀ {pid name}, Numbered w pid name → Numbered
        ({ w with running := Function.update w.running c.pid (some (sequence + 1)) }.become i c
          (.make tries (homeName c.pid sequence))) pid name := by
      intro pid name hnumbered
      refine hnumbered.mono fun before hbefore => ?_
      obtain rfl | hpid := eq_or_ne pid c.pid
      · obtain rfl := Option.some.inj (hsequence.symm.trans hbefore)
        exact ⟨sequence + 1, Nat.le_succ _, Function.update_self ..⟩
      · exact ⟨before, le_refl _, (Function.update_of_ne hpid ..).trans hbefore⟩
    exact
      { fresh := fun name home hhome => (hinv.fresh name home hhome).trans (Nat.lt_succ_self _)
        markers := hinv.markers
        phases := by
          intro j c' hj
          obtain ⟨rfl, rfl⟩ | ⟨-, hj⟩ := calls_become hj
          · exact htries
          · exact (hinv.phases j c' hj).history _
        making := by
          intro j c' hj n hmaking
          obtain ⟨rfl, rfl⟩ | ⟨-, hj⟩ := calls_become hj
          · obtain rfl := Option.some.inj hmaking
            exact ⟨sequence + 1, Function.update_self .., sequence, Nat.lt_succ_self _, rfl⟩
          · exact hmono (hinv.making j c' hj n hmaking)
        cleaning := by
          intro j c' hj n id hlooking
          obtain ⟨rfl, rfl⟩ | ⟨-, hj⟩ := calls_become hj
          · cases hlooking
          · exact hmono (hinv.cleaning j c' hj n id hlooking)
        apart := by
          intro a b ca cb hab ha hb n hmaking
          obtain ⟨rfl, rfl⟩ | ⟨-, hca⟩ := calls_become ha
          · obtain rfl := Option.some.inj hmaking
            obtain ⟨rfl, -⟩ | ⟨-, hcb⟩ := calls_become hb
            · exact absurd rfl hab
            · exact ⟨fun heq => (hinv.making b cb hcb _ heq).ne_next hsequence rfl,
                fun id heq => (hinv.cleaning b cb hcb _ id heq).ne_next hsequence rfl⟩
          · obtain ⟨rfl, rfl⟩ | ⟨-, hcb⟩ := calls_become hb
            · refine ⟨fun heq => ?_, fun id heq => by cases heq⟩
              exact (hinv.making a ca hca n hmaking).ne_next hsequence (Option.some.inj heq).symm
            · exact hinv.apart a b ca cb hab hca hcb n hmaking
        spared := by
          intro a b ca cb ha hb n hworking
          obtain ⟨rfl, rfl⟩ | ⟨-, hca⟩ := calls_become ha
          · cases hworking
          · obtain ⟨rfl, rfl⟩ | ⟨-, hcb⟩ := calls_become hb
            · exact fun heq => by cases heq
            · exact hinv.spared a b ca cb hca hcb n hworking
        live := by
          intro l hl
          obtain ⟨hnumbered, hsame, hmaking⟩ := hinv.live l hl
          refine ⟨hmono hnumbered, hsame, fun j c' hj heq => ?_⟩
          obtain ⟨rfl, rfl⟩ | ⟨-, hj⟩ := calls_become hj
          · exact hnumbered.ne_next hsequence (Option.some.inj heq).symm
          · exact hmaking j c' hj heq
        names := hinv.names }

theorem Inv.advance : Inv ((w, .advance i choice) :: h) (w.advance i c choice) := by
  have hrelies := hinv.phases i c hi
  cases hphase : c.phase with
  | entry => exact hinv.advance_entry choice hi hspares hphase
  | metadata name => exact hinv.advance_metadata choice hi hspares hphase
  | owned purpose name => exact hinv.advance_owned choice hi hspares hphase
  | marker purpose name => exact hinv.advance_marker choice hi hspares hphase
  | read purpose name => exact hinv.advance_read choice hi hspares hphase
  | remove purpose name frames => exact hinv.advance_remove choice hi hspares hphase
  | allocate tries => exact hinv.advance_allocate choice hi hspares hphase
  | make tries name => exact hinv.advance_make choice hi hspares hphase
  | secure unwinds name id rest => exact hinv.advance_secure choice hi hspares hphase
  | temporary name id tries => exact hinv.advance_temporary choice hi hspares hphase
  | fill name id rest => exact hinv.advance_fill choice hi hspares hphase
  | unwind errno name id frames =>
    rw [hphase] at hrelies
    exact hrelies.elim
  | done result =>
    rw [hphase] at hrelies
    rw [World.advance, hphase]
    cases result with
    | error errno => exact hrelies.elim
    | ok value =>
      exact hinv.quiet choice hi hspares trivial (Phase.idle_of_none rfl rfl rfl)
  | cleaned result =>
    rw [World.advance, hphase]
    exact hinv.quiet choice hi hspares trivial (Phase.idle_of_none rfl rfl rfl)

end Advance

end A3sBench.CodexHomes
