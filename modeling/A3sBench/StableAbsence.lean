import A3sBench.Result

/-!
# Waiting for resources to stay away

A mutation that Docker has not finished may bring a removed resource back, so a
cleanup with a pending mutation polls until everything has been absent for a
while. Instants are nanoseconds of the monotonic clock.
-/

namespace A3sBench.CodexCleanup

structure StableZeroWindow where
  required : Nat
  since : Option Nat

namespace StableZeroWindow

def new (required : Nat) : StableZeroWindow := { required := required, since := none }

/-- `StableZeroWindow::observe`; `duration_since` saturates. -/
def observe (window : StableZeroWindow) (now : Nat) (allAbsent : Bool) : StableZeroWindow × Bool :=
  if !allAbsent then ({ window with since := none }, false)
  else
    let since := window.since.getD now
    ({ window with since := some since }, window.required ≤ now - since)

/-- The window after a sequence of observations, the oldest first. -/
def after (required : Nat) (observations : List (Nat × Bool)) : StableZeroWindow :=
  observations.foldl (fun window o => (window.observe o.1 o.2).1) (new required)

end StableZeroWindow

/-- `PENDING_MUTATION_STABLE_ZERO` -/
def pendingMutationStableZero : Nat := 5 * 10 ^ 9

/-- `CONTAINER_CLEANUP_RETRY_TIMEOUT` -/
def containerCleanupRetryTimeout : Nat := 600 * 10 ^ 9

/-- `retry_cleanup` on what the attempts return, each with the clock after it. Nothing while the
attempts go on. -/
def retryCleanup (deadline : Nat) : List (Result Unit × Nat) → Option (Result Unit)
  | [] => none
  | (.ok (), _) :: _ => some (.ok ())
  | (.error error, now) :: rest =>
    if deadline ≤ now then some (.error error) else retryCleanup deadline rest

/-- What one round of the polling loop meets: the three calls on the resources, and the clock when
it observes and when it compares with the deadline. -/
structure Round where
  absentBefore : Result Bool
  removal : Result Unit
  absentAfter : Result Bool
  observedAt : Nat
  checkedAt : Nat

/-- The observation of a round: the window after it, whether that is stable, and the error of the
round. -/
def Round.observe (round : Round) (stable : StableZeroWindow) :
    StableZeroWindow × Bool × Option String :=
  match round.removal with
  | .ok () =>
    match round.absentAfter with
    | .ok absentAfter =>
      let (stable, done) :=
        stable.observe round.observedAt (round.absentBefore.toOption.getD false && absentAfter)
      (stable, done, none)
    | .error error => ((stable.observe round.observedAt false).1, false, some error)
  | .error error => ((stable.observe round.observedAt false).1, false, some error)

/-- The loop of `remove_resources`. -/
def pollAbsence (deadline : Nat) (stable : StableZeroWindow) : List Round → Option (Result Unit)
  | [] => none
  | round :: rest =>
    let (stable, done, iterationError) := round.observe stable
    if done then some (.ok ())
    else if deadline ≤ round.checkedAt then
      some (.error (iterationError.getD
        "Codex Docker resources did not remain absent for five seconds"))
    else pollAbsence deadline stable rest

/-- `remove_resources`. Without a pending mutation only the removals and the clock are looked at. -/
def removeResources (hasPendingMutation : Bool) (start : Nat) (rounds : List Round) :
    Option (Result Unit) :=
  let deadline := start + containerCleanupRetryTimeout
  if !hasPendingMutation then
    retryCleanup deadline (rounds.map (fun round => (round.removal, round.checkedAt)))
  else pollAbsence deadline (.new pendingMutationStableZero) rounds

/-! ## The detector -/

/-- The last observations are all of absence, and the first of them is old enough. -/
def StableFor (required : Nat) (observations : List (Nat × Bool)) : Prop :=
  ∃ earlier first rest last, observations = earlier ++ first :: rest ∧
    (∀ o ∈ first :: rest, o.2 = true) ∧ (first :: rest).getLast? = some last ∧
    required ≤ last.1 - first.1

/-- `since` is the first of the longest run of absences at the end. -/
def Tracks (observations : List (Nat × Bool)) : Option Nat → Prop
  | none => ∀ o ∈ observations.getLast?, o.2 = false
  | some since => ∃ earlier rest, observations = earlier ++ (since, true) :: rest ∧
      (∀ o ∈ rest, o.2 = true) ∧ ∀ o ∈ earlier.getLast?, o.2 = false

theorem required_after (required : Nat) (observations : List (Nat × Bool)) :
    (StableZeroWindow.after required observations).required = required := by
  induction observations using List.reverseRecOn with
  | nil => rfl
  | append_singleton observations o ih =>
    rw [StableZeroWindow.after, List.foldl_append]
    simp only [List.foldl_cons, List.foldl_nil, StableZeroWindow.observe]
    split_ifs <;> exact ih

theorem after_concat (required : Nat) (observations : List (Nat × Bool)) (o : Nat × Bool) :
    StableZeroWindow.after required (observations ++ [o]) =
      ((StableZeroWindow.after required observations).observe o.1 o.2).1 :=
  List.foldl_append

theorem tracks_after (required : Nat) (observations : List (Nat × Bool)) :
    Tracks observations (StableZeroWindow.after required observations).since := by
  induction observations using List.reverseRecOn with
  | nil => exact fun o ho => by cases ho
  | append_singleton observations o ih =>
    obtain ⟨now, absent⟩ := o
    rw [after_concat]
    unfold StableZeroWindow.observe
    cases absent with
    | false => simp [Tracks]
    | true =>
      cases hsince : (StableZeroWindow.after required observations).since with
      | none =>
        rw [hsince] at ih
        exact ⟨observations, [], rfl, fun o ho => absurd ho List.not_mem_nil, ih⟩
      | some since =>
        rw [hsince] at ih
        obtain ⟨earlier, rest, hobs, hrest, hearlier⟩ := ih
        refine ⟨earlier, rest ++ [(now, true)], ?_, ?_, hearlier⟩
        · rw [hobs, List.append_assoc]
          rfl
        · exact List.forall_mem_append.mpr ⟨hrest, List.forall_mem_singleton.mpr rfl⟩

theorem observe_iff (required : Nat) (before : List (Nat × Bool)) (now : Nat) (absent : Bool) :
    ((StableZeroWindow.after required before).observe now absent).2 = true ↔
      ∃ since, (StableZeroWindow.after required (before ++ [(now, absent)])).since = some since ∧
        required ≤ now - since := by
  rw [after_concat]
  unfold StableZeroWindow.observe
  cases absent with
  | false => simp
  | true => simp [required_after]

theorem stableFor_of_observe {required : Nat} {before : List (Nat × Bool)} {now : Nat} {absent : Bool}
    (h : ((StableZeroWindow.after required before).observe now absent).2 = true) :
    StableFor required (before ++ [(now, absent)]) := by
  obtain ⟨since, hsince, hrequired⟩ := (observe_iff ..).mp h
  have htracks := tracks_after required (before ++ [(now, absent)])
  rw [hsince] at htracks
  obtain ⟨earlier, rest, hobs, hrest, -⟩ := htracks
  refine ⟨earlier, (since, true), rest, (now, absent), hobs, ?_, ?_, hrequired⟩
  · exact List.forall_mem_cons.mpr ⟨rfl, hrest⟩
  · have hlast := List.getLast?_concat (l := before) (a := (now, absent))
    rw [hobs, List.getLast?_append_cons] at hlast
    exact hlast

/-- Of all runs of absences at the end, the tracked one is the longest. -/
theorem since_le {observations : List (Nat × Bool)} {since : Nat}
    (htimes : observations.Pairwise (fun a b => a.1 ≤ b.1)) (h : Tracks observations (some since))
    {earlier rest : List (Nat × Bool)} {first : Nat × Bool}
    (hobs : observations = earlier ++ first :: rest) (habsent : ∀ o ∈ first :: rest, o.2 = true) :
    since ≤ first.1 := by
  obtain ⟨front, back, hfront, -, hlast⟩ := h
  rw [hfront] at hobs htimes
  obtain ⟨between, rfl, hback⟩ | ⟨between, rfl, hrest⟩ := List.append_eq_append_iff.mp hobs
  · cases between with
    | nil => exact (congrArg Prod.fst (List.cons.inj hback).1).le
    | cons o between =>
      obtain ⟨rfl, hback⟩ := List.cons.inj hback
      rw [hback] at htimes
      have hpairs := (List.pairwise_append.mp htimes).2.1
      exact List.rel_of_pairwise_cons hpairs (List.mem_append_right _ List.mem_cons_self)
  · obtain rfl | ⟨between, o, rfl⟩ := List.eq_nil_or_concat between
    · exact (congrArg Prod.fst (List.cons.inj hrest).1).ge
    · rw [List.concat_eq_append] at hrest hlast
      have hpresent := hlast o (by rw [← List.append_assoc, List.getLast?_concat]; rfl)
      have hmem : o ∈ first :: rest := by
        rw [hrest]
        exact List.mem_append_left _ (List.mem_append_right _ (List.mem_singleton_self o))
      rw [habsent o hmem] at hpresent
      cases hpresent

theorem observe_of_stableFor {required : Nat} {before : List (Nat × Bool)} {now : Nat} {absent : Bool}
    (htimes : (before ++ [(now, absent)]).Pairwise (fun a b => a.1 ≤ b.1))
    (h : StableFor required (before ++ [(now, absent)])) :
    ((StableZeroWindow.after required before).observe now absent).2 = true := by
  obtain ⟨earlier, first, rest, last, hobs, habsent, hlast, hrequired⟩ := h
  have hlast' := List.getLast?_concat (l := before) (a := (now, absent))
  rw [hobs, List.getLast?_append_cons, hlast] at hlast'
  obtain rfl := Option.some.inj hlast'
  have htracks := tracks_after required (before ++ [(now, absent)])
  refine (observe_iff ..).mpr ?_
  cases hsince : (StableZeroWindow.after required (before ++ [(now, absent)])).since with
  | none =>
    rw [hsince] at htracks
    have hpresent : (now, absent).2 = false := htracks _ (by rw [List.getLast?_concat]; rfl)
    rw [habsent _ (List.mem_of_getLast? hlast)] at hpresent
    cases hpresent
  | some since =>
    rw [hsince] at htracks
    have hle := since_le htimes htracks hobs habsent
    exact ⟨since, rfl, by omega⟩

/-! ## The polling loop -/

/-- Everything was absent before and after the removals of a round. -/
def Round.Absent (round : Round) : Prop :=
  round.absentBefore = .ok true ∧ round.removal = .ok () ∧ round.absentAfter = .ok true

/-- What the window is told in a round. -/
def Round.observation (round : Round) : Nat × Bool :=
  (round.observedAt, match round.removal, round.absentAfter with
    | .ok (), .ok absentAfter => round.absentBefore.toOption.getD false && absentAfter
    | _, _ => false)

theorem observation_eq_true_iff {round : Round} : round.observation.2 = true ↔ round.Absent := by
  unfold Round.observation Round.Absent
  dsimp only
  cases round.removal with
  | error e => simp
  | ok u =>
    cases round.absentAfter with
    | error e => simp
    | ok after => cases round.absentBefore <;> simp [Except.toOption]

theorem Round.observe_eq (round : Round) (stable : StableZeroWindow) :
    (round.observe stable).1 = (stable.observe round.observation.1 round.observation.2).1 ∧
      (round.observe stable).2.1 = (stable.observe round.observation.1 round.observation.2).2 := by
  unfold Round.observe Round.observation
  cases round.removal with
  | error e => exact ⟨rfl, by simp [StableZeroWindow.observe]⟩
  | ok u =>
    cases round.absentAfter with
    | error e => exact ⟨rfl, by simp [StableZeroWindow.observe]⟩
    | ok after => exact ⟨rfl, rfl⟩

theorem stableFor_of_pollAbsence {deadline required : Nat} {before rounds : List Round}
    (h : pollAbsence deadline (.after required (before.map Round.observation)) rounds = some (.ok ())) :
    ∃ polled rest, rounds = polled ++ rest ∧
      StableFor required ((before ++ polled).map Round.observation) := by
  induction rounds generalizing before with
  | nil => cases h
  | cons round rounds ih =>
    obtain ⟨hwindow, hdone⟩ := round.observe_eq (.after required (before.map Round.observation))
    have hmap : (before ++ [round]).map Round.observation =
        before.map Round.observation ++ [round.observation] := List.map_append
    unfold pollAbsence at h
    dsimp only at h
    rw [hdone, hwindow, ← after_concat, ← hmap] at h
    split_ifs at h with hstable hdeadline
    · exact ⟨[round], rounds, rfl, hmap ▸ stableFor_of_observe hstable⟩
    · cases Option.some.inj h
    · obtain ⟨polled, rest, hrounds, hfor⟩ := ih h
      refine ⟨round :: polled, rest, by rw [hrounds]; rfl, ?_⟩
      rwa [List.append_assoc, List.singleton_append] at hfor

/-- A stretch of rounds that all saw nothing, from the first to the last of which the time passed. -/
def AbsentFor (required : Nat) (rounds : List Round) : Prop :=
  ∃ earlier window rest first last, rounds = earlier ++ window ++ rest ∧
    window.head? = some first ∧ window.getLast? = some last ∧ (∀ round ∈ window, round.Absent) ∧
    required ≤ last.observedAt - first.observedAt

theorem absentFor_of_stableFor {required : Nat} {polled rest : List Round}
    (h : StableFor required (polled.map Round.observation)) : AbsentFor required (polled ++ rest) := by
  obtain ⟨earlier, first, back, last, hobs, habsent, hlast, hrequired⟩ := h
  obtain ⟨front, window, rfl, rfl, hwindow⟩ := List.map_eq_append_iff.mp hobs
  obtain ⟨round, window, rfl, rfl, rfl⟩ := List.map_eq_cons_iff.mp hwindow
  rw [← List.map_cons, List.getLast?_map] at hlast
  obtain ⟨final, hfinal, rfl⟩ := Option.map_eq_some_iff.mp hlast
  refine ⟨front, round :: window, rest, round, final, rfl, rfl, hfinal, fun r hr => ?_, hrequired⟩
  rw [← List.map_cons] at habsent
  exact observation_eq_true_iff.mp (habsent _ (List.mem_map_of_mem hr))

/-- The window is stable exactly when the observations have been of absence for long enough, and
with a pending mutation the cleanup succeeds only after such a stretch. -/
theorem stable_absence_exact :
    (∀ required before now absent, (before ++ [(now, absent)]).Pairwise (fun a b => a.1 ≤ b.1) →
      (((StableZeroWindow.after required before).observe now absent).2 = true ↔
        StableFor required (before ++ [(now, absent)]))) ∧
    ∀ start rounds, removeResources true start rounds = some (.ok ()) →
      AbsentFor pendingMutationStableZero rounds := by
  refine ⟨fun required before now absent htimes =>
    ⟨stableFor_of_observe, observe_of_stableFor htimes⟩, fun start rounds h => ?_⟩
  have hpoll : pollAbsence (start + containerCleanupRetryTimeout)
      (.after pendingMutationStableZero (([] : List Round).map Round.observation)) rounds =
      some (.ok ()) := h
  obtain ⟨polled, rest, rfl, hstable⟩ := stableFor_of_pollAbsence hpoll
  exact absentFor_of_stableFor hstable

/-- Six seconds of rounds, with a relapse in the first. -/
private def calmRounds : List Round :=
  [{ absentBefore := .ok true, removal := .ok (), absentAfter := .ok false, observedAt := 0,
      checkedAt := 0 },
    { absentBefore := .ok true, removal := .ok (), absentAfter := .ok true, observedAt := 10 ^ 9,
      checkedAt := 10 ^ 9 },
    { absentBefore := .ok true, removal := .ok (), absentAfter := .ok true, observedAt := 6 * 10 ^ 9,
      checkedAt := 6 * 10 ^ 9 }]

theorem stable_absence_exact_sample :
    ((StableZeroWindow.after 5 [(0, false), (1, true)]).observe 6 true).2 = true ∧
      StableFor 5 ([(0, false), (1, true)] ++ [(6, true)]) ∧
      AbsentFor pendingMutationStableZero calmRounds := by
  have hwindow := stable_absence_exact.1 5 [(0, false), (1, true)] 6 true (by simp)
  exact ⟨by decide, hwindow.mp (by decide), stable_absence_exact.2 0 calmRounds (by rfl)⟩

end A3sBench.CodexCleanup
