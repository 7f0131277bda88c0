import A3sBench.GameRuns

/-!
# What the harness reads when a run is over

`GameSession::finish` calls `/close-all` and then `/history`. A session that
another handler has taken from the registry and not yet appended is in neither.
-/

namespace A3sBench.GameServer

open Library (System)
open Library.System (Run Guarded)
open GameJudge

variable {c : Config} {s s' : State} {r : Nat}

/-- The history that answers a `/close-all` has every session played before it,
with its last score, and the harness reads no lower score. -/
def SeesEveryGame (c : Config) (s : State) : Prop :=
  ∀ r entries, s.request r = .answered entries → ∀ object ∈ s.received r,
    ∃ entry ∈ entries, entry.object = object ∧
      (s.object object).steps.getLast?.map GameStep.score = some entry.score ∧
      ∃ score top, parseGameHistory (historyResponse c entries) = .ok score ∧
        score.raw = .finite ((top : ℤ) : ℚ) ∧ entry.score.val ≤ top

/-- `/history` is read while no handler holds a session that was played before
the `/close-all`. -/
def Settled (s : State) (event : Event) : Prop :=
  s.request event.request = .closed → ∀ q, ∀ object ∈ s.received event.request,
    object ∉ (s.request q).held

/-- Each session played before a `/close-all` is in the history that answers it. -/
def Answered (s : State) : Prop :=
  ∀ r entries, s.request r = .answered entries → ∀ object ∈ s.received r,
    object ∈ entries.map Entry.object

theorem MaxScore.le {entries : List Entry} {top : ℤ} (h : MaxScore entries top) {entry : Entry}
    (hentry : entry ∈ entries) : entry.score.val ≤ top := by
  rcases h with ⟨rfl, -⟩ | ⟨-, h⟩
  · cases hentry
  · exact h entry hentry

/-- After its `/close-all`, a session is in the history or in the hands of a handler. -/
theorem Consistent.mem_history_iff (hs : Consistent c s) (hphase : s.request r = .closed)
    {object : Nat} (hobject : object ∈ s.received r) :
    object ∈ s.history.map Entry.object ↔ ∀ q, object ∉ (s.request q).held := by
  constructor
  · intro hhistory q hheld
    exact Place.noConfusion
      (hs.custody.exclusive.place_eq (p := .archive) (q := .handler q) hhistory hheld)
  · intro hnone
    have hcreated := (hs.receipts.known r object hobject).1
    obtain ⟨place, hplace⟩ := (hs.custody.created object).mpr hcreated
    cases place with
    | registry => exact absurd hplace (hs.receipts.swept r (by rw [hphase]; rfl) object hobject)
    | handler q => exact absurd hplace (hnone q)
    | archive => exact hplace

theorem Consistent.seesEveryGame_iff (hs : Consistent c s) : SeesEveryGame c s ↔ Answered s := by
  constructor
  · intro h r entries hr object hobject
    obtain ⟨entry, hentry, rfl, -⟩ := h r entries hr object hobject
    exact List.mem_map_of_mem hentry
  · intro h r entries hr object hobject
    obtain ⟨entry, hentry, rfl⟩ := List.mem_map.mp (h r entries hr object hobject)
    have hsubset := hs.receipts.answered r entries hr
    have hscore := hs.score_eq (.inl (hsubset hentry))
    obtain ⟨hcreated, hsteps⟩ := hs.receipts.known r entry.object hobject
    obtain ⟨score, top, hparse, hraw, htop⟩ := parseGameHistory_historyResponse (c := c)
      (fun e he => hs.finalScore_eq (hsubset he))
    refine ⟨entry, hentry, rfl, ?_, score, top, hparse, hraw, htop.le hentry⟩
    have hlast := List.getLast?_eq_some_getLast hsteps
    rw [hscore, ← hs.objects.scored entry.object hcreated _ hlast, hlast]
    rfl

theorem apply_of_closed {event : Event} (h : apply c s event = some s')
    (hphase : s.request event.request = .closed) :
    s' = s.goto event.request (.answered s.history) := by
  cases event with
  | receive r call => simp [apply, show s.request r = .closed from hphase] at h
  | block r answer =>
    simp only [apply, block, show s.request r = .closed from hphase, Option.some.injEq] at h
    exact h.symm

/-- Only a read of the history answers, and it answers with every session
exactly when none is in the hands of a handler. -/
theorem answered_apply {event : Event} (hs : Consistent c s) (h : Answered s)
    (hstep : apply c s event = some s') : Answered s' ↔ Settled s event := by
  have hmoves : Step c s event.request s' := .of_apply hstep
  have hother : ∀ q, q ≠ event.request → ∀ entries, s'.request q = .answered entries →
      ∀ object ∈ s'.received q, object ∈ entries.map Entry.object := by
    intro q hq entries hentries object hobject
    rw [hmoves.request_of_ne hq] at hentries
    rw [hmoves.received_of_ne hq] at hobject
    exact h q entries hentries object hobject
  by_cases hphase : s.request event.request = .closed
  · obtain rfl := apply_of_closed hstep hphase
    constructor
    · intro hanswered _ q object hobject
      have hmem := hanswered event.request s.history (by simp) object hobject
      exact (hs.mem_history_iff hphase hobject).mp hmem q
    · intro hsettled q entries hentries object hobject
      by_cases hq : q = event.request
      · subst hq
        obtain rfl : s.history = entries := by simpa using hentries
        exact (hs.mem_history_iff hphase hobject).mpr
          (fun q => hsettled hphase q object hobject)
      · exact hother q hq entries hentries object hobject
  · refine ⟨fun _ hclosed => absurd hclosed hphase, fun _ q entries hentries object hobject => ?_⟩
    by_cases hq : q = event.request
    · subst hq
      exact absurd (hmoves.of_answered hentries).1 hphase
    · exact hother q hq entries hentries object hobject

/-- In a run that reads no history too early, every answer has every game; the
first read that is too early misses one. -/
theorem sees_every_game {h : List (State × Event)} {s : State} (hrun : Run (serverSystem c) h s)
    (hsettled : Guarded Settled h) :
    SeesEveryGame c s ∧ ∀ event s', apply c s event = some s' →
      (SeesEveryGame c s' ↔ Settled s event) := by
  have hs : Consistent c s := .of_run hrun
  have hanswered : Consistent c s ∧ Answered s := by
    refine hrun.guarded_invariant (I := fun s => Consistent c s ∧ Answered s) ?_ ?_ hsettled
    · rintro _ rfl
      exact ⟨.start c, fun r entries hentries => Phase.noConfusion hentries⟩
    · rintro s event s' ⟨hs, hanswered⟩ hG hstep
      exact ⟨hs.step (.of_apply hstep), (answered_apply hs hanswered hstep).mpr hG⟩
  refine ⟨hs.seesEveryGame_iff.mpr hanswered.2, fun event s' hstep => ?_⟩
  rw [(hs.step (.of_apply hstep)).seesEveryGame_iff, answered_apply hs hanswered.2 hstep]

theorem finish_run {h : List (State × Event)} (hrun : Run (serverSystem c) h s)
    (hidle : s.request r = .idle) (hsessions : s.sessions = []) :
    ∃ h' s', Run (serverSystem c) h' s' ∧ s'.request r = .answered s.history ∧
      s'.received r = (List.range s.nextObject).filter (fun o => (s.object o).steps ≠ []) ∧
      s'.object = s.object ∧
      (Guarded Settled h → (∀ q, (s.request q).held = []) → Guarded Settled h') := by
  let called := receive s r (.finish (some "127.0.0.1"))
  have hcalled : Run (serverSystem c) _ called :=
    Run.event hrun (.receive r (.finish (some "127.0.0.1"))) (by simp [apply, hidle, called])
  have hclosingAll : called.request r = .closingAll := Function.update_self ..
  have hclosed : Run (serverSystem c) _ (closeAll called r) :=
    Run.event hcalled (.block r .nothing) (by simp [apply, block, hclosingAll])
  have hsweep : (closeAll called r).request r = .closed := by
    simp [closeAll, called, receive, requireInternalRequest, State.goto, hsessions, sweep]
  have hanswered : Run (serverSystem c) _
      ((closeAll called r).goto r (.answered (closeAll called r).history)) :=
    Run.event hclosed (.block r .nothing) (by simp [apply, block, hsweep])
  refine ⟨_, _, hanswered, State.request_goto_self .., ?_, rfl, fun hsettled hheld => ?_⟩
  · simp [closeAll, called, receive, requireInternalRequest, State.goto]
  · simp only [System.guarded_cons]
    refine ⟨fun _ q object _ => ?_, fun h => ?_, fun h => ?_, hsettled⟩
    · by_cases hq : q = r
      · subst hq
        simp [hsweep, Phase.held]
      · have hsame : (closeAll called r).request q = s.request q := by
          simp [closeAll, called, receive, requireInternalRequest, State.goto, hq]
        simp [hsame, hheld]
    · exact Phase.noConfusion (hclosingAll.symm.trans h)
    · exact Phase.noConfusion (hidle.symm.trans h)

theorem sees_every_game_sample : ∃ h s, Run (serverSystem twoGames) h s ∧
    Guarded Settled h ∧ s.received 3 = [0] ∧ SeesEveryGame twoGames s := by
  obtain ⟨h, s, hrun, hevents, hsessions, -, hnext, hsteps, hheld⟩ := appended_run
  have hidle : s.request 3 = .idle :=
    Run.idle hrun (fun p hp => ((hevents p hp).1.trans_lt (by decide)).ne)
  obtain ⟨h', s', hrun', -, hreceived, -, hsettled⟩ := finish_run hrun hidle hsessions
  have hguarded : Guarded Settled h' := hsettled (fun p hp h => absurd h (hevents p hp).2) hheld
  refine ⟨h', s', hrun', hguarded, ?_, (sees_every_game hrun' hguarded).1⟩
  rw [hreceived, hnext]
  simp [hsteps, lampGame, GameSessionState.play]

/-- A game that `/close` has taken and not appended is in no history. -/
theorem taken_game_unseen : ¬ ∀ (c : Config) (h : List (State × Event)) (s : State),
    Run (serverSystem c) h s → SeesEveryGame c s := by
  intro hall
  obtain ⟨h, s, hclosing, hevents, hsessions, hhistory, hnext, hobject, h0, h1, h2⟩ := closing_run
  have hidle : s.request 3 = .idle :=
    Run.idle hclosing (fun p hp => ((hevents p hp).1.trans_lt (by decide)).ne)
  obtain ⟨h', s', hrun, hanswered, hreceived, -, -⟩ := finish_run hclosing hidle hsessions
  have hmem : 0 ∈ s'.received 3 := by
    rw [hreceived, hnext]
    simp [hobject, lampGame, GameSessionState.play]
  obtain ⟨entry, hentry, -⟩ := hall twoGames h' s' hrun 3 s.history hanswered 0 hmem
  simp [hhistory] at hentry

end A3sBench.GameServer
