import A3sBench.SuiteReports

/-!
# How a failed run is left

A run that fails is to be left in a terminal stage on disk. The journal moves in
memory before its file does, and recording a failure is a no-op once the memory
is terminal, so the two are followed side by side up to the saved record and
through the completion of the journal.
-/

namespace A3sBench

/-- The clock is read and the file is replaced. -/
def Effects.Lands (fx : Effects) : Prop :=
  (∃ now, fx.clock = .ok now) ∧ ∀ e, fx.write ≠ .refused e

namespace RunJournal

theorem commit_ok {fx : Effects} {first : RunJournal} {rest : RunJournal → RunJournal}
    {s s' : Session} (h : commit fx first rest s = (s', .ok ())) :
    ∃ now, s' =
      { memory := rest { first with updatedAtMs := now }
        disk := some (rest { first with updatedAtMs := now }).toJournalFile } := by
  unfold commit at h
  split at h
  · cases h
  · rename_i now _
    refine ⟨now, ?_⟩
    unfold persist at h
    split at h
    · cases h
      rfl
    · cases h
    · cases h

/-- A commit leaves the old file or the edited journal. -/
theorem commit_disk (fx : Effects) (first : RunJournal) (rest : RunJournal → RunJournal)
    (s : Session) : (commit fx first rest s).1.disk = s.disk ∨
      ∃ now, (commit fx first rest s).1.disk =
        some (rest { first with updatedAtMs := now }).toJournalFile := by
  unfold commit
  split
  · exact .inl rfl
  · rename_i now _
    cases fx.write with
    | stored => exact .inr ⟨now, rfl⟩
    | refused e => exact .inl rfl
    | unsynced e => exact .inr ⟨now, rfl⟩

theorem advance_ok {stage : RunStage} {fx : Effects} {s s' : Session}
    (h : advance stage fx s = (s', .ok ())) :
    stage.terminal = false ∧ ∃ now, s' =
      { memory := { s.memory with stage := stage, updatedAtMs := now }
        disk := some { s.memory.toJournalFile with stage := stage, updatedAtMs := now } } := by
  unfold advance at h
  split_ifs at h with hterm hmove
  · cases h
  · exact ⟨hmove.1, commit_ok h⟩
  · cases h

theorem bindLocks_ok {taskDigest candidateDigest : String} {fx : Effects} {s s' : Session}
    (h : bindLocks taskDigest candidateDigest fx s = (s', .ok ())) :
    LockIdentity.validateDigest taskDigest = .ok () ∧
      LockIdentity.validateDigest candidateDigest = .ok () ∧
      ∃ now, s' =
        { memory :=
            { s.memory with
              taskLockDigest := some taskDigest
              candidateLockDigest := some candidateDigest
              updatedAtMs := now }
          disk := some
            { s.memory.toJournalFile with
              taskLockDigest := some taskDigest
              candidateLockDigest := some candidateDigest
              updatedAtMs := now } } := by
  unfold bindLocks at h
  split_ifs at h with hready hfree
  · cases h
  · split at h
    · cases h
    · cases h
    · rename_i htask hcandidate
      exact ⟨htask, hcandidate, commit_ok h⟩
  · cases h

/-- Neither the memory nor the file has a terminal stage. -/
structure Unsettled (s : Session) : Prop where
  memory : s.memory.stage.terminal = false
  disk : ∀ file ∈ s.disk, file.stage.terminal = false

theorem Unsettled.commit {fx : Effects} {first : RunJournal} {rest : RunJournal → RunJournal}
    {s : Session} (h : Unsettled s) (hfirst : first.stage.terminal = false)
    (hrest : ∀ m, (rest m).stage = m.stage) : Unsettled (commit fx first rest s).1 := by
  unfold RunJournal.commit
  cases fx.clock with
  | error e => exact ⟨hfirst, h.disk⟩
  | ok now =>
      have hmemory : (rest { first with updatedAtMs := now }).stage.terminal = false := by
        rw [hrest]
        exact hfirst
      have hdisk : ∀ file ∈ some (rest { first with updatedAtMs := now }).toJournalFile,
          file.stage.terminal = false := by
        rintro _ ⟨⟩
        exact hmemory
      cases fx.write with
      | stored => exact ⟨hmemory, hdisk⟩
      | refused e => exact ⟨hmemory, h.disk⟩
      | unsynced e => exact ⟨hmemory, hdisk⟩

theorem Unsettled.advance {stage : RunStage} {fx : Effects} {s : Session} (h : Unsettled s) :
    Unsettled (advance stage fx s).1 := by
  unfold RunJournal.advance
  split_ifs with hterm hmove
  · exact h
  · exact h.commit hmove.1 fun _ => rfl
  · exact h

theorem Unsettled.bindLocks {taskDigest candidateDigest : String} {fx : Effects} {s : Session}
    (h : Unsettled s) : Unsettled (bindLocks taskDigest candidateDigest fx s).1 := by
  unfold RunJournal.bindLocks
  split_ifs
  · exact h
  · split
    · exact h
    · exact h
    · exact h.commit h.memory fun _ => rfl
  · exact h

/-- The journal as `complete` writes it. -/
def completed (m : RunJournal) (path digest : String) (now : BitVec 128) : RunJournal :=
  { m with
    stage := .completed
    updatedAtMs := now
    resultPath := some path
    resultDigest := some digest }

variable {path digest error : String} {fx : Effects} {s s' : Session}

/-- A completion that lands is in the memory and on disk. -/
theorem complete_of_lands (hstage : s.memory.stage = .judging)
    (hdigest : LockIdentity.validateDigest digest = .ok ()) (hlands : fx.Lands) :
    ∃ now, (complete path digest fx s).1 =
      { memory := s.memory.completed path digest now
        disk := some (s.memory.completed path digest now).toJournalFile } := by
  obtain ⟨⟨now, hclock⟩, hwrite⟩ := hlands
  refine ⟨now, ?_⟩
  simp only [complete, hstage, ne_eq, not_true_eq_false, if_false, hdigest, commit, hclock]
  unfold persist
  split
  · rfl
  · rename_i e hrefused
    exact absurd hrefused (hwrite e)
  · rfl

theorem complete_of_not_lands (hstage : s.memory.stage = .judging)
    (hdigest : LockIdentity.validateDigest digest = .ok ()) (hlost : ¬ fx.Lands) :
    (complete path digest fx s).1.disk = s.disk ∧
      (complete path digest fx s).1.memory.stage = .completed ∧
      ∃ e, (complete path digest fx s).2 = .error e := by
  simp only [complete, hstage, ne_eq, not_true_eq_false, if_false, hdigest, commit]
  cases hclock : fx.clock with
  | error e => exact ⟨rfl, rfl, e, rfl⟩
  | ok now =>
      cases hwrite : fx.write with
      | refused e => exact ⟨rfl, rfl, e, rfl⟩
      | stored => exact absurd ⟨⟨now, hclock⟩, fun e h => by simp [hwrite] at h⟩ hlost
      | unsynced e => exact absurd ⟨⟨now, hclock⟩, fun e h => by simp [hwrite] at h⟩ hlost

theorem fail_of_terminal (hstage : s.memory.stage.terminal = true) :
    fail error fx s = (s, .ok ()) := by
  simp only [fail, hstage, if_true]

/-- A failure, recorded or not, does not complete the journal on disk. -/
theorem not_completed_of_fail (hs : Unsettled s) :
    ∀ file ∈ (fail error fx s).1.disk, file.stage ≠ .completed := by
  have hopen : ∀ file ∈ s.disk, file.stage ≠ .completed := by
    intro file hfile hstage
    have hterminal := hs.disk file hfile
    rw [hstage] at hterminal
    cases hterminal
  simp only [fail, hs.memory, Bool.false_eq_true, if_false]
  rcases commit_disk fx { s.memory with stage := .failed } (fun m => { m with error := some error })
    s with hkept | ⟨now, hfailed⟩
  · rw [hkept]
    exact hopen
  · rw [hfailed]
    rintro _ ⟨⟩ hstage
    cases hstage

theorem fail_ok (hstage : s.memory.stage.terminal = false)
    (h : fail error fx s = (s', .ok ())) : ∃ file, s'.disk = some file ∧ file.stage = .failed := by
  simp only [fail, hstage, Bool.false_eq_true, if_false] at h
  obtain ⟨now, rfl⟩ := commit_ok h
  exact ⟨_, rfl, rfl⟩

end RunJournal

namespace BenchRun

open Library Library.Action
open Lock
open ResultRecord (ResultStore)
open RunJournal (Operation Loadable)

/-- `execute_inner` from the resolved inputs to the saved record, with a reading of
its actions. -/
def savedLoaded {m : Type → Type} [Monad m] (act : {α : Type} → RunAction α → m α) (os : Platform)
    (options : RunOptions) (env : Surroundings) (runId provider : String)
    (loaded : RunInput.LoadedRun) (judgeModel : Option String) : m LocalResultRecord := do
  act (.lift env.prepare)
  act (journal env (.advance .candidateRunning))
  let run ← act (executeCandidate env)
  act (journal env (.advance .candidateCompleted))
  act (.lift env.submission)
  act (journal env (.advance .judging))
  let judge ← act (.lift env.judge)
  let primary ← act (.lift (primaryMetric loaded.task))
  let score ← act (.lift (okOr ((judge.metrics.lookup primary.name).bind Json.asStr)
    "validated JudgeResult contains the primary metric"))
  act (save os (newLocalResult options loaded runId provider judgeModel run primary score judge)
    env.saved)

/-- `execute_inner` up to the saved record. -/
def savedProgram {m : Type → Type} [Monad m] (act : {α : Type} → RunAction α → m α) (host : Host)
    (options : RunOptions) (env : Surroundings) (runId : String) : m LocalResultRecord := do
  let config ← act (.lift env.config)
  act (.lift (checkConfiguredJudge env config))
  let provider ← act (.lift env.preflight)
  act (journal env (.advance .runtimeReady))
  let loaded ← act (load host options)
  act (journal env (.bindLocks loaded.taskLockDigest loaded.candidateLockDigest))
  let judgeModel ← act (.lift (resolveJudgeModel env loaded.task loaded.judgeModel config))
  let task ← act (.lift (resolveTask env provider loaded))
  act (journal env (.advance .inputsResolved))
  savedLoaded act host.os options env runId provider { loaded with task := task } judgeModel

/-- All of `execute_inner`. -/
def program {m : Type → Type} [Monad m] (act : {α : Type} → RunAction α → m α) (host : Host)
    (stateRoot : String) (options : RunOptions) (env : Surroundings) (runId : String) :
    m LocalResultRecord := do
  let record ← savedProgram act host options env runId
  act (journal env (.complete (ResultRecord.resultPath stateRoot runId) record.resultDigest))
  act (publishLatest host.os stateRoot runId env.published)
  pure record

def savedRecord (host : Host) (options : RunOptions) (env : Surroundings) (runId : String) :
    RunAction LocalResultRecord :=
  savedProgram (m := Action RunState String) (fun x => x) host options env runId

theorem executeInner_eq_program (host : Host) (stateRoot : String) (options : RunOptions)
    (env : Surroundings) (runId : String) :
    executeInner host stateRoot options env runId =
      program (m := Action RunState String) (fun x => x) host stateRoot options env runId := by
  simp only [executeInner, executeLoaded, program, savedProgram, savedLoaded, bind_assoc]

section Prefix

variable {host : Host} {options : RunOptions} {env : Surroundings} {runId : String}

/-- The run is not settled, in the memory and on disk. -/
structure Unsettled (runId : String) (s : RunState) : Prop where
  own : s.memory.runId = runId
  journal : RunJournal.Unsettled { memory := s.memory, disk := s.store.journals runId }

def StaysUnsettled (runId : String) (s t : RunState) : Prop := Unsettled runId s → Unsettled runId t

theorem unsettled_lift {α : Type} (x : Result α) :
    Keeps (StaysUnsettled runId) (lift x : RunAction α) :=
  keeps_lift (fun _ h => h) x

theorem unsettled_journal {operation : Operation}
    (hoperation : ∀ s, RunJournal.Unsettled s →
      RunJournal.Unsettled (RunJournal.apply operation (env.effects operation) s).1) :
    Keeps (StaysUnsettled runId) (journal env operation) := by
  rintro s ⟨rfl, hjournal⟩
  have hnext := hoperation _ hjournal
  refine ⟨RunJournal.runId_apply operation _ _, hnext.memory, ?_⟩
  intro file hfile
  refine hnext.disk file ?_
  simpa only [journal, onJournal, Function.update_self] using hfile

theorem unsettled_advance (stage : RunStage) :
    Keeps (StaysUnsettled runId) (journal env (.advance stage)) :=
  unsettled_journal fun _ h => h.advance

theorem unsettled_bindLocks (task candidate : String) :
    Keeps (StaysUnsettled runId) (journal env (.bindLocks task candidate)) :=
  unsettled_journal fun _ h => h.bindLocks

theorem unsettled_load : Keeps (StaysUnsettled runId) (load host options) := by
  intro s hs
  unfold load
  split
  · exact ⟨hs.own, hs.journal⟩
  · exact hs

theorem unsettled_executeCandidate : Keeps (StaysUnsettled runId) (executeCandidate env) :=
  fun _ hs => ⟨hs.own, hs.journal⟩

theorem journals_of_save {os : Platform} {input : ResultRecord.NewLocalResult}
    {store store' : ResultStore} {record : LocalResultRecord}
    (h : ResultRecord.save os input store = .ok (record, store')) :
    store'.journals = store.journals ∧ store'.eventLogs = store.eventLogs := by
  simp only [ResultRecord.save, Result.bind_ok_iff, Result.exists_unit_iff, Result.pure_ok_iff,
    Prod.mk.injEq] at h
  obtain ⟨_, _, _, rfl, rfl⟩ := h
  exact ⟨rfl, rfl⟩

theorem unsettled_save (os : Platform) (input : ResultRecord.NewLocalResult)
    (write : WriteOutcome) : Keeps (StaysUnsettled runId) (save os input write) := by
  intro s hs
  unfold save
  split
  · exact hs
  · exact hs
  · rename_i hsave
    exact ⟨hs.own, by simpa only [(journals_of_save hsave).1] using hs.journal⟩
  · rename_i hsave
    exact ⟨hs.own, by simpa only [(journals_of_save hsave).1] using hs.journal⟩

section Reading

variable {τ : Type} {R : τ → τ → Prop} {act : {α : Type} → RunAction α → Action τ String α}
  (htrans : ∀ s t r, R s t → R t r → R s r)
  (hact : ∀ {α : Type} (x : RunAction α), Keeps (StaysUnsettled runId) x → Keeps R (act x))

include htrans hact

theorem unsettled_savedLoaded (os : Platform) (provider : String) (loaded : RunInput.LoadedRun)
    (judgeModel : Option String) :
    Keeps R (savedLoaded act os options env runId provider loaded judgeModel) := by
  refine Keeps.bind htrans (hact _ (unsettled_lift _)) fun _ => Keeps.bind htrans
    (hact _ (unsettled_advance _)) fun _ => Keeps.bind htrans
    (hact _ unsettled_executeCandidate) fun _ => ?_
  refine Keeps.bind htrans (hact _ (unsettled_advance _)) fun _ => Keeps.bind htrans
    (hact _ (unsettled_lift _)) fun _ => Keeps.bind htrans (hact _ (unsettled_advance _)) fun _ => ?_
  refine Keeps.bind htrans (hact _ (unsettled_lift _)) fun _ => Keeps.bind htrans
    (hact _ (unsettled_lift _)) fun _ => Keeps.bind htrans (hact _ (unsettled_lift _)) fun _ => ?_
  exact hact _ (unsettled_save _ _ _)

/-- Nothing up to the saved record settles the run, however its actions are read. -/
theorem unsettled_savedProgram : Keeps R (savedProgram act host options env runId) := by
  refine Keeps.bind htrans (hact _ (unsettled_lift _)) fun _ => Keeps.bind htrans
    (hact _ (unsettled_lift _)) fun _ => Keeps.bind htrans (hact _ (unsettled_lift _)) fun _ => ?_
  refine Keeps.bind htrans (hact _ (unsettled_advance _)) fun _ => Keeps.bind htrans
    (hact _ unsettled_load) fun _ => Keeps.bind htrans (hact _ (unsettled_bindLocks _ _)) fun _ => ?_
  refine Keeps.bind htrans (hact _ (unsettled_lift _)) fun _ => Keeps.bind htrans
    (hact _ (unsettled_lift _)) fun _ => Keeps.bind htrans (hact _ (unsettled_advance _)) fun _ => ?_
  exact unsettled_savedLoaded htrans hact _ _ _ _

end Reading

theorem unsettled_savedRecord :
    Keeps (StaysUnsettled runId) (savedRecord host options env runId) :=
  unsettled_savedProgram (fun _ _ _ hst htr hs => htr (hst hs)) fun _ h => h

theorem journal_advance_ok {stage : RunStage} {s t : RunState}
    (h : journal env (.advance stage) s = (t, .ok ())) :
    ∃ now, t = s.withJournal { s.memory with stage := stage, updatedAtMs := now } := by
  generalize happly : RunJournal.apply (.advance stage) (env.effects (.advance stage))
    { memory := s.memory, disk := s.store.journals s.memory.runId } = applied
  rcases applied with ⟨session, result⟩
  simp only [journal, onJournal, happly, Prod.mk.injEq] at h
  obtain ⟨rfl, rfl⟩ := h
  obtain ⟨_, now, rfl⟩ := RunJournal.advance_ok happly
  exact ⟨now, rfl⟩

theorem journal_bindLocks_ok {task candidate : String} {s t : RunState}
    (h : journal env (.bindLocks task candidate) s = (t, .ok ())) :
    LockIdentity.validateDigest task = .ok () ∧ LockIdentity.validateDigest candidate = .ok () ∧
      ∃ now, t = s.withJournal
        { s.memory with
          taskLockDigest := some task
          candidateLockDigest := some candidate
          updatedAtMs := now } := by
  generalize happly : RunJournal.apply (.bindLocks task candidate)
    (env.effects (.bindLocks task candidate))
    { memory := s.memory, disk := s.store.journals s.memory.runId } = applied
  rcases applied with ⟨session, result⟩
  simp only [journal, onJournal, happly, Prod.mk.injEq] at h
  obtain ⟨rfl, rfl⟩ := h
  obtain ⟨htask, hcandidate, now, rfl⟩ := RunJournal.bindLocks_ok happly
  exact ⟨htask, hcandidate, now, rfl⟩

theorem load_root {loaded : RunInput.LoadedRun} {s t : RunState}
    (h : load host options s = (t, .ok loaded)) : ∃ root, t = { s with root := root } := by
  unfold load at h
  split at h
  · cases h
    exact ⟨_, rfl⟩
  · cases h

theorem record_of_save {os : Platform} {input : ResultRecord.NewLocalResult}
    {store store' : ResultStore} {record : LocalResultRecord}
    (h : ResultRecord.save os input store = .ok (record, store')) :
    ResultRecord.validate os record input.runId = .ok () ∧
      record.schema = "a3s.bench.local-result.v6" ∧
      record.candidateEventLogDigest = input.candidateEventLogDigest := by
  simp only [ResultRecord.save, Result.bind_ok_iff, Result.exists_unit_iff, Result.pure_ok_iff,
    Prod.mk.injEq] at h
  obtain ⟨_, _, hvalid, rfl, -⟩ := h
  exact ⟨hvalid, rfl, rfl⟩

/-- The locks of the run are bound, and its journal can be read. -/
structure Bound (runId : String) (loaded : RunInput.LoadedRun) (stage : RunStage) (s : RunState) :
    Prop where
  own : s.memory.runId = runId
  stage : s.memory.stage = stage
  loadable : Loadable s.memory.toJournalFile
  task : s.memory.taskLockDigest = some loaded.taskLockDigest
  candidate : s.memory.candidateLockDigest = some loaded.candidateLockDigest

theorem Bound.advance {loaded : RunInput.LoadedRun} {stage next : RunStage} {s t : RunState}
    (h : Bound runId loaded stage s) (hstage : stage.terminal = false)
    (hnext : next.terminal = false) (hadvance : journal env (.advance next) s = (t, .ok ())) :
    Bound runId loaded next t ∧ t.store.eventLogs = s.store.eventLogs := by
  obtain ⟨now, rfl⟩ := journal_advance_ok hadvance
  have hopen : s.memory.stage.terminal = false := by
    rw [h.stage]
    exact hstage
  have hbound : s.memory.taskLockDigest.isSome = true := by
    rw [h.task]
    rfl
  exact ⟨⟨h.own, rfl, h.loadable.with_stage hopen hnext (.inr hbound) now, h.task, h.candidate⟩, rfl⟩

/-- From the fresh journal to the bound locks. -/
theorem bound_of_bindLocks {loaded : RunInput.LoadedRun} {s r q t : RunState}
    (hid : s.memory.runId = runId) (hplanned : s.memory.stage = .planned)
    (hloadable : Loadable s.memory.toJournalFile)
    (hready : journal env (.advance .runtimeReady) s = (r, .ok ()))
    (hload : load host options r = (q, .ok loaded))
    (hbind : journal env (.bindLocks loaded.taskLockDigest loaded.candidateLockDigest) q =
      (t, .ok ())) : Bound runId loaded .runtimeReady t := by
  obtain ⟨_, rfl⟩ := journal_advance_ok hready
  obtain ⟨_, rfl⟩ := load_root hload
  obtain ⟨htask, hcandidate, _, rfl⟩ := journal_bindLocks_ok hbind
  have hopen : s.memory.stage.terminal = false := by
    rw [hplanned]
    rfl
  have hstage := @Loadable.with_stage _ hloadable .runtimeReady hopen rfl (.inl (by decide))
    s.memory.updatedAtMs
  exact
    { own := hid
      stage := rfl
      loadable :=
        { hstage with
          bothLocks := rfl
          taskDigest := htask
          candidateDigest := hcandidate
          resolved := .inr (.inr rfl) }
      task := rfl
      candidate := rfl }

/-- The state in which the record of a run has been saved. -/
structure Saved (os : Platform) (env : Surroundings) (runId : String) (record : LocalResultRecord)
    (t : RunState) : Prop where
  own : t.memory.runId = runId
  stage : t.memory.stage = .judging
  loadable : Loadable t.memory.toJournalFile
  task : t.memory.taskLockDigest = some record.taskLockDigest
  candidate : t.memory.candidateLockDigest = some record.candidateLockDigest
  stored : t.store.results runId = some record
  valid : ResultRecord.validate os record runId = .ok ()
  schema : record.schema = "a3s.bench.local-result.v6"
  eventLog : t.store.eventLogs runId = env.eventLog
  evidence : ∃ run, env.candidate = .ok run ∧
    record.candidateEventLogDigest = run.candidateEventLogDigest

theorem Saved.resultDigest {os : Platform} {record : LocalResultRecord} {t : RunState}
    (h : Saved os env runId record t) :
    LockIdentity.validateDigest record.resultDigest = .ok () := by
  have hvalid := h.valid
  simp only [ResultRecord.validate, Result.bind_ok_iff, Result.exists_unit_iff] at hvalid
  exact hvalid.2.2.2.2.1

theorem savedLoaded_ok {os : Platform} {provider : String} {loaded : RunInput.LoadedRun}
    {judgeModel : Option String} {s t : RunState} {record : LocalResultRecord}
    (hbound : Bound runId loaded .inputsResolved s)
    (h : savedLoaded (m := Action RunState String) (fun x => x) os options env runId provider loaded
      judgeModel s = (t, .ok record)) : Saved os env runId record t := by
  simp only [savedLoaded, bind_ok_iff, lift_ok_iff] at h
  obtain ⟨_, _, ⟨hs, _⟩, _, _, hrunning, run, s₁, hcandidate, _, _, hcompleted, _, _, ⟨hs', _⟩, _,
    _, hjudging, _, _, ⟨ht, _⟩, _, _, ⟨ht', _⟩, _, _, ⟨ht'', _⟩, hsave⟩ := h
  subst hs hs' ht ht' ht''
  obtain ⟨hstarted, -⟩ := hbound.advance rfl rfl hrunning
  obtain ⟨hstate, hrun⟩ := Prod.mk.inj hcandidate
  have hleft : Bound runId loaded .candidateRunning s₁ := by
    subst hstate
    exact ⟨hstarted.own, hstarted.stage, hstarted.loadable, hstarted.task, hstarted.candidate⟩
  have hlog : s₁.store.eventLogs runId = env.eventLog := by
    subst hstate
    rw [← hstarted.own]
    exact Function.update_self _ _ _
  obtain ⟨hfinished, hlogs⟩ := hleft.advance rfl rfl hcompleted
  obtain ⟨hjudged, hlogs'⟩ := hfinished.advance rfl rfl hjudging
  obtain ⟨store, hsaved, -, rfl⟩ := save_ok hsave
  obtain ⟨hvalid, hschema, hevidence⟩ := record_of_save hsaved
  obtain ⟨-, htask, hcand, hresults⟩ := results_of_save hsaved
  exact
    { own := hjudged.own
      stage := hjudged.stage
      loadable := hjudged.loadable
      task := hjudged.task.trans (congrArg some htask.symm)
      candidate := hjudged.candidate.trans (congrArg some hcand.symm)
      stored := by
        rw [hresults]
        exact Function.update_self _ _ _
      valid := hvalid
      schema := hschema
      eventLog := by
        rw [(journals_of_save hsaved).2, hlogs', hlogs]
        exact hlog
      evidence := ⟨run, hrun, hevidence⟩ }

theorem savedRecord_ok {s t : RunState} {record : LocalResultRecord}
    (hid : s.memory.runId = runId) (hplanned : s.memory.stage = .planned)
    (hloadable : Loadable s.memory.toJournalFile)
    (h : savedRecord host options env runId s = (t, .ok record)) :
    Saved host.os env runId record t := by
  simp only [savedRecord, savedProgram, bind_ok_iff, lift_ok_iff] at h
  obtain ⟨_, _, ⟨hs, _⟩, _, _, ⟨hs', _⟩, _, _, ⟨hs'', _⟩, _, _, hready, loaded, _, hload, _, _,
    hbind, _, _, ⟨ht, _⟩, _, _, ⟨ht', _⟩, _, _, hinputs, hloaded⟩ := h
  subst hs hs' hs'' ht ht'
  have hbound := bound_of_bindLocks hid hplanned hloadable hready hload hbind
  obtain ⟨hresolved, -⟩ := hbound.advance rfl rfl hinputs
  refine savedLoaded_ok ?_ hloaded
  exact ⟨hresolved.own, hresolved.stage, hresolved.loadable, hresolved.task, hresolved.candidate⟩

end Prefix

section Settlement

variable {host : Host} {stateRoot : String} {options : RunOptions} {env : Surroundings}
  {files : RunFiles}

/-- The run once its journal was begun. -/
def begunState (stateRoot : String) (options : RunOptions) (env : Surroundings)
    (files : RunFiles) : RunState :=
  let session := (RunJournal.begin stateRoot options.task options.agent env.processId env.sequence
    env.now .stored).1
  { memory := session.memory
    root := files.root
    store :=
      { files.store with
        journals := Function.update files.store.journals session.memory.runId session.disk } }

theorem executeOptions_of_begun (hbegun : env.begun = .stored) :
    executeOptions host stateRoot options env files =
      settle env (executeInner host stateRoot options env env.runId
        (begunState stateRoot options env files)) := by
  unfold executeOptions
  rw [hbegun]
  rfl

theorem loadable_begunState :
    Loadable (begunState stateRoot options env files).memory.toJournalFile where
  schema := rfl
  runId := RunJournal.validateRunId_beginRunId _ _ _
  bothLocks := rfl
  taskDigest := rfl
  candidateDigest := rfl
  resolved := .inr (.inl Nat.two_pos)
  resultPath := rfl
  resultDigest := rfl
  resultDigestValid := rfl
  failure := rfl

theorem unsettled_begunState : Unsettled env.runId (begunState stateRoot options env files) where
  own := rfl
  journal :=
    { memory := rfl
      disk := by
        intro file hfile
        have hdisk : some file = some (begunState stateRoot options env files).memory.toJournalFile :=
          (Option.mem_def.mp hfile).symm.trans (Function.update_self _ _ _)
        rw [Option.some.inj hdisk]
        rfl }

/-- What is left to do once the record is saved. -/
def completion (os : Platform) (stateRoot runId : String) (env : Surroundings)
    (record : LocalResultRecord) : RunAction LocalResultRecord := do
  journal env (.complete (ResultRecord.resultPath stateRoot runId) record.resultDigest)
  publishLatest os stateRoot runId env.published
  pure record

theorem executeInner_of_saved {runId : String} {s t : RunState} {record : LocalResultRecord}
    (h : savedRecord host options env runId s = (t, .ok record)) :
    executeInner host stateRoot options env runId s =
      completion host.os stateRoot runId env record t := by
  rw [executeInner_eq_program]
  change Action.bind (savedRecord host options env runId) _ s = _
  unfold Action.bind
  rw [h]
  rfl

theorem executeInner_of_unsaved {runId e : String} {s t : RunState}
    (h : savedRecord host options env runId s = (t, .error e)) :
    executeInner host stateRoot options env runId s = (t, .error e) := by
  rw [executeInner_eq_program]
  change Action.bind (savedRecord host options env runId) _ s = _
  unfold Action.bind
  rw [h]

/-- Publishing changes no file of the run. -/
theorem completion_fst (os : Platform) (stateRoot runId : String) (env : Surroundings)
    (record : LocalResultRecord) (s : RunState) :
    (completion os stateRoot runId env record s).1 =
      (journal env (.complete (ResultRecord.resultPath stateRoot runId) record.resultDigest) s).1 := by
  change (Action.bind (journal env _) (fun _ => Action.bind (publishLatest os stateRoot runId
    env.published) _) s).1 = _
  unfold Action.bind
  generalize journal env (.complete (ResultRecord.resultPath stateRoot runId) record.resultDigest) s =
    completed
  rcases completed with ⟨t, e | _⟩
  · rfl
  · dsimp only
    generalize hpublish : publishLatest os stateRoot runId env.published t = published
    rcases published with ⟨r, e | _⟩
    · exact (congrArg Prod.fst hpublish).symm
    · exact (congrArg Prod.fst hpublish).symm

theorem completion_error {os : Platform} {stateRoot runId e : String} {record : LocalResultRecord}
    {s : RunState}
    (h : (journal env (.complete (ResultRecord.resultPath stateRoot runId) record.resultDigest)
      s).2 = .error e) :
    (completion os stateRoot runId env record s).2 = .error e := by
  change (Action.bind (journal env _) _ s).2 = _
  unfold Action.bind
  generalize journal env (.complete (ResultRecord.resultPath stateRoot runId) record.resultDigest) s =
    completed at h ⊢
  rcases completed with ⟨t, e' | _⟩
  · cases h
    rfl
  · cases h

theorem completion_ok {os : Platform} {stateRoot runId : String} {record record' : LocalResultRecord}
    {s t : RunState} (h : completion os stateRoot runId env record s = (t, .ok record')) :
    record = record' := by
  simp only [completion, bind_ok_iff, pure_ok_iff] at h
  obtain ⟨_, _, _, _, _, _, _, hrecord⟩ := h
  exact hrecord

/-- The error says that the failure could not be recorded. -/
def ReportsUnpersisted (message : String) : Prop :=
  Text.startsWith message "could not persist terminal run failure: " = true

theorem reportsUnpersisted_failureText_iff {runId e : String} {recorded : Result Unit} :
    ReportsUnpersisted (failureText runId e recorded) ↔ ∃ e', recorded = .error e' := by
  unfold ReportsUnpersisted
  cases recorded with
  | ok _ =>
      have happend : failureText runId e (.ok ()) = "run " ++ (runId ++ (" failed: " ++ e)) := by
        change "run " ++ runId ++ " failed: " ++ e = _
        rw [String.append_assoc, String.append_assoc]
      have hfalse : Text.startsWith (failureText runId e (.ok ()))
          "could not persist terminal run failure: " = false := by
        have hrun : "run ".toList.head? = some 'r' := rfl
        refine Text.startsWith_eq_false (c := 'c') ?_ ?_
        · rfl
        · rw [happend, Text.head?_append _ hrun]
          decide
      simp only [hfalse, Bool.false_eq_true, false_iff]
      rintro ⟨_, ⟨⟩⟩
  | error e' =>
      have happend : failureText runId e (.error e') =
          "could not persist terminal run failure: " ++ (e' ++ (": " ++ e)) := by
        change "could not persist terminal run failure: " ++ e' ++ ": " ++ e = _
        rw [String.append_assoc, String.append_assoc]
      rw [happend]
      exact ⟨fun _ => ⟨e', rfl⟩, fun _ => Text.startsWith_append _ _⟩

theorem settle_error (env : Surroundings) (s : RunState) (e : String) :
    ∃ session recorded, RunJournal.fail e (env.effects (.fail e))
        { memory := s.memory, disk := s.store.journals s.memory.runId } = (session, recorded) ∧
      (settle env (s, .error e)).1.store.journals s.memory.runId = session.disk ∧
      (settle env (s, .error e)).2 = .error (failureText session.memory.runId e recorded) :=
  ⟨_, _, rfl, Function.update_self _ _ _, rfl⟩

/-- A run whose memory is terminal keeps the files it has. -/
theorem settle_of_terminal {s : RunState} {e : String} (hstage : s.memory.stage.terminal = true) :
    (settle env (s, .error e)).1.store = s.store ∧
      ∃ message, (settle env (s, .error e)).2 = .error message ∧ ¬ ReportsUnpersisted message := by
  obtain ⟨session, recorded, hfail, hdisk, hresult⟩ := settle_error env s e
  rw [RunJournal.fail_of_terminal hstage] at hfail
  obtain ⟨rfl, rfl⟩ := Prod.mk.inj hfail
  refine ⟨?_, _, hresult, ?_⟩
  · have hkept : RunJournal.apply (.fail e) (env.effects (.fail e))
        { memory := s.memory, disk := s.store.journals s.memory.runId } = _ :=
      RunJournal.fail_of_terminal hstage
    simp only [settle, journal, onJournal, hkept, Function.update_eq_self]
  · rw [reportsUnpersisted_failureText_iff]
    rintro ⟨_, ⟨⟩⟩

theorem settle_of_unsettled {runId e message : String} {s : RunState} (hs : Unsettled runId s)
    (hresult : (settle env (s, .error e)).2 = .error message)
    (hreport : ¬ ReportsUnpersisted message) :
    ∃ file, (settle env (s, .error e)).1.store.journals runId = some file ∧
      file.stage = .failed := by
  obtain ⟨session, recorded, hfail, hdisk, hmessage⟩ := settle_error env s e
  rw [hresult] at hmessage
  obtain rfl := Except.error.inj hmessage
  rw [reportsUnpersisted_failureText_iff] at hreport
  cases recorded with
  | error e' => exact absurd ⟨e', rfl⟩ hreport
  | ok _ =>
      rw [hs.own] at hfail hdisk
      obtain ⟨file, hfile, hstage⟩ := RunJournal.fail_ok hs.journal.memory hfail
      exact ⟨file, hdisk.trans hfile, hstage⟩

variable {runId : String} {record : LocalResultRecord} {t : RunState}

theorem journal_complete_of_lands {os : Platform} (h : Saved os env runId record t) {path : String}
    (hlands : (env.effects (.complete path record.resultDigest)).Lands) :
    ∃ now, (journal env (.complete path record.resultDigest) t).1 =
      t.withJournal (t.memory.completed path record.resultDigest now) := by
  obtain ⟨now, hcomplete⟩ := @RunJournal.complete_of_lands path _ _
    { memory := t.memory, disk := t.store.journals t.memory.runId } h.stage h.resultDigest hlands
  refine ⟨now, ?_⟩
  simp only [journal, onJournal, RunJournal.apply, hcomplete]
  rfl

theorem journal_complete_of_not_lands {os : Platform} (h : Saved os env runId record t)
    {path : String}
    (hlost : ¬ (env.effects (.complete path record.resultDigest)).Lands) :
    let completed := journal env (.complete path record.resultDigest) t
    completed.1.store = t.store ∧ completed.1.memory.stage = .completed ∧
      ∃ e, completed.2 = .error e := by
  obtain ⟨hdisk, hstage, herror⟩ := @RunJournal.complete_of_not_lands path _ _
    { memory := t.memory, disk := t.store.journals t.memory.runId } h.stage h.resultDigest hlost
  refine ⟨?_, hstage, herror⟩
  simp only [journal, onJournal, RunJournal.apply, hdisk, Function.update_eq_self]

/-- A run whose completion is lost fails without saying so, and what is on disk is
not terminal. -/
theorem executeOptions_of_lost (hbegun : env.begun = .stored)
    (hrun : savedRecord host options env env.runId (begunState stateRoot options env files) =
      (t, .ok record))
    (hlost : ¬ (env.effects
      (.complete (ResultRecord.resultPath stateRoot env.runId) record.resultDigest)).Lands) :
    ∃ files' message, executeOptions host stateRoot options env files = (files', .error message) ∧
      ¬ ReportsUnpersisted message ∧
        ∀ file ∈ files'.store.journals env.runId, file.stage.terminal = false := by
  have hkeeps : StaysUnsettled env.runId (begunState stateRoot options env files)
      (savedRecord host options env env.runId (begunState stateRoot options env files)).1 :=
    unsettled_savedRecord _
  rw [hrun] at hkeeps
  have hopen := hkeeps unsettled_begunState
  have hsaved : Saved host.os env env.runId record t :=
    savedRecord_ok rfl rfl loadable_begunState hrun
  obtain ⟨hstore, hstage, e, herror⟩ := journal_complete_of_not_lands hsaved hlost
  have houtcome : completion host.os stateRoot env.runId env record t = (_, .error e) :=
    Prod.ext (completion_fst host.os stateRoot env.runId env record t) (completion_error herror)
  obtain ⟨hkept, message, hmessage, hreport⟩ :=
    @settle_of_terminal env _ e (congrArg RunStage.terminal hstage)
  rw [hstore] at hkept
  rw [executeOptions_of_begun hbegun, executeInner_of_saved hrun, houtcome]
  refine ⟨_, message, Prod.ext rfl hmessage, hreport, ?_⟩
  rw [hkept]
  exact hopen.journal.disk

end Settlement

/-- The journal of the run is on disk in a terminal stage, and completed only
when the record had been saved. -/
def LeftSettled (host : Host) (options : RunOptions) (env : Surroundings) (start : RunState)
    (store : ResultStore) : Prop :=
  ∃ file, store.journals env.runId = some file ∧
    (file.stage = .failed ∨ file.stage = .completed ∧
      ∃ s record, savedRecord host options env env.runId start = (s, .ok record))

theorem not_leftSettled {host : Host} {options : RunOptions} {env : Surroundings} {start : RunState}
    {store : ResultStore} (h : ∀ file ∈ store.journals env.runId, file.stage.terminal = false) :
    ¬ LeftSettled host options env start store := by
  rintro ⟨file, hfile, hstage⟩
  have hopen := h file hfile
  rcases hstage with hfailed | ⟨hcompleted, -⟩
  · rw [hfailed] at hopen
    cases hopen
  · rw [hcompleted] at hopen
    cases hopen

/-- The completion of the journal lands, where the run reaches it. -/
def CompletionLands (host : Host) (stateRoot : String) (options : RunOptions) (env : Surroundings)
    (start : RunState) : Prop :=
  ∀ s record, savedRecord host options env env.runId start = (s, .ok record) →
    (env.effects
      (.complete (ResultRecord.resultPath stateRoot env.runId) record.resultDigest)).Lands

/-- Every failed run that reports no journal error is left settled, exactly when
the completion does not get lost. -/
theorem leftSettled_iff_completionLands (host : Host) (stateRoot : String) (options : RunOptions)
    (env : Surroundings) (files : RunFiles) (hbegun : env.begun = .stored) :
    (∀ files' message, executeOptions host stateRoot options env files = (files', .error message) →
      ¬ ReportsUnpersisted message →
        LeftSettled host options env (begunState stateRoot options env files) files'.store) ↔
      CompletionLands host stateRoot options env (begunState stateRoot options env files) := by
  have hkeeps : StaysUnsettled env.runId (begunState stateRoot options env files)
      (savedRecord host options env env.runId (begunState stateRoot options env files)).1 :=
    unsettled_savedRecord _
  have hprefix := hkeeps unsettled_begunState
  generalize hrun : savedRecord host options env env.runId (begunState stateRoot options env files) =
    outcome at hprefix
  rcases outcome with ⟨t, e | record⟩
  · -- the run fails before its record is saved
    rw [executeOptions_of_begun hbegun, executeInner_of_unsaved hrun]
    constructor
    · intro _ s record hsaved
      rw [hrun] at hsaved
      cases hsaved
    · intro _ files' message hresult hreport
      obtain ⟨file, hfile, hstage⟩ := settle_of_unsettled hprefix (congrArg Prod.snd hresult) hreport
      rw [hresult] at hfile
      exact ⟨file, hfile, .inl hstage⟩
  · constructor
    · intro hclaim s record' hsaved
      obtain ⟨rfl, hrecord⟩ := Prod.mk.inj (hrun.symm.trans hsaved)
      obtain rfl := Except.ok.inj hrecord
      by_contra hlost
      obtain ⟨files', message, hresult, hreport, hopen⟩ := executeOptions_of_lost hbegun hrun hlost
      exact not_leftSettled hopen (hclaim files' message hresult hreport)
    · intro hlands files' message hresult _
      have hsaved : Saved host.os env env.runId record t :=
        savedRecord_ok rfl rfl loadable_begunState hrun
      have hfst := completion_fst host.os stateRoot env.runId env record t
      obtain ⟨now, hcompleted⟩ := journal_complete_of_lands hsaved (hlands t record hrun)
      rw [executeOptions_of_begun hbegun, executeInner_of_saved hrun] at hresult
      generalize completion host.os stateRoot env.runId env record t = outcome at hresult hfst
      rcases outcome with ⟨r, e | record'⟩
      · have hr : r = t.withJournal _ := hfst.trans hcompleted
        have hterminal : r.memory.stage.terminal = true := hr ▸ rfl
        have hkept := (@settle_of_terminal env r e hterminal).1
        have hfile := RunState.withJournal_journals t r.memory
        rw [hsaved.own] at hfile
        rw [hresult] at hkept
        refine ⟨r.memory.toJournalFile, ?_, .inr ⟨hr ▸ rfl, t, record, hrun⟩⟩
        rw [hkept, hr]
        rw [hr] at hfile
        exact hfile
      · cases hresult

section Sample

open Suite (Role sampleDirectory sampleSurroundings sampleAnswers memberOptions)

def sampleOptions : RunOptions := memberOptions "state" sampleDirectory 0 .baseline

def sampleFiles : RunFiles := Suite.unplannedWorld.files

theorem savedRecord_sample :
    ∃ t, savedRecord Lock.sampleHost sampleOptions (sampleSurroundings 1 0) "local-1-7-0"
      (begunState "state" sampleOptions (sampleSurroundings 1 0) sampleFiles) =
        (t, .ok baselineRecord) := by
  have hrunId : (sampleSurroundings 1 0).runId = "local-1-7-0" := by decide
  have hload := Suite.loadLocks_sample Suite.sampleLock_planned 1
  obtain ⟨files', hexecute, -, -⟩ := @executeOptions_completed Lock.sampleHost "state" sampleOptions
    (sampleSurroundings 1 0) (sampleAnswers 1 sampleTaskLock alpineImage) baselineRecord _ sampleFiles
    (Suite.faultless_sample Suite.sampleLock_planned 1 0) hload
    (@Suite.recorded_side sampleTaskLock alpineImage sampleDirectory .baseline 1 0 _ _ _ rfl rfl hrunId
      Suite.validate_baseline)
  rw [executeOptions_of_begun rfl, hrunId] at hexecute
  obtain ⟨hresult, -⟩ := settle_ok hexecute
  generalize hrun : savedRecord Lock.sampleHost sampleOptions (sampleSurroundings 1 0)
    "local-1-7-0" (begunState "state" sampleOptions (sampleSurroundings 1 0) sampleFiles) = outcome
  rcases outcome with ⟨t, e | record⟩
  · rw [executeInner_of_unsaved hrun] at hresult
    cases hresult
  · rw [executeInner_of_saved hrun] at hresult
    rw [completion_ok (Prod.ext rfl hresult)]
    exact ⟨t, rfl⟩

theorem leftSettled_iff_completionLands_sample :
    CompletionLands Lock.sampleHost "state" sampleOptions (sampleSurroundings 1 0)
        (begunState "state" sampleOptions (sampleSurroundings 1 0) sampleFiles) ∧
      ∀ files' message, executeOptions Lock.sampleHost "state" sampleOptions
          (sampleSurroundings 1 0) sampleFiles = (files', .error message) →
        ¬ ReportsUnpersisted message →
          LeftSettled Lock.sampleHost sampleOptions (sampleSurroundings 1 0)
            (begunState "state" sampleOptions (sampleSurroundings 1 0) sampleFiles)
            files'.store := by
  have hlands : CompletionLands Lock.sampleHost "state" sampleOptions (sampleSurroundings 1 0)
      (begunState "state" sampleOptions (sampleSurroundings 1 0) sampleFiles) :=
    fun _ _ _ => ⟨⟨1, rfl⟩, by simp [sampleSurroundings]⟩
  exact ⟨hlands, (leftSettled_iff_completionLands Lock.sampleHost "state" sampleOptions
    (sampleSurroundings 1 0) sampleFiles rfl).mpr hlands⟩

/-- The disk is full when the journal of the judged run is completed. -/
def fullDisk : Surroundings :=
  { sampleSurroundings 1 0 with
    effects := fun operation =>
      { clock := .ok 1
        write :=
          match operation with
          | .complete _ _ => .refused "No space left on device (os error 28)"
          | _ => .stored } }

/-- The run fails, reports no journal error, and leaves no terminal journal. -/
theorem lost_completion_left_unsettled :
    ∃ files' message, executeOptions Lock.sampleHost "state" sampleOptions fullDisk sampleFiles =
        (files', .error message) ∧ ¬ ReportsUnpersisted message ∧
      ¬ LeftSettled Lock.sampleHost sampleOptions fullDisk
        (begunState "state" sampleOptions fullDisk sampleFiles) files'.store := by
  obtain ⟨t, hrun⟩ := savedRecord_sample
  have hrunId : fullDisk.runId = "local-1-7-0" := by decide
  have hlost : ¬ (fullDisk.effects (.complete (ResultRecord.resultPath "state" fullDisk.runId)
      baselineRecord.resultDigest)).Lands := fun h => h.2 _ rfl
  -- up to the saved record the disk behaves as in the run that completes
  have hsame : savedRecord Lock.sampleHost sampleOptions fullDisk fullDisk.runId
      (begunState "state" sampleOptions fullDisk sampleFiles) = (t, .ok baselineRecord) := by
    rw [hrunId, ← hrun]
    rfl
  obtain ⟨files', message, hresult, hreport, hopen⟩ := executeOptions_of_lost rfl hsame hlost
  exact ⟨files', message, hresult, hreport, not_leftSettled hopen⟩

end Sample

end BenchRun

end A3sBench
