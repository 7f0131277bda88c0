import A3sBench.BenchRun

/-!
# What a run leaves

A run touches the record of its own id only. When it succeeds, that record binds
the digests of the locks it loaded; a run that meets no fault does succeed, and
its record can be loaded again.
-/

namespace A3sBench.BenchRun

open Library Library.Action
open Lock
open ResultRecord (NewLocalResult ResultStore)
open RunInput (LoadedRun)
open RunJournal (Operation)

/-- The files of the other runs are unchanged. -/
structure OthersKept (runId : String) (store store' : ResultStore) : Prop where
  results : ∀ id, id ≠ runId → store'.results id = store.results id
  journals : ∀ id, id ≠ runId → store'.journals id = store.journals id
  eventLogs : ∀ id, id ≠ runId → store'.eventLogs id = store.eventLogs id

/-- A run stays itself and leaves the other runs alone. -/
def Frame (runId : String) (s t : RunState) : Prop :=
  s.memory.runId = runId → t.memory.runId = runId ∧ OthersKept runId s.store t.store

section Frame

variable {host : Host} {runId : String}

theorem OthersKept.refl (store : ResultStore) : OthersKept runId store store :=
  ⟨fun _ _ => rfl, fun _ _ => rfl, fun _ _ => rfl⟩

theorem OthersKept.trans {a b c : ResultStore} (hab : OthersKept runId a b)
    (hbc : OthersKept runId b c) : OthersKept runId a c :=
  ⟨fun id hid => (hbc.results id hid).trans (hab.results id hid),
    fun id hid => (hbc.journals id hid).trans (hab.journals id hid),
    fun id hid => (hbc.eventLogs id hid).trans (hab.eventLogs id hid)⟩

/-- A record of another run is still loaded. -/
theorem load_of_othersKept {os : Platform} {stateRoot id : String} {store store' : ResultStore}
    {record : LocalResultRecord} (h : OthersKept runId store store') (hid : id ≠ runId)
    (hload : ResultRecord.load os stateRoot store id = .ok (some record)) :
    ResultRecord.load os stateRoot store' id = .ok (some record) := by
  obtain ⟨hstored, rfl⟩ := ResultRecord.load_ok hload
  simp only [ResultRecord.load, h.results _ hid, h.journals _ hid, hstored,
    ResultRecord.validateEventLog, h.eventLogs _ hid] at hload ⊢
  exact hload

theorem Frame.refl (s : RunState) : Frame runId s s := fun hid => ⟨hid, .refl _⟩

theorem Frame.trans (s t r : RunState) (hst : Frame runId s t) (htr : Frame runId t r) :
    Frame runId s r := by
  intro hid
  obtain ⟨hid, hkept⟩ := hst hid
  obtain ⟨hid, hkept'⟩ := htr hid
  exact ⟨hid, hkept.trans hkept'⟩

theorem frame_lift {α : Type} (x : Result α) : Keeps (Frame runId) (lift x : RunAction α) :=
  keeps_lift Frame.refl x

theorem frame_bind {α β : Type} {x : RunAction α} {f : α → RunAction β}
    (hx : Keeps (Frame runId) x) (hf : ∀ a, Keeps (Frame runId) (f a)) :
    Keeps (Frame runId) (x >>= f) :=
  Keeps.bind Frame.trans hx hf

theorem frame_journal (env : Surroundings) (operation : Operation) :
    Keeps (Frame runId) (journal env operation) := by
  rintro s rfl
  exact ⟨RunJournal.runId_apply operation _ _,
    fun _ _ => rfl, fun id hid => Function.update_of_ne hid _ _, fun _ _ => rfl⟩

theorem frame_load (options : RunOptions) : Keeps (Frame runId) (load host options) := by
  intro s hid
  unfold load
  split
  · exact ⟨hid, .refl _⟩
  · exact ⟨hid, .refl _⟩

theorem frame_executeCandidate (env : Surroundings) :
    Keeps (Frame runId) (executeCandidate env) := by
  rintro s rfl
  exact ⟨rfl, fun _ _ => rfl, fun _ _ => rfl, fun id hid => Function.update_of_ne hid _ _⟩

theorem results_of_save {os : Platform} {input : NewLocalResult} {store store' : ResultStore}
    {record : LocalResultRecord} (h : ResultRecord.save os input store = .ok (record, store')) :
    record.runId = input.runId ∧ record.taskLockDigest = input.taskLockDigest ∧
      record.candidateLockDigest = input.candidateLockDigest ∧
      store'.results = Function.update store.results input.runId (some record) := by
  simp only [ResultRecord.save, Result.bind_ok_iff, Result.exists_unit_iff, Result.pure_ok_iff,
    Prod.mk.injEq] at h
  obtain ⟨_, _, _, rfl, rfl⟩ := h
  exact ⟨rfl, rfl, rfl, rfl⟩

theorem frame_save (os : Platform) {input : NewLocalResult} (hid : input.runId = runId)
    (write : WriteOutcome) : Keeps (Frame runId) (save os input write) := by
  intro s hs
  unfold save
  cases hsave : ResultRecord.save os input s.store with
  | error e => exact ⟨hs, .refl _⟩
  | ok saved =>
    obtain ⟨record, store⟩ := saved
    have hkept : OthersKept runId s.store store := by
      simp only [ResultRecord.save, Result.bind_ok_iff, Result.exists_unit_iff,
        Result.pure_ok_iff, Prod.mk.injEq] at hsave
      obtain ⟨_, _, _, rfl, rfl⟩ := hsave
      exact ⟨fun id h => Function.update_of_ne (fun heq => h (heq.trans hid)) _ _,
        fun _ _ => rfl, fun _ _ => rfl⟩
    cases write with
    | stored => exact ⟨hs, hkept⟩
    | refused e => exact ⟨hs, .refl _⟩
    | unsynced e => exact ⟨hs, hkept⟩

theorem frame_executeLoaded (stateRoot : String) (options : RunOptions) (env : Surroundings)
    (provider : String) (loaded : LoadedRun) (judgeModel : Option String) :
    Keeps (Frame runId)
      (executeLoaded host.os stateRoot options env runId provider loaded judgeModel) := by
  refine frame_bind (frame_lift _) fun _ => frame_bind (frame_journal _ _) fun _ =>
    frame_bind (frame_executeCandidate _) fun _ => frame_bind (frame_journal _ _) fun _ =>
    frame_bind (frame_lift _) fun _ => frame_bind (frame_journal _ _) fun _ =>
    frame_bind (frame_lift _) fun _ => frame_bind (frame_lift _) fun _ =>
    frame_bind (frame_lift _) fun _ => ?_
  refine frame_bind (frame_save _ ?_ _) fun _ => frame_bind (frame_journal _ _) fun _ =>
    frame_bind (fun s => Frame.refl s) fun _ => ?_
  · rfl
  · exact frame_lift _

theorem frame_executeInner (stateRoot : String) (options : RunOptions) (env : Surroundings) :
    Keeps (Frame runId) (executeInner host stateRoot options env runId) := by
  refine frame_bind (frame_lift _) fun _ => frame_bind (frame_lift _) fun _ =>
    frame_bind (frame_lift _) fun _ => frame_bind (frame_journal _ _) fun _ =>
    frame_bind (frame_load _) fun _ => frame_bind (frame_journal _ _) fun _ =>
    frame_bind (frame_lift _) fun _ => frame_bind (frame_lift _) fun _ =>
    frame_bind (frame_journal _ _) fun _ => ?_
  exact frame_executeLoaded stateRoot options env _ _ _

theorem begin_runId {stateRoot taskReference agentReference : String} {processId : UInt32}
    {sequence : UInt64} {now : BitVec 128} {write : WriteOutcome} :
    (RunJournal.begin stateRoot taskReference agentReference processId sequence now
      write).1.memory.runId = RunJournal.beginRunId now processId sequence := by
  cases write <;> rfl

theorem othersKept_settle (env : Surroundings) (outcome : RunState × Result LocalResultRecord)
    (hid : outcome.1.memory.runId = runId) :
    OthersKept runId outcome.1.store (settle env outcome).1.store := by
  rcases outcome with ⟨s, e | completed⟩
  · exact (frame_journal env (.fail e) s hid).2
  · exact .refl _

/-- Whether it succeeds or not, a run leaves the other runs alone. -/
theorem othersKept_executeOptions (host : Host) (stateRoot : String) (options : RunOptions)
    (env : Surroundings) (files : RunFiles) :
    OthersKept env.runId files.store
      (executeOptions host stateRoot options env files).1.store := by
  unfold executeOptions
  have hbegin := @begin_runId stateRoot options.task options.agent env.processId env.sequence
    env.now env.begun
  generalize RunJournal.begin stateRoot options.task options.agent env.processId env.sequence
    env.now env.begun = started at hbegin ⊢
  rcases started with ⟨session, e | _⟩
  · have hid : session.memory.runId = env.runId := hbegin
    exact ⟨fun _ _ => rfl, fun id h => Function.update_of_ne (fun heq => h (heq.trans hid)) _ _,
      fun _ _ => rfl⟩
  · have hid : session.memory.runId = env.runId := hbegin
    dsimp only
    rw [hid]
    have hbegun : OthersKept env.runId files.store
        { files.store with
          journals := Function.update files.store.journals env.runId session.disk } :=
      ⟨fun _ _ => rfl, fun id h => Function.update_of_ne h _ _, fun _ _ => rfl⟩
    have hinner := @frame_executeInner host env.runId stateRoot options env
      { memory := session.memory, root := files.root
        store :=
          { files.store with
            journals := Function.update files.store.journals env.runId session.disk } } hid
    exact (hbegun.trans hinner.2).trans (othersKept_settle env _ hinner.1)

end Frame

section Success

variable {host : Host} {stateRoot : String} {options : RunOptions} {env : Surroundings}

theorem journal_ok {operation : Operation} {s t : RunState}
    (h : journal env operation s = (t, .ok ())) :
    t.root = s.root ∧ t.store.results = s.store.results := by
  have hfst : (journal env operation s).1 = t := congrArg Prod.fst h
  exact ⟨hfst ▸ rfl, hfst ▸ rfl⟩

theorem load_ok {loaded : LoadedRun} {s t : RunState}
    (h : load host options s = (t, .ok loaded)) :
    RunInput.loadLocks host options.taskLock options.candidateLock s.root =
      .ok (loaded, t.root) := by
  unfold load at h
  split at h
  · rename_i hload
    cases h
    exact hload
  · cases h

theorem save_ok {os : Platform} {input : NewLocalResult} {write : WriteOutcome} {s t : RunState}
    {record : LocalResultRecord} (h : save os input write s = (t, .ok record)) :
    ∃ store, ResultRecord.save os input s.store = .ok (record, store) ∧ write = .stored ∧
      t = { s with store := store } := by
  unfold save at h
  split at h
  · cases h
  · cases h
  · rename_i hsave
    cases h
    exact ⟨_, hsave, rfl, rfl⟩
  · cases h

theorem save_stored {os : Platform} {input : NewLocalResult} {s : RunState}
    {record : LocalResultRecord} {store : ResultStore}
    (h : ResultRecord.save os input s.store = .ok (record, store)) :
    save os input .stored s = ({ s with store := store }, .ok record) := by
  unfold save
  rw [h]

theorem settle_ok {outcome : RunState × Result LocalResultRecord} {files : RunFiles}
    {record : LocalResultRecord} (h : settle env outcome = (files, .ok record)) :
    outcome.2 = .ok record ∧ files = { root := outcome.1.root, store := outcome.1.store } := by
  rcases outcome with ⟨s, e | completed⟩
  · cases h
  · cases h
    exact ⟨rfl, rfl⟩

theorem executeLoaded_ok {os : Platform} {runId provider : String} {loaded : LoadedRun}
    {judgeModel : Option String} {s t : RunState} {record : LocalResultRecord}
    (h : executeLoaded os stateRoot options env runId provider loaded judgeModel s =
      (t, .ok record)) :
    record.runId = runId ∧ record.taskLockDigest = loaded.taskLockDigest ∧
      record.candidateLockDigest = loaded.candidateLockDigest ∧
      t.store.results runId = some record := by
  simp only [executeLoaded, bind_ok_iff, lift_ok_iff, pure_ok_iff] at h
  obtain ⟨_, _, _, _, _, _, run, _, _, _, _, _, _, _, _, _, _, _, judge, _, _, primary, _, _, score,
    r, _, _, s', hsave, _, s'', hcomplete, _, t', hpublish, rfl, rfl⟩ := h
  obtain ⟨store, hsaved, -, rfl⟩ := save_ok hsave
  obtain ⟨hid, htask, hcandidate, hresults⟩ := results_of_save hsaved
  refine ⟨hid, htask, hcandidate, ?_⟩
  have hpublished : s'' = t' := congrArg Prod.fst hpublish
  rw [← hpublished, (journal_ok hcomplete).2]
  simp only [hresults]
  exact Function.update_self _ _ _

theorem executeInner_ok {runId : String} {s : RunState} {record : LocalResultRecord}
    (h : (executeInner host stateRoot options env runId s).2 = .ok record) :
    (∃ loaded root, RunInput.loadLocks host options.taskLock options.candidateLock s.root =
        .ok (loaded, root) ∧ record.taskLockDigest = loaded.taskLockDigest ∧
        record.candidateLockDigest = loaded.candidateLockDigest) ∧
      record.runId = runId ∧
      (executeInner host stateRoot options env runId s).1.store.results runId = some record := by
  generalize hinner : executeInner host stateRoot options env runId s = inner at h
  rcases inner with ⟨t, result⟩
  subst h
  simp only [executeInner, bind_ok_iff, lift_ok_iff] at hinner
  obtain ⟨config, _, ⟨rfl, _⟩, _, _, ⟨rfl, _⟩, provider, _, ⟨rfl, _⟩, _, s₁, hready, loaded, s₂,
    hload, _, s₃, _, judgeModel, _, _, task, _, _, _, s₄, _, hloaded⟩ := hinner
  have hlocks := load_ok hload
  rw [(journal_ok hready).1] at hlocks
  obtain ⟨hid, htask, hcandidate, hresults⟩ := executeLoaded_ok hloaded
  exact ⟨⟨loaded, _, hlocks, htask, hcandidate⟩, hid, hresults⟩

/-- A completed run bound the locks it loaded. -/
theorem executeOptions_ok {files files' : RunFiles} {record : LocalResultRecord}
    (h : executeOptions host stateRoot options env files = (files', .ok record)) :
    (∃ loaded root, RunInput.loadLocks host options.taskLock options.candidateLock files.root =
        .ok (loaded, root) ∧ record.taskLockDigest = loaded.taskLockDigest ∧
        record.candidateLockDigest = loaded.candidateLockDigest) ∧
      record.runId = env.runId ∧ files'.store.results env.runId = some record := by
  unfold executeOptions at h
  have hbegin := @begin_runId stateRoot options.task options.agent env.processId env.sequence
    env.now env.begun
  generalize RunJournal.begin stateRoot options.task options.agent env.processId env.sequence
    env.now env.begun = started at hbegin h
  rcases started with ⟨session, e | _⟩
  · cases h
  · have hbegin : session.memory.runId = env.runId := hbegin
    dsimp only at h
    rw [hbegin] at h
    obtain ⟨hresult, rfl⟩ := settle_ok h
    have hinner := executeInner_ok hresult
    exact hinner

end Success

section Completion

variable {host : Host} {stateRoot : String} {options : RunOptions} {env : Surroundings}

/-- A valid record with a completed journal for it is loaded. -/
theorem load_of_completed {os : Platform} {store : ResultStore} {record : LocalResultRecord}
    {file : JournalFile} (hvalid : ResultRecord.validate os record record.runId = .ok ())
    (hresult : store.results record.runId = some record)
    (hjournal : store.journals record.runId = some file) (hloadable : RunJournal.Loadable file)
    (hrunId : file.runId = record.runId) (hstage : file.stage = .completed)
    (htask : file.taskLockDigest = some record.taskLockDigest)
    (hcandidate : file.candidateLockDigest = some record.candidateLockDigest)
    (hdigest : file.resultDigest = some record.resultDigest)
    (hpath : file.resultPath = some (ResultRecord.resultPath stateRoot record.runId))
    (hlog : ResultRecord.validateEventLog os record store = .ok ()) :
    ResultRecord.load os stateRoot store record.runId = .ok (some record) := by
  have hid := hvalid
  simp only [ResultRecord.validate, Result.bind_ok_iff, Result.exists_unit_iff] at hid
  simp only [ResultRecord.load, hresult, Result.bind_ok_iff, Result.exists_unit_iff,
    Result.ensure_ok_iff, Result.pure_ok_iff, hjournal]
  exact ⟨hid.1, hvalid, _, RunJournal.load_eq hrunId hloadable, hstage, ⟨htask, hcandidate⟩,
    hdigest, hpath, hlog, trivial⟩

variable {now : BitVec 128} (heffects : ∀ operation,
  env.effects operation = { clock := .ok now, write := .stored })

/-- The state after the journal was written with the given memory. -/
def RunState.withJournal (s : RunState) (memory : RunJournal) : RunState :=
  { s with
    memory := memory
    store :=
      { s.store with
        journals :=
          Function.update s.store.journals s.memory.runId (some memory.toJournalFile) } }

@[simp] theorem RunState.withJournal_memory (s : RunState) (memory : RunJournal) :
    (s.withJournal memory).memory = memory := rfl

@[simp] theorem RunState.withJournal_root (s : RunState) (memory : RunJournal) :
    (s.withJournal memory).root = s.root := rfl

@[simp] theorem RunState.withJournal_results (s : RunState) (memory : RunJournal) :
    (s.withJournal memory).store.results = s.store.results := rfl

@[simp] theorem RunState.withJournal_eventLogs (s : RunState) (memory : RunJournal) :
    (s.withJournal memory).store.eventLogs = s.store.eventLogs := rfl

@[simp] theorem RunState.withJournal_journals (s : RunState) (memory : RunJournal) :
    (s.withJournal memory).store.journals s.memory.runId = some memory.toJournalFile :=
  Function.update_self _ _ _

include heffects

theorem journal_advance {stage : RunStage} {s : RunState}
    (hopen : s.memory.stage.terminal = false) (hstage : stage.terminal = false)
    (hrank : stage.rank = s.memory.stage.rank + 1) :
    journal env (.advance stage) s =
      (s.withJournal { s.memory with stage := stage, updatedAtMs := now }, .ok ()) := by
  simp [journal, onJournal, RunJournal.apply, RunJournal.advance, RunJournal.commit,
    RunJournal.persist, heffects, hopen, hstage, hrank, RunState.withJournal]

theorem journal_bindLocks {task candidate : String} {s : RunState}
    (hready : s.memory.stage = .runtimeReady)
    (hfree : s.memory.taskLockDigest = none ∧ s.memory.candidateLockDigest = none)
    (htask : LockIdentity.validateDigest task = .ok ())
    (hcandidate : LockIdentity.validateDigest candidate = .ok ()) :
    journal env (.bindLocks task candidate) s =
      (s.withJournal
        { s.memory with
          taskLockDigest := some task
          candidateLockDigest := some candidate
          updatedAtMs := now }, .ok ()) := by
  simp [journal, onJournal, RunJournal.apply, RunJournal.bindLocks, RunJournal.commit,
    RunJournal.persist, heffects, hready, hfree, htask, hcandidate, RunState.withJournal]

theorem journal_complete {path digest : String} {s : RunState}
    (hjudging : s.memory.stage = .judging)
    (hdigest : LockIdentity.validateDigest digest = .ok ()) :
    journal env (.complete path digest) s =
      (s.withJournal
        { s.memory with
          stage := .completed
          updatedAtMs := now
          resultPath := some path
          resultDigest := some digest }, .ok ()) := by
  simp [journal, onJournal, RunJournal.apply, RunJournal.complete, RunJournal.commit,
    RunJournal.persist, heffects, hjudging, hdigest, RunState.withJournal]

omit heffects

/-- What the parts of a run answer, in order. -/
structure Answers where
  now : BitVec 128
  config : LocalConfig
  provider : String
  loaded : LoadedRun
  judgeModel : Option String
  task : TaskInfo
  run : CandidateRun
  judge : JudgeResult
  primary : MetricInfo
  score : String

/-- The loaded inputs with the images of the lock. -/
def Answers.resolved (a : Answers) : LoadedRun := { a.loaded with task := a.task }

def Answers.input (a : Answers) (options : RunOptions) (runId : String) : NewLocalResult :=
  newLocalResult options a.resolved runId a.provider a.judgeModel a.run a.primary a.score a.judge

/-- Every part of a run gives its answer and every write succeeds. -/
structure Faultless (env : Surroundings) (a : Answers) : Prop where
  begun : env.begun = .stored
  effects : ∀ operation, env.effects operation = { clock := .ok a.now, write := .stored }
  config : env.config = .ok a.config
  configured : checkConfiguredJudge env a.config = .ok ()
  preflight : env.preflight = .ok a.provider
  taskDigest : LockIdentity.validateDigest a.loaded.taskLockDigest = .ok ()
  candidateDigest : LockIdentity.validateDigest a.loaded.candidateLockDigest = .ok ()
  judgeModel : resolveJudgeModel env a.loaded.task a.loaded.judgeModel a.config = .ok a.judgeModel
  task : resolveTask env a.provider a.loaded = .ok a.task
  prepare : env.prepare = .ok ()
  candidate : env.candidate = .ok a.run
  submission : env.submission = .ok ()
  judge : env.judge = .ok a.judge
  primary : primaryMetric a.task = .ok a.primary
  score : (a.judge.metrics.lookup a.primary.name).bind Json.asStr = some a.score
  saved : env.saved = .stored
  published : env.published = .stored

/-- The record the answers make, and what its evaluation finds. -/
structure Recorded (os : Platform) (options : RunOptions) (env : Surroundings) (a : Answers)
    (record : LocalResultRecord) : Prop where
  record_eq : record =
    { (a.input options env.runId).record with resultDigest := record.resultDigest }
  valid : ResultRecord.validate os record env.runId = .ok ()
  eventLog : ∀ store : ResultStore, store.eventLogs env.runId = env.eventLog →
    ResultRecord.validateEventLog os record store = .ok ()

variable {a : Answers} {record : LocalResultRecord}

theorem Recorded.runId_eq {os : Platform} (h : Recorded os options env a record) :
    record.runId = env.runId := by
  rw [h.record_eq]
  rfl

theorem Recorded.resultDigest_valid {os : Platform} (h : Recorded os options env a record) :
    LockIdentity.validateDigest record.resultDigest = .ok () ∧
      ResultIdentity.calculate os record = .ok record.resultDigest := by
  have hvalid := h.valid
  simp only [ResultRecord.validate, Result.bind_ok_iff, Result.exists_unit_iff,
    Result.ensure_ok_iff] at hvalid
  obtain ⟨_, _, _, _, hdigest, _, hcalculate, rfl, _⟩ := hvalid
  exact ⟨hdigest, hcalculate⟩

/-- The identity of a record leaves its digest out. -/
theorem Recorded.save_eq {os : Platform} (h : Recorded os options env a record)
    (store : ResultStore) : ResultRecord.save os (a.input options env.runId) store =
      .ok (record,
        { store with results := Function.update store.results env.runId (some record) }) := by
  have hcalculate : ResultIdentity.calculate os (a.input options env.runId).record =
      .ok record.resultDigest := by
    rw [← h.resultDigest_valid.2, h.record_eq]
    rfl
  simp only [ResultRecord.save, hcalculate, Result.bind_ok_iff, Except.ok.injEq, exists_eq_left',
    Result.exists_unit_iff, Result.pure_ok_iff, ← h.record_eq]
  exact ⟨h.valid, rfl⟩

/-- The Candidate runs, the Judge runs, and the saved record is loaded. -/
theorem executeLoaded_completed {os : Platform} {s : RunState} (h : Faultless env a)
    (hrecord : Recorded os options env a record) (hrunId : s.memory.runId = env.runId)
    (hstage : s.memory.stage = .inputsResolved)
    (hloadable : RunJournal.Loadable s.memory.toJournalFile)
    (htask : s.memory.taskLockDigest = some a.loaded.taskLockDigest)
    (hcandidate : s.memory.candidateLockDigest = some a.loaded.candidateLockDigest) :
    ∃ t, executeLoaded os stateRoot options env env.runId a.provider a.resolved a.judgeModel s =
        (t, .ok record) ∧ t.root = s.root ∧
      ResultRecord.load os stateRoot t.store env.runId = .ok (some record) := by
  have hid := hrecord.runId_eq
  let running := s.withJournal { s.memory with stage := .candidateRunning, updatedAtMs := a.now }
  let left : RunState :=
    { running with
      store :=
        { running.store with
          eventLogs := Function.update running.store.eventLogs running.memory.runId
            env.eventLog } }
  let completed := left.withJournal
    { left.memory with stage := .candidateCompleted, updatedAtMs := a.now }
  let judging := completed.withJournal
    { completed.memory with stage := .judging, updatedAtMs := a.now }
  let saved : RunState :=
    { judging with
      store :=
        { judging.store with
          results := Function.update judging.store.results env.runId (some record) } }
  let final := saved.withJournal
    { saved.memory with
      stage := .completed
      updatedAtMs := a.now
      resultPath := some (ResultRecord.resultPath stateRoot env.runId)
      resultDigest := some record.resultDigest }
  have hload : ResultRecord.load os stateRoot final.store env.runId = .ok (some record) := by
    have hjournal : final.store.journals env.runId = some final.memory.toJournalFile := by
      rw [← hrunId]
      exact RunState.withJournal_journals saved _
    have hresults : final.store.results env.runId = some record := Function.update_self _ _ _
    have hevents : final.store.eventLogs env.runId = env.eventLog := by
      rw [← hrunId]
      exact Function.update_self _ _ _
    have hlog := hrecord.eventLog _ hevents
    have hvalid := hrecord.valid
    rw [← hid] at hjournal hresults hvalid ⊢
    refine load_of_completed hvalid hresults hjournal ?_ (hrunId.trans hid.symm) rfl
      (htask.trans ?_) (hcandidate.trans ?_) rfl ?_ hlog
    · exact
        { hloadable with
          resolved := .inr (.inr (congrArg Option.isSome htask))
          resultPath := rfl
          resultDigest := rfl
          resultDigestValid := hrecord.resultDigest_valid.1
          failure := by
            have hfailure := hloadable.failure
            rw [hstage] at hfailure
            exact hfailure }
    · rw [hrecord.record_eq]
      rfl
    · rw [hrecord.record_eq]
      rfl
    · rw [hid]
      rfl
  refine ⟨final, ?_, rfl, hload⟩
  simp only [executeLoaded, bind_ok_iff, lift_ok_iff, pure_ok_iff]
  refine ⟨(), s, ⟨rfl, h.prepare⟩, (), running,
    journal_advance h.effects (by rw [hstage]; rfl) rfl (by rw [hstage]; rfl),
    a.run, left, by rw [executeCandidate, h.candidate], (), completed,
    journal_advance h.effects rfl rfl rfl, (), _, ⟨rfl, h.submission⟩, (), judging,
    journal_advance h.effects rfl rfl rfl, a.judge, _, ⟨rfl, h.judge⟩, a.primary, _,
    ⟨rfl, h.primary⟩, a.score, _, ⟨rfl, Result.okOr_ok_iff.mpr h.score⟩, record, saved, ?_,
    (), final, journal_complete h.effects rfl hrecord.resultDigest_valid.1, (), final, ?_, rfl, rfl⟩
  · rw [h.saved]
    exact save_stored (hrecord.save_eq judging.store)
  · simp only [publishLatest, Prod.mk.injEq, true_and, Result.bind_ok_iff]
    exact ⟨_, hload, record, rfl, by rw [h.published]; rfl⟩

theorem executeOptions_completed {root : StateRoot} {files : RunFiles} (h : Faultless env a)
    (hload : RunInput.loadLocks host options.taskLock options.candidateLock files.root =
      .ok (a.loaded, root))
    (hrecord : Recorded host.os options env a record) :
    ∃ files', executeOptions host stateRoot options env files = (files', .ok record) ∧
      files'.root = root ∧
      ResultRecord.load host.os stateRoot files'.store env.runId = .ok (some record) := by
  let begun := (RunJournal.begin stateRoot options.task options.agent env.processId env.sequence
    env.now .stored).1
  let start : RunState :=
    { memory := begun.memory, root := files.root
      store :=
        { files.store with
          journals := Function.update files.store.journals begun.memory.runId begun.disk } }
  let ready := start.withJournal { start.memory with stage := .runtimeReady, updatedAtMs := a.now }
  let loaded : RunState := { ready with root := root }
  let bound := loaded.withJournal
    { loaded.memory with
      taskLockDigest := some a.loaded.taskLockDigest
      candidateLockDigest := some a.loaded.candidateLockDigest
      updatedAtMs := a.now }
  let resolved := bound.withJournal
    { bound.memory with stage := .inputsResolved, updatedAtMs := a.now }
  have hloadable : RunJournal.Loadable resolved.memory.toJournalFile :=
    { schema := rfl
      runId := RunJournal.validateRunId_beginRunId _ _ _
      bothLocks := rfl
      taskDigest := h.taskDigest
      candidateDigest := h.candidateDigest
      resolved := .inr (.inr rfl)
      resultPath := rfl
      resultDigest := rfl
      resultDigestValid := rfl
      failure := rfl }
  obtain ⟨t, hexecute, hroot, hloaded⟩ := @executeLoaded_completed stateRoot options env a record
    host.os resolved h hrecord rfl rfl hloadable rfl rfl
  refine ⟨{ root := t.root, store := t.store }, ?_, hroot, hloaded⟩
  have hinner : executeInner host stateRoot options env env.runId start = (t, .ok record) := by
    simp only [executeInner, bind_ok_iff, lift_ok_iff]
    exact ⟨a.config, start, ⟨rfl, h.config⟩, (), _, ⟨rfl, h.configured⟩, a.provider, _,
      ⟨rfl, h.preflight⟩, (), ready, journal_advance h.effects rfl rfl rfl, a.loaded, loaded,
      by rw [load, show ready.root = files.root from rfl, hload], (), bound,
      journal_bindLocks h.effects rfl ⟨rfl, rfl⟩ h.taskDigest h.candidateDigest, a.judgeModel, _,
      ⟨rfl, h.judgeModel⟩, a.task, _, ⟨rfl, h.task⟩, (), resolved,
      journal_advance h.effects rfl rfl rfl, hexecute⟩
  unfold executeOptions
  rw [h.begun]
  exact congrArg (settle env) hinner

end Completion

end A3sBench.BenchRun
