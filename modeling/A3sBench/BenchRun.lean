import A3sBench.JournalRuns
import A3sBench.Library.Action
import A3sBench.ResultRecord
import A3sBench.RunInput

/-!
# One run with locked inputs

`bench_run::execute_options` drives the journal through a run: it loads the
locks, binds their digests, executes the Candidate and the Judge and saves the
record. What the configuration, the Runtime, the Candidate and the Judge answer
is given.
-/

namespace A3sBench.BenchRun

open Library
open Lock
open ResultRecord (NewLocalResult ResultStore)
open RunInput (LoadedRun)
open RunJournal (Operation)

structure LocalConfig where
  path : Option String
  judgeModel : Option String

structure CandidateRun where
  candidateEventLogDigest : Option String
  execution : CandidateExecution
  modelUsage : Option ModelUsage

/-- What a run meets outside the code modelled here. -/
structure Surroundings where
  processId : UInt32
  sequence : UInt64
  now : BitVec 128
  /-- The first write of the journal. -/
  begun : WriteOutcome
  /-- The clock and the write of each later operation on the journal. -/
  effects : Operation → Effects
  config : Result LocalConfig
  /-- `config::resolve_model_route`. -/
  resolveModelRoute : String → String → Result Unit
  /-- The provider of `runtime::preflight`. -/
  preflight : Result String
  /-- The Task root has a directory `public/workspace`. -/
  embeddedWorkspace : Bool
  /-- The game, the workspaces and the imports. -/
  prepare : Result Unit
  candidate : Result CandidateRun
  /-- The Codex event log the Candidate leaves. -/
  eventLog : Option Bytes
  submission : Result Unit
  judge : Result JudgeResult
  saved : WriteOutcome
  published : WriteOutcome

/-- `RunOptions::locked`, with the files at its two paths. -/
structure RunOptions where
  task : String
  agent : String
  taskLock : LockFile TaskLock
  candidateLock : LockFile CandidateLock

structure RunState where
  memory : RunJournal
  root : StateRoot
  store : ResultStore

abbrev RunAction := Action RunState String

/-- An operation on the journal of the run and its file. -/
def onJournal (operation : Session → Session × Result Unit) : RunAction Unit := fun s =>
  let (session, result) :=
    operation { memory := s.memory, disk := s.store.journals s.memory.runId }
  ({ s with
      memory := session.memory
      store :=
        { s.store with
          journals := Function.update s.store.journals s.memory.runId session.disk } }, result)

def journal (env : Surroundings) (operation : Operation) : RunAction Unit :=
  onJournal (RunJournal.apply operation (env.effects operation))

/-- The configured Judge model has a route. -/
def checkConfiguredJudge (env : Surroundings) (config : LocalConfig) : Result Unit :=
  match config.path, config.judgeModel with
  | some path, some model => env.resolveModelRoute path model
  | _, _ => .ok ()

/-- `options.load`, for locked options. -/
def load (host : Host) (options : RunOptions) : RunAction LoadedRun := fun s =>
  match RunInput.loadLocks host options.taskLock options.candidateLock s.root with
  | .ok (loaded, root) => ({ s with root := root }, .ok loaded)
  | .error e => (s, .error e)

/-- The reference of the Judge model, when the Task asks for one. -/
def resolveJudgeModel (env : Surroundings) (task : TaskInfo) (lockedReference : Option String)
    (config : LocalConfig) : Result (Option String) :=
  if requiresJudgeModel task = false then .ok none
  else do
    let reference ← okOr lockedReference
      ("Task " ++ task.id.quote ++ " requires bench.judge_model in .a3s/config.acl")
    let path ← okOr config.path
      "Judge model gateway requires project-local or user-local .a3s/config.acl"
    env.resolveModelRoute path reference
    pure (some reference)

def resolveImage (locked : StringMap) (reference : String) (platform : Option String) :
    Result String :=
  okOr (locked.get (imageKey reference platform))
    ("TaskLock does not bind image " ++ reference.quote)

def resolveTaskImages (task : TaskInfo) (locked : StringMap) : Result TaskInfo := do
  let workImage ← resolveImage locked task.workImage task.workPlatform
  let workspaceSeed ← task.workspaceSeed.mapM (fun seed => do
    let image ← resolveImage locked seed.image seed.platform
    pure { seed with image := image })
  let legacyJudge ← task.legacyJudge.mapM (fun judge => do
    let image ← resolveImage locked judge.image judge.platform
    pure { judge with image := image })
  pure
    { task with workImage := workImage, workspaceSeed := workspaceSeed, legacyJudge := legacyJudge }

def validateOsRuntimeTask (env : Surroundings) (loaded : LoadedRun) : Result Unit := do
  ensure (loaded.task.schema = "a3s-bench/task/v1")
    ("os-runtime cannot enforce explicit a3s-bench/task/v2 resources; " ++
      "use the Docker Runtime")
  ensure (loaded.taskLockSchema = "a3s.bench.task-lock.v1" ∧ loaded.taskLockResources = none)
    ("os-runtime requires task/v1 to be bound by TaskLock v1 " ++
      "without explicit resources")
  ensure (loaded.candidate.protocol ≠ .codexExec ∧
      (loaded.model = none ∨ loaded.candidate.protocol = .a3sCodeExec))
    ("containerized Codex and model-backed Candidates " ++
      "require the Docker Runtime")
  ensure (loaded.task.legacyJudge = none) "os-runtime does not support legacy/game Judges yet"
  ensure (loaded.task.workspaceSeed = none) "os-runtime does not support OCI workspace seeds yet"
  ensure (env.embeddedWorkspace = true) "os-runtime requires an embedded public/workspace"

/-- The Task as the provider runs it. -/
def resolveTask (env : Surroundings) (provider : String) (loaded : LoadedRun) : Result TaskInfo :=
  if provider = "docker" then resolveTaskImages loaded.task loaded.resolvedImages
  else if provider = osRuntimeProvider then do
    validateOsRuntimeTask env loaded
    pure loaded.task
  else .error ("execution through configured Runtime " ++ provider.quote ++
    " is not implemented yet")

/-- `execute_candidate`, which leaves the event log. -/
def executeCandidate (env : Surroundings) : RunAction CandidateRun := fun s =>
  ({ s with
      store :=
        { s.store with
          eventLogs := Function.update s.store.eventLogs s.memory.runId env.eventLog } },
    env.candidate)

/-- The Task parser leaves one primary metric. -/
def primaryMetric (task : TaskInfo) : Result MetricInfo :=
  okOr (task.metrics.find? (fun metric => metric.role = "primary"))
    "Task parser guarantees one primary metric"

def judgeIdentity (assetIdentity : String) (model : Option String) : String :=
  match model with
  | some reference => assetIdentity ++ ";model=" ++ reference
  | none => assetIdentity

/-- `LocalResultRecord::save` with the write it meets. -/
def save (os : Platform) (input : NewLocalResult) (write : WriteOutcome) :
    RunAction LocalResultRecord := fun s =>
  match ResultRecord.save os input s.store, write with
  | .error e, _ => (s, .error e)
  | .ok _, .refused e => (s, .error e)
  | .ok (record, store), .stored => ({ s with store := store }, .ok record)
  | .ok (_, store), .unsynced e => ({ s with store := store }, .error e)

def written : WriteOutcome → Result Unit
  | .stored => .ok ()
  | .refused e => .error e
  | .unsynced e => .error e

/-- `LocalResultRecord::publish_latest`; nothing here reads the file it writes. -/
def publishLatest (os : Platform) (stateRoot runId : String) (write : WriteOutcome) :
    RunAction Unit := fun s =>
  (s, do
    let found ← ResultRecord.load os stateRoot s.store runId
    let _ ← okOr found ("cannot publish missing local result " ++ runId)
    written write)

/-- The record of the run. -/
def newLocalResult (options : RunOptions) (loaded : LoadedRun) (runId provider : String)
    (judgeModel : Option String) (run : CandidateRun) (primary : MetricInfo) (score : String)
    (judge : JudgeResult) : NewLocalResult :=
  { runId := runId
    taskId := loaded.task.id
    taskLockDigest := loaded.taskLockDigest
    agent := options.agent
    candidateLockDigest := loaded.candidateLockDigest
    agentIdentity := loaded.candidate.identity
    judgeIdentity := judgeIdentity loaded.judge.identity judgeModel
    runtimeProvider := provider
    model := loaded.model
    candidateExecution := run.execution
    modelUsage := run.modelUsage
    candidateEventLogDigest := run.candidateEventLogDigest
    primaryMetric := primary.name
    score := score
    judgeResult := judge }

/-- From the running Candidate to the saved record. -/
def executeLoaded (os : Platform) (stateRoot : String) (options : RunOptions) (env : Surroundings)
    (runId provider : String) (loaded : LoadedRun) (judgeModel : Option String) :
    RunAction LocalResultRecord := do
  .lift env.prepare
  journal env (.advance .candidateRunning)
  let run ← executeCandidate env
  journal env (.advance .candidateCompleted)
  .lift env.submission
  journal env (.advance .judging)
  let judge ← .lift env.judge
  let primary ← .lift (primaryMetric loaded.task)
  let score ← .lift (okOr ((judge.metrics.lookup primary.name).bind Json.asStr)
    "validated JudgeResult contains the primary metric")
  let record ← save os
    (newLocalResult options loaded runId provider judgeModel run primary score judge) env.saved
  journal env (.complete (ResultRecord.resultPath stateRoot runId) record.resultDigest)
  publishLatest os stateRoot runId env.published
  pure record

def executeInner (host : Host) (stateRoot : String) (options : RunOptions) (env : Surroundings)
    (runId : String) : RunAction LocalResultRecord := do
  let config ← .lift env.config
  .lift (checkConfiguredJudge env config)
  let provider ← .lift env.preflight
  journal env (.advance .runtimeReady)
  let loaded ← load host options
  journal env (.bindLocks loaded.taskLockDigest loaded.candidateLockDigest)
  let judgeModel ← .lift (resolveJudgeModel env loaded.task loaded.judgeModel config)
  let task ← .lift (resolveTask env provider loaded)
  journal env (.advance .inputsResolved)
  executeLoaded host.os stateRoot options env runId provider { loaded with task := task } judgeModel

/-- The run id `RunJournal::begin` makes. -/
def Surroundings.runId (env : Surroundings) : String :=
  RunJournal.beginRunId env.now env.processId env.sequence

/-- The files of the state root that a run reads and writes. -/
structure RunFiles where
  root : StateRoot
  store : ResultStore

/-- The error of a failed run, by what recording the failure gave. -/
def failureText (runId error : String) : Result Unit → String
  | .ok () => "run " ++ runId ++ " failed: " ++ error
  | .error journalError =>
    "could not persist terminal run failure: " ++ journalError ++ ": " ++ error

/-- How `execute_options` ends: a failure is recorded in the journal. -/
def settle (env : Surroundings) (outcome : RunState × Result LocalResultRecord) :
    RunFiles × Result LocalResultRecord :=
  match outcome.2 with
  | .ok completed => ({ root := outcome.1.root, store := outcome.1.store }, .ok completed)
  | .error e =>
    let (s, recorded) := journal env (.fail e) outcome.1
    ({ root := s.root, store := s.store }, .error (failureText s.memory.runId e recorded))

/-- `execute_options`. -/
def executeOptions (host : Host) (stateRoot : String) (options : RunOptions) (env : Surroundings)
    (files : RunFiles) : RunFiles × Result LocalResultRecord :=
  let (session, begun) := RunJournal.begin stateRoot options.task options.agent env.processId
    env.sequence env.now env.begun
  let store :=
    { files.store with
      journals := Function.update files.store.journals session.memory.runId session.disk }
  match begun with
  | .error e => ({ files with store := store }, .error e)
  | .ok () =>
    settle env (executeInner host stateRoot options env session.memory.runId
      { memory := session.memory, root := files.root, store := store })

end A3sBench.BenchRun
