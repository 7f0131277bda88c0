import A3sBench.AclSchema
import A3sBench.BenchRun
import A3sBench.Comparison

/-!
# Suites

A suite is planned once: `plan_suite` writes the locks of both Candidates and of
every Task and a state file. The loop of `execute` runs what the state does not
have yet, from the lock files it finds, and resuming starts the loop again from
the state file.
-/

namespace A3sBench.Suite

open BenchRun (LocalConfig RunFiles RunOptions Surroundings)
open Comparison (ComparisonSummary Scores)
open Json (nullable)
open Lock
open ResultRecord (ResultStore)

structure CandidateSpec where
  agent : String
  model : Option String
  reasoningEffort : Option String

structure SuiteSpec where
  id : String
  tasks : List String
  baseline : CandidateSpec
  candidate : CandidateSpec
  digest : String

structure SuiteMemberState where
  taskReference : String
  baselineRunId : Option String
  candidateRunId : Option String
  deriving DecidableEq

structure SuiteRunState where
  schema : String
  suiteRunId : String
  suiteId : String
  specDigest : String
  members : List SuiteMemberState
  deriving DecidableEq

section Spec

def validateSchema (root : Acl.Block) : Result Unit := do
  Acl.validateBlock root "bench_suite"
    { attributes := ["schema", "tasks"], children := ["candidate"], labels := .exactly 1 }
  ensure (root.name = "bench_suite") "suite root must be bench_suite"
  ensure (root.blocks.length = 2) "suite must define two candidates"
  root.blocks.forM (fun block => Acl.validateBlock block "bench_suite.candidate"
    { attributes := ["agent", "model", "reasoning_effort"], children := []
      labels := .exactly 1 })

def string (block : Acl.Block) (name : String) : Result String :=
  okOr ((block.get name).bind Acl.Value.asStr) (block.name ++ "." ++ name ++ " must be a string")

/-- An attribute that may be left out. -/
def optionalString (block : Acl.Block) (name : String) : Result (Option String) :=
  match block.get name with
  | none => .ok none
  | some _ => some <$> string block name

def stringList (block : Acl.Block) (name : String) : Result (List String) :=
  match block.get name with
  | some (.list items) =>
    items.mapM (fun item =>
      okOr item.asStr (block.name ++ "." ++ name ++ " items must be strings"))
  | _ => .error (block.name ++ "." ++ name ++ " must be a list")

def candidate (root : Acl.Block) (role : String) : Result CandidateSpec :=
  match root.blocks.filter (fun block => block.labels.head? = some role) with
  | [block] => do
    let reasoningEffort ← optionalString block "reasoning_effort"
    (reasoningEffort.toList).forM validateReasoningEffort
    let model ← optionalString block "model"
    let agent ← string block "agent"
    pure { agent := agent, model := model, reasoningEffort := reasoningEffort }
  | _ => .error ("suite requires one candidate " ++ role.quote)

def candidateJson (withEffort : Bool) (spec : CandidateSpec) : Json :=
  .object ([("agent", .string spec.agent), ("model", nullable .string spec.model)] ++
    if withEffort then [("reasoning_effort", nullable .string spec.reasoningEffort)] else [])

/-- The members of a `serde_json::json!` object are sorted by name. -/
def specJson (id : String) (tasks : List String) (baseline candidate : CandidateSpec) : Json :=
  let withEffort := baseline.reasoningEffort.isSome || candidate.reasoningEffort.isSome
  .object [("baseline", candidateJson withEffort baseline),
    ("candidate", candidateJson withEffort candidate), ("id", .string id),
    ("tasks", .array (tasks.map .string))]

def specDigest (os : Platform) (id : String) (tasks : List String)
    (baseline candidate : CandidateSpec) : String :=
  os.digest (specJson id tasks baseline candidate)

def rootBlock (document : Acl.Document) : Result Acl.Block :=
  match document.blocks with
  | [root] => .ok root
  | _ => .error "suite ACL must have one root block"

/-- `load_spec`, on what parsing the source gives. -/
def loadSpec (os : Platform) (source : Result Acl.Document) : Result SuiteSpec := do
  let document ← source
  let root ← rootBlock document
  validateSchema root
  let schema ← string root "schema"
  ensure (schema = "a3s-bench/suite/v1") "unsupported suite schema"
  let tasks ← stringList root "tasks"
  ensure (tasks ≠ []) "suite tasks must not be empty"
  ensure (tasks.length ≤ 128) "suite may contain at most 128 tasks"
  let baseline ← candidate root "baseline"
  let candidate ← candidate root "candidate"
  let id ← okOr root.labels.head? "index out of bounds"
  pure
    { id := id, tasks := tasks, baseline := baseline, candidate := candidate
      digest := specDigest os id tasks baseline candidate }

end Spec

/-- The two sides of a member, in the order they run. -/
inductive Role where
  | baseline
  | candidate
  deriving DecidableEq

def Role.text : Role → String
  | .baseline => "baseline"
  | .candidate => "candidate"

def SuiteMemberState.runId (member : SuiteMemberState) : Role → Option String
  | .baseline => member.baselineRunId
  | .candidate => member.candidateRunId

def SuiteMemberState.setRunId (member : SuiteMemberState) (role : Role) (runId : String) :
    SuiteMemberState :=
  match role with
  | .baseline => { member with baselineRunId := some runId }
  | .candidate => { member with candidateRunId := some runId }

def SuiteRunState.setRunId (state : SuiteRunState) (index : Nat) (role : Role) (runId : String) :
    SuiteRunState :=
  { state with members := state.members.modify index (·.setRunId role runId) }

/-- The directory of a suite run. -/
structure SuiteDirectory where
  runId : String
  baselineLock : LockFile CandidateLock
  candidateLock : LockFile CandidateLock
  /-- `task-{index}.lock.json`. -/
  taskLocks : Nat → LockFile TaskLock
  state : LockFile SuiteRunState

def SuiteDirectory.lockOf (directory : SuiteDirectory) : Role → LockFile CandidateLock
  | .baseline => directory.baselineLock
  | .candidate => directory.candidateLock

section Plan

variable (host : Host)

/-- The locks of the Tasks from this index on. -/
def lockTasks (judgeModel : Option String) (provider : String) : List String → Nat → StateRoot →
    (Nat → LockFile TaskLock) → Result (StateRoot × (Nat → LockFile TaskLock))
  | [], _, root, files => .ok (root, files)
  | task :: tasks, index, root, files => do
    let source ← host.taskSource task
    let (_, root, file) ←
      createTaskWithProvider host source judgeModel root (files index) provider
    lockTasks judgeModel provider tasks (index + 1) root (Function.update files index file)

def plannedState (spec : SuiteSpec) (runId : String) : SuiteRunState :=
  { schema := "a3s.bench.suite-run.v1"
    suiteRunId := runId
    suiteId := spec.id
    specDigest := spec.digest
    members := spec.tasks.map (fun task =>
      { taskReference := task, baselineRunId := none, candidateRunId := none }) }

/-- `plan_suite`, when the state is written and the staging directory renamed. -/
def planSuite (spec : SuiteSpec) (runId : String) (config : Result LocalConfig)
    (preflight : Result String) (root : StateRoot) :
    Result (SuiteDirectory × SuiteRunState × StateRoot) := do
  let (_, root, baselineLock) ← createCandidateWithCodexDefault host spec.baseline.agent
    spec.baseline.model spec.baseline.reasoningEffort none root none
  let (_, root, candidateLock) ← createCandidateWithCodexDefault host spec.candidate.agent
    spec.candidate.model spec.candidate.reasoningEffort none root none
  let config ← config
  let provider ← preflight
  let (root, taskLocks) ←
    lockTasks host config.judgeModel provider spec.tasks 0 root (fun _ => none)
  let state := plannedState spec runId
  pure
    ({ runId := runId, baselineLock := baselineLock, candidateLock := candidateLock
       taskLocks := taskLocks, state := some (.ok state) }, state, root)

end Plan

section Resume

def validateSuiteRunId (value : String) : Result Unit := do
  ensure (Text.startsWith value "suite-" = true ∧ Text.byteLength value ≤ 128)
    "invalid suite run ID"
  ensure (value.toList.all (fun c => Text.isAsciiAlphanumeric c || c == '-') = true)
    "invalid suite run ID"

/-- What `validate_state` checks of a member. -/
def validateMember (member : SuiteMemberState) (task : String) : Result Unit := do
  ensure (member.taskReference = task) "suite task order changed"
  (member.baselineRunId.toList ++ member.candidateRunId.toList).forM validateRunId

def validateState (state : SuiteRunState) (runId : String) (spec : SuiteSpec) : Result Unit := do
  ensure (state.schema = "a3s.bench.suite-run.v1") "unsupported suite state"
  ensure (state.suiteRunId = runId) "suite state identity mismatch"
  ensure (state.suiteId = spec.id ∧ state.specDigest = spec.digest)
    "suite source changed since the run was planned"
  ensure (state.members.length = spec.tasks.length) "suite member count changed"
  (state.members.zip spec.tasks).forM (fun pair => validateMember pair.1 pair.2)

def resumeState (directory : SuiteDirectory) (runId : String) (spec : SuiteSpec) :
    Result SuiteRunState := do
  validateSuiteRunId runId
  let state ← readLockFile directory.state
  validateState state runId spec
  pure state

end Resume

section Loop

def persistState (write : WriteOutcome) (directory : SuiteDirectory) (state : SuiteRunState) :
    SuiteDirectory × Result Unit :=
  match write with
  | .stored => ({ directory with state := some (.ok state) }, .ok ())
  | .refused e => (directory, .error e)
  | .unsynced e => ({ directory with state := some (.ok state) }, .error e)

def suiteRoot (stateRoot runId : String) : String := stateRoot ++ "/suites/" ++ runId

/-- The options of a member run, with the lock files found. -/
def memberOptions (stateRoot : String) (directory : SuiteDirectory) (index : Nat) (role : Role) :
    RunOptions :=
  let root := suiteRoot stateRoot directory.runId
  { task := root ++ "/task-" ++ toString index ++ ".lock.json"
    agent := root ++ "/" ++ role.text ++ ".candidate-lock.json"
    taskLock := directory.taskLocks index
    candidateLock := directory.lockOf role }

/-- The loop of `execute` at one of the two statements of an iteration. -/
structure Process where
  state : SuiteRunState
  index : Nat
  role : Role

/-- The loop at the statement that comes next. -/
def Process.next (process : Process) : Process :=
  match process.role with
  | .baseline => { process with role := .candidate }
  | .candidate => { process with index := process.index + 1, role := .baseline }

def memberFailure (process : Process) : String :=
  "suite " ++ process.state.suiteId ++ " " ++ process.role.text ++ " member " ++
    toString process.index ++ " failed; resume with --resume " ++ process.state.suiteRunId

/-- A statement of the loop, for a run the state does not have. -/
def runMember (host : Host) (stateRoot : String) (env : Surroundings) (write : WriteOutcome)
    (process : Process) (directory : SuiteDirectory) (files : RunFiles) :
    RunFiles × SuiteDirectory × Result Process :=
  let options := memberOptions stateRoot directory process.index process.role
  match BenchRun.executeOptions host stateRoot options env files with
  | (files, .error e) => (files, directory, .error (memberFailure process ++ ": " ++ e))
  | (files, .ok record) =>
    let state := process.state.setRunId process.index process.role record.runId
    let (directory, persisted) := persistState write directory state
    (files, directory, (fun _ => { process with state := state }.next) <$> persisted)

/-- A recorded run of a member and its result. -/
def loadResult (os : Platform) (stateRoot : String) (store : ResultStore) (role : Role)
    (runId : String) : Result LocalResultRecord := do
  let found ← ResultRecord.load os stateRoot store runId
  okOr found ("suite " ++ role.text ++ " result is unavailable")

def loadPair (os : Platform) (stateRoot : String) (store : ResultStore)
    (member : SuiteMemberState) : Result (LocalResultRecord × LocalResultRecord) := do
  let baselineId ← okOr member.baselineRunId "suite baseline result is incomplete"
  let candidateId ← okOr member.candidateRunId "suite candidate result is incomplete"
  let baseline ← loadResult os stateRoot store .baseline baselineId
  let candidate ← loadResult os stateRoot store .candidate candidateId
  pure (baseline, candidate)

def loadPairs (os : Platform) (stateRoot : String) (store : ResultStore) (state : SuiteRunState) :
    Result (List (LocalResultRecord × LocalResultRecord)) :=
  state.members.mapM (loadPair os stateRoot store)

/-- What `execute` does after the loop. -/
def compare (os : Platform) (scores : Scores) (stateRoot : String) (store : ResultStore)
    (state : SuiteRunState) : Result ComparisonSummary := do
  let pairs ← loadPairs os stateRoot store state
  Comparison.comparePairs scores pairs

end Loop

end A3sBench.Suite
