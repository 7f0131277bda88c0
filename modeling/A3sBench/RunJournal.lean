import A3sBench.Digest
import A3sBench.Library.Runs

/-!
# The run journal

Every operation first edits the journal in memory and then writes the whole
record to its file. The clock or the write can fail in between, and then the
edited memory stays: the file and the memory have to be followed separately.
-/

namespace A3sBench

inductive RunStage where
  | planned
  | runtimeReady
  | inputsResolved
  | candidateRunning
  | candidateCompleted
  | judging
  | completed
  | failed
  deriving DecidableEq, Repr

namespace RunStage

def rank : RunStage → Nat
  | planned => 0
  | runtimeReady => 1
  | inputsResolved => 2
  | candidateRunning => 3
  | candidateCompleted => 4
  | judging => 5
  | completed | failed => 6

def terminal : RunStage → Bool
  | completed | failed => true
  | _ => false

/-- The derived `Debug` rendering. -/
def debug : RunStage → String
  | planned => "Planned"
  | runtimeReady => "RuntimeReady"
  | inputsResolved => "InputsResolved"
  | candidateRunning => "CandidateRunning"
  | candidateCompleted => "CandidateCompleted"
  | judging => "Judging"
  | completed => "Completed"
  | failed => "Failed"

theorem rank_le_six (stage : RunStage) : stage.rank ≤ 6 := by
  cases stage <;> decide

theorem rank_eq_six_iff (stage : RunStage) : stage.rank = 6 ↔ stage.terminal = true := by
  cases stage <;> decide

end RunStage

/-- The serialized fields of the journal. -/
structure JournalFile where
  schema : String
  runId : String
  taskReference : String
  agentReference : String
  taskLockDigest : Option String
  candidateLockDigest : Option String
  stage : RunStage
  updatedAtMs : BitVec 128
  resultPath : Option String
  resultDigest : Option String
  error : Option String
  deriving DecidableEq, Repr

/-- The journal in memory: the file's fields and the skipped `path`. -/
structure RunJournal extends JournalFile where
  path : String
  deriving DecidableEq, Repr

/-- What one atomic write of the journal file does. A rename that is followed
by a failing sync of the directory has replaced the file all the same. -/
inductive WriteOutcome where
  | stored
  | refused (error : String)
  | unsynced (error : String)
  deriving DecidableEq, Repr

/-- The clock reading and the write that one operation meets. -/
structure Effects where
  clock : Result (BitVec 128)
  write : WriteOutcome

/-- A journal in use: the value in memory and the file at its path. -/
structure Session where
  memory : RunJournal
  disk : Option JournalFile
  deriving DecidableEq, Repr

/-- `run_journal::validate_run_id`. -/
def validateRunId (runId : String) : Result Unit :=
  ensure (Text.startsWith runId "local-" = true ∧ Text.byteLength runId ≤ 128 ∧
      runId.toList.all (fun c => Text.isAsciiAlphanumeric c || c == '-') = true)
    "invalid run ID"

namespace RunJournal

def journalSchema : String := "a3s.bench.run-journal.v3"

def filePath (stateRoot runId : String) : String := stateRoot ++ "/runs/" ++ runId ++ ".json"

/-- `RunJournal::persist`. -/
def persist (write : WriteOutcome) (s : Session) : Session × Result Unit :=
  match write with
  | .stored => ({ s with disk := some s.memory.toJournalFile }, .ok ())
  | .refused e => (s, .error e)
  | .unsynced e => ({ s with disk := some s.memory.toJournalFile }, .error e)

def beginRunId (now : BitVec 128) (processId : UInt32) (sequence : UInt64) : String :=
  "local-" ++ toString now.toNat ++ "-" ++ toString processId.toNat ++ "-" ++
    toString sequence.toNat

/-- `RunJournal::begin`, after `runs` was secured and the clock was read. -/
def begin (stateRoot taskReference agentReference : String) (processId : UInt32)
    (sequence : UInt64) (now : BitVec 128) (write : WriteOutcome) : Session × Result Unit :=
  let runId := beginRunId now processId sequence
  persist write
    { memory :=
        { schema := journalSchema
          path := filePath stateRoot runId
          runId := runId
          taskReference := taskReference
          agentReference := agentReference
          taskLockDigest := none
          candidateLockDigest := none
          stage := .planned
          updatedAtMs := now
          resultPath := none
          resultDigest := none
          error := none }
      disk := none }

/-- The common tail of the operations: `updated_at_ms` is read after the first
edit, the remaining fields are set after it, and the record is persisted. -/
def commit (fx : Effects) (first : RunJournal) (rest : RunJournal → RunJournal) (s : Session) :
    Session × Result Unit :=
  match fx.clock with
  | .error e => ({ s with memory := first }, .error e)
  | .ok now => persist fx.write { s with memory := rest { first with updatedAtMs := now } }

def advance (stage : RunStage) (fx : Effects) (s : Session) : Session × Result Unit :=
  if s.memory.stage.terminal then
    (s, .error "terminal run journal cannot advance")
  else if ¬(stage.terminal = false ∧ stage.rank = s.memory.stage.rank + 1) then
    (s, .error ("invalid run journal transition from " ++ s.memory.stage.debug ++ " to " ++
      stage.debug))
  else
    commit fx { s.memory with stage := stage } id s

def bindLocks (taskDigest candidateDigest : String) (fx : Effects) (s : Session) :
    Session × Result Unit :=
  if s.memory.stage ≠ .runtimeReady then
    (s, .error "run locks can only be bound after Runtime readiness")
  else if ¬(s.memory.taskLockDigest = none ∧ s.memory.candidateLockDigest = none) then
    (s, .error "run locks are already bound")
  else
    match LockIdentity.validateDigest taskDigest, LockIdentity.validateDigest candidateDigest with
    | .error e, _ => (s, .error e)
    | .ok (), .error e => (s, .error e)
    | .ok (), .ok () =>
      commit fx
        { s.memory with
          taskLockDigest := some taskDigest
          candidateLockDigest := some candidateDigest } id s

def complete (resultPath resultDigest : String) (fx : Effects) (s : Session) :
    Session × Result Unit :=
  if s.memory.stage ≠ .judging then
    (s, .error "run is not being judged")
  else
    match LockIdentity.validateDigest resultDigest with
    | .error e => (s, .error e)
    | .ok () =>
      commit fx { s.memory with stage := .completed }
        (fun m => { m with resultPath := some resultPath, resultDigest := some resultDigest }) s

def fail (error : String) (fx : Effects) (s : Session) : Session × Result Unit :=
  if s.memory.stage.terminal then (s, .ok ())
  else
    commit fx { s.memory with stage := .failed } (fun m => { m with error := some error }) s

/-- `validate_digest` on the digest of an optional field. -/
def validateOptionalDigest : Option String → Result Unit
  | none => .ok ()
  | some value => LockIdentity.validateDigest value

/-- `RunJournal::load`, on the file found at the path of `run_id`. -/
def load (stateRoot : String) (disk : Option JournalFile) (runId : String) : Result RunJournal := do
  validateRunId runId
  let path := filePath stateRoot runId
  let journal ← okOr disk ("run journal is unavailable at " ++ path)
  ensure (journal.schema = journalSchema) "unsupported run journal schema"
  ensure (journal.runId = runId) "run journal identity mismatch"
  ensure (journal.taskLockDigest.isSome = journal.candidateLockDigest.isSome)
    "run journal lock binding is incomplete"
  validateOptionalDigest journal.taskLockDigest
  validateOptionalDigest journal.candidateLockDigest
  ensure (journal.stage = .failed ∨ journal.stage.rank < RunStage.inputsResolved.rank ∨
      journal.taskLockDigest.isSome = true)
    "resolved run journal has no lock binding"
  ensure (decide (journal.stage = .completed) = journal.resultPath.isSome)
    "run journal result binding is invalid"
  ensure (decide (journal.stage = .completed) = journal.resultDigest.isSome)
    "run journal result digest binding is invalid"
  validateOptionalDigest journal.resultDigest
  ensure (decide (journal.stage = .failed) = journal.error.isSome)
    "run journal failure binding is invalid"
  pure { journal with path := path }

end RunJournal

end A3sBench
