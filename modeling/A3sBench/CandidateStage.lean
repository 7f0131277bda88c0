import A3sBench.BenchRun

/-!
# The Candidate stage

`execute_candidate` runs one of four kinds of Candidate and turns what it answers
into the status, the usage and the event evidence of the run. The usage of A3S
Code is read from the terminal result of its event stream.
-/

namespace A3sBench.A3sCode

open CodexEvents (ModelExecution eventType usizeMax)

def maxEventLineBytes : Nat := 16 * 1024 * 1024

/-- The variables of `parse_output`. -/
structure Scan where
  toolCallsCount : Nat
  usage : Option ModelExecution
  deriving DecidableEq

def optionalUsizeField (value : Json) (name : String) : Result (Option Nat) :=
  match value.get name with
  | none => .ok none
  | some .null => .ok none
  | some value =>
    match value.asU64 with
    | some n => .ok (some n.toNat)
    | none => .error ("A3S Code usage " ++ name ++ " is invalid")

def usizeField (value : Json) (name : String) : Result Nat := do
  let found ← optionalUsizeField value name
  okOr found ("A3S Code usage is missing " ++ name)

/-- The counts of the `usage` of a terminal result. -/
def readUsage (value : Json) (toolCallsCount : Nat) : Result ModelExecution := do
  let promptTokens ← usizeField value "prompt_tokens"
  let completionTokens ← usizeField value "completion_tokens"
  let totalTokens ← usizeField value "total_tokens"
  ensure (totalTokens = min usizeMax (promptTokens + completionTokens))
    "A3S Code usage total_tokens is inconsistent"
  let cacheReadTokens ← optionalUsizeField value "cache_read_tokens"
  let cacheWriteTokens ← optionalUsizeField value "cache_write_tokens"
  pure
    { promptTokens := promptTokens
      completionTokens := completionTokens
      totalTokens := totalTokens
      cacheReadTokens := cacheReadTokens
      cacheWriteTokens := cacheWriteTokens
      toolCallsCount := toolCallsCount }

/-- The arm of a terminal result. -/
def scanResult (scan : Scan) (value : Json) : Result Scan := do
  ensure (scan.usage = none) "A3S Code emitted duplicate terminal results"
  ensure ((value.get "schemaVersion").bind Json.asU64 = some 1 ∧
      (value.get "command").bind Json.asStr = some "code.exec" ∧
      (value.get "ok").bind Json.asBool = some true)
    "A3S Code emitted an invalid terminal result envelope"
  let data ← okOr (value.get "data") "A3S Code result is missing data"
  ensure ((data.get "toolPolicy").bind Json.asStr = some "local-workspace")
    "A3S Code did not retain the required local-workspace policy"
  let value ← okOr (data.get "usage") "A3S Code result is missing usage"
  let usage ← readUsage value scan.toolCallsCount
  pure { scan with usage := some usage }

def scanEvent (scan : Scan) (value : Json) : Result Scan :=
  if eventType value = some "event" ∧
      (value.pointer ["event", "type"]).bind Json.asStr = some "tool_execution_start" then
    .ok { scan with toolCallsCount := min usizeMax (scan.toolCallsCount + 1) }
  else if eventType value = some "result" then scanResult scan value
  else .ok scan

/-- The body of the loop, on what `read_line` gives. -/
def scanLine (fromStr : String → Result Json) (scan : Scan) (line : Result String) :
    Result Scan := do
  let line ← line
  ensure (Text.byteLength line ≤ maxEventLineBytes) "A3S Code emitted an oversized JSONL event"
  if Text.trimEnd line.toList = [] then pure scan
  else
    let value ← context "A3S Code emitted invalid JSONL"
      (fromStr (String.ofList (Text.trimEnd line.toList)))
    scanEvent scan value

/-- `parse_output`, on the lines of the output with their line breaks. -/
def parseOutput (fromStr : String → Result Json) (lines : List (Result String)) :
    Result ModelExecution := do
  let scan ← lines.foldlM (scanLine fromStr) { toolCallsCount := 0, usage := none }
  okOr scan.usage "A3S Code did not emit a terminal result"

end A3sBench.A3sCode

namespace A3sBench.BenchRun

/-- `CandidateExecution::completed` and `CandidateExecution::timed_out`. -/
def completedExecution : CandidateExecution := { status := .completed, timeoutSec := none }

def timedOutExecution (timeoutSec : UInt64) : CandidateExecution :=
  { status := .timedOut, timeoutSec := some timeoutSec }

/-- How a Candidate ended. -/
inductive CandidateOutcome (α : Type) where
  | completed (value : α)
  | timedOut

/-- What the Candidate of each protocol answers when it does not fail. The Codex
Candidate leaves its event log besides. -/
inductive CandidateAnswer where
  | a3sCode (outcome : CandidateOutcome ModelUsage)
  | codex (outcome : CandidateOutcome (Option ModelUsage)) (events : Bytes)
  | process (outcome : CandidateOutcome Unit)
  | model (outcome : CandidateOutcome ModelUsage)

/-- The Codex event log that is left. -/
def CandidateAnswer.eventLog : CandidateAnswer → Option Bytes
  | .codex _ events => some events
  | _ => none

/-- The arms of `execute_candidate`. -/
def candidateRun (os : Platform) (timeoutSec : UInt64) : CandidateAnswer → CandidateRun
  | .a3sCode (.completed usage) =>
    { execution := completedExecution, modelUsage := some usage, candidateEventLogDigest := none }
  | .a3sCode .timedOut =>
    { execution := timedOutExecution timeoutSec, modelUsage := none
      candidateEventLogDigest := none }
  | .codex (.completed usage) events =>
    { execution := completedExecution, modelUsage := usage
      candidateEventLogDigest := some ("sha256:" ++ os.sha256 events) }
  | .codex .timedOut events =>
    { execution := timedOutExecution timeoutSec, modelUsage := none
      candidateEventLogDigest := some ("sha256:" ++ os.sha256 events) }
  | .process (.completed ()) =>
    { execution := completedExecution, modelUsage := none, candidateEventLogDigest := none }
  | .process .timedOut =>
    { execution := timedOutExecution timeoutSec, modelUsage := none
      candidateEventLogDigest := none }
  | .model (.completed usage) =>
    { execution := completedExecution, modelUsage := some usage, candidateEventLogDigest := none }
  | .model .timedOut =>
    { execution := timedOutExecution timeoutSec, modelUsage := none
      candidateEventLogDigest := none }

/-- The Candidate of these surroundings is one that `execute_candidate` ran. -/
def Surroundings.Answered (os : Platform) (env : Surroundings) : Prop :=
  ∀ run, env.candidate = .ok run →
    ∃ timeoutSec answer, run = candidateRun os timeoutSec answer ∧ env.eventLog = answer.eventLog

/-- The evidence in the record is the digest of the log that was left. -/
theorem candidateRun_eventLog (os : Platform) (timeoutSec : UInt64) (answer : CandidateAnswer) :
    (candidateRun os timeoutSec answer).candidateEventLogDigest =
      answer.eventLog.map (fun events => "sha256:" ++ os.sha256 events) := by
  rcases answer with (_ | _) | ⟨_ | _, _⟩ | (_ | _) | (_ | _) <;> rfl

end A3sBench.BenchRun
