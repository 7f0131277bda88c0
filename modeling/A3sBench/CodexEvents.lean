import A3sBench.Json
import A3sBench.Text

/-!
# The events of a Codex run

`codex_run_loop.sh` starts Codex and resumes it while attempts are long enough;
all attempts write their events to one stream, which `parse_usage` reads once
the last of them has succeeded.
-/

namespace A3sBench.CodexEvents

def usizeMax : Nat := 2 ^ 64 - 1

/-- `model_candidate::ModelExecution`. -/
structure ModelExecution where
  promptTokens : Nat
  completionTokens : Nat
  totalTokens : Nat
  cacheReadTokens : Option Nat
  cacheWriteTokens : Option Nat
  toolCallsCount : Nat
  deriving DecidableEq

/-- `event.get("type").and_then(Value::as_str)`. -/
def eventType (event : Json) : Option String := (event.get "type").bind Json.asStr

def optionalUsizeField (value : Json) (name : String) : Result (Option Nat) :=
  match value.get name with
  | none => .ok none
  | some value =>
    match value.asU64 with
    | some n => .ok (some n.toNat)
    | none => .error ("Codex usage " ++ name ++ " is invalid")

def usizeField (value : Json) (name : String) : Result Nat := do
  let found ← optionalUsizeField value name
  okOr found ("Codex usage is missing " ++ name)

/-- The variables of `parse_usage` that follow the order of the turns. -/
structure TurnOrder where
  sawThreadStarted : Bool
  sawTurnStarted : Bool
  activeTurn : Bool
  malformedTurnOrder : Bool
  terminalTurn : Option Bool
  deriving DecidableEq

/-- All variables of `parse_usage`. -/
structure Scan extends TurnOrder where
  usage : Option ModelExecution
  toolCallsCount : Nat
  deriving DecidableEq

def Scan.start : Scan where
  usage := none
  toolCallsCount := 0
  sawThreadStarted := false
  sawTurnStarted := false
  activeTurn := false
  malformedTurnOrder := false
  terminalTurn := none

/-- A turn ends, well or not. -/
def TurnOrder.closeTurn (order : TurnOrder) (completed : Bool) : TurnOrder :=
  { order with
    malformedTurnOrder := order.malformedTurnOrder || !order.activeTurn
    activeTurn := false
    terminalTurn := some completed }

/-- The match on the type of an event. -/
def TurnOrder.onType (order : TurnOrder) (type : Option String) : TurnOrder :=
  if type = some "thread.started" then { order with sawThreadStarted := true }
  else if type = some "turn.started" then
    { order with
      malformedTurnOrder := order.malformedTurnOrder || order.activeTurn
      sawTurnStarted := true
      activeTurn := true
      terminalTurn := none }
  else if type = some "turn.completed" then order.closeTurn true
  else if type = some "turn.failed" then order.closeTurn false
  else order

def isToolCall (event : Json) : Bool :=
  eventType event = some "item.completed" &&
    ((event.pointer ["item", "type"]).bind Json.asStr) ∈
      [some "command_execution", some "mcp_tool_call", some "file_change"]

/-- The counts of the `usage` member of an event. -/
def readUsage (value : Json) (toolCallsCount : Nat) : Result ModelExecution := do
  let promptTokens ← usizeField value "input_tokens"
  let completionTokens ← usizeField value "output_tokens"
  let cacheReadTokens ← optionalUsizeField value "cached_input_tokens"
  pure
    { promptTokens := promptTokens
      completionTokens := completionTokens
      totalTokens := min usizeMax (promptTokens + completionTokens)
      cacheReadTokens := cacheReadTokens
      cacheWriteTokens := none
      toolCallsCount := toolCallsCount }

/-- The body of the loop of `parse_usage`. -/
def scanEvent (scan : Scan) (event : Json) : Result Scan := do
  let order := scan.toTurnOrder.onType (eventType event)
  let toolCallsCount := if isToolCall event then scan.toolCallsCount + 1 else scan.toolCallsCount
  match event.get "usage" with
  | none => pure { order with usage := scan.usage, toolCallsCount := toolCallsCount }
  | some value =>
    let usage ← readUsage value toolCallsCount
    pure { order with usage := some usage, toolCallsCount := toolCallsCount }

/-- What `parse_usage` checks after the last event. -/
def finishScan (scan : Scan) : Result (Option ModelExecution) := do
  ensure (scan.sawThreadStarted = true) "Codex event stream is missing thread.started"
  ensure (scan.sawTurnStarted = true) "Codex event stream is missing turn.started"
  ensure (scan.malformedTurnOrder = false ∧ scan.activeTurn = false)
    "Codex event stream has malformed turn ordering"
  ensure (scan.terminalTurn = some true) "Codex event stream did not end in a completed turn"
  pure scan.usage

/-- `parse_usage`, with `serde_json::from_str` given. -/
def parseUsage (fromStr : String → Result Json) (events : String) :
    Result (Option ModelExecution) := do
  let lines := (Text.lines events).filter (fun line => !Text.isBlank line)
  let scan ← lines.foldlM (fun scan line => do
    let event ← context "Codex emitted invalid JSONL" (fromStr line)
    scanEvent scan event) Scan.start
  finishScan scan

/-- One start of Codex: the lines it wrote, its status, and what the loop looks
at when it has ended. -/
structure Attempt where
  lines : List String
  status : Nat
  elapsed : Nat
  stopReviewAccepted : Bool
  deriving DecidableEq

def maxResumes : Nat := 100

def minRuntimeForResumeCentiseconds : Nat := 100

/-- The condition of the loop, its bound on resumes apart. -/
def mayResume (disableAutoResume : Bool) (last : Attempt) : Bool :=
  !last.stopReviewAccepted && !disableAutoResume &&
    minRuntimeForResumeCentiseconds ≤ last.elapsed

/-- The attempts after `last`, with this many resumes left. `next` answers with
the attempt that the machine makes as number `i`. -/
def resumes (disableAutoResume : Bool) (next : Nat → Attempt) :
    Nat → Nat → Attempt → List Attempt
  | 0, _, _ => []
  | left + 1, i, last =>
    if mayResume disableAutoResume last then
      next i :: resumes disableAutoResume next left (i + 1) (next i)
    else []

/-- The attempts of `codex_run_loop.sh`. -/
def runLoop (disableAutoResume : Bool) (next : Nat → Attempt) : List Attempt :=
  next 0 :: resumes disableAutoResume next maxResumes 1 (next 0)

/-- What the attempts leave in the event stream. -/
def output (attempts : List Attempt) : String :=
  String.join ((attempts.flatMap Attempt.lines).map (· ++ "\n"))

end A3sBench.CodexEvents
