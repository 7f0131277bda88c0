import A3sBench.Json
import A3sBench.Library.Runs

/-!
# The game server

The handlers of `game_server_app.py`, one block under a lock at a time. A
session is named by the place of its object, since ids are drawn again once
they are free.
-/

namespace A3sBench.GameServer

open Library (System)

/-- A C `int`, which is what the environment reports scores as. -/
abbrev CInt : Type := {n : ℤ // -2 ^ 31 ≤ n ∧ n < 2 ^ 31}

instance instZeroCInt : Zero CInt := ⟨⟨0, by decide⟩⟩

structure Config where
  maxActiveSessions : Nat
  /-- The check of `create_app`. -/
  atLeastOne : 1 ≤ maxActiveSessions
  /-- How the quotient of two integers is read back. -/
  quotient : ℤ → ℤ → String
  /-- How an integer that does not fit 64 bits is read back. -/
  wide : ℤ → String

/-- An element of `session.steps`. -/
structure GameStep where
  move : Nat
  action : String
  observation : String
  score : CInt
  peakScore : CInt
  maxScore : CInt
  done : Bool
  deriving DecidableEq

structure GameSessionState where
  sessionId : String
  gameNumber : Nat
  /-- `env` is not `None`. -/
  env : Bool
  observation : String
  moves : Nat
  score : CInt
  peak : CInt
  maximum : CInt
  done : Bool
  steps : List GameStep

/-- `GameSessionState.__init__`. -/
def newSession (sessionId : String) (gameNumber : Nat) (observation : String) (maximum : CInt) :
    GameSessionState where
  sessionId := sessionId
  gameNumber := gameNumber
  env := true
  observation := observation
  moves := 0
  score := 0
  peak := 0
  maximum := maximum
  done := false
  steps := []

/-- An element of `state.history`. -/
structure Entry where
  /-- The session it was made from, which the dictionary does not name. -/
  object : Nat
  gameNumber : Nat
  sessionId : String
  score : CInt
  finalScore : CInt
  peakScore : CInt
  maxScore : CInt
  moves : Nat
  steps : List GameStep
  passRate : String
  deriving DecidableEq

/-- The entry that `archive_session` builds. -/
def entryOf (c : Config) (object : Nat) (session : GameSessionState) : Entry where
  object := object
  gameNumber := session.gameNumber
  sessionId := session.sessionId
  score := session.score
  finalScore := session.score
  peakScore := session.peak
  maxScore := session.maximum
  moves := session.moves
  steps := session.steps
  passRate :=
    if 0 < session.maximum.val then c.quotient session.score.val session.maximum.val else "0.0"

/-- What a handler does once a session is archived. -/
inductive After where
  /-- `/new` starts the game that takes the place of the archived one. -/
  | startGame (sessionId : String)
  | respond
  /-- `/close-all` archives the rest. -/
  | closeRest (rest : List Nat)
  deriving DecidableEq

/-- Where a request stands: the block its handler runs next. -/
inductive Phase where
  | idle
  | waiting
  | choosing
  | starting (sessionId : String)
  | inserting (sessionId : String) (observation : String) (maximum : CInt)
  | releasing
  | stepping (sessionId : String) (action : String)
  | playing (sessionId : String) (object : Nat) (action : String)
  | leaving (sessionId : String) (object : Nat)
  | closing (sessionId : String)
  | closingAll
  | archiving (object : Nat) (after : After)
  | appending (object : Nat) (entry : Entry) (after : After)
  /-- `/close-all` has answered. -/
  | closed
  /-- `/history` has answered. -/
  | answered (entries : List Entry)
  | finished
  deriving DecidableEq

inductive Call where
  | newGame
  | step (sessionId : String) (action : String)
  | close (sessionId : String)
  /-- `/close-all`, and `/history` once it is answered. -/
  | finish (clientHost : Option String)

structure State where
  /-- `state.sessions`, in the order of insertion. -/
  sessions : List (String × Nat)
  history : List Entry
  nextGameNumber : Nat
  /-- The request that holds `new_lock`. -/
  newLock : Option Nat
  object : Nat → GameSessionState
  nextObject : Nat
  request : Nat → Phase
  /-- The sessions that had completed a step when the `/close-all` of a request
  was received. -/
  received : Nat → List Nat

/-- `create_app`. -/
def start : State where
  sessions := []
  history := []
  nextGameNumber := 1
  newLock := none
  object := fun _ => { newSession "" 0 "" 0 with env := false }
  nextObject := 0
  request := fun _ => .idle
  received := fun _ => []

/-- `require_internal_request`. -/
def requireInternalRequest (clientHost : Option String) : Bool :=
  clientHost = some "127.0.0.1" || clientHost = some "::1"

/-- What the environment answers to `step` and then to `get_score`. -/
inductive Play where
  | stepFails
  | scoreFails (observation : String) (done : Bool)
  | played (observation : String) (done : Bool) (score : CInt)

/-- What a block is answered by the world outside, where it asks. -/
inductive Answer where
  | nothing
  /-- The id that the loop over `uuid4` ends with. -/
  | uuid (sessionId : String)
  /-- A started environment with its first observation and maximum. -/
  | game (started : Option (String × CInt))
  | play (play : Play)

namespace State

def goto (s : State) (r : Nat) (phase : Phase) : State :=
  { s with request := Function.update s.request r phase }

def setObject (s : State) (object : Nat) (session : GameSessionState) : State :=
  { s with object := Function.update s.object object session }

def keys (s : State) : List String := s.sessions.map Prod.fst

end State

/-- Item assignment on a dictionary. -/
def setItem (sessions : List (String × Nat)) (key : String) (object : Nat) : List (String × Nat) :=
  if key ∈ sessions.map Prod.fst then
    sessions.map (fun p => if p.1 = key then (key, object) else p)
  else sessions ++ [(key, object)]

/-- `dict.pop`. -/
def pop (sessions : List (String × Nat)) (key : String) : List (String × Nat) :=
  sessions.filter (fun p => p.1 ≠ key)

/-- The rest of the loop of `close_all`. -/
def sweep : List Nat → Phase
  | [] => .closed
  | object :: rest => .archiving object (.closeRest rest)

def After.next : After → Phase
  | .startGame sessionId => .starting sessionId
  | .respond => .finished
  | .closeRest rest => sweep rest

/-- The request reaches its handler. -/
def receive (s : State) (r : Nat) : Call → State
  | .newGame => s.goto r .waiting
  | .step sessionId action => s.goto r (.stepping sessionId action)
  | .close sessionId => s.goto r (.closing sessionId)
  | .finish clientHost =>
    if requireInternalRequest clientHost then
      { s with
        received := Function.update s.received r
          ((List.range s.nextObject).filter (fun o => (s.object o).steps ≠ [])) }.goto r
        .closingAll
    else s.goto r .finished

/-- `new_game` up to the environment: the id and, at capacity, the oldest session. -/
def choose (c : Config) (s : State) (r : Nat) (sessionId : String) : Option State :=
  if sessionId ∈ s.keys then none
  else if s.sessions.length < c.maxActiveSessions then some (s.goto r (.starting sessionId))
  else
    match s.sessions with
    | [] => none
    | (_, oldest) :: rest =>
      some ({ s with sessions := rest }.goto r (.archiving oldest (.startGame sessionId)))

/-- The end of `new_game`, under `state.lock`. -/
def insert (s : State) (r : Nat) (sessionId observation : String) (maximum : CInt) : State :=
  { s.setObject s.nextObject (newSession sessionId s.nextGameNumber observation maximum) with
    sessions := setItem s.sessions sessionId s.nextObject
    nextGameNumber := s.nextGameNumber + 1
    nextObject := s.nextObject + 1
    request := Function.update s.request r .releasing }

/-- The session after a move. -/
def GameSessionState.play (session : GameSessionState) (action observation : String) (done : Bool)
    (score : CInt) : GameSessionState :=
  let moves := session.moves + 1
  let peak := max session.peak score
  { session with
    done := done
    observation := observation
    moves := moves
    score := score
    peak := peak
    steps := session.steps ++
      [{ move := moves
         action := action
         observation := observation
         score := score
         peakScore := peak
         maxScore := session.maximum
         done := done }] }

/-- `step` under the lock of the session. -/
def play (s : State) (r : Nat) (sessionId : String) (object : Nat) (action : String)
    (answer : Play) : State :=
  let session := s.object object
  if session.done ∨ session.env = false then s.goto r .finished
  else
    match answer with
    | .stepFails => s.goto r .finished
    | .scoreFails observation done =>
      (s.setObject object
          { session with
            done := done
            observation := observation
            moves := session.moves + 1 }).goto r
        .finished
    | .played observation done score =>
      (s.setObject object (session.play action observation done score)).goto r
        (if done then .leaving sessionId object else .finished)

/-- The end of `step` for a game that is over. -/
def leave (s : State) (r : Nat) (sessionId : String) (object : Nat) : State :=
  if s.sessions.lookup sessionId = some object then
    { s with sessions := pop s.sessions sessionId }.goto r (.archiving object .respond)
  else s.goto r .finished

def close (s : State) (r : Nat) (sessionId : String) : State :=
  match s.sessions.lookup sessionId with
  | none => s.goto r .finished
  | some object =>
    { s with sessions := pop s.sessions sessionId }.goto r (.archiving object .respond)

def closeAll (s : State) (r : Nat) : State :=
  { s with sessions := [] }.goto r (sweep (s.sessions.map Prod.snd))

/-- `archive_session` under the lock of the session. -/
def archive (c : Config) (s : State) (r object : Nat) (after : After) : State :=
  let session := s.object object
  (s.setObject object { session with env := false }).goto r
    (.appending object (entryOf c object session) after)

/-- `archive_session` under `state.lock`. -/
def append (s : State) (r : Nat) (entry : Entry) (after : After) : State :=
  { s with history := s.history ++ [entry] }.goto r after.next

/-- The next block of a request, if it can run. -/
def block (c : Config) (s : State) (r : Nat) (answer : Answer) : Option State :=
  match s.request r, answer with
  | .waiting, _ =>
    if s.newLock = none then some ({ s with newLock := some r }.goto r .choosing) else none
  | .choosing, .uuid sessionId => choose c s r sessionId
  | .starting sessionId, .game (some (observation, maximum)) =>
    some (s.goto r (.inserting sessionId observation maximum))
  | .starting _, .game none => some (s.goto r .releasing)
  | .inserting sessionId observation maximum, _ => some (insert s r sessionId observation maximum)
  | .releasing, _ => some ({ s with newLock := none }.goto r .finished)
  | .stepping sessionId action, _ =>
    match s.sessions.lookup sessionId with
    | none => some (s.goto r .finished)
    | some object => some (s.goto r (.playing sessionId object action))
  | .playing sessionId object action, .play answer => some (play s r sessionId object action answer)
  | .leaving sessionId object, _ => some (leave s r sessionId object)
  | .closing sessionId, _ => some (close s r sessionId)
  | .closingAll, _ => some (closeAll s r)
  | .archiving object after, _ => some (archive c s r object after)
  | .appending _ entry after, _ => some (append s r entry after)
  | .closed, _ => some (s.goto r (.answered s.history))
  | _, _ => none

inductive Event where
  | receive (r : Nat) (call : Call)
  | block (r : Nat) (answer : Answer)

def apply (c : Config) (s : State) : Event → Option State
  | .receive r call => if s.request r = .idle then some (receive s r call) else none
  | .block r answer => block c s r answer

/-- The server with any number of requests in flight. -/
def serverSystem (c : Config) : System State Event where
  init s := s = start
  step s event s' := apply c s event = some s'

/-! ## `/history` -/

/-- `json.dumps` of an integer, read back by `serde_json`. -/
def integer (c : Config) (n : ℤ) : Json :=
  if 0 ≤ n ∧ n < 2 ^ 64 then .number (.posInt (UInt64.ofNat n.toNat))
  else if n < 0 ∧ -2 ^ 63 ≤ n then .number (.negInt n)
  else .number (.float (c.wide n))

def GameStep.toJson (c : Config) (step : GameStep) : Json :=
  .object
    [("move", integer c step.move), ("action", .string step.action),
      ("observation", .string step.observation), ("score", integer c step.score.val),
      ("peak_score", integer c step.peakScore.val), ("max_score", integer c step.maxScore.val),
      ("done", .bool step.done)]

def Entry.round (entry : Entry) : String := "game-" ++ toString entry.gameNumber

def Entry.toJson (c : Config) (entry : Entry) : Json :=
  .object
    [("type", .string "game"), ("round", .string entry.round),
      ("session_id", .string entry.sessionId), ("score", integer c entry.score.val),
      ("final_score", integer c entry.finalScore.val),
      ("peak_score", integer c entry.peakScore.val), ("max_score", integer c entry.maxScore.val),
      ("moves", integer c entry.moves), ("steps", .array (entry.steps.map (GameStep.toJson c))),
      ("pass_rate", .number (.float entry.passRate))]

/-- Python's `max` with a key: the first of the greatest. -/
def best (entries : List Entry) : Option Entry :=
  @List.argmax Entry ℤ Int.instLinearOrder.toPreorder Int.decLt (fun entry => entry.score.val)
    entries

def historyResponse (c : Config) (entries : List Entry) : Json :=
  match best entries with
  | none => .object
      [("best_score", integer c 0), ("best_pass_rate", .number (.float "0.0")),
        ("best_round", .string ""), ("entries", .array [])]
  | some best => .object
      [("best_score", integer c best.score.val), ("best_pass_rate", .number (.float best.passRate)),
        ("best_round", .string best.round), ("entries", .array (entries.map (Entry.toJson c)))]

end A3sBench.GameServer
