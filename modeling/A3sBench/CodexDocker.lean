import A3sBench.Library.Deadline
import A3sBench.StableAbsence
import A3sBench.StaleSweep

/-!
# A Codex run and its Docker objects

The run makes containers, a network and volumes through one `docker` client after
another; its guard removes them all, and then the private Codex home. Docker goes
on between the commands: it may finish a command whose client was killed, and other
programs come and go under the same names.
-/

namespace A3sBench.CodexDocker

open Library Library.Action StaleSweep
open CodexCleanup (Round StableZeroWindow containerCleanupRetryTimeout pendingMutationStableZero)

/-! ## Docker -/

/-- Where an object came from: a command that its client waited for, a command that outlived its
client, another program. -/
inductive Arrival where
  | answered
  | late (killed landed : Nat)
  | foreign

structure DockerObject where
  id : Nat
  /-- `a3s.bench.codex.owner` -/
  owner : String
  internal : Bool
  arrival : Arrival

inductive DockerCommand where
  | inspect (key : Key)
  /-- With the volumes that a container mounts. -/
  | create (key : Key) (volumes : List String)
  /-- A container goes by its id, the others go by their names. -/
  | remove (key : Key) (id : Option String)
  | other

structure CommandOutput where
  success : Bool
  status : String
  stdout : String
  stderr : String
  stdoutTruncated : Bool
  stderrTruncated : Bool

def CommandOutput.failed (status stderr : String) : CommandOutput where
  success := false
  status := status
  stdout := ""
  stderr := stderr
  stdoutTruncated := false
  stderrTruncated := false

def CommandOutput.succeeded (stdout : String) : CommandOutput where
  success := true
  status := "exit status: 0"
  stdout := stdout
  stderr := ""
  stdoutTruncated := false
  stderrTruncated := false

/-- `CodexRunGuard` with its private home. -/
structure RunGuard where
  resourcesRemoved : Bool
  finished : Bool
  /-- `cleanup_on_drop` of the home. -/
  cleanupOnDrop : Bool
  cleaned : Bool
  /-- Whether the removal of the home was begun. -/
  homeTouched : Bool

structure World where
  clock : Nat
  /-- How often the run has waited for something. -/
  turn : Nat
  nextId : Nat
  objects : Key → Option DockerObject
  /-- The commands that outlived their clients, with the times when these were killed. -/
  inFlight : List (DockerCommand × Nat)
  pendingMutation : Bool
  guard : RunGuard

def World.make (w : World) (key : Key) (owner : String) (internal : Bool) (arrival : Arrival) :
    World :=
  let object := { id := w.nextId, owner := owner, internal := internal, arrival := arrival }
  { w with nextId := w.nextId + 1, objects := Function.update w.objects key (some object) }

def World.clear (w : World) (key : Key) : World :=
  { w with objects := Function.update w.objects key none }

/-- Docker makes the volumes that a container mounts and that are not there, without labels. -/
def World.makeVolumes (w : World) (arrival : Arrival) : List String → World
  | [] => w
  | volume :: volumes =>
    match w.objects (.volume, volume) with
    | none => (w.make (.volume, volume) "" false arrival).makeVolumes arrival volumes
    | some _ => w.makeVolumes arrival volumes

def missingText (key : Key) : String :=
  match key.1 with
  | .container => "Error response from daemon: No such container: " ++ key.2
  | .network => "Error response from daemon: network " ++ key.2 ++ " not found"
  | .volume => "Error response from daemon: get " ++ key.2 ++ ": no such volume"

/-- What the `--format` of the inspections prints. -/
def inspectText (key : Key) (object : DockerObject) : String :=
  match key.1 with
  | .container => toString object.id ++ "\t" ++ object.owner ++ "\n"
  | .network => key.2 ++ "\t" ++ object.owner ++ "\t" ++ toString object.internal ++ "\n"
  | .volume => key.2 ++ "\t" ++ object.owner ++ "\n"

/-- A command as Docker carries it out. -/
def World.perform (w : World) (arrival : Arrival) : DockerCommand → World × CommandOutput
  | .inspect key =>
    match w.objects key with
    | none => (w, .failed "exit status: 1" (missingText key))
    | some object => (w, .succeeded (inspectText key object))
  | .create key volumes =>
    match w.objects key with
    | none =>
      ((w.makeVolumes arrival volumes).make key key.2 (key.1 = .network) arrival,
        .succeeded (key.2 ++ "\n"))
    | some _ =>
      -- `docker volume create` of a volume that is there succeeds and leaves it as it is.
      if key.1 = .volume then (w, .succeeded (key.2 ++ "\n"))
      else
        (w, .failed "exit status: 1" ("Conflict. The name " ++ key.2 ++ " is already in use"))
  | .remove key id =>
    match w.objects key with
    | none => (w, .failed "exit status: 1" (missingText key))
    | some object =>
      if id.all (fun text => text = toString object.id) then (w.clear key, .succeeded key.2)
      else (w, .failed "exit status: 1" (missingText key))
  | .other => (w, .succeeded "")

/-- What happens while the run waits. -/
inductive Event where
  | passes (time : Nat)
  /-- A command in flight takes effect. -/
  | lands (i : Nat)
  | drops (i : Nat)
  | appears (key : Key) (owner : String) (internal : Bool)
  | vanishes (key : Key)

def World.happen (w : World) : Event → World
  | .passes time => { w with clock := w.clock + time }
  | .lands i =>
    match w.inFlight[i]? with
    | none => w
    | some (command, killed) =>
      ({ w with inFlight := w.inFlight.eraseIdx i }.perform (.late killed w.clock) command).1
  | .drops i => { w with inFlight := w.inFlight.eraseIdx i }
  | .appears key owner internal =>
    match w.objects key with
    | none => w.make key owner internal .foreign
    | some _ => w
  | .vanishes key => w.clear key

def World.after (w : World) (events : List Event) : World := events.foldl World.happen w

/-- How the client of a command ends. -/
inductive Outcome where
  | completes (stdoutTruncated stderrTruncated : Bool)
  | refuses (status diagnostics : String)
  /-- `output_with_timeout` kills the client; Docker keeps the command. -/
  | timesOut
  /-- The client did not start, or could not be read after it was done. -/
  | unavailable (error : String) (done : Bool)

/-- One wait of the run, and what Docker then says of matters that the model does not follow. -/
structure Turn where
  events : List Event
  outcome : Outcome
  answer : Bool

section Run

variable (env : Nat → Turn)

/-- A wait: what happens meanwhile, and how it ends. -/
def wait : Action World String Turn := effect fun w =>
  ({ w with turn := w.turn + 1 }.after (env w.turn).events, env w.turn)

/-- `Instant::now`. -/
def instant : Action World String Nat := do
  let _ ← wait env
  effect fun w => (w, w.clock)

def sleep (time : Nat) : Action World String Unit := effect fun w =>
  ({ w with clock := w.clock + time }, ())

/-- `output_with_timeout` on a `docker` command: its output, and whether it timed out. -/
def outputWithTimeout (command : DockerCommand) : Action World String (CommandOutput × Bool) := do
  let turn ← wait env
  match turn.outcome with
  | .completes stdoutTruncated stderrTruncated => effect fun w =>
    let (w, output) := w.perform .answered command
    (w, { output with stdoutTruncated, stderrTruncated }, false)
  | .refuses status diagnostics => pure (.failed status diagnostics, false)
  | .timesOut => effect fun w =>
    ({ w with inFlight := w.inFlight ++ [(command, w.clock)] },
      .failed "signal: 9 (SIGKILL)" "", true)
  | .unavailable error true => do
    effect fun w => ((w.perform .answered command).1, ())
    raise error
  | .unavailable error false => raise error

end Run

/-! ## What the client printed -/

def CommandOutput.truncated (output : CommandOutput) : Bool :=
  output.stdoutTruncated || output.stderrTruncated

def cleanupDiagnostics (output : CommandOutput) : String :=
  match Text.trim output.stdout, Text.trim output.stderr with
  | "", "" => "Docker emitted no diagnostics"
  | stdout, "" => "stdout: " ++ stdout
  | "", stderr => "stderr: " ++ stderr
  | stdout, stderr => "stdout: " ++ stdout ++ "; stderr: " ++ stderr

/-- `to_ascii_lowercase` and `contains`, on the diagnostics. -/
def mentions (output : CommandOutput) (pattern : String) : Bool :=
  pattern.toList <:+: (cleanupDiagnostics output).toList.map Char.toLower

def missingContainer (output : CommandOutput) : Bool :=
  mentions output "no such object" || mentions output "no such container"

def missingNetwork (output : CommandOutput) : Bool :=
  mentions output "no such network" || mentions output "not found"

def missingVolume (output : CommandOutput) : Bool := mentions output "no such volume"

/-- `str::split_once` at a tab. -/
def splitOnceTab (text : List Char) : Option (List Char × List Char) :=
  match text.dropWhile (· ≠ '\t') with
  | [] => none
  | _ :: rest => some (text.takeWhile (· ≠ '\t'), rest)

/-- `owned_container_id`, on the answer of Docker. -/
def readContainerOwner (container : String) (output : CommandOutput) (timedOut : Bool) :
    Result (Option String) := do
  ensure (timedOut = false) "Docker container ownership inspection timed out"
  if output.success = false then
    if missingContainer output then pure none
    else .error ("Docker container ownership inspection failed: " ++ cleanupDiagnostics output)
  else
    ensure (output.truncated = false) "Docker container ownership diagnostics were truncated"
    let (id, owner) ← okOr (splitOnceTab (Text.trim output.stdout).toList)
      "Docker container ownership output was malformed"
    ensure (id ≠ []) "Docker container id was empty"
    ensure (owner = container.toList)
      ("refusing to operate on Codex container " ++ container ++ ": ownership label mismatch")
    pure (some (String.ofList id))

/-- `owned_internal_network_exists`, on the answer of Docker. -/
def readNetworkOwner (network : String) (output : CommandOutput) (timedOut : Bool) :
    Result Bool := do
  ensure (timedOut = false) "Docker network ownership inspection timed out"
  if output.success = false then
    if missingNetwork output then pure false
    else .error ("Docker network ownership inspection failed: " ++ cleanupDiagnostics output)
  else
    ensure (output.truncated = false) "Docker network ownership diagnostics were truncated"
    let fields := (Text.trim output.stdout).toList.splitOn '\t'
    ensure (fields.length ≤ 3 ∧ fields.head? = some network.toList)
      "Docker network ownership output was malformed"
    ensure (fields.getD 1 [] = network.toList)
      ("refusing to operate on Codex network " ++ network ++ ": ownership label mismatch")
    ensure (fields.getD 2 [] = "true".toList)
      ("refusing to use Codex network " ++ network ++ ": network is not internal")
    pure true

/-- `owned_volume_exists`, on the answer of Docker. -/
def readVolumeOwner (volume : String) (output : CommandOutput) (timedOut : Bool) :
    Result Bool := do
  ensure (timedOut = false) "Docker volume ownership inspection timed out"
  if output.success = false then
    if missingVolume output then pure false
    else .error ("Docker volume ownership inspection failed: " ++ cleanupDiagnostics output)
  else
    ensure (output.truncated = false) "Docker volume ownership diagnostics were truncated"
    let (name, owner) ← okOr (splitOnceTab (Text.trim output.stdout).toList)
      "Docker volume ownership output was malformed"
    ensure (name = volume.toList) "Docker returned an unexpected Codex volume name"
    ensure (owner = volume.toList)
      ("refusing to operate on Codex volume " ++ volume ++ ": ownership label mismatch")
    pure true

/-! ## The resources of a run -/

structure CodexResources where
  mainContainer : String
  stagingContainer : String
  exportContainer : String
  packageVolume : String
  homeVolume : String
  workspaceVolume : String
  proxyContainer : Option String
  internalNetwork : Option String
  proxyVolume : Option String

/-- `container_name` -/
def containerName (pid timestamp sequence : Nat) : String :=
  "a3s-bench-codex-" ++ toString pid ++ "-" ++ toString timestamp ++ "-" ++ toString sequence

namespace CodexResources

def withMetadata (mainContainer : String) (restrictedNetwork : Bool) : CodexResources where
  mainContainer := mainContainer
  stagingContainer := mainContainer ++ "-stage"
  exportContainer := mainContainer ++ "-export"
  packageVolume := mainContainer ++ "-package"
  homeVolume := mainContainer ++ "-home"
  workspaceVolume := mainContainer ++ "-workspace"
  proxyContainer := if restrictedNetwork then some (mainContainer ++ "-proxy") else none
  internalNetwork := if restrictedNetwork then some (mainContainer ++ "-internal") else none
  proxyVolume := if restrictedNetwork then some (mainContainer ++ "-proxy-tools") else none

variable (resources : CodexResources)

def volumes : List String :=
  [resources.packageVolume, resources.homeVolume, resources.workspaceVolume] ++
    resources.proxyVolume.toList

/-- The containers in the order in which they are removed. -/
def containers : List String :=
  [resources.mainContainer] ++ resources.proxyContainer.toList ++
    [resources.stagingContainer, resources.exportContainer]

/-- All names that the run uses. -/
def keys : List Key :=
  resources.containers.map (Kind.container, ·) ++
    (resources.internalNetwork.toList.map (Kind.network, ·) ++
      resources.volumes.map (Kind.volume, ·))

end CodexResources

/-! ## Inspecting and removing -/

/-- `Context::context` on an action. -/
def within {α : Type} (message : String) : Action World String α → Action World String α :=
  relabel fun cause => message ++ ": " ++ cause

section Program

variable (env : Nat → Turn)

def ownedContainerId (container : String) : Action World String (Option String) := do
  let (output, timedOut) ← within "could not inspect Codex container ownership"
    (outputWithTimeout env (.inspect (.container, container)))
  lift (readContainerOwner container output timedOut)

def ownedInternalNetworkExists (network : String) : Action World String Bool := do
  let (output, timedOut) ← within "could not inspect Codex network ownership"
    (outputWithTimeout env (.inspect (.network, network)))
  lift (readNetworkOwner network output timedOut)

def ownedVolumeExists (volume : String) : Action World String Bool := do
  let (output, timedOut) ← within "could not inspect Codex volume ownership"
    (outputWithTimeout env (.inspect (.volume, volume)))
  lift (readVolumeOwner volume output timedOut)

/-- What a removal reports that did not remove the object. -/
def removalVerdict (what stillThere : String) (output : CommandOutput) (timedOut : Bool) :
    Result Unit := do
  ensure (timedOut = false) ("Docker " ++ what ++ " cleanup timed out")
  ensure (output.success = true ∧ output.truncated = false)
    ("Docker " ++ what ++ " cleanup failed: " ++ cleanupDiagnostics output)
  .error stillThere

def removeContainer (container : String) : Action World String Unit := do
  match ← ownedContainerId env container with
  | none => pure ()
  | some id =>
    let (output, timedOut) ← within "could not run bounded Docker container cleanup"
      (outputWithTimeout env (.remove (.container, container) (some id)))
    match ← ownedContainerId env container with
    | none => pure ()
    | some _ => lift do
      ensure (timedOut = false) "Docker container cleanup timed out"
      ensure (output.truncated = false) "Docker container cleanup diagnostics were truncated"
      ensure (output.success = true)
        ("Docker container cleanup failed with " ++ output.status ++ ": " ++
          cleanupDiagnostics output)
      .error "Docker container still exists after cleanup"

/-- `remove_internal_network` and `remove_volume`. -/
def removeNamed (what stillThere : String) (ownedExists : Action World String Bool) (key : Key) :
    Action World String Unit := do
  match ← ownedExists with
  | false => pure ()
  | true =>
    let (output, timedOut) ← within ("could not run bounded Docker " ++ what ++ " cleanup")
      (outputWithTimeout env (.remove key none))
    match ← ownedExists with
    | false => pure ()
    | true => lift (removalVerdict what stillThere output timedOut)

def removeInternalNetwork (network : String) : Action World String Unit :=
  removeNamed env "network" "Docker internal network still exists after cleanup"
    (ownedInternalNetworkExists env network) (.network, network)

def removeVolume (volume : String) : Action World String Unit :=
  removeNamed env "volume" "Docker volume still exists after cleanup"
    (ownedVolumeExists env volume) (.volume, volume)

/-- The loops of `all_resources_absent`, which end at the first resource that is there. -/
def absentAmong (present : String → Action World String Bool) :
    List String → Action World String Bool
  | [] => pure true
  | name :: names => do
    match ← present name with
    | true => pure false
    | false => absentAmong present names

def allResourcesAbsent (resources : CodexResources) : Action World String Bool := do
  let containers := [resources.mainContainer, resources.proxyContainer.getD "",
    resources.stagingContainer, resources.exportContainer].filter (· ≠ "")
  match ← absentAmong (fun container => Option.isSome <$> ownedContainerId env container)
      containers with
  | false => pure false
  | true =>
    match ← absentAmong (ownedInternalNetworkExists env) resources.internalNetwork.toList with
    | false => pure false
    | true => absentAmong (ownedVolumeExists env) resources.volumes

/-- The loops of `remove_resources_once`, which go on after a failure and collect it. -/
def removeEach (remove : String → Action World String Unit) :
    List String → Action World String (List String)
  | [] => pure []
  | name :: names => do
    let removed ← tried (remove name)
    let failures ← removeEach remove names
    match removed with
    | .ok () => pure failures
    | .error error => pure ((name ++ ": " ++ error) :: failures)

def removeResourcesOnce (resources : CodexResources) : Action World String Unit := do
  let containers ← removeEach (removeContainer env) resources.containers
  let networks ← removeEach (removeInternalNetwork env) resources.internalNetwork.toList
  let volumes ← removeEach (removeVolume env) resources.volumes
  let failures := containers ++ networks ++ volumes
  lift (ensure (failures = []) ("one or more Codex Docker resources could not be removed: " ++
    "; ".intercalate failures))

/-! ## Trying again -/

/-- `CONTAINER_CLEANUP_RETRY_INTERVAL` -/
def containerCleanupRetryInterval : Nat := 250 * 10 ^ 6

/-- `CONTAINER_MUTATION_SETTLE_TIMEOUT` -/
def containerMutationSettleTimeout : Nat := 60 * 10 ^ 9

/-- The rounds that reach over a timeout. -/
def roundsOf (timeout : Nat) : Nat := timeout / containerCleanupRetryInterval + 2

/-- A loop that sleeps for the retry interval. No loop outlasts these rounds. -/
def retry {κ α : Type} (timeout deadline : Nat) (step : κ → Action World String (α ⊕ κ))
    (expired : κ → Action World String α) (state : κ) : Action World String α :=
  untilDeadline (instant env) (sleep containerCleanupRetryInterval)
    "the loop outlasted its deadline" deadline step expired (roundsOf timeout) state

/-- A cleanup that failed is tried again. -/
def cleanupStep (cleanup : Action World String Unit) (_ : String) :
    Action World String (Unit ⊕ String) := do
  match ← tried cleanup with
  | .ok () => pure (.inl ())
  | .error error => pure (.inr error)

def retryCleanup (timeout : Nat) (cleanup : Action World String Unit) :
    Action World String Unit := do
  let start ← instant env
  retry env timeout (start + timeout) (cleanupStep cleanup) raise ""

/-- The check after a removal, which is made where that succeeded. -/
def absentAfter (resources : CodexResources) : Result Unit → Action World String (Result Bool)
  | .ok () => tried (allResourcesAbsent env resources)
  | .error error => pure (.error error)

/-- A round of `remove_resources` with a mutation pending. -/
def pollStep (resources : CodexResources) (state : StableZeroWindow × Option String) :
    Action World String (Unit ⊕ StableZeroWindow × Option String) := do
  let absentBefore ← tried (allResourcesAbsent env resources)
  let removal ← tried (removeResourcesOnce env resources)
  let absentAfter ← absentAfter env resources removal
  let observedAt ← instant env
  -- The window looks at the first of the two instants of a round, the loop at the second.
  let round : Round := { absentBefore, removal, absentAfter, observedAt, checkedAt := observedAt }
  match round.observe state.1 with
  | (_, true, _) => pure (.inl ())
  | (stable, false, iterationError) => pure (.inr (stable, iterationError))

def pollExpired (state : StableZeroWindow × Option String) : Action World String Unit :=
  raise (state.2.getD "Codex Docker resources did not remain absent for five seconds")

def hasPendingMutation : Action World String Bool := effect fun w => (w, w.pendingMutation)

def removeResources (resources : CodexResources) : Action World String Unit := do
  match ← hasPendingMutation with
  | false => retryCleanup env containerCleanupRetryTimeout (removeResourcesOnce env resources)
  | true =>
    let start ← instant env
    retry env containerCleanupRetryTimeout (start + containerCleanupRetryTimeout)
      (pollStep env resources) pollExpired (.new pendingMutationStableZero, none)

/-! ## The guard of a run -/

def changeGuard (f : RunGuard → RunGuard) : Action World String Unit :=
  effect fun w => ({ w with guard := f w.guard }, ())

def theGuard : Action World String RunGuard := effect fun w => (w, w.guard)

/-- `PrivateCodexHome::cleanup`; the home is touched also where its removal fails. -/
def cleanupHome : Action World String Unit := do
  if (← theGuard).cleaned then pure ()
  else do
    let turn ← wait env
    changeGuard fun guard => { guard with homeTouched := true }
    match turn.outcome with
    | .completes _ _ => changeGuard fun guard => { guard with cleaned := true }
    | .refuses _ error => raise error
    | .timesOut => raise "could not remove the private Codex home"
    | .unavailable error _ => raise error

/-- The `Drop` of `PrivateCodexHome`. -/
def dropHome : Action World String Unit := do
  if (← theGuard).cleanupOnDrop then do
    let _ ← tried (cleanupHome env)
    pure ()
  else pure ()

def confirmContainerRemoved (resources : CodexResources) : Action World String Unit := do
  if (← theGuard).resourcesRemoved then pure ()
  else do
    within "could not remove Codex Docker resources" (removeResources env resources)
    changeGuard fun guard => { guard with resourcesRemoved := true }

def cleanupPrivateHome : Action World String Unit := do
  lift (ensure ((← theGuard).resourcesRemoved = true)
    "cannot clean up the private Codex home before Docker resource removal is confirmed")
  cleanupHome env
  changeGuard fun guard => { guard with finished := true }

/-- The `Drop` of `CodexRunGuard`, and then that of the home it holds. -/
def dropGuard (resources : CodexResources) : Action World String Unit := do
  if (← theGuard).finished then pure ()
  else do
    match ← tried (confirmContainerRemoved env resources) with
    | .error _ =>
      -- `retain_for_stale_recovery`
      changeGuard fun guard => { guard with cleanupOnDrop := false }
      dropHome env
    | .ok () =>
      let _ ← tried (cleanupPrivateHome env)
      dropHome env

/-- `CodexRunGuard::finish`; the guard is dropped at its end. -/
def finish (resources : CodexResources) : Action World String Unit := do
  let finished ← tried do
    confirmContainerRemoved env resources
    cleanupPrivateHome env
  dropGuard env resources
  lift finished

end Program

end A3sBench.CodexDocker
