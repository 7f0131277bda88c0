import A3sBench.CodexDocker

/-!
# The execution of a Codex Candidate

`execute` makes the objects of the run one after another, has Codex work in them
and exports what it wrote. A creation that takes too long leaves a mark, which the
guard reads when it takes the objects away.
-/

namespace A3sBench.CodexDocker

open Library Library.Action StaleSweep

structure CodexRequest where
  restrictedNetwork : Bool
  seeded : Bool
  gameNetwork : Option String

inductive CodexOutcome where
  | completed
  | timedOut
  deriving DecidableEq

section Program

variable (env : Nat → Turn)

def markPendingMutation : Action World String Unit :=
  effect fun w => ({ w with pendingMutation := true }, ())

/-- `wait_for_delayed_existence` and its siblings for containers and networks. -/
def waitForDelayedExistence (present : Action World String Bool) : Action World String Unit := do
  let start ← instant env
  retry env containerMutationSettleTimeout (start + containerMutationSettleTimeout)
    (fun _ => do pure (if ← present then .inl () else .inr ())) (fun _ => pure ()) ()

/-- What the creations of the run have in common. -/
def createObject (key : Key) (volumes : List String) (couldNot timedOutText failed : String)
    (present : Action World String Bool) : Action World String Unit := do
  let (output, timedOut) ← within couldNot (outputWithTimeout env (.create key volumes))
  match timedOut with
  | true =>
    markPendingMutation
    waitForDelayedExistence env present
    raise timedOutText
  | false => lift (ensure (output.success = true ∧ output.truncated = false)
      (failed ++ ": " ++ cleanupDiagnostics output))

def containerExists (container : String) : Action World String Bool :=
  Option.isSome <$> ownedContainerId env container

def createInternalNetwork (network : String) : Action World String Unit := do
  createObject env (.network, network) [] "could not create the private Codex network"
    "Codex internal network creation timed out" "Codex internal network creation failed"
    (ownedInternalNetworkExists env network)
  lift (ensure ((← ownedInternalNetworkExists env network) = true)
    "Codex internal network disappeared after creation")

def createVolume (volume : String) : Action World String Unit := do
  createObject env (.volume, volume) [] "could not create a private Codex volume"
    "Docker volume creation timed out" "Docker volume creation failed"
    (ownedVolumeExists env volume)
  lift (ensure ((← ownedVolumeExists env volume) = true)
    "private Codex volume disappeared after creation")

def createStagingContainer (request : CodexRequest) (resources : CodexResources) :
    Action World String Unit := do
  createObject env (.container, resources.stagingContainer)
    ([resources.packageVolume, resources.homeVolume] ++ resources.proxyVolume.toList ++
      if request.seeded then [resources.workspaceVolume] else [])
    "could not create the Codex staging container" "Codex staging container creation timed out"
    "could not create the Codex staging container"
    (containerExists env resources.stagingContainer)
  lift (ensure ((← containerExists env resources.stagingContainer) = true)
    "Codex staging container disappeared after creation")

/-- A command on other matters than the objects of the run, among them the copies into containers,
starts, and steps of the run that only touch files. -/
def attend (couldNot timedOutText failed : String) : Action World String Unit := do
  let (output, timedOut) ← within couldNot (outputWithTimeout env .other)
  lift do
    ensure (timedOut = false) timedOutText
    ensure (output.success = true ∧ output.truncated = false)
      (failed ++ ": " ++ cleanupDiagnostics output)

/-- A question to Docker about such matters. -/
def ask (couldNot timedOutText failed : String) : Action World String Bool := do
  attend env couldNot timedOutText failed
  effect fun w => (w, (env (w.turn - 1)).answer)

def containerIsRunning : Action World String Bool :=
  ask env "could not inspect Codex container state" "Docker container state inspection timed out"
    "Docker container state inspection failed"

def containerHasNetwork : Action World String Bool :=
  ask env "could not inspect Codex proxy network membership"
    "Codex proxy network inspection timed out" "Codex proxy network inspection failed"

def connectCandidateToGameNetwork : Action World String Unit := do
  let internal ← ask env "could not inspect the game network"
    "game network inspection timed out" "game network inspection failed"
  lift (ensure (internal = true)
    "refusing to attach containerized Codex to a non-internal game network")
  let (output, timedOut) ←
    within "could not attach containerized Codex to the game network"
      (outputWithTimeout env .other)
  match timedOut with
  | true =>
    markPendingMutation
    raise "containerized Codex game network attachment timed out"
  | false =>
    lift (ensure (output.truncated = false)
      "containerized Codex game network attachment diagnostics were truncated")
    let attached ← containerHasNetwork env
    lift (ensure (output.success = true ∨ attached = true)
      ("could not attach containerized Codex to the game network: " ++ cleanupDiagnostics output))
    lift (ensure (attached = true) "containerized Codex is not attached to the game network")

def connectProxyToBridge : Action World String Unit := do
  let (output, timedOut) ←
    within "could not attach the Codex CONNECT proxy to the public bridge"
      (outputWithTimeout env .other)
  match timedOut with
  | true =>
    markPendingMutation
    raise "Codex CONNECT proxy public network attachment timed out"
  | false =>
    lift (ensure (output.success = true ∧ output.truncated = false)
      ("could not attach the Codex CONNECT proxy to the public bridge: " ++
        cleanupDiagnostics output))
    let attached ← containerHasNetwork env
    lift (ensure (attached = true) "Codex CONNECT proxy is not attached to the public bridge")

/-- A look of `start_proxy_sidecar` at whether the proxy listens. -/
def probeStep (_ : CommandOutput) : Action World String (Unit ⊕ CommandOutput) := do
  lift (ensure ((← containerIsRunning env) = true)
    "Codex CONNECT proxy stopped before becoming ready")
  let (output, timedOut) ← within "could not probe the Codex CONNECT proxy"
    (outputWithTimeout env .other)
  pure (if timedOut = false ∧ output.success = true then .inl () else .inr output)

def createProxyContainer (proxy tools : String) : Action World String Unit := do
  createObject env (.container, proxy) [tools] "could not create the Codex CONNECT proxy"
    "Codex CONNECT proxy creation timed out" "could not create the Codex CONNECT proxy"
    (containerExists env proxy)
  lift (ensure ((← containerExists env proxy) = true)
    "Codex CONNECT proxy disappeared after creation")

def startProxySidecar (proxy tools : String) : Action World String Unit := do
  createProxyContainer env proxy tools
  connectProxyToBridge env
  attend env "could not start the Codex CONNECT proxy" "Codex CONNECT proxy startup timed out"
    "could not start the Codex CONNECT proxy"
  attend env "could not inspect the Codex proxy internal address"
    "Codex proxy address inspection timed out" "Codex proxy address inspection failed"
  let start ← instant env
  retry env containerMutationSettleTimeout (start + containerMutationSettleTimeout)
    (probeStep env)
    (fun output =>
      raise ("Codex CONNECT proxy did not become ready: " ++ cleanupDiagnostics output))
    (.failed "" "")

def stopContainerProcess (container : String) : Action World String Unit := do
  match ← ownedContainerId env container with
  | none => raise "timed-out Codex container disappeared before workspace export"
  | some _ =>
    match ← containerIsRunning env with
    | false => pure ()
    | true =>
      let (output, timedOut) ← within "could not stop timed-out Codex container"
        (outputWithTimeout env .other)
      lift (ensure (timedOut = false) "Codex container stop timed out")
      match output.success with
      | true => lift (ensure ((← containerIsRunning env) = false)
          "timed-out Codex container is still running")
      | false => do
        lift (ensure ((← containerIsRunning env) = false)
          ("could not stop timed-out Codex container: " ++ cleanupDiagnostics output))
        lift (ensure ((← containerIsRunning env) = false)
          "timed-out Codex container is still running")

/-- `enumerate_container_workspace_files`, up to the parsing of what it printed. -/
def enumerateContainerWorkspaceFiles (resources : CodexResources) : Action World String Unit := do
  createObject env (.container, resources.exportContainer)
    [resources.workspaceVolume, resources.packageVolume]
    "could not create the terminal workspace inventory container"
    "terminal workspace inventory container creation timed out"
    "could not create the terminal workspace inventory container"
    (containerExists env resources.exportContainer)
  lift (ensure ((← containerExists env resources.exportContainer) = true)
    "terminal workspace inventory container disappeared")
  let (output, timedOut) ← within "could not enumerate the terminal container workspace"
    (outputWithTimeout env .other)
  match timedOut with
  | true =>
    markPendingMutation
    stopContainerProcess env resources.exportContainer
    raise "terminal workspace inventory exceeded the workspace export deadline"
  | false => lift do
    ensure (output.stdoutTruncated = false)
      "terminal workspace inventory exceeded its fixed output limit"
    ensure (output.stderrTruncated = false)
      "terminal workspace inventory diagnostics exceeded their fixed output limit"
    ensure (output.success = true ∨ output.status = "exit status: 1" ∧ output.stdout = "")
      ("terminal workspace inventory failed with " ++ output.status ++ ": " ++
        cleanupDiagnostics output)

def prepareNetwork (resources : CodexResources) : Action World String Unit :=
  match resources.internalNetwork with
  | none => pure ()
  | some network => do
    attend env "could not inspect the Codex CONNECT proxy helper image"
      "Codex CONNECT proxy helper image inspection timed out"
      "Codex CONNECT proxy helper image is unavailable"
    createInternalNetwork env network

def createMainContainer (resources : CodexResources) : Action World String Unit := do
  createObject env (.container, resources.mainContainer)
    [resources.packageVolume, resources.homeVolume, resources.workspaceVolume]
    "could not create containerized Codex Candidate" "Codex container creation timed out"
    "could not create containerized Codex Candidate"
    (containerExists env resources.mainContainer)
  lift (ensure ((← containerExists env resources.mainContainer) = true)
    "Codex container disappeared during staging")

/-- The networks of the main container. -/
def connectNetworks (request : CodexRequest) (resources : CodexResources) :
    Action World String Unit := do
  request.gameNetwork.toList.forM fun _ => connectCandidateToGameNetwork env
  (resources.proxyContainer.toList.zip resources.proxyVolume.toList).forM fun sidecar =>
    startProxySidecar env sidecar.1 sidecar.2

def stopIfTimedOut (resources : CodexResources) : Bool → Action World String Unit
  | true => stopContainerProcess env resources.mainContainer
  | false => pure ()

/-- What becomes of a Candidate whose workspace is exported. -/
def readOutcome (output : CommandOutput) : Bool → Action World String CodexOutcome
  | true => pure .timedOut
  | false => do
    lift (ensure (output.truncated = false) "Codex Candidate emitted too much output")
    lift (ensure (output.success = true)
      ("Codex Candidate exited with " ++ output.status ++ ": " ++ cleanupDiagnostics output))
    attend env "could not read the Codex events" "could not read the Codex events"
      "could not read the Codex events"
    pure .completed

/-- What `execute` does while the guard lives. -/
def candidate (request : CodexRequest) (resources : CodexResources) :
    Action World String CodexOutcome := do
  attend env "could not prepare the Codex run" "could not prepare the Codex run"
    "could not prepare the Codex run"
  prepareNetwork env resources
  resources.volumes.forM (createVolume env)
  createStagingContainer env request resources
  lift (ensure ((← containerExists env resources.stagingContainer) = true)
    "Codex staging container disappeared")
  attend env "could not run bounded Docker input staging" "Docker input staging timed out"
    "Docker input staging failed"
  createMainContainer env resources
  connectNetworks env request resources
  let (output, timedOut) ← within "could not attach to containerized Codex Candidate"
    (outputWithTimeout env .other)
  stopIfTimedOut env resources timedOut
  enumerateContainerWorkspaceFiles env resources
  attend env "could not export the containerized Codex workspace"
    "could not export the containerized Codex workspace"
    "could not export the containerized Codex workspace"
  readOutcome env output timedOut

/-- `execute`, from the guard on. Where the Candidate unwinds, only the `Drop` of the guard runs. -/
def execute (request : CodexRequest) (resources : CodexResources) (unwinds : Bool) :
    Action World String CodexOutcome := do
  let result ← tried (candidate env request resources)
  match unwinds with
  | true =>
    dropGuard env resources
    raise "the Candidate panicked"
  | false =>
    let cleanup ← tried (finish env resources)
    match result, cleanup with
    | .error error, .error cleanupError =>
      raise ("could not clean up containerized Codex after Candidate failure: " ++ cleanupError ++
        ": " ++ error)
    | .error error, .ok () => raise error
    | .ok _, .error error => raise ("could not clean up containerized Codex: " ++ error)
    | .ok outcome, .ok () => pure outcome

end Program

end A3sBench.CodexDocker
