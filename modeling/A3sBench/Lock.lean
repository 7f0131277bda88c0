import A3sBench.ArtifactStore
import A3sBench.Asset
import A3sBench.CodexPackage
import A3sBench.LockIdentity

/-!
# Task and Candidate locks

`create_candidate_with_codex_default` writes a CandidateLock; `load_task` and
`load_candidate` accept a lock only with the artifacts it names. A lock file is
kept as what reading and parsing it gives.
-/

namespace A3sBench.Lock

open Asset (CandidateProtocol LocalAssetPackage)
open CodexPackage (CodexPackageManifest PackageCache PackageTree)
open TaskSnapshot (ArtifactStore artifactPath capture)

/-- What the host provides: its file system outside the state root, the parsers
of the external crates, the Task loader and the installed tools. -/
structure Host where
  os : Platform
  parseAcl : Bytes → Result Acl.Document
  parseManifest : Bytes → Result CodexPackageManifest
  /-- `task::load_local`. -/
  loadLocalTask : Directory → Result TaskInfo
  builtinCandidate : String → Option Directory
  localDirectory : String → Option Directory
  /-- `oci_asset::resolve`. -/
  resolveOci : List Char → Result LocalAssetPackage
  /-- `a3s_code_candidate::version`. -/
  a3sCodeVersion : Result String
  /-- The directory `discover_source` finds. -/
  codexSource : Result PackageTree
  /-- `catalog::resolve_task_reference`, down to the directory. -/
  taskSource : String → Result Directory
  /-- The directory found by joining a relative path to a directory. -/
  joinDirectory : Directory → String → Option Directory
  /-- The immutable reference of `runtime::resolve_image`. -/
  resolveImage : String → Option String → Result String
  /-- `os_runtime::resolved_runner_images`. -/
  runnerImages : Result StringMap

structure StateRoot where
  artifacts : ArtifactStore
  packages : PackageCache

/-- Nothing at the path, or what parsing the file there gives. -/
abbrev LockFile (α : Type) := Option (Result α)

section Files

variable {α : Type}

def readLockFile (file : LockFile α) : Result α :=
  match file with
  | none => .error "could not inspect lock"
  | some value => value

def writeExclusive (file : LockFile α) (value : α) : Result (LockFile α) :=
  match file with
  | none => .ok (some (.ok value))
  | some _ => .error "could not create lock"

theorem writeExclusive_ok_iff {file file' : LockFile α} {value : α} :
    writeExclusive file value = .ok file' ↔ file = none ∧ file' = some (.ok value) := by
  cases file <;> simp [writeExclusive, eq_comm]

end Files

def validateReasoningEffort (value : String) : Result Unit :=
  ensure (value ∈ ["none", "minimal", "low", "medium", "high", "xhigh"])
    "reasoning effort must be one of none, minimal, low, medium, high, or xhigh"

instance lawfulBEqEffort : LawfulBEq (Option String) := inferInstance

def validateModelReasoningCompatibility (model reasoningEffort : Option String) : Result Unit :=
  ensure (model = some "gpt-5.3-codex-spark" →
      reasoningEffort ∈ [some "low", some "medium", some "high", some "xhigh"])
    "gpt-5.3-codex-spark requires reasoning effort low, medium, high, or xhigh"

def validateCodexModel (value : String) : Result Unit :=
  ensure (value ≠ "" ∧ Text.byteLength value ≤ 256 ∧
      (value.toList.all (fun c => Text.isAsciiAlphanumeric c || c = '.' || c = '_' || c = '-' ||
        c = '/')) = true ∧
      value.toList.head? ≠ some '/' ∧ value.toList.getLast? ≠ some '/' ∧
      ¬ ['/', '/'] <:+: value.toList)
    "Codex model must contain only ASCII letters, digits, '.', '_', '-', and '/'"

/-- `config::validate_model_reference`. -/
def validateModelReference (value : String) : Result Unit :=
  let message := "model route " ++ value.quote ++ " must use provider/model"
  match value.toList.dropWhile (· ≠ '/') with
  | [] => .error message
  | _ :: model =>
    ensure (value.toList.takeWhile (· ≠ '/') ≠ [] ∧ model ≠ [] ∧ '/' ∉ model) message

section Loaders

variable (host : Host)

/-- The artifact of a digest, verified. -/
def lockedArtifact (digest unavailable : String) (state : StateRoot) : Result Directory := do
  let hex ← artifactPath digest
  context unavailable (TaskSnapshot.verify host.os (state.artifacts hex) digest)
  okOr (state.artifacts hex) unavailable

structure LoadedTaskLock where
  lock : TaskLock
  taskArtifact : Directory
  judgeArtifact : Directory

/-- What a TaskLock says of its Task, by the two schemas. -/
def checkTaskSchema (value : TaskLock) (task : TaskInfo) : Result Unit :=
  match value.schema, task.schema with
  | "a3s.bench.task-lock.v1", "a3s-bench/task/v1" =>
    ensure (value.resources = none ∧ value.workspaceImports = none ∧
        value.networkAllowHosts = none)
      "TaskLock v1 must not contain resources, workspace imports, or network allow hosts"
  | "a3s.bench.task-lock.v2", "a3s-bench/task/v2" => do
    ensure (value.resources = some task.resources)
      "TaskLock resources do not match the locked Task artifact"
    ensure (value.workspaceImports = some task.workWorkspaceImports)
      "TaskLock workspace imports do not match the locked Task artifact"
    ensure (∀ hosts ∈ value.networkAllowHosts, hosts ≠ [])
      "TaskLock network allow hosts must omit an empty list"
    ensure (value.networkAllowHosts.getD [] = task.workNetworkAllowHosts)
      "TaskLock network allow hosts do not match the locked Task artifact"
  | "a3s.bench.task-lock.v1", "a3s-bench/task/v2" =>
    .error "TaskLock v1 cannot bind a task/v2 artifact"
  | "a3s.bench.task-lock.v2", "a3s-bench/task/v1" =>
    .error "TaskLock v2 cannot bind a task/v1 artifact"
  | _, _ => .error "internal error: entered unreachable code"

/-- The checks of `load_task` that need no artifact. -/
def checkTaskLock (value : TaskLock) : Result Unit := do
  ensure (value.schema = "a3s.bench.task-lock.v1" ∨ value.schema = "a3s.bench.task-lock.v2")
    "invalid TaskLock schema"
  LockIdentity.validateDigest value.lockDigest
  ensure (LockIdentity.task host.os value = value.lockDigest) "TaskLock semantic digest mismatch"
  ensure (value.taskRevision = value.artifactDigest)
    "TaskLock revision does not match artifact digest"
  ensure (Text.isBlank value.judgeRevision = false) "TaskLock Judge revision is empty"

def requiresJudgeModel (task : TaskInfo) : Bool :=
  task.legacyJudge.any (fun source => source.requiresModelGateway)

def loadTask (file : LockFile TaskLock) (state : StateRoot) : Result LoadedTaskLock := do
  let value ← readLockFile file
  checkTaskLock host value
  let artifact ← lockedArtifact host value.artifactDigest
    "locked Task artifact is unavailable or corrupt" state
  let task ← context "locked Task artifact is invalid" (host.loadLocalTask artifact)
  checkTaskSchema value task
  ensure (requiresJudgeModel task = value.judgeModel.isSome)
    "TaskLock Judge model binding does not match Task requirements"
  (value.judgeModel.toList).forM validateModelReference
  let judgeArtifact ← lockedArtifact host value.judgeArtifactDigest
    "locked Judge artifact is unavailable or corrupt" state
  let judge ← context "locked Judge artifact is not an Asset package"
    (Asset.loadLocal host.os host.parseAcl (some judgeArtifact))
  ensure (judge.identity = value.judgeRevision) "TaskLock Judge revision does not match artifact"
  pure { lock := value, taskArtifact := artifact, judgeArtifact := judgeArtifact }

def regenerate : String := "legacy native Codex CandidateLock v2 is not a containerized lock; " ++
  "regenerate the CandidateLock"

/-- The fields of a containerized Codex lock. -/
def checkCodexFields (value : CandidateLock) : Result Unit :=
  if value.schema = "a3s.bench.candidate-lock.v3" then do
    (value.model.toList).forM validateCodexModel
    (value.reasoningEffort.toList).forM validateReasoningEffort
    validateModelReasoningCompatibility value.model value.reasoningEffort
  else .ok ()

/-- The checks of `load_candidate` that need no artifact. -/
def checkCandidateLock (value : CandidateLock) : Result Unit := do
  ensure (value.schema = "a3s.bench.candidate-lock.v1" ∨
      value.schema = "a3s.bench.candidate-lock.v2" ∨
      value.schema = "a3s.bench.candidate-lock.v3")
    "invalid CandidateLock schema"
  LockIdentity.validateDigest value.lockDigest
  ensure (LockIdentity.candidate host.os value = value.lockDigest)
    "CandidateLock semantic digest mismatch"
  ensure (value.schema = "a3s.bench.candidate-lock.v2" →
      ∀ product ∈ value.product, product.name ≠ "codex-cli") regenerate
  checkCodexFields value
  ensure (Text.isBlank value.candidateRevision = false) "CandidateLock revision is empty"

/-- `codex_package::load_cached`, for a product lock. -/
def loadCached (product : CandidateProductLock) (taskPlatform : Option String)
    (state : StateRoot) : Result (CodexPackage.CachedCodexPackage × StateRoot) := do
  let (cached, packages) ← CodexPackage.loadCached host.os host.parseManifest
    product.targetTriple product.artifactSetDigest product.version taskPlatform state.packages
  pure (cached, { state with packages := packages })

/-- The product lock of `load_candidate`, by the protocol of the artifact. -/
def checkProduct (protocol : CandidateProtocol) (value : CandidateLock) (state : StateRoot) :
    Result StateRoot :=
  match protocol, value.product with
  | .agentTool, none => do
    ensure (value.schema = "a3s.bench.candidate-lock.v1")
      "Agent Candidate uses the historical CandidateLock v1 schema"
    ensure (value.reasoningEffort = none)
      "Agent Candidate lock contains a Codex-only reasoning effort"
    pure state
  | .a3sCodeExec, some product => do
    ensure (value.schema = "a3s.bench.candidate-lock.v2" ∧ product.name = "a3s-cli")
      "A3S Code Candidate has an invalid product lock"
    ensure (value.reasoningEffort = none ∧ product.targetTriple = none ∧
        product.artifactSetDigest = none)
      "A3S Code Candidate lock contains containerized Codex fields"
    let version ← host.a3sCodeVersion
    ensure (version = product.version)
      ("installed A3S CLI does not match locked version " ++ product.version.quote)
    pure state
  | .codexExec, some product => do
    ensure (product.name = "codex-cli") "Codex Candidate has an invalid product lock"
    ensure (product.targetTriple ≠ none ∧ product.artifactSetDigest ≠ none) regenerate
    ensure (value.schema = "a3s.bench.candidate-lock.v3")
      "Codex Candidate has an invalid product lock schema"
    let (_, state) ← loadCached host product none state
    pure state
  | _, _ => .error "Candidate protocol does not match its product lock"

def loadCandidate (file : LockFile CandidateLock) (state : StateRoot) :
    Result ((CandidateLock × Directory) × StateRoot) := do
  let value ← readLockFile file
  checkCandidateLock host value
  let artifact ← lockedArtifact host value.artifactDigest
    "locked Candidate artifact is unavailable or corrupt" state
  let candidate ← context "locked Candidate artifact is not a Candidate adapter"
    (Asset.loadLocal host.os host.parseAcl (some artifact))
  ensure (candidate.identity = value.candidateRevision)
    "CandidateLock revision does not match artifact"
  let state ← checkProduct host candidate.protocol value state
  pure ((value, artifact), state)

end Loaders

section Creation

variable (host : Host)

/-- `asset::resolve`. -/
def resolve (reference : String) : Result LocalAssetPackage :=
  if reference = "a3s-code" ∨ reference = "a3s-code-core" ∨ reference = "codex" then
    Asset.loadLocal host.os host.parseAcl (host.builtinCandidate reference)
  else if Text.startsWith reference "./" = true ∨ Text.startsWith reference "../" = true then
    Asset.loadLocal host.os host.parseAcl (host.localDirectory reference)
  else do
    let image ← okOr (Text.stripPrefix "oci://" reference)
      ("unsupported Asset package reference " ++ reference.quote)
    host.resolveOci image

/-- `resolve_judge`, for a Task at the given root. -/
def resolveJudge (root : Directory) (task : TaskInfo) : Result LocalAssetPackage :=
  if Text.startsWith task.judgeAsset "oci://" = true then resolve host task.judgeAsset
  else Asset.loadLocal host.os host.parseAcl (host.joinDirectory root task.judgeAsset)

/-- The order of `(&str, Option<&str>)`. -/
def referenceLe (a b : String × Option String) : Prop :=
  a.1 < b.1 ∨ a.1 = b.1 ∧ ∀ x ∈ a.2, ∃ y ∈ b.2, x ≤ y

instance : DecidableRel referenceLe := fun _ _ => inferInstanceAs (Decidable (_ ∨ _))

def taskImageReferences (task : TaskInfo) : List (String × Option String) :=
  let seed := task.workspaceSeed.toList.map (fun seed => (seed.image, seed.platform))
  let judge := task.legacyJudge.toList.map (fun judge => (judge.image, judge.platform))
  (((task.workImage, task.workPlatform) :: (seed ++ judge)).insertionSort referenceLe).dedup

def imageKey (reference : String) (platform : Option String) : String :=
  platform.getD "native" ++ "|" ++ reference

def resolveImages : List (String × Option String) → StringMap → Result StringMap
  | [], images => .ok images
  | (reference, platform) :: rest, images => do
    let resolved ← host.resolveImage reference platform
    resolveImages rest (images.insert (imageKey reference platform) resolved)

/-- What a TaskLock says of its Task, by the schema of the Task. -/
def taskBinding (task : TaskInfo) :
    Result (String × Option TaskResources × Option (List WorkWorkspaceImport) ×
      Option (List String)) :=
  match task.schema with
  | "a3s-bench/task/v1" => .ok ("a3s.bench.task-lock.v1", none, none, none)
  | "a3s-bench/task/v2" =>
    .ok ("a3s.bench.task-lock.v2", some task.resources, some task.workWorkspaceImports,
      if task.workNetworkAllowHosts = [] then none else some task.workNetworkAllowHosts)
  | _ => .error "internal error: entered unreachable code"

def osRuntimeProvider : String := "os-runtime"

/-- The images that are locked. -/
def lockedImages (task : TaskInfo) (runtimeProvider : String) : Result StringMap :=
  if runtimeProvider = osRuntimeProvider then host.runnerImages
  else resolveImages host (taskImageReferences task) .empty

/-- The Judge model that is locked. -/
def lockedJudgeModel (task : TaskInfo) (judgeModel : Option String) : Result (Option String) := do
  ensure (requiresJudgeModel task = true → judgeModel ≠ none)
    ("Task " ++ task.id.quote ++ " requires bench.judge_model in .a3s/config.acl")
  let judgeModel := if requiresJudgeModel task = true then judgeModel else none
  (judgeModel.toList).forM validateModelReference
  pure judgeModel

/-- `create_task_with_provider`, on the directory of the source. -/
def createTaskWithProvider (root : Directory) (judgeModel : Option String) (state : StateRoot)
    (output : LockFile TaskLock) (runtimeProvider : String) :
    Result (TaskLock × StateRoot × LockFile TaskLock) := do
  let (digest, artifacts) ← capture host.os root state.artifacts
  let hex ← artifactPath digest
  let captured ← okOr (artifacts hex) "Task source does not exist"
  let task ← host.loadLocalTask captured
  ensure (runtimeProvider ≠ osRuntimeProvider ∨ task.schema = "a3s-bench/task/v1")
    ("os-runtime cannot enforce explicit a3s-bench/task/v2 resources; " ++
      "use the Docker Runtime")
  let judgeModel ← lockedJudgeModel task judgeModel
  let judge ← resolveJudge host captured task
  let (judgeDigest, artifacts) ← capture host.os judge.root artifacts
  let judgeHex ← artifactPath judgeDigest
  let lockedJudge ← Asset.loadLocal host.os host.parseAcl (artifacts judgeHex)
  let images ← lockedImages host task runtimeProvider
  let (schema, resources, imports, hosts) ← taskBinding task
  let value : TaskLock :=
    { schema := schema
      lockDigest := ""
      taskRevision := digest
      artifactDigest := digest
      judgeRevision := lockedJudge.identity
      judgeArtifactDigest := judgeDigest
      judgeModel := judgeModel
      resolvedImages := images
      resources := resources
      workspaceImports := imports
      networkAllowHosts := hosts }
  let value := { value with lockDigest := LockIdentity.task host.os value }
  let output ← writeExclusive output value
  pure (value, { state with artifacts := artifacts }, output)

/-- The first statements of the creation: the captured package and its digest. -/
def captureCandidate (reference : String) (state : StateRoot) :
    Result (LocalAssetPackage × String × StateRoot) := do
  let asset ← resolve host reference
  let (digest, artifacts) ← capture host.os asset.root state.artifacts
  let hex ← artifactPath digest
  let lockedAsset ← Asset.loadLocal host.os host.parseAcl (artifacts hex)
  pure (lockedAsset, digest, { state with artifacts := artifacts })

/-- The reasoning effort that is locked. -/
def lockedEffort (protocol : CandidateProtocol)
    (reasoningEffort codexDefaultReasoningEffort : Option String) : Option String :=
  if protocol = .codexExec then reasoningEffort.or codexDefaultReasoningEffort
  else reasoningEffort

/-- The requested model, by the protocol it is for. -/
def checkModel (lockedAsset : LocalAssetPackage) (model : Option String) : Result Unit :=
  match lockedAsset.protocol, model with
  | .codexExec, some model => validateCodexModel model
  | .agentTool, some _ => do
    let _ ← context "Candidate cannot be locked with a model"
      (Asset.modelInstructionsPath lockedAsset)
    let _ ← context "Candidate cannot be locked with a model" (Asset.modelMaxSteps lockedAsset)
    pure ()
  | _, _ => .ok ()

/-- The checks on the requested model and reasoning effort. -/
def checkRequest (lockedAsset : LocalAssetPackage)
    (model reasoningEffort codexDefaultReasoningEffort : Option String) : Result Unit := do
  (codexDefaultReasoningEffort.toList).forM validateReasoningEffort
  (reasoningEffort.toList).forM (fun effort => do
    validateReasoningEffort effort
    ensure (lockedAsset.protocol = .codexExec)
      "reasoning effort is supported only by the native Codex Candidate")
  validateModelReasoningCompatibility model
    (lockedEffort lockedAsset.protocol reasoningEffort codexDefaultReasoningEffort)
  checkModel lockedAsset model

/-- The product lock of a new CandidateLock. -/
def createProduct (protocol : CandidateProtocol) (state : StateRoot) :
    Result (Option CandidateProductLock × StateRoot) :=
  match protocol with
  | .agentTool => .ok (none, state)
  | .a3sCodeExec => do
    let version ← host.a3sCodeVersion
    pure (some
      { name := "a3s-cli", version := version, targetTriple := none
        artifactSetDigest := none }, state)
  | .codexExec => do
    let source ← host.codexSource
    let (package, packages) ← CodexPackage.prepareFromPath host.os host.parseManifest source none
      state.packages
    pure (some
      { name := "codex-cli", version := package.reportedVersion
        targetTriple := some package.manifest.targetTriple
        artifactSetDigest := some package.artifactSetDigest },
      { state with packages := packages })

def candidateSchema : CandidateProtocol → String
  | .agentTool => "a3s.bench.candidate-lock.v1"
  | .a3sCodeExec => "a3s.bench.candidate-lock.v2"
  | .codexExec => "a3s.bench.candidate-lock.v3"

/-- The lock of a captured package, carrying its digest. -/
def newCandidateLock (lockedAsset : LocalAssetPackage) (digest : String)
    (model reasoningEffort : Option String) (product : Option CandidateProductLock) :
    CandidateLock :=
  let value : CandidateLock :=
    { schema := candidateSchema lockedAsset.protocol
      lockDigest := ""
      candidateRevision := lockedAsset.identity
      artifactDigest := digest
      model := model
      reasoningEffort := reasoningEffort
      product := product }
  { value with lockDigest := LockIdentity.candidate host.os value }

def createCandidateWithCodexDefault (reference : String)
    (model reasoningEffort codexDefaultReasoningEffort : Option String) (state : StateRoot)
    (output : LockFile CandidateLock) :
    Result (CandidateLock × StateRoot × LockFile CandidateLock) := do
  let (lockedAsset, digest, state) ← captureCandidate host reference state
  checkRequest lockedAsset model reasoningEffort codexDefaultReasoningEffort
  let (product, state) ← createProduct host lockedAsset.protocol state
  let value := newCandidateLock host lockedAsset digest model
    (lockedEffort lockedAsset.protocol reasoningEffort codexDefaultReasoningEffort) product
  let output ← writeExclusive output value
  pure (value, state, output)

end Creation

end A3sBench.Lock
