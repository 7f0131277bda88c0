import A3sBench.AclSchema
import A3sBench.Task
import A3sBench.Text

/-!
# Loading a Task

`load_local` from the parsed `task.acl` on: the closed schema, then one parser
for each part of the document.
-/

namespace A3sBench.TaskSource

open Acl (Block BlockSchema Document Labels Value validateBlock)

/-- `Value::as_number`. -/
def asNumber : Value → Option F64
  | .number text => (F64.parse text).toOption
  | _ => none

/-- What is outside the source: the patterns and the address literals. -/
structure Loader where
  /-- `submission::validate_policy`. -/
  validatePolicy : SubmissionPolicy → Result Unit
  /-- `str::parse::<std::net::IpAddr>` succeeds. -/
  isIpAddr : String → Bool

/-- What `load_local` reads of a Task directory. -/
structure TaskFiles where
  /-- `task.acl`, read and parsed. -/
  document : Result Document
  /-- `judge_source::load` of the descriptor. -/
  legacyJudge : Result (Option LegacyJudgeSource)
  /-- There is an `.a3s/asset.acl` in the directory the path leads to. -/
  hasAssetAcl : String → Bool

def requireString (block : Block) (key : String) : Result String :=
  okOr ((block.get key).bind Value.asStr) (block.name ++ "." ++ key ++ " must be a string")

def uniqueBlock (block : Block) (name : String) : Result Block :=
  match block.blocks.filter (fun child => child.name = name) with
  | [child] => .ok child
  | _ => .error (block.name ++ " must contain exactly one " ++ name ++ " block")

def stringList (block : Block) (name : String) : Result (List String) :=
  match block.get name with
  | some (.list items) =>
    items.mapM (fun item => okOr item.asStr (block.name ++ "." ++ name ++ " items must be strings"))
  | _ => .error (block.name ++ "." ++ name ++ " must be a list")

/-- `number as u64` of an integral double between one and `u64::MAX as f64`. -/
def toU64 : F64 → Option UInt64
  | .finite value =>
    if 1 ≤ value ∧ value ≤ 2 ^ 64 ∧ value.den = 1 then
      some (UInt64.ofNat (min value.num.toNat (2 ^ 64 - 1)))
    else none
  | _ => none

def optionalPositiveInteger (block : Block) (name : String) : Result (Option UInt64) :=
  match block.get name with
  | none => .ok none
  | some value => do
    let number ← okOr ((asNumber value).bind toU64)
      (block.name ++ "." ++ name ++ " must be a positive integer")
    pure (some number)

def requiredPositiveInteger (block : Block) (name : String) : Result UInt64 := do
  let number ← optionalPositiveInteger block name
  okOr number (block.name ++ "." ++ name ++ " is required by a3s-bench/task/v2")

/-! ## The closed schema -/

def unreachable {α : Type} (message : String) : Result α :=
  .error ("internal error: entered unreachable code: " ++ message)

def rootSchema : BlockSchema :=
  { attributes := ["schema", "version", "name", "category", "description", "tags"]
    children := ["workspace", "work", "submission", "judge", "metric"]
    labels := .exactly 1 }

def blockSchema (name : String) : Result BlockSchema :=
  match name with
  | "workspace" => .ok { attributes := [], children := ["oci"], labels := .none }
  | "oci" => unreachable "OCI is nested under workspace"
  | "work" => .ok
    { attributes := ["network_need", "https_allow_hosts", "cpu_limit", "memory_bytes"]
      children := ["image", "workspace_import"], labels := .none }
  | "submission" => .ok { attributes := ["include", "exclude"], children := [], labels := .none }
  | "judge" => .ok
    { attributes := ["asset", "solution_timeout_sec", "cpu_limit", "memory_bytes"]
      children := ["requirements"], labels := .none }
  | "metric" => .ok
    { attributes := ["type", "role", "direction", "min", "max", "normalization", "gate",
        "gate_failure_score_basis_points", "solution_failure_value", "public_report"]
      children := ["measurement"], labels := .exactly 1 }
  | _ => unreachable "root child names were validated"

def nestedAttributes (name : String) : Result (List String) :=
  match name with
  | "oci" => .ok ["ref", "platform", "source_path"]
  | "image" => .ok ["ref", "platform"]
  | "workspace_import" => .ok ["source_path", "target_path"]
  | "requirements" => .ok ["cohort"]
  | "measurement" => .ok
    ["warmup_repeats", "measured_repeats", "estimator", "outlier_policy", "tolerance"]
  | _ => unreachable "nested child names were validated"

def validateNested (block child : Block) : Result Unit := do
  let attributes ← nestedAttributes child.name
  validateBlock child ("bench." ++ block.name ++ "." ++ child.name)
    { attributes := attributes, children := []
      labels := if child.name = "workspace_import" then .exactly 1 else .none }

def validateChild (block : Block) : Result Unit := do
  let schema ← blockSchema block.name
  validateBlock block ("bench." ++ block.name) schema
  block.blocks.forM (validateNested block)

def validateTaskSchema (root : Block) : Result Unit := do
  validateBlock root "bench" rootSchema
  root.blocks.forM validateChild

/-! ## The parsers -/

def maxCpuLimit : UInt64 := 64

def maxMemoryBytes : UInt64 := 256 * 1024 * 1024 * 1024

def maxNetworkAllowHosts : Nat := 64

def legacyWorkResources : RoleResources := { cpuLimit := 4, memoryBytes := 8 * 1024 * 1024 * 1024 }

def legacyJudgeResources : RoleResources :=
  { cpuLimit := 4, memoryBytes := 16 * 1024 * 1024 * 1024 }

/-- One label of a host name. -/
def isHostLabel (label : List Char) : Bool :=
  label ≠ [] && label.length ≤ 63 && label.head?.any Text.isAsciiAlphanumeric &&
    label.getLast?.any Text.isAsciiAlphanumeric &&
    label.all (fun c => Text.isAsciiAlphanumeric c || c = '-')

def validateNetworkAllowHost (loader : Loader) (host : String) : Result Unit := do
  ensure (host ≠ "" ∧ Text.byteLength host ≤ 253 ∧ host.toList.all (fun c => c.toNat < 128) = true ∧
      host.toList.all (fun c => !(c.toNat ≤ 0x1F || c.toNat = 0x7F)) = true ∧
      host.toList.all (fun c => !c.isUpper) = true ∧ host.toList.getLast? ≠ some '.')
    "work.https_allow_hosts entries must be lowercase canonical ASCII DNS hostnames"
  ensure (loader.isIpAddr host = false) "work.https_allow_hosts entries must not be IP literals"
  ensure ((host.toList.splitOn '.').all isHostLabel = true)
    ("work.https_allow_hosts entries must be exact DNS hostnames without URLs, ports, or " ++
      "wildcards")

def parseWorkNetworkAllowHosts (loader : Loader) (work : Block) (schema networkNeed : String) :
    Result (List String) := do
  let hosts ←
    if (work.get "https_allow_hosts").isSome then do
      ensure (schema = "a3s-bench/task/v2")
        "Task v1 does not support work.https_allow_hosts; use a3s-bench/task/v2"
      stringList work "https_allow_hosts"
    else pure []
  ensure (hosts.length ≤ maxNetworkAllowHosts)
    "work.https_allow_hosts exceeds the maximum of 64 hosts"
  hosts.forM (validateNetworkAllowHost loader)
  let hosts := (hosts.insertionSort (· ≤ ·)).dedup
  match networkNeed with
  | "restricted_https" =>
    ensure (hosts ≠ []) "work.network_need restricted_https requires work.https_allow_hosts"
  | "none" | "public_internet" =>
    ensure (hosts = []) "work.https_allow_hosts requires work.network_need restricted_https"
  | _ => unreachable "work.network_need was validated"
  pure hosts

def parseRoleResources (block : Block) (schema : String) (legacyDefault : RoleResources) :
    Result RoleResources :=
  if schema = "a3s-bench/task/v1" then do
    ensure ((block.get "cpu_limit").isNone = true ∧ (block.get "memory_bytes").isNone = true)
      ("Task v1 does not support " ++ block.name ++ " resource fields; use a3s-bench/task/v2")
    pure legacyDefault
  else do
    let cpuLimit ← requiredPositiveInteger block "cpu_limit"
    let memoryBytes ← requiredPositiveInteger block "memory_bytes"
    ensure (cpuLimit ≤ maxCpuLimit)
      (block.name ++ ".cpu_limit exceeds operator maximum " ++ toString maxCpuLimit)
    ensure (memoryBytes ≤ maxMemoryBytes)
      (block.name ++ ".memory_bytes exceeds operator maximum " ++ toString maxMemoryBytes)
    pure { cpuLimit := cpuLimit, memoryBytes := memoryBytes }

/-- What neither a mount path nor a name may contain. -/
def hasUnsafeChar (value : String) : Bool :=
  value.toList.any (fun c => c = ',' || c = '\x00' || Text.isControl c)

def isCleanComponent (part : List Char) : Bool :=
  part ≠ [] && part ≠ ['.'] && part ≠ ['.', '.']

def validateWorkspaceImportSource (path : String) : Result Unit := do
  ensure (Text.startsWith path "/" = true ∧ path ≠ "/" ∧ hasUnsafeChar path = false ∧
      ((path.toList.splitOn '/').drop 1).all isCleanComponent = true)
    "work.workspace_import.source_path must be a clean absolute directory path"
  ["/proc", "/sys", "/dev", "/workspace", "/agent"].forM (fun pseudo =>
    ensure (path ≠ pseudo ∧ Text.startsWith path (pseudo ++ "/") = false)
      "work.workspace_import.source_path must not select a runtime mount")

def validateWorkspaceImportTarget (path : String) : Result Unit := do
  ensure (path ≠ "" ∧ (Text.startsWith path "/" = false ∨ Text.startsWith path "/home/" = true) ∧
      hasUnsafeChar path = false ∧
      ((path.toList.splitOn '/').drop (if Text.startsWith path "/" then 1 else 0)).all
        isCleanComponent = true)
    ("work.workspace_import.target_path must be a clean relative path or absolute /home/... " ++
      "path")
  ensure ((path.toList.splitOn '/').all (fun part => part ≠ ".codex".toList) = true)
    "work.workspace_import.target_path must not select .codex"

def validateWorkspaceImport (value : WorkWorkspaceImport) : Result Unit := do
  validateWorkspaceImportSource value.sourcePath
  validateWorkspaceImportTarget value.targetPath
  ensure (hasUnsafeChar value.name = false)
    "work.workspace_import name contains an unsafe character"

def relativePathsOverlap (left right : String) : Bool :=
  left = right || Text.startsWith left (right ++ "/") || Text.startsWith right (left ++ "/")

def parseWorkspaceImport (block : Block) : Result WorkWorkspaceImport := do
  let name ← okOr (match block.labels with
    | [name] => if name = "" then none else some name
    | _ => none) "work.workspace_import must have one non-empty name label"
  let sourcePath ← requireString block "source_path"
  let targetPath ← requireString block "target_path"
  let value := { name := name, sourcePath := sourcePath, targetPath := targetPath }
  validateWorkspaceImport value
  pure value

/-- Every import against those after it. -/
def checkOverlaps : List WorkWorkspaceImport → Result Unit
  | [] => .ok ()
  | value :: rest => do
    rest.forM (fun other => ensure (relativePathsOverlap value.targetPath other.targetPath = false)
      ("work.workspace_import targets " ++ value.targetPath.quote ++ " and " ++
        other.targetPath.quote ++ " overlap"))
    checkOverlaps rest

def checkNames (seen : List String) : List WorkWorkspaceImport → Result Unit
  | [] => .ok ()
  | value :: rest => do
    ensure (value.name ∉ seen) ("duplicate work.workspace_import name " ++ value.name.quote)
    checkNames (value.name :: seen) rest

def parseWorkWorkspaceImports (work : Block) (schema : String) :
    Result (List WorkWorkspaceImport) := do
  let imports ← (work.blocks.filter (fun block => block.name = "workspace_import")).mapM
    parseWorkspaceImport
  ensure (schema = "a3s-bench/task/v2" ∨ imports = [])
    "Task v1 does not support work.workspace_import; use a3s-bench/task/v2"
  checkNames [] imports
  checkOverlaps imports
  pure imports

def parseSubmission (loader : Loader) (root : Block) : Result SubmissionPolicy := do
  let blocks := root.blocks.filter (fun block => block.name = "submission")
  ensure (blocks.length ≤ 1) "Task may contain at most one submission block"
  let (includePatterns, excludePatterns) ←
    match blocks with
    | block :: _ => do
      let includePatterns ← stringList block "include"
      let excludePatterns ← stringList block "exclude"
      pure (includePatterns, excludePatterns)
    | [] => pure (["**"], [".git", "node_modules", "target"])
  let policy : SubmissionPolicy :=
    { includePatterns := includePatterns, excludePatterns := excludePatterns, maxFiles := 50000
      maxTotalBytes := 536870912, maxFileBytes := 67108864 }
  loader.validatePolicy policy
  pure policy

def parseWorkspaceSeed (block : Block) : Result (Option WorkspaceSeed) := do
  let blocks := block.blocks.filter (fun child => child.name = "workspace")
  ensure (blocks.length ≤ 1) "Task may contain at most one workspace block"
  match blocks with
  | [] => pure none
  | workspace :: _ => do
    let oci ← uniqueBlock workspace "oci"
    let sourcePath ← requireString oci "source_path"
    ensure (Text.startsWith sourcePath "/" = true) "workspace.oci.source_path must be absolute"
    let image ← requireString oci "ref"
    pure (some { image := image, sourcePath := sourcePath
                 platform := (oci.get "platform").bind Value.asStr })

/-- `min <= max` on finite doubles. -/
def isMetricRange : F64 → F64 → Bool
  | .finite min, .finite max => min ≤ max
  | _, _ => false

def parseMetric (block : Block) : Result MetricInfo := do
  let name ← okOr (match block.labels with
    | [name] => some name
    | _ => none) "metric block must have one label"
  let min ← okOr ((block.get "min").bind asNumber) "metric.min must be a number"
  let max ← okOr ((block.get "max").bind asNumber) "metric.max must be a number"
  ensure (isMetricRange min max = true) "invalid metric range"
  let role ← requireString block "role"
  pure { name := name, min := min, max := max, role := role }

def checkJudgeAsset (files : TaskFiles) (judgeAsset : String) : Result Unit :=
  if Text.startsWith judgeAsset "oci://" || Text.startsWith judgeAsset "asset:" ||
      Text.startsWith judgeAsset "asset://" || Text.startsWith judgeAsset "https://" then .ok ()
  else ensure (files.hasAssetAcl judgeAsset = true)
    ("local Judge Asset is missing " ++ judgeAsset ++ "/.a3s/asset.acl")

/-- The root block and its label. -/
def rootBlock (document : Document) : Result (Block × String) :=
  match document.blocks with
  | [block] => do
    let id ← okOr (match block.name, block.labels with
      | "bench", [id] => some id
      | _, _ => none) "root block must be bench \"<task-id>\""
    pure (block, id)
  | _ => .error "task.acl must contain exactly one root block"

/-- The parts of a Task that `load_local` reads before the resources. -/
structure Header where
  schema : String
  judge : Block
  judgeAsset : String
  candidateTimeoutSec : UInt64
  work : Block
  workNetworkNeed : String
  workNetworkAllowHosts : List String
  workImage : String
  metrics : List MetricInfo

def loadHeader (loader : Loader) (block : Block) : Result Header := do
  validateTaskSchema block
  let schema ← requireString block "schema"
  ensure (schema = "a3s-bench/task/v1" ∨ schema = "a3s-bench/task/v2")
    "bench.schema must be a3s-bench/task/v1 or a3s-bench/task/v2"
  let _ ← requireString block "version"
  let judge ← uniqueBlock block "judge"
  let judgeAsset ← requireString judge "asset"
  let timeout ← optionalPositiveInteger judge "solution_timeout_sec"
  let work ← uniqueBlock block "work"
  let networkNeed := ((work.get "network_need").bind Value.asStr).getD "none"
  ensure (networkNeed ∈ ["none", "restricted_https", "public_internet"])
    "work.network_need must be none, restricted_https, or public_internet"
  let allowHosts ← parseWorkNetworkAllowHosts loader work schema networkNeed
  let image ← uniqueBlock work "image"
  let workImage ← requireString image "ref"
  let metrics ← (block.blocks.filter (fun child => child.name = "metric")).mapM parseMetric
  ensure ((metrics.filter (fun metric => metric.role = "primary")).length = 1)
    "Task must declare exactly one primary metric"
  pure
    { schema := schema, judge := judge, judgeAsset := judgeAsset
      candidateTimeoutSec := timeout.getD 300, work := work, workNetworkNeed := networkNeed
      workNetworkAllowHosts := allowHosts, workImage := workImage, metrics := metrics }

/-- `load_local`. -/
def loadLocal (loader : Loader) (files : TaskFiles) : Result TaskInfo := do
  let document ← files.document
  let (block, id) ← rootBlock document
  let header ← loadHeader loader block
  let workspaceSeed ← parseWorkspaceSeed block
  let submission ← parseSubmission loader block
  let workResources ← parseRoleResources header.work header.schema legacyWorkResources
  let judgeResources ← parseRoleResources header.judge header.schema legacyJudgeResources
  let imports ← parseWorkWorkspaceImports header.work header.schema
  let legacyJudge ← files.legacyJudge
  checkJudgeAsset files header.judgeAsset
  let _ ← requireString block "name"
  let _ ← requireString block "category"
  pure
    { schema := header.schema
      id := id
      judgeAsset := header.judgeAsset
      workImage := header.workImage
      workPlatform := workspaceSeed.bind WorkspaceSeed.platform
      workNetworkNeed := header.workNetworkNeed
      workNetworkAllowHosts := header.workNetworkAllowHosts
      candidateTimeoutSec := header.candidateTimeoutSec
      metrics := header.metrics
      workspaceSeed := workspaceSeed
      submission := submission
      resources := { work := workResources, judge := judgeResources }
      workWorkspaceImports := imports
      legacyJudge := legacyJudge }

end A3sBench.TaskSource
