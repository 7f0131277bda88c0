import A3sBench.ClosedSchema

/-!
# Where loading a Task could panic

`load_local` again, with the places where Rust panics kept apart from errors:
the `unreachable!` arms behind the closed schema, and the indexing behind the
length checks. No document reaches one of them.
-/

namespace A3sBench.Outcome

variable {α β : Type _}

@[simp] theorem ofResult_ok (a : α) : ofResult (.ok a) = .ok a := rfl

@[simp] theorem ofResult_pure (a : α) : ofResult (pure a) = pure a := rfl

@[simp] theorem ok_bind {ε : Type} (a : α) (f : α → Except ε β) : (Except.ok a >>= f) = f a := rfl

@[simp] theorem ofResult_bind (x : Result α) (f : α → Result β) :
    ofResult (x >>= f) = ofResult x >>= fun a => ofResult (f a) := by
  cases x <;> rfl

@[simp] theorem ofResult_ite (c : Prop) [Decidable c] (x y : Result α) :
    ofResult (if c then x else y) = if c then ofResult x else ofResult y := by
  split <;> rfl

/-- What comes after a step that succeeded may use what its success says. -/
theorem bind_congr_ok {x : Result α} {f g : α → Outcome β} (h : ∀ a, x = .ok a → f a = g a) :
    (ofResult x >>= f) = ofResult x >>= g := by
  cases x with
  | ok a => exact h a rfl
  | error message => rfl

theorem forM_eq {l : List α} {f : α → Outcome PUnit} {g : α → Result Unit}
    (h : ∀ a ∈ l, f a = ofResult (g a)) : l.forM f = ofResult (l.forM g) := by
  induction l with
  | nil => rfl
  | cons a l ih =>
    change (f a >>= fun _ => l.forM f) = ofResult (g a >>= fun _ => l.forM g)
    rw [ofResult_bind, h a List.mem_cons_self, ih (fun b hb => h b (List.mem_cons_of_mem a hb))]

theorem mapM_eq {l : List α} {f : α → Outcome β} {g : α → Result β}
    (h : ∀ a ∈ l, f a = ofResult (g a)) : l.mapM f = ofResult (l.mapM g) := by
  induction l with
  | nil => rfl
  | cons a l ih =>
    rw [List.mapM_cons, List.mapM_cons, ofResult_bind, h a List.mem_cons_self,
      ih (fun b hb => h b (List.mem_cons_of_mem a hb))]
    simp only [ofResult_bind, ofResult_pure]

end A3sBench.Outcome

namespace A3sBench.TaskPanics

open Acl (Block BlockSchema Conforms Document validateBlock)
open Outcome (ofResult)
open TaskSource (Header Loader TaskFiles requireString stringList taskSchema)

def unreachable {α : Type} (message : String) : Outcome α :=
  .error (.panic ("internal error: entered unreachable code: " ++ message))

/-- `values[index]`. -/
def index {α : Type} (values : List α) (index : Nat) : Outcome α :=
  match values[index]? with
  | some value => .ok value
  | none => .error (.panic "index out of bounds")

/-- `&values[start..]`. -/
def sliceFrom {α : Type} (values : List α) (start : Nat) : Outcome (List α) :=
  if start ≤ values.length then .ok (values.drop start)
  else .error (.panic "range start index out of range for slice")

/-! ## The closed schema -/

def blockSchema (name : String) : Outcome BlockSchema :=
  match name with
  | "workspace" | "work" | "submission" | "judge" | "metric" =>
    ofResult (TaskSource.blockSchema name)
  | "oci" => unreachable "OCI is nested under workspace"
  | _ => unreachable "root child names were validated"

def nestedAttributes (name : String) : Outcome (List String) :=
  match name with
  | "oci" | "image" | "workspace_import" | "requirements" | "measurement" =>
    ofResult (TaskSource.nestedAttributes name)
  | _ => unreachable "nested child names were validated"

def validateNested (block child : Block) : Outcome Unit := do
  let attributes ← nestedAttributes child.name
  ofResult (validateBlock child ("bench." ++ block.name ++ "." ++ child.name)
    { attributes := attributes, children := []
      labels := if child.name = "workspace_import" then .exactly 1 else .none })

def validateChild (block : Block) : Outcome Unit := do
  let schema ← blockSchema block.name
  ofResult (validateBlock block ("bench." ++ block.name) schema)
  block.blocks.forM (validateNested block)

def validateTaskSchema (root : Block) : Outcome Unit := do
  ofResult (validateBlock root "bench" TaskSource.rootSchema)
  root.blocks.forM validateChild

/-- Five names, and five arms for them. -/
theorem blockSchema_eq {name : String} (h : name ∈ TaskSource.rootSchema.children) :
    blockSchema name = ofResult (TaskSource.blockSchema name) := by
  simp only [TaskSource.rootSchema, List.mem_cons, List.not_mem_nil, or_false] at h
  rcases h with rfl | rfl | rfl | rfl | rfl <;> rfl

/-- Whatever a block of the schema lists below it has an arm of its own. -/
theorem nestedAttributes_eq {parent name : String} {schema : BlockSchema}
    (hschema : TaskSource.blockSchema parent = .ok schema) (h : name ∈ schema.children) :
    nestedAttributes name = ofResult (TaskSource.nestedAttributes name) := by
  unfold TaskSource.blockSchema at hschema
  split at hschema <;> cases hschema <;>
    simp only [List.mem_cons, List.not_mem_nil, or_false] at h
  · obtain rfl := h
    rfl
  · rcases h with rfl | rfl <;> rfl
  · obtain rfl := h
    rfl
  · obtain rfl := h
    rfl

theorem validateNested_eq {block child : Block} {schema : BlockSchema}
    (hschema : TaskSource.blockSchema block.name = .ok schema)
    (h : child.name ∈ schema.children) :
    validateNested block child = ofResult (TaskSource.validateNested block child) := by
  rw [validateNested, TaskSource.validateNested, nestedAttributes_eq hschema h,
    Outcome.ofResult_bind]

theorem validateChild_eq {block : Block} (h : block.name ∈ TaskSource.rootSchema.children) :
    validateChild block = ofResult (TaskSource.validateChild block) := by
  rw [validateChild, TaskSource.validateChild, blockSchema_eq h, Outcome.ofResult_bind]
  refine Outcome.bind_congr_ok (fun schema hschema => ?_)
  rw [Outcome.ofResult_bind]
  refine Outcome.bind_congr_ok (fun _ hvalid => ?_)
  obtain ⟨-, -, hblocks⟩ := Acl.validateBlock_ok_iff.mp hvalid
  exact Outcome.forM_eq (fun child hchild => validateNested_eq hschema (hblocks child hchild))

/-- The two dispatches reach no `unreachable!` arm. -/
theorem validateTaskSchema_eq (root : Block) :
    validateTaskSchema root = ofResult (TaskSource.validateTaskSchema root) := by
  rw [validateTaskSchema, TaskSource.validateTaskSchema, Outcome.ofResult_bind]
  refine Outcome.bind_congr_ok (fun _ hvalid => ?_)
  obtain ⟨-, -, hblocks⟩ := Acl.validateBlock_ok_iff.mp hvalid
  exact Outcome.forM_eq (fun block hblock => validateChild_eq (hblocks block hblock))

/-! ## The parsers -/

def uniqueBlock (block : Block) (name : String) : Outcome Block := do
  let matching := block.blocks.filter (fun child => child.name = name)
  ofResult (ensure (matching.length = 1)
    (block.name ++ " must contain exactly one " ++ name ++ " block"))
  index matching 0

theorem uniqueBlock_eq (block : Block) (name : String) :
    uniqueBlock block name = ofResult (TaskSource.uniqueBlock block name) := by
  unfold uniqueBlock TaskSource.uniqueBlock
  dsimp only
  generalize block.blocks.filter (fun child => child.name = name) = matching
  rcases matching with _ | ⟨child, _ | ⟨other, rest⟩⟩
  · rfl
  · rfl
  · rfl

def parseWorkNetworkAllowHosts (loader : Loader) (work : Block) (schema networkNeed : String) :
    Outcome (List String) := do
  let hosts ← ofResult (
    if (work.get "https_allow_hosts").isSome then do
      ensure (schema = "a3s-bench/task/v2")
        "Task v1 does not support work.https_allow_hosts; use a3s-bench/task/v2"
      stringList work "https_allow_hosts"
    else pure [])
  ofResult (ensure (hosts.length ≤ TaskSource.maxNetworkAllowHosts)
    "work.https_allow_hosts exceeds the maximum of 64 hosts")
  ofResult (hosts.forM (TaskSource.validateNetworkAllowHost loader))
  let hosts := (hosts.insertionSort (· ≤ ·)).dedup
  match networkNeed with
  | "restricted_https" =>
    ofResult (ensure (hosts ≠ [])
      "work.network_need restricted_https requires work.https_allow_hosts")
  | "none" | "public_internet" =>
    ofResult (ensure (hosts = [])
      "work.https_allow_hosts requires work.network_need restricted_https")
  | _ => unreachable "work.network_need was validated"
  pure hosts

/-- The need is one of the three that `load_local` lets through. -/
theorem parseWorkNetworkAllowHosts_eq (loader : Loader) (work : Block) (schema : String)
    {networkNeed : String} (h : networkNeed ∈ ["none", "restricted_https", "public_internet"]) :
    parseWorkNetworkAllowHosts loader work schema networkNeed =
      ofResult (TaskSource.parseWorkNetworkAllowHosts loader work schema networkNeed) := by
  simp only [List.mem_cons, List.not_mem_nil, or_false] at h
  rw [parseWorkNetworkAllowHosts, TaskSource.parseWorkNetworkAllowHosts]
  split_ifs
  · simp only [Outcome.ofResult_bind, bind_assoc]
    refine Outcome.bind_congr_ok (fun _ _ => Outcome.bind_congr_ok (fun hosts _ =>
      Outcome.bind_congr_ok (fun _ _ => Outcome.bind_congr_ok (fun _ _ => ?_))))
    rcases h with rfl | rfl | rfl <;> simp only [Outcome.ofResult_bind, Outcome.ofResult_pure]
  · simp only [Outcome.ofResult_bind, Outcome.ofResult_pure, pure_bind]
    refine Outcome.bind_congr_ok (fun _ _ => Outcome.bind_congr_ok (fun _ _ => ?_))
    rcases h with rfl | rfl | rfl <;> simp only [Outcome.ofResult_bind, Outcome.ofResult_pure]

def parseMetric (block : Block) : Outcome MetricInfo := do
  ofResult (ensure (block.labels.length = 1) "metric block must have one label")
  let min ← ofResult (okOr ((block.get "min").bind TaskSource.asNumber)
    "metric.min must be a number")
  let max ← ofResult (okOr ((block.get "max").bind TaskSource.asNumber)
    "metric.max must be a number")
  ofResult (ensure (TaskSource.isMetricRange min max = true) "invalid metric range")
  let name ← index block.labels 0
  let role ← ofResult (requireString block "role")
  pure { name := name, min := min, max := max, role := role }

theorem parseMetric_eq (block : Block) :
    parseMetric block = ofResult (TaskSource.parseMetric block) := by
  unfold parseMetric TaskSource.parseMetric
  rcases block.labels with _ | ⟨name, _ | ⟨other, rest⟩⟩
  · rfl
  · simp only [Outcome.ofResult_bind, Outcome.ofResult_pure]
    rfl
  · rfl

def parseWorkspaceImport (block : Block) : Outcome WorkWorkspaceImport := do
  let message := "work.workspace_import must have one non-empty name label"
  ofResult (ensure (block.labels.length = 1) message)
  let label ← index block.labels 0
  ofResult (ensure (label ≠ "") message)
  let name ← index block.labels 0
  let sourcePath ← ofResult (requireString block "source_path")
  let targetPath ← ofResult (requireString block "target_path")
  let value := { name := name, sourcePath := sourcePath, targetPath := targetPath }
  ofResult (TaskSource.validateWorkspaceImport value)
  pure value

theorem parseWorkspaceImport_eq (block : Block) :
    parseWorkspaceImport block = ofResult (TaskSource.parseWorkspaceImport block) := by
  unfold parseWorkspaceImport TaskSource.parseWorkspaceImport
  rcases block.labels with _ | ⟨name, _ | ⟨other, rest⟩⟩
  · rfl
  · obtain rfl | hname := eq_or_ne name ""
    · rfl
    · have hlabel : ensure (name ≠ "")
          "work.workspace_import must have one non-empty name label" = .ok () := if_pos hname
      simp only [Outcome.ofResult_bind, Outcome.ofResult_pure, if_neg hname]
      change (ofResult (ensure (name ≠ "") _) >>= fun _ => _) = _
      rw [hlabel]
      rfl
  · rfl

/-- One import against the slice of those after it. -/
def checkOverlap (imports : List WorkWorkspaceImport) (entry : WorkWorkspaceImport × Nat) :
    Outcome Unit := do
  let others ← sliceFrom imports (entry.2 + 1)
  ofResult (others.forM (fun other =>
    ensure (TaskSource.relativePathsOverlap entry.1.targetPath other.targetPath = false)
      ("work.workspace_import targets " ++ entry.1.targetPath.quote ++ " and " ++
        other.targetPath.quote ++ " overlap")))

def checkOverlaps (imports : List WorkWorkspaceImport) : Outcome Unit :=
  imports.zipIdx.forM (checkOverlap imports)

theorem sliceFrom_append {α : Type} (before rest : List α) :
    sliceFrom (before ++ rest) before.length = .ok rest := by
  rw [sliceFrom, if_pos (by rw [List.length_append]; omega), List.drop_left]

theorem checkOverlaps_from (before rest : List WorkWorkspaceImport) :
    (rest.zipIdx before.length).forM (checkOverlap (before ++ rest)) =
      ofResult (TaskSource.checkOverlaps rest) := by
  induction rest generalizing before with
  | nil => rfl
  | cons value rest ih =>
    have hslice := sliceFrom_append (before ++ [value]) rest
    have hrest := ih (before ++ [value])
    rw [List.length_append, List.length_singleton, List.append_assoc, List.singleton_append]
      at hslice hrest
    rw [List.zipIdx_cons]
    change (checkOverlap (before ++ value :: rest) (value, before.length) >>= fun _ =>
      (rest.zipIdx (before.length + 1)).forM (checkOverlap (before ++ value :: rest))) = _
    rw [hrest, checkOverlap, hslice, TaskSource.checkOverlaps, Outcome.ofResult_bind]
    rfl

theorem checkOverlaps_eq (imports : List WorkWorkspaceImport) :
    checkOverlaps imports = ofResult (TaskSource.checkOverlaps imports) :=
  checkOverlaps_from [] imports

def parseWorkWorkspaceImports (work : Block) (schema : String) :
    Outcome (List WorkWorkspaceImport) := do
  let imports ← (work.blocks.filter (fun block => block.name = "workspace_import")).mapM
    parseWorkspaceImport
  ofResult (ensure (schema = "a3s-bench/task/v2" ∨ imports = [])
    "Task v1 does not support work.workspace_import; use a3s-bench/task/v2")
  ofResult (TaskSource.checkNames [] imports)
  checkOverlaps imports
  pure imports

theorem parseWorkWorkspaceImports_eq (work : Block) (schema : String) :
    parseWorkWorkspaceImports work schema =
      ofResult (TaskSource.parseWorkWorkspaceImports work schema) := by
  rw [parseWorkWorkspaceImports, TaskSource.parseWorkWorkspaceImports,
    Outcome.mapM_eq (fun block _ => parseWorkspaceImport_eq block)]
  simp only [Outcome.ofResult_bind, Outcome.ofResult_pure, checkOverlaps_eq]

def parseWorkspaceSeed (block : Block) : Outcome (Option WorkspaceSeed) := do
  let matching := block.blocks.filter (fun child => child.name = "workspace")
  ofResult (ensure (matching.length ≤ 1) "Task may contain at most one workspace block")
  match matching with
  | [] => pure none
  | workspace :: _ => do
    let oci ← uniqueBlock workspace "oci"
    let sourcePath ← ofResult (requireString oci "source_path")
    ofResult (ensure (Text.startsWith sourcePath "/" = true)
      "workspace.oci.source_path must be absolute")
    let image ← ofResult (requireString oci "ref")
    pure (some { image := image, sourcePath := sourcePath
                 platform := (oci.get "platform").bind Acl.Value.asStr })

theorem parseWorkspaceSeed_eq (block : Block) :
    parseWorkspaceSeed block = ofResult (TaskSource.parseWorkspaceSeed block) := by
  rw [parseWorkspaceSeed, TaskSource.parseWorkspaceSeed, Outcome.ofResult_bind]
  refine Outcome.bind_congr_ok (fun _ _ => ?_)
  cases block.blocks.filter (fun child => child.name = "workspace") with
  | nil => rfl
  | cons workspace rest =>
    simp only [uniqueBlock_eq, Outcome.ofResult_bind, Outcome.ofResult_pure]

/-! ## `load_local` -/

/-- The root block, once its name and the number of its labels are checked. -/
def rootBlock (document : Document) : Outcome Block := do
  ofResult (ensure (document.blocks.length = 1) "task.acl must contain exactly one root block")
  let block ← index document.blocks 0
  ofResult (ensure (block.name = "bench" ∧ block.labels.length = 1)
    "root block must be bench \"<task-id>\"")
  pure block

def loadHeader (loader : Loader) (block : Block) : Outcome Header := do
  validateTaskSchema block
  let schema ← ofResult (requireString block "schema")
  ofResult (ensure (schema = "a3s-bench/task/v1" ∨ schema = "a3s-bench/task/v2")
    "bench.schema must be a3s-bench/task/v1 or a3s-bench/task/v2")
  let _ ← ofResult (requireString block "version")
  let judge ← uniqueBlock block "judge"
  let judgeAsset ← ofResult (requireString judge "asset")
  let timeout ← ofResult (TaskSource.optionalPositiveInteger judge "solution_timeout_sec")
  let work ← uniqueBlock block "work"
  let networkNeed := ((work.get "network_need").bind Acl.Value.asStr).getD "none"
  ofResult (ensure (networkNeed ∈ ["none", "restricted_https", "public_internet"])
    "work.network_need must be none, restricted_https, or public_internet")
  let allowHosts ← parseWorkNetworkAllowHosts loader work schema networkNeed
  let image ← uniqueBlock work "image"
  let workImage ← ofResult (requireString image "ref")
  let metrics ← (block.blocks.filter (fun child => child.name = "metric")).mapM parseMetric
  ofResult (ensure ((metrics.filter (fun metric => metric.role = "primary")).length = 1)
    "Task must declare exactly one primary metric")
  pure
    { schema := schema, judge := judge, judgeAsset := judgeAsset
      candidateTimeoutSec := timeout.getD 300, work := work, workNetworkNeed := networkNeed
      workNetworkAllowHosts := allowHosts, workImage := workImage, metrics := metrics }

theorem loadHeader_eq (loader : Loader) (block : Block) :
    loadHeader loader block = ofResult (TaskSource.loadHeader loader block) := by
  simp only [loadHeader, TaskSource.loadHeader, Outcome.ofResult_bind, Outcome.ofResult_pure,
    validateTaskSchema_eq, uniqueBlock_eq]
  -- only the parser of the hosts needs to know what was checked before it
  refine Outcome.bind_congr_ok (fun _ _ => Outcome.bind_congr_ok (fun schema _ =>
    Outcome.bind_congr_ok (fun _ _ => Outcome.bind_congr_ok (fun _ _ =>
    Outcome.bind_congr_ok (fun judge _ => Outcome.bind_congr_ok (fun judgeAsset _ =>
    Outcome.bind_congr_ok (fun timeout _ => Outcome.bind_congr_ok (fun work _ =>
    Outcome.bind_congr_ok (fun _ hneed => ?_)))))))))
  rw [parseWorkNetworkAllowHosts_eq loader work schema (Result.ensure_ok_iff.mp hneed),
    Outcome.mapM_eq (fun child _ => parseMetric_eq child)]

def loadLocal (loader : Loader) (files : TaskFiles) : Outcome TaskInfo := do
  let document ← ofResult files.document
  let block ← rootBlock document
  let header ← loadHeader loader block
  let workspaceSeed ← parseWorkspaceSeed block
  let submission ← ofResult (TaskSource.parseSubmission loader block)
  let workResources ← ofResult
    (TaskSource.parseRoleResources header.work header.schema TaskSource.legacyWorkResources)
  let judgeResources ← ofResult
    (TaskSource.parseRoleResources header.judge header.schema TaskSource.legacyJudgeResources)
  let imports ← parseWorkWorkspaceImports header.work header.schema
  let legacyJudge ← ofResult files.legacyJudge
  ofResult (TaskSource.checkJudgeAsset files header.judgeAsset)
  let id ← index block.labels 0
  let _ ← ofResult (requireString block "name")
  let _ ← ofResult (requireString block "category")
  pure
    { schema := header.schema
      id := id
      judgeAsset := header.judgeAsset
      workImage := header.workImage
      workPlatform := workspaceSeed.bind WorkspaceSeed.platform
      workNetworkNeed := header.workNetworkNeed
      workNetworkAllowHosts := header.workNetworkAllowHosts
      candidateTimeoutSec := header.candidateTimeoutSec
      metrics := header.metrics
      workspaceSeed := workspaceSeed
      submission := submission
      resources := { work := workResources, judge := judgeResources }
      workWorkspaceImports := imports
      legacyJudge := legacyJudge }

/-- The root block and the label that is read of it much later. -/
theorem rootBlock_of_ok {document : Document} {block : Block} {id : String}
    (h : TaskSource.rootBlock document = .ok (block, id)) :
    rootBlock document = .ok block ∧ index block.labels 0 = .ok id := by
  obtain ⟨blocks⟩ := document
  rcases blocks with _ | ⟨⟨name, labels, attributes, inner⟩, _ | ⟨other, rest⟩⟩
  · cases h
  · obtain ⟨id, hid, h⟩ := Result.bind_ok_iff.mp h
    obtain ⟨rfl, rfl⟩ := Prod.mk.inj (Result.pure_ok_iff.mp h)
    rw [Result.okOr_ok_iff] at hid
    split at hid
    · rename_i hname hlabels
      obtain rfl : name = "bench" := hname
      obtain rfl : labels = [_] := hlabels
      cases hid
      exact ⟨rfl, rfl⟩
    · cases hid
  · cases h

theorem rootBlock_of_error {document : Document} {message : String}
    (h : TaskSource.rootBlock document = .error message) :
    rootBlock document = .error (.error message) := by
  obtain ⟨blocks⟩ := document
  rcases blocks with _ | ⟨⟨name, labels, attributes, inner⟩, _ | ⟨other, rest⟩⟩
  · cases h
    rfl
  · simp only [TaskSource.rootBlock, Block.name, Block.labels] at h
    split at h
    · cases h
    · rename_i hother
      cases h
      have hbad : ¬ (name = "bench" ∧ labels.length = 1) := by
        rintro ⟨rfl, hlength⟩
        obtain ⟨id, rfl⟩ := List.length_eq_one_iff.mp hlength
        exact hother id rfl rfl
      change (ofResult (ensure (name = "bench" ∧ labels.length = 1) _) >>= fun _ => _) = _
      rw [ensure, if_neg hbad]
      rfl
  · cases h
    rfl

/-- Told apart from its errors or not, `load_local` does the same: it never panics. -/
theorem loadLocal_eq (loader : Loader) (files : TaskFiles) :
    loadLocal loader files = ofResult (TaskSource.loadLocal loader files) := by
  rw [loadLocal, TaskSource.loadLocal, Outcome.ofResult_bind]
  refine Outcome.bind_congr_ok (fun document _ => ?_)
  cases hroot : TaskSource.rootBlock document with
  | error message =>
    rw [rootBlock_of_error hroot]
    rfl
  | ok root =>
    obtain ⟨block, id⟩ := root
    obtain ⟨hblock, hid⟩ := rootBlock_of_ok hroot
    simp only [hblock, hid, Outcome.ok_bind, loadHeader_eq, parseWorkspaceSeed_eq,
      parseWorkWorkspaceImports_eq, Outcome.ofResult_bind, Outcome.ofResult_pure]

/-- What the closed schema promises: its checks never panic and accept exactly
what conforms to it at every level, and `load_local` never panics after them. -/
theorem closed_schema_panic_free :
    (∀ root, ¬ (validateTaskSchema root).Panics ∧
      (validateTaskSchema root = .ok () ↔ Conforms taskSchema root)) ∧
    ∀ loader files, ¬ (loadLocal loader files).Panics := by
  refine ⟨fun root => ?_, fun loader files => ?_⟩
  · rw [validateTaskSchema_eq, Outcome.ofResult_ok_iff]
    exact ⟨Outcome.not_panics_ofResult _, TaskSource.validateTaskSchema_ok_iff root⟩
  · rw [loadLocal_eq]
    exact Outcome.not_panics_ofResult _

/-- The arms are there: below another parent the same names would panic. -/
example : (validateChild (.mk "oci" [] [] [])).Panics := ⟨_, rfl⟩

end A3sBench.TaskPanics
