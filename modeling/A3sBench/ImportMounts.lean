import A3sBench.PathComponents
import A3sBench.RunDirectory
import A3sBench.TaskSource

/-!
# Where workspace imports are mounted

The loader compares the targets as written; the container mounts them where
they resolve to from its workspace.
-/

namespace A3sBench.Workspace

open TaskSource (checkOverlaps hasUnsafeChar isCleanComponent relativePathsOverlap)

def fallbackContainerWorkspace : String := "/workspace"

/-- `CONTAINER_HOME`, `CONTAINER_PACKAGE` and `CONTAINER_HARNESS`. -/
def reservedPaths : List String := ["/run/a3s-codex/home", "/opt/a3s/codex", "/etc/codex"]

/-- `container_workspace` of a Task with or without a `public/workspace`. -/
def containerWorkspace (hasPublicWorkspace : Bool) (task : TaskInfo) : Result String := do
  let rawPath :=
    if hasPublicWorkspace then fallbackContainerWorkspace
    else (task.workspaceSeed.map WorkspaceSeed.sourcePath).getD fallbackContainerWorkspace
  let path :=
    if rawPath ≠ "/" ∧ rawPath.toList.getLast? = some '/' then String.ofList rawPath.toList.dropLast
    else rawPath
  ensure (¬['/', '/'] <:+: rawPath.toList ∧ Text.startsWith path "/" = true ∧ path ≠ "/" ∧
      path.toList.getLast? ≠ some '/' ∧ ¬['/', '/'] <:+: path.toList ∧ hasUnsafeChar path = false ∧
      ((path.toList.splitOn '/').drop 1).all isCleanComponent = true)
    "Codex container workspace path is unsafe"
  reservedPaths.forM (fun reserved =>
    ensure (path ≠ reserved ∧ Text.startsWith path (reserved ++ "/") = false ∧
        Text.startsWith reserved (path ++ "/") = false)
      "Codex container workspace overlaps a reserved path")
  pure path

/-- `resolve_workspace_import_target`. -/
def resolveWorkspaceImportTarget (workspace targetPath : String) : String :=
  if Text.startsWith targetPath "/" then targetPath
  else String.ofList (workspace.toList.rdropWhile (· = '/')) ++ "/" ++ targetPath

/-- The destinations of `mount_specs`. -/
def mountTargets (workspace : String) (imports : List WorkWorkspaceImport) : List String :=
  imports.map (fun value => resolveWorkspaceImportTarget workspace value.targetPath)

/-- The components of a path, the empty one before its root included. -/
def parts (path : String) : List (List Char) := path.toList.splitOn '/'

/-- The same place or one below it. -/
def Within (path directory : String) : Prop := parts directory <+: parts path

/-- Neither equal nor one below the other. -/
def Apart (left right : String) : Prop := ¬Within left right ∧ ¬Within right left

/-- No two mounts meet and the workspace is and lies below none. -/
def MountsApart (workspace : String) (targets : List String) : Prop :=
  targets.Pairwise Apart ∧ ∀ target ∈ targets, ¬Within workspace target

/-- The absolute targets stay clear of the workspace and of the relative
targets in it. -/
def AbsoluteClear (workspace : String) (imports : List WorkWorkspaceImport) : Prop :=
  ∀ value ∈ imports, Text.startsWith value.targetPath "/" = true →
    (workspace ≠ value.targetPath ∧
      Text.startsWith workspace (value.targetPath ++ "/") = false) ∧
      ∀ other ∈ imports, Text.startsWith other.targetPath "/" = false →
        ∀ below, value.targetPath = workspace ++ "/" ++ below →
          relativePathsOverlap below other.targetPath = false

/-! ## Paths as parts -/

theorem parts_append (left right : String) :
    parts (left ++ "/" ++ right) = parts left ++ parts right := by
  have hlist : (left ++ "/" ++ right).toList = left.toList ++ '/' :: right.toList := by
    simp
  rw [parts, hlist, List.splitOn_append_cons_self]
  rfl

theorem parts_ne_nil (path : String) : parts path ≠ [] := List.splitOn_ne_nil _ _

theorem startsWith_iff {s pattern : String} :
    Text.startsWith s pattern = true ↔ ∃ rest, s = pattern ++ rest := by
  simp only [Text.startsWith, List.isPrefixOf_iff_prefix]
  constructor
  · rintro ⟨rest, hrest⟩
    exact ⟨String.ofList rest, String.toList_injective (by simp [hrest])⟩
  · rintro ⟨rest, rfl⟩
    exact ⟨rest.toList, by simp⟩

theorem within_iff {path directory : String} :
    Within path directory ↔ path = directory ∨ Text.startsWith path (directory ++ "/") = true := by
  rw [Within, parts, parts, Library.splitOn_prefix_iff, String.toList_inj, startsWith_iff]
  apply or_congr_right
  constructor
  · rintro ⟨rest, hrest⟩
    exact ⟨String.ofList rest, String.toList_injective (by simp [hrest])⟩
  · rintro ⟨rest, rfl⟩
    exact ⟨rest.toList, by simp⟩

/-- The loader's comparison is that neither target lies within the other. -/
theorem relativePathsOverlap_eq_false_iff {left right : String} :
    relativePathsOverlap left right = false ↔ Apart left right := by
  rw [Apart, within_iff, within_iff]
  simp only [relativePathsOverlap, Bool.or_eq_false_iff, decide_eq_false_iff_not, not_or,
    Bool.not_eq_true]
  tauto

theorem checkOverlaps_ok_iff {imports : List WorkWorkspaceImport} :
    checkOverlaps imports = .ok () ↔
      imports.Pairwise (fun a b => relativePathsOverlap a.targetPath b.targetPath = false) := by
  induction imports with
  | nil => simp [checkOverlaps]
  | cons value rest ih =>
      simp only [checkOverlaps, Result.bind_ok_iff, Result.exists_unit_iff, Result.forM_ok_iff,
        Result.ensure_ok_iff, ih, List.pairwise_cons]

/-! ## The mounts -/

theorem resolve_absolute {workspace target : String} (h : Text.startsWith target "/" = true) :
    resolveWorkspaceImportTarget workspace target = target := if_pos h

theorem parts_resolve_relative {workspace target : String}
    (hworkspace : workspace.toList.getLast? ≠ some '/')
    (htarget : Text.startsWith target "/" = false) :
    parts (resolveWorkspaceImportTarget workspace target) = parts workspace ++ parts target := by
  have htrim : workspace.toList.rdropWhile (· = '/') = workspace.toList := by
    rw [List.rdropWhile_eq_self_iff]
    intro hne hlast
    exact hworkspace (List.getLast?_eq_some_getLast hne ▸ congrArg some (of_decide_eq_true hlast))
  rw [resolveWorkspaceImportTarget, if_neg (by simp [htarget]), htrim, parts_append,
    String.ofList_toList]

theorem containerWorkspace_getLast? {hasPublicWorkspace : Bool} {task : TaskInfo}
    {workspace : String} (h : containerWorkspace hasPublicWorkspace task = .ok workspace) :
    workspace.toList.getLast? ≠ some '/' := by
  simp only [containerWorkspace, Result.bind_ok_iff, Result.exists_unit_iff, Result.ensure_ok_iff,
    Result.pure_ok_iff] at h
  obtain ⟨⟨_, _, _, hlast, _⟩, _, rfl⟩ := h
  exact hlast

theorem overlaps_of_loadLocal {loader : TaskSource.Loader} {files : TaskSource.TaskFiles}
    {task : TaskInfo} (h : TaskSource.loadLocal loader files = .ok task) :
    task.workWorkspaceImports.Pairwise
      (fun a b => relativePathsOverlap a.targetPath b.targetPath = false) := by
  simp only [TaskSource.loadLocal, Result.bind_ok_iff, Result.pure_ok_iff] at h
  obtain ⟨_, _, _, _, header, _, _, _, _, _, _, _, _, _, imports, himports, _, _, _, _, _, _, _, _,
    rfl⟩ := h
  simp only [TaskSource.parseWorkWorkspaceImports, Result.bind_ok_iff, Result.exists_unit_iff,
    Result.pure_ok_iff] at himports
  obtain ⟨_, _, _, _, hoverlaps, rfl⟩ := himports
  exact checkOverlaps_ok_iff.mp hoverlaps

theorem within_resolve {workspace target : String}
    (hworkspace : workspace.toList.getLast? ≠ some '/')
    (htarget : Text.startsWith target "/" = false) :
    ¬Within workspace (resolveWorkspaceImportTarget workspace target) := by
  rw [Within, parts_resolve_relative hworkspace htarget]
  intro h
  have hlength := h.length_le
  have hpos := List.length_pos_of_ne_nil (parts_ne_nil target)
  rw [List.length_append] at hlength
  omega

/-- An absolute target clear of the workspace meets a relative one inside it only. -/
theorem apart_absolute_iff {workspace target other : String}
    (hworkspace : workspace.toList.getLast? ≠ some '/') (hclear : ¬Within workspace target)
    (hother : Text.startsWith other "/" = false) :
    Apart target (resolveWorkspaceImportTarget workspace other) ↔
      ∀ below, target = workspace ++ "/" ++ below → relativePathsOverlap below other = false := by
  have hinside : Within target workspace → ∃ below, target = workspace ++ "/" ++ below := by
    rw [within_iff, startsWith_iff]
    rintro (rfl | ⟨below, rfl⟩)
    · exact absurd List.prefix_rfl hclear
    · exact ⟨below, rfl⟩
  simp only [relativePathsOverlap_eq_false_iff]
  rw [Apart, Within, Within, parts_resolve_relative hworkspace hother]
  constructor
  · rintro ⟨hbelow, habove⟩ below rfl
    rw [parts_append, List.prefix_append_right_inj] at hbelow habove
    exact ⟨hbelow, habove⟩
  · intro h
    constructor
    · intro hprefix
      obtain ⟨below, rfl⟩ := hinside ((List.prefix_append _ _).trans hprefix)
      rw [parts_append, List.prefix_append_right_inj] at hprefix
      exact (h below rfl).1 hprefix
    · intro hprefix
      rcases List.prefix_or_prefix_of_prefix hprefix (List.prefix_append _ _) with habove | hbelow
      · exact hclear habove
      · obtain ⟨below, rfl⟩ := hinside hbelow
        rw [parts_append, List.prefix_append_right_inj] at hprefix
        exact (h below rfl).2 hprefix

theorem Apart.symm {left right : String} (h : Apart left right) : Apart right left := ⟨h.2, h.1⟩

/-- Two imports that the loader admits are mounted apart where an absolute one
is clear of a relative one. -/
theorem apart_resolve {workspace : String} {value other : WorkWorkspaceImport}
    {imports : List WorkWorkspaceImport} (hworkspace : workspace.toList.getLast? ≠ some '/')
    (hclear : AbsoluteClear workspace imports) (hvalue : value ∈ imports) (hother : other ∈ imports)
    (hoverlap : relativePathsOverlap value.targetPath other.targetPath = false) :
    Apart (resolveWorkspaceImportTarget workspace value.targetPath)
      (resolveWorkspaceImportTarget workspace other.targetPath) := by
  have hmixed : ∀ {a b : WorkWorkspaceImport}, a ∈ imports → b ∈ imports →
      Text.startsWith a.targetPath "/" = true → Text.startsWith b.targetPath "/" = false →
      Apart a.targetPath (resolveWorkspaceImportTarget workspace b.targetPath) := by
    intro a b ha hb habsolute hrelative
    obtain ⟨houtside, hinside⟩ := hclear a ha habsolute
    have hnot : ¬Within workspace a.targetPath := by
      rw [within_iff, houtside.2]
      simpa using houtside.1
    exact (apart_absolute_iff hworkspace hnot hrelative).mpr (hinside b hb hrelative)
  rw [relativePathsOverlap_eq_false_iff] at hoverlap
  cases habsolute : Text.startsWith value.targetPath "/" with
  | true =>
      rw [resolve_absolute habsolute]
      cases hrelative : Text.startsWith other.targetPath "/" with
      | true =>
          rw [resolve_absolute hrelative]
          exact hoverlap
      | false => exact hmixed hvalue hother habsolute hrelative
  | false =>
      cases hrelative : Text.startsWith other.targetPath "/" with
      | true =>
          rw [resolve_absolute hrelative]
          exact (hmixed hother hvalue hrelative habsolute).symm
      | false =>
          rw [Apart, Within, Within, parts_resolve_relative hworkspace habsolute,
            parts_resolve_relative hworkspace hrelative, List.prefix_append_right_inj,
            List.prefix_append_right_inj]
          exact hoverlap

/-- The mounts of an accepted Task do not collide where its absolute targets are
clear of the workspace. -/
theorem mountsApart_iff {loader : TaskSource.Loader} {files : TaskSource.TaskFiles}
    {task : TaskInfo} {hasPublicWorkspace : Bool} {workspace : String}
    (hload : TaskSource.loadLocal loader files = .ok task)
    (hworkspace : containerWorkspace hasPublicWorkspace task = .ok workspace) :
    MountsApart workspace (mountTargets workspace task.workWorkspaceImports) ↔
      AbsoluteClear workspace task.workWorkspaceImports := by
  have hlast := containerWorkspace_getLast? hworkspace
  rw [MountsApart, mountTargets, List.pairwise_map, List.forall_mem_map]
  constructor
  · rintro ⟨hpairs, houtside⟩ value hvalue habsolute
    have hnot := houtside value hvalue
    rw [resolve_absolute habsolute] at hnot
    refine ⟨?_, ?_⟩
    · rw [within_iff, not_or, Bool.not_eq_true] at hnot
      exact hnot
    · intro other hother hrelative
      have hne : value ≠ other := by
        rintro rfl
        rw [habsolute] at hrelative
        cases hrelative
      have hsymm : Std.Symm fun a b : WorkWorkspaceImport =>
          Apart (resolveWorkspaceImportTarget workspace a.targetPath)
            (resolveWorkspaceImportTarget workspace b.targetPath) := ⟨fun _ _ h => h.symm⟩
      have hapart := hpairs.forall hvalue hother hne
      rw [resolve_absolute habsolute] at hapart
      exact (apart_absolute_iff hlast hnot hrelative).mp hapart
  · intro hclear
    refine ⟨?_, ?_⟩
    · exact (overlaps_of_loadLocal hload).imp_of_mem
        (fun hvalue hother => apart_resolve hlast hclear hvalue hother)
    · intro value hvalue
      cases habsolute : Text.startsWith value.targetPath "/" with
      | true =>
          obtain ⟨houtside, _⟩ := hclear value hvalue habsolute
          rw [resolve_absolute habsolute, within_iff, houtside.2]
          simpa using houtside.1
      | false => exact within_resolve hlast habsolute

/-! ### A Task with a relative and an absolute target -/

def importBlock (name targetPath : String) : Acl.Block :=
  .mk "workspace_import" [name]
    [("source_path", .string ("/root/" ++ name)), ("target_path", .string targetPath)] []

def importFiles (absolute : String) : TaskSource.TaskFiles :=
  { document := .ok ⟨[.mk "bench" ["t"]
      [("schema", .string "a3s-bench/task/v2"), ("version", .string "1"), ("name", .string "T"),
        ("category", .string "c")]
      [.mk "workspace" [] [] [.mk "oci" []
          [("ref", .string "seed"), ("source_path", .string "/home/agent/ws")] []],
        .mk "work" [] [("cpu_limit", .number "1"), ("memory_bytes", .number "1")]
          [.mk "image" [] [("ref", .string "alpine")] [], importBlock "a" "cache",
            importBlock "b" absolute],
        .mk "judge" []
          [("asset", .string "oci://j"), ("cpu_limit", .number "1"), ("memory_bytes", .number "1")]
          [],
        .mk "metric" ["m"]
          [("role", .string "primary"), ("min", .number "0"), ("max", .number "1")] []]]⟩
    legacyJudge := .ok none
    hasAssetAcl := fun _ => false }

def importTask (absolute : String) : TaskInfo :=
  { Lock.sampleTask with
    schema := "a3s-bench/task/v2"
    workspaceSeed := some { image := "seed", sourcePath := "/home/agent/ws", platform := none }
    resources :=
      { work := { cpuLimit := 1, memoryBytes := 1 }, judge := { cpuLimit := 1, memoryBytes := 1 } }
    workWorkspaceImports :=
      [{ name := "a", sourcePath := "/root/a", targetPath := "cache" },
        { name := "b", sourcePath := "/root/b", targetPath := absolute }] }

theorem mountsApart_iff_sample :
    MountsApart "/home/agent/ws" ["/home/agent/ws/cache", "/home/agent/.m2"] ↔
      AbsoluteClear "/home/agent/ws" (importTask "/home/agent/.m2").workWorkspaceImports :=
  @mountsApart_iff sampleLoader (importFiles "/home/agent/.m2") (importTask "/home/agent/.m2") false
    "/home/agent/ws" (by decide +kernel) (by decide)

/-- An absolute target may be where a relative one is mounted. -/
theorem absolute_meets_relative :
    ¬∀ (loader : TaskSource.Loader) (files : TaskSource.TaskFiles) (task : TaskInfo)
        (hasPublicWorkspace : Bool) (workspace : String),
      TaskSource.loadLocal loader files = .ok task →
      containerWorkspace hasPublicWorkspace task = .ok workspace →
      MountsApart workspace (mountTargets workspace task.workWorkspaceImports) := by
  intro hclaim
  have hload : TaskSource.loadLocal sampleLoader (importFiles "/home/agent/ws/cache") =
      .ok (importTask "/home/agent/ws/cache") := by
    decide +kernel
  have hmounts := hclaim _ _ _ false "/home/agent/ws" hload (by decide)
  exact ((List.pairwise_pair.mp hmounts.1).1) List.prefix_rfl

end A3sBench.Workspace
