import A3sBench.Digest
import A3sBench.Json
import A3sBench.Task
import Mathlib

/-!
# Lock identities

A lock carries the digest of a JSON object made of its fields. Which fields it
has depends on the schema: the historical layouts leave out the ones that were
added later.
-/

namespace A3sBench

/-- A `BTreeMap` of strings, as its iterator lists it. -/
structure StringMap where
  entries : List (String × String)
  sorted : entries.Pairwise (fun a b => a.1 < b.1)
  deriving DecidableEq

namespace StringMap

def empty : StringMap := { entries := [], sorted := .nil }

def insertEntry (key value : String) : List (String × String) → List (String × String)
  | [] => [(key, value)]
  | entry :: rest =>
    if key < entry.1 then (key, value) :: entry :: rest
    else if key = entry.1 then (key, value) :: rest
    else entry :: insertEntry key value rest

theorem mem_insertEntry {key value : String} {entries : List (String × String)}
    {e : String × String} (h : e ∈ insertEntry key value entries) :
    e = (key, value) ∨ e ∈ entries := by
  induction entries with
  | nil => simpa [insertEntry] using h
  | cons entry rest ih =>
    rw [insertEntry] at h
    split_ifs at h
    · simpa using h
    · rcases List.mem_cons.mp h with he | he
      · exact .inl he
      · exact .inr (List.mem_cons_of_mem _ he)
    · rcases List.mem_cons.mp h with rfl | he
      · exact .inr List.mem_cons_self
      · exact (ih he).imp_right (List.mem_cons_of_mem _)

theorem insertEntry_sorted {key value : String} {entries : List (String × String)}
    (h : entries.Pairwise (fun a b => a.1 < b.1)) :
    (insertEntry key value entries).Pairwise (fun a b => a.1 < b.1) := by
  induction entries with
  | nil => exact List.pairwise_singleton _ _
  | cons entry rest ih =>
    obtain ⟨hentry, hrest⟩ := List.pairwise_cons.mp h
    rw [insertEntry]
    split_ifs with hlt heq
    · refine List.pairwise_cons.mpr ⟨fun e he => ?_, h⟩
      rcases List.mem_cons.mp he with rfl | he
      · exact hlt
      · exact hlt.trans (hentry e he)
    · exact List.pairwise_cons.mpr ⟨fun e he => heq ▸ hentry e he, hrest⟩
    · refine List.pairwise_cons.mpr ⟨fun e he => ?_, ih hrest⟩
      rcases mem_insertEntry he with rfl | he
      · exact lt_of_le_of_ne (not_lt.mp hlt) (Ne.symm heq)
      · exact hentry e he

/-- `BTreeMap::insert`. -/
def insert (map : StringMap) (key value : String) : StringMap :=
  { entries := insertEntry key value map.entries, sorted := insertEntry_sorted map.sorted }

/-- `BTreeMap::get`. -/
def get (map : StringMap) (key : String) : Option String := map.entries.lookup key

end StringMap

structure TaskLock where
  schema : String
  lockDigest : String
  taskRevision : String
  artifactDigest : String
  judgeRevision : String
  judgeArtifactDigest : String
  judgeModel : Option String
  resolvedImages : StringMap
  resources : Option TaskResources
  workspaceImports : Option (List WorkWorkspaceImport)
  networkAllowHosts : Option (List String)
  deriving DecidableEq

structure CandidateProductLock where
  name : String
  version : String
  targetTriple : Option String
  artifactSetDigest : Option String
  deriving DecidableEq

structure CandidateLock where
  schema : String
  lockDigest : String
  candidateRevision : String
  artifactDigest : String
  model : Option String
  reasoningEffort : Option String
  product : Option CandidateProductLock
  deriving DecidableEq

namespace LockIdentity

open Json (nullable skipNone)

def roleResourcesJson (resources : RoleResources) : Json :=
  .object [("cpu_limit", .number (.posInt resources.cpuLimit)),
    ("memory_bytes", .number (.posInt resources.memoryBytes))]

def resourcesJson (resources : TaskResources) : Json :=
  .object [("work", roleResourcesJson resources.work),
    ("judge", roleResourcesJson resources.judge)]

def importJson (value : WorkWorkspaceImport) : Json :=
  .object [("name", .string value.name), ("source_path", .string value.sourcePath),
    ("target_path", .string value.targetPath)]

def importsJson (imports : List WorkWorkspaceImport) : Json := .array (imports.map importJson)

def stringsJson (values : List String) : Json := .array (values.map .string)

def mapJson (map : StringMap) : Json := .object (map.entries.map (fun e => (e.1, .string e.2)))

def productJson (product : CandidateProductLock) : Json :=
  .object ([("name", .string product.name), ("version", .string product.version)] ++
    skipNone "target_triple" .string product.targetTriple ++
    skipNone "artifact_set_digest" .string product.artifactSetDigest)

/-- `LegacyTaskLockIdentity`; the fields every layout has. -/
def legacyTaskMembers (value : TaskLock) : List (String × Json) :=
  [("schema", .string value.schema), ("task_revision", .string value.taskRevision),
    ("artifact_digest", .string value.artifactDigest),
    ("judge_revision", .string value.judgeRevision),
    ("judge_artifact_digest", .string value.judgeArtifactDigest),
    ("judge_model", nullable .string value.judgeModel),
    ("resolved_images", mapJson value.resolvedImages)]

/-- The fields `TaskLockIdentity` has besides. -/
def addedTaskMembers (value : TaskLock) : List (String × Json) :=
  [("resources", nullable resourcesJson value.resources),
    ("workspace_imports", nullable importsJson value.workspaceImports)] ++
    skipNone "network_allow_hosts" stringsJson value.networkAllowHosts

/-- What `lock_identity::task` serializes. -/
def taskIdentity (value : TaskLock) : Json :=
  if value.schema = "a3s.bench.task-lock.v2" then
    .object (legacyTaskMembers value ++ addedTaskMembers value)
  else .object (legacyTaskMembers value)

/-- What `lock_identity::candidate` serializes. -/
def candidateIdentity (value : CandidateLock) : Json :=
  let members := [("schema", .string value.schema),
    ("candidate_revision", .string value.candidateRevision),
    ("artifact_digest", .string value.artifactDigest),
    ("model", nullable .string value.model)]
  let product := skipNone "product" productJson value.product
  if value.schema = "a3s.bench.candidate-lock.v3" then
    .object (members ++ ("reasoning_effort", nullable .string value.reasoningEffort) :: product)
  else .object (members ++ product)

/-- `lock_identity::task`. -/
def task (os : Platform) (value : TaskLock) : String := os.digest (taskIdentity value)

/-- `lock_identity::candidate`. -/
def candidate (os : Platform) (value : CandidateLock) : String :=
  os.digest (candidateIdentity value)

theorem validateDigest_sha256 {os : Platform} (hsha : os.HexDigests) (input : Bytes) :
    validateDigest ("sha256:" ++ os.sha256 input) = .ok () :=
  validateDigest_ok_iff.mpr ⟨_, by rw [String.ofList_toList], hsha input⟩

theorem validateDigest_digest {os : Platform} (hsha : os.HexDigests) (value : Json) :
    validateDigest (os.digest value) = .ok () := validateDigest_sha256 hsha value.toVec

end LockIdentity

end A3sBench
