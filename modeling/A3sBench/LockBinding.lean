import A3sBench.Library.Sealed
import A3sBench.Lock
import A3sBench.ResultIdentity

/-!
# What a lock digest binds

The identities of the older schemas leave fields out. The loaders fix each of
them, so that the digest of an accepted lock stands for the whole lock.
-/

namespace A3sBench.LockIdentity

open Json (nullable skipNone)

theorem roleResourcesJson_injective : Function.Injective roleResourcesJson := by
  rintro ⟨_, _⟩ ⟨_, _⟩ h
  simpa [roleResourcesJson] using h

theorem resourcesJson_injective : Function.Injective resourcesJson := by
  rintro ⟨_, _⟩ ⟨_, _⟩ h
  simpa [resourcesJson, roleResourcesJson_injective.eq_iff] using h

theorem importJson_injective : Function.Injective importJson := by
  rintro ⟨_, _, _⟩ ⟨_, _, _⟩ h
  simpa [importJson] using h

theorem mapJson_injective : Function.Injective mapJson := by
  rintro ⟨a, _⟩ ⟨b, _⟩ h
  have hentry : Function.Injective
      (fun e : String × String => (e.1, Json.string e.2)) := by
    rintro ⟨_, _⟩ ⟨_, _⟩ h
    simpa using h
  simpa [mapJson, (List.map_injective_iff.mpr hentry).eq_iff] using h

theorem productJson_injective : Function.Injective productJson := by
  rintro ⟨_, _, targetTriple, artifactSetDigest⟩ ⟨_, _, targetTriple', artifactSetDigest'⟩ h
  cases targetTriple <;> cases artifactSetDigest <;> cases targetTriple' <;>
    cases artifactSetDigest' <;> simp_all [productJson, skipNone]

/-- The members of a layout come after the ones every layout has. -/
theorem taskIdentity_eq (value : TaskLock) :
    taskIdentity value = .object (legacyTaskMembers value ++
      if value.schema = "a3s.bench.task-lock.v2" then addedTaskMembers value else []) := by
  unfold taskIdentity
  split <;> simp

theorem addedTaskMembers_inj {a b : TaskLock} (h : addedTaskMembers a = addedTaskMembers b) :
    a.resources = b.resources ∧ a.workspaceImports = b.workspaceImports ∧
      a.networkAllowHosts = b.networkAllowHosts := by
  obtain ⟨hfixed, hhosts⟩ := List.append_inj h rfl
  simp only [List.cons.injEq, Prod.mk.injEq, true_and, and_true] at hfixed
  have himports : Function.Injective importsJson :=
    Json.array_map_injective importJson_injective
  have hstrings : Function.Injective stringsJson :=
    Json.array_map_injective Json.string_injective
  exact ⟨Json.nullable_injective resourcesJson_injective (fun _ => Json.noConfusion) hfixed.1,
    Json.nullable_injective himports (fun _ => Json.noConfusion) hfixed.2,
    Json.skipNone_injective _ hstrings hhosts⟩

/-- Equal identities leave only the digest and what the older layout omits. -/
theorem taskIdentity_inj {a b : TaskLock} (h : taskIdentity a = taskIdentity b) :
    legacyTaskMembers a = legacyTaskMembers b ∧ a.schema = b.schema ∧
      (a.schema = "a3s.bench.task-lock.v2" → addedTaskMembers a = addedTaskMembers b) := by
  rw [taskIdentity_eq, taskIdentity_eq] at h
  obtain ⟨hlegacy, hadded⟩ := List.append_inj (Json.object.inj h) rfl
  have hschema : a.schema = b.schema := by
    simpa [legacyTaskMembers] using congrArg (fun l => l.head?) hlegacy
  refine ⟨hlegacy, hschema, fun hv2 => ?_⟩
  rwa [if_pos hv2, if_pos (hschema ▸ hv2)] at hadded

theorem candidateIdentity_inj {a b : CandidateLock}
    (h : candidateIdentity a = candidateIdentity b) :
    a.schema = b.schema ∧ a.candidateRevision = b.candidateRevision ∧
      a.artifactDigest = b.artifactDigest ∧ a.model = b.model ∧ a.product = b.product ∧
      (a.schema = "a3s.bench.candidate-lock.v3" → a.reasoningEffort = b.reasoningEffort) := by
  have hproduct := Json.skipNone_injective "product" productJson_injective
  have hschema : a.schema = b.schema := by
    unfold candidateIdentity at h
    split at h <;> split at h <;> simp_all
  unfold candidateIdentity at h
  rw [← hschema] at h
  split at h
  · simp only [Json.object.injEq, List.cons_append, List.nil_append, List.cons.injEq,
      Prod.mk.injEq, true_and, Json.string.injEq, Json.nullable_string_inj,
      hproduct.eq_iff] at h
    grind
  · simp only [Json.object.injEq, List.cons_append, List.nil_append, List.cons.injEq,
      Prod.mk.injEq, true_and, Json.string.injEq, Json.nullable_string_inj,
      hproduct.eq_iff] at h
    grind

end A3sBench.LockIdentity

namespace A3sBench.Lock

open Asset (LocalAssetPackage)
open Library
open TaskSnapshot (artifactPath)

section Accepted

variable {host : Host}

/-- Everything the task loader checks of the lock alone, with the artifact left out. -/
theorem sealed_of_checkTaskLock {value : TaskLock} (h : checkTaskLock host value = .ok ()) :
    (value.schema = "a3s.bench.task-lock.v1" ∨ value.schema = "a3s.bench.task-lock.v2") ∧
      value.lockDigest = LockIdentity.task host.os value := by
  unfold checkTaskLock at h
  simp only [Result.bind_ok_iff, Result.exists_unit_iff, Result.ensure_ok_iff] at h
  exact ⟨h.1, h.2.2.1.symm⟩

/-- A v1 lock has none of the fields its identity leaves out. -/
theorem pinned_of_checkTaskSchema {value : TaskLock} {task : TaskInfo}
    (h : checkTaskSchema value task = .ok ()) (hv1 : value.schema = "a3s.bench.task-lock.v1") :
    value.resources = none ∧ value.workspaceImports = none ∧ value.networkAllowHosts = none := by
  unfold checkTaskSchema at h
  split at h
  · exact Result.ensure_ok_iff.mp h
  · simp_all
  · cases h
  · cases h
  · cases h

theorem sealed_of_checkCandidateLock {value : CandidateLock}
    (h : checkCandidateLock host value = .ok ()) :
    value.lockDigest = LockIdentity.candidate host.os value := by
  unfold checkCandidateLock at h
  simp only [Result.bind_ok_iff, Result.exists_unit_iff, Result.ensure_ok_iff] at h
  exact h.2.2.1.symm

/-- Only a v3 lock can have a reasoning effort. -/
theorem pinned_of_checkProduct {protocol : Asset.CandidateProtocol} {value : CandidateLock}
    {state state' : StateRoot} (h : checkProduct host protocol value state = .ok state')
    (hschema : value.schema ≠ "a3s.bench.candidate-lock.v3") : value.reasoningEffort = none := by
  unfold checkProduct at h
  split at h
  · simp only [Result.bind_ok_iff, Result.exists_unit_iff, Result.ensure_ok_iff] at h
    exact h.2.1
  · simp only [Result.bind_ok_iff, Result.exists_unit_iff, Result.ensure_ok_iff] at h
    exact h.2.1.1
  · simp only [Result.bind_ok_iff, Result.exists_unit_iff, Result.ensure_ok_iff] at h
    exact absurd h.2.2.1 hschema
  · cases h

end Accepted

section Formats

variable (host : Host)

/-- Some loading of the lock succeeds. -/
def AcceptedTask (lock : TaskLock) : Prop :=
  ∃ (file : LockFile TaskLock) (state : StateRoot) (loaded : LoadedTaskLock),
    loadTask host file state = .ok loaded ∧ loaded.lock = lock

def AcceptedCandidate (lock : CandidateLock) : Prop :=
  ∃ (file : LockFile CandidateLock) (state state' : StateRoot) (artifact : Directory),
    loadCandidate host file state = .ok ((lock, artifact), state')

variable {host}

theorem AcceptedTask.checked {lock : TaskLock} (h : AcceptedTask host lock) :
    checkTaskLock host lock = .ok () ∧ ∃ task, checkTaskSchema lock task = .ok () := by
  obtain ⟨file, state, loaded, hload, rfl⟩ := h
  unfold loadTask at hload
  simp only [Result.bind_ok_iff, Result.exists_unit_iff, Result.pure_ok_iff] at hload
  obtain ⟨value, _, hcheck, _, _, task, _, hschema, _, _, _, _, _, _, _, rfl⟩ := hload
  exact ⟨hcheck, task, hschema⟩

theorem AcceptedCandidate.checked {lock : CandidateLock} (h : AcceptedCandidate host lock) :
    checkCandidateLock host lock = .ok () ∧
      ∃ protocol state state', checkProduct host protocol lock state = .ok state' := by
  obtain ⟨file, state, state', artifact, hload⟩ := h
  unfold loadCandidate at hload
  simp only [Result.bind_ok_iff, Result.exists_unit_iff, Result.pure_ok_iff, Prod.mk.injEq] at hload
  obtain ⟨value, _, hcheck, _, _, candidate, _, _, _, hproduct, ⟨rfl, _⟩, _⟩ := hload
  exact ⟨hcheck, _, _, _, hproduct⟩

variable (host)

/-- TaskLocks as the loader accepts them. -/
def taskFormat : SealedFormat TaskLock Json String where
  Accepted := AcceptedTask host
  identity := LockIdentity.taskIdentity
  hash := host.os.digest
  carried := TaskLock.lockDigest
  carried_eq h := (sealed_of_checkTaskLock h.checked.1).2
  determined := by
    intro a b ha hb hdigest hidentity
    obtain ⟨hcheck, task, htask⟩ := ha.checked
    obtain ⟨-, task', htask'⟩ := hb.checked
    obtain ⟨hlegacy, hschema, hadded⟩ := LockIdentity.taskIdentity_inj hidentity
    have hrest : a.resources = b.resources ∧ a.workspaceImports = b.workspaceImports ∧
        a.networkAllowHosts = b.networkAllowHosts := by
      rcases (sealed_of_checkTaskLock hcheck).1 with hv1 | hv2
      · have hpin := pinned_of_checkTaskSchema htask hv1
        have hpin' := pinned_of_checkTaskSchema htask' (hschema ▸ hv1)
        exact ⟨hpin.1.trans hpin'.1.symm, hpin.2.1.trans hpin'.2.1.symm,
          hpin.2.2.trans hpin'.2.2.symm⟩
      · exact LockIdentity.addedTaskMembers_inj (hadded hv2)
    simp only [LockIdentity.legacyTaskMembers, List.cons.injEq, Prod.mk.injEq, true_and,
      Json.string.injEq, Json.nullable_string_inj, LockIdentity.mapJson_injective.eq_iff] at hlegacy
    cases a
    cases b
    simp_all

/-- CandidateLocks as the loader accepts them. -/
def candidateFormat : SealedFormat CandidateLock Json String where
  Accepted := AcceptedCandidate host
  identity := LockIdentity.candidateIdentity
  hash := host.os.digest
  carried := CandidateLock.lockDigest
  carried_eq h := sealed_of_checkCandidateLock h.checked.1
  determined := by
    intro a b ha hb hdigest hidentity
    obtain ⟨-, _, _, _, hproduct⟩ := ha.checked
    obtain ⟨-, _, _, _, hproduct'⟩ := hb.checked
    obtain ⟨hschema, hrevision, hartifact, hmodel, hlocked, heffort⟩ :=
      LockIdentity.candidateIdentity_inj hidentity
    have heffort : a.reasoningEffort = b.reasoningEffort := by
      by_cases hv3 : a.schema = "a3s.bench.candidate-lock.v3"
      · exact heffort hv3
      · rw [pinned_of_checkProduct hproduct hv3, pinned_of_checkProduct hproduct' (hschema ▸ hv3)]
    cases a
    cases b
    simp_all

end Formats

/-! ### A sample state root with one Task and two packages, and the runs of a suite on it -/

def fileNamed (name : String) (h : utf8 name ≠ [] ∧ 0 ∉ utf8 name ∧ separator ∉ utf8 name) :
    FileName := ⟨utf8 name, h⟩

theorem assetDirectory_valid : utf8 ".a3s" ≠ [] ∧ 0 ∉ utf8 ".a3s" ∧ separator ∉ utf8 ".a3s" := by
  decide

theorem assetManifest_valid :
    utf8 "asset.acl" ≠ [] ∧ 0 ∉ utf8 "asset.acl" ∧ separator ∉ utf8 "asset.acl" := by
  decide

def sampleTaskSource : Bytes :=
  ["bench \"t\" \x7b\n", "  schema = \"a3s-bench/task/v1\"\n", "  version = \"1\"\n",
    "  name = \"T\"\n", "  category = \"c\"\n", "  work \x7b image \x7b ref = \"alpine\" \x7d \x7d\n",
    "  judge \x7b asset = \"oci://j\" \x7d\n",
    "  metric \"m\" \x7b role = \"primary\" min = 0 max = 1 \x7d\n", "\x7d\n"].flatMap utf8

def sampleTaskTree : Directory :=
  .file (fileNamed "task.acl" (by decide))
    { content := sampleTaskSource, executable := false, links := 1 } .empty

def sampleTask : TaskInfo :=
  { schema := "a3s-bench/task/v1"
    id := "t"
    judgeAsset := "oci://j"
    workImage := "alpine"
    workPlatform := none
    workNetworkNeed := "none"
    workNetworkAllowHosts := []
    candidateTimeoutSec := 300
    metrics := [{ name := "m", min := .finite 0, max := .finite 1, role := "primary" }]
    workspaceSeed := none
    submission :=
      { includePatterns := ["**"], excludePatterns := [".git", "node_modules", "target"]
        maxFiles := 50000, maxTotalBytes := 536870912, maxFileBytes := 67108864 }
    resources :=
      { work := { cpuLimit := 4, memoryBytes := 8589934592 }
        judge := { cpuLimit := 4, memoryBytes := 17179869184 } }
    workWorkspaceImports := []
    legacyJudge := none }

def agentSource : Bytes :=
  ["version = \"a3s.asset.v1\"\n", "category = \"agent\"\n",
    "source \x7b entrypoint = \"run\" \x7d\n"].flatMap utf8

def codeSource : Bytes :=
  ["version = \"a3s.asset.v1\"\n", "category = \"agent\"\n",
    "source \x7b entrypoint = \"run\" definition_path = \"run\" \x7d\n",
    "runtime \x7b protocol = \"a3s-code-exec\" \x7d\n"].flatMap utf8

def runSource : Bytes := utf8 "#!/bin/sh\n"

def assetTree (source : Bytes) : Directory :=
  .directory (fileNamed ".a3s" assetDirectory_valid)
    (.file (fileNamed "asset.acl" assetManifest_valid)
      { content := source, executable := false, links := 1 } .empty)
    (.file (fileNamed "run" (by decide))
      { content := runSource, executable := true, links := 1 } .empty)

/-- A block that is one scalar. -/
def scalarBlock (name value : String) : Acl.Block := .mk name [] [(name, .string value)] []

def assetDocument (rest : List Acl.Block) : Acl.Document :=
  { blocks := scalarBlock "version" "a3s.asset.v1" :: scalarBlock "category" "agent" :: rest }

def agentDocument : Acl.Document :=
  assetDocument [.mk "source" [] [("entrypoint", .string "run")] []]

def codeDocument : Acl.Document :=
  assetDocument
    [.mk "source" [] [("entrypoint", .string "run"), ("definition_path", .string "run")] [],
      .mk "runtime" [] [("protocol", .string "a3s-code-exec")] []]

def assetStream (source : Bytes) : Bytes :=
  utf8 ".a3s/asset.acl" ++ [0, 0, 0] ++ source ++ 0 :: (utf8 "run" ++ [0, 1, 0] ++ runSource ++ [0])

def taskHex : String := "ad2edef445027d1a414288688b13ae1961705da6f1c6bd87ba8acf10269a7a9c"

def agentHex : String := "6aed69ab309e4e2c0780cc8f9475e7d5f674810b813f98a332fe1e92369f5db3"

def codeHex : String := "63b74866392e066b564da6072ba5b37cf9c6da82b3f08cbf30f0096f3cee95c1"

def taskLockHex : String := "36dafbcadbc440dd71b2d005eb5d7720a44d808f7218a5661fda0090369a9bf1"

def agentLockHex : String := "85c685e60b7f0fbf565b07ffac89070873661bd960fb0fd67a5e251ae96ff97b"

def codeLockHex : String := "dde59bb77ffeec2ba0fe492e3f972302bb5fb4e26c1e9522b5b5e279a527b38c"

def alpineImage : String := "docker.io/library/alpine@sha256:" ++
  "54c5b3dd459d5ef778bb2fa1e23a5fb0e1b62ae66970bcb436e8f81a1a1a8e41"

def sampleTaskLock : TaskLock :=
  { schema := "a3s.bench.task-lock.v1"
    lockDigest := "sha256:" ++ taskLockHex
    taskRevision := "sha256:" ++ taskHex
    artifactDigest := "sha256:" ++ taskHex
    judgeRevision := "sha256:" ++ agentHex
    judgeArtifactDigest := "sha256:" ++ agentHex
    judgeModel := none
    resolvedImages :=
      { entries := [("native|alpine", alpineImage)], sorted := List.pairwise_singleton _ _ }
    resources := none
    workspaceImports := none
    networkAllowHosts := none }

def agentLock : CandidateLock :=
  { schema := "a3s.bench.candidate-lock.v1"
    lockDigest := "sha256:" ++ agentLockHex
    candidateRevision := "sha256:" ++ agentHex
    artifactDigest := "sha256:" ++ agentHex
    model := none
    reasoningEffort := none
    product := none }

def codeLock : CandidateLock :=
  { schema := "a3s.bench.candidate-lock.v2"
    lockDigest := "sha256:" ++ codeLockHex
    candidateRevision := "sha256:" ++ codeHex
    artifactDigest := "sha256:" ++ codeHex
    model := none
    reasoningEffort := none
    product := some
      { name := "a3s-cli", version := "a3s 0.12.5", targetTriple := none
        artifactSetDigest := none } }

def edgeTaskLockHex : String := "0eee4feec8e3da89b49a8e8326f4e56953c0fe133f4b196cceb68a84053b4e28"

def edgeImage : String := "docker.io/library/alpine@sha256:" ++
  "60de2834ab3c012371773f4b0845efc6087b7c4e1d09c6f09820189c70a58c3e"

/-- A lock of the same Task for another image. -/
def edgeTaskLock : TaskLock :=
  { sampleTaskLock with
    lockDigest := "sha256:" ++ edgeTaskLockHex
    resolvedImages :=
      { entries := [("native|alpine", edgeImage)], sorted := List.pairwise_singleton _ _ } }

/-- The record of a run of the agent on the Task, for a side of a suite. -/
def sideRecord (runId side taskLockHex resultHex : String) : LocalResultRecord :=
  { schema := "a3s.bench.local-result.v6"
    resultDigest := "sha256:" ++ resultHex
    governanceStatus := "local_unofficial"
    runId := runId
    taskId := "t"
    taskLockDigest := "sha256:" ++ taskLockHex
    agent := "state/suites/suite-1-7-0/" ++ side ++ ".candidate-lock.json"
    candidateLockDigest := "sha256:" ++ agentLockHex
    agentIdentity := "sha256:" ++ agentHex
    judgeIdentity := "sha256:" ++ agentHex
    runtimeProvider := "docker"
    model := none
    candidateExecution := some { status := .completed, timeoutSec := none }
    modelUsage := none
    candidateEventLogDigest := none
    primaryMetric := "m"
    score := "0.5"
    judgeResult :=
      { schema := "bench.judge.result.v1", solutionVerdict := "valid"
        metrics := [("m", .string "0.5")], diagnostics := .object [] } }

def baselineRecord : LocalResultRecord := sideRecord "local-1-7-0" "baseline" taskLockHex
  "3acd0861a5b31331f4a1f4c5657d72e61c4a9d678119974e8f9e13b50b11bc35"

def candidateRecord : LocalResultRecord := sideRecord "local-2-7-1" "candidate" taskLockHex
  "a527701059d376434f483c6a53146fae0ff0716a981de72bdedd697a0e20f1cd"

def edgeBaselineRecord : LocalResultRecord := sideRecord "local-1-7-0" "baseline" edgeTaskLockHex
  "765733c236e81b8f693d1f1b5f3bdc1731f83c43c9d6667531804e53680e58ce"

def edgeCandidateRecord : LocalResultRecord :=
  sideRecord "local-2-7-1" "candidate" edgeTaskLockHex
    "756e6802ec84d21e9107271bc6893deb0194f62411cb4a59ac8ab293811fa568"

def recordJson (record : LocalResultRecord) : Bytes := (ResultIdentity.identityV6 record).toVec

/-- What a suite of the agent against itself on the Task hashes. -/
def suiteJson : Json :=
  .object [("baseline", .object [("agent", .string "./agent"), ("model", .null)]),
    ("candidate", .object [("agent", .string "./agent"), ("model", .null)]),
    ("id", .string "s"), ("tasks", .array [.string "./task"])]

/-- SHA-256 on the inputs of the sample, and the digest of no bytes elsewhere. -/
def sampleSha256 (input : Bytes) : String :=
  if input = utf8 "task.acl" ++ [0, 0, 0] ++ sampleTaskSource ++ [0] then taskHex
  else if input = assetStream agentSource then agentHex
  else if input = assetStream codeSource then codeHex
  else if input = (LockIdentity.taskIdentity sampleTaskLock).toVec then taskLockHex
  else if input = (LockIdentity.candidateIdentity agentLock).toVec then agentLockHex
  else if input = (LockIdentity.candidateIdentity codeLock).toVec then codeLockHex
  else if input = (LockIdentity.taskIdentity edgeTaskLock).toVec then edgeTaskLockHex
  else if input = suiteJson.toVec then
    "454365f4a35f00e9166b5e3a9e62b56eace6f1b0f57ae29a3efb88ed37d18578"
  else if input = recordJson baselineRecord then
    "3acd0861a5b31331f4a1f4c5657d72e61c4a9d678119974e8f9e13b50b11bc35"
  else if input = recordJson candidateRecord then
    "a527701059d376434f483c6a53146fae0ff0716a981de72bdedd697a0e20f1cd"
  else if input = recordJson edgeBaselineRecord then
    "765733c236e81b8f693d1f1b5f3bdc1731f83c43c9d6667531804e53680e58ce"
  else if input = recordJson edgeCandidateRecord then
    "756e6802ec84d21e9107271bc6893deb0194f62411cb4a59ac8ab293811fa568"
  else "e3b0c44298fc1c149afbf4c8996fb92427ae41e4649b934ca495991b7852b855"

def agentPackage : LocalAssetPackage :=
  { root := assetTree agentSource, entrypoint := "run", definitionPath := none
    identity := "sha256:" ++ agentHex, protocol := .agentTool }

def sampleHost : Host :=
  { os := Platform.ascii sampleSha256
    parseAcl := fun source =>
      if source = agentSource then .ok agentDocument
      else if source = codeSource then .ok codeDocument
      else .error "unexpected token"
    parseManifest := fun _ => .error "expected value at line 1 column 1"
    loadLocalTask := fun root =>
      if root = sampleTaskTree then .ok sampleTask else .error "could not read task.acl"
    builtinCandidate := fun reference =>
      if reference = "a3s-code" then some (assetTree codeSource) else none
    localDirectory := fun reference =>
      if reference = "./agent" then some (assetTree agentSource) else none
    resolveOci := fun image =>
      if image = ['j'] then .ok agentPackage else .error "could not resolve OCI image"
    a3sCodeVersion := .ok "a3s 0.12.5"
    codexSource := .error "native Codex Candidate requires a Codex package"
    taskSource := fun reference =>
      if reference = "./task" then .ok sampleTaskTree else .error "unknown Task"
    joinDirectory := fun _ _ => none
    resolveImage := fun reference _ =>
      if reference = "alpine" then .ok alpineImage else .error "could not pull image"
    runnerImages := .error "managed images are not pinned" }

def sampleArtifacts : TaskSnapshot.ArtifactStore := fun name =>
  if name = taskHex.toList then some sampleTaskTree
  else if name = agentHex.toList then some (assetTree agentSource)
  else if name = codeHex.toList then some (assetTree codeSource)
  else none

def sampleState : StateRoot :=
  { artifacts := sampleArtifacts, packages := { packages := fun _ => none, metadata := fun _ => none } }

section Sample

set_option maxRecDepth 20000

theorem sampleHost_sha256 : sampleHost.os.sha256 = sampleSha256 := rfl

/-- What the sample host computes. The kernel evaluates all of it at one place. -/
structure SampleEvaluated : Prop where
  agent : sampleSha256 (assetStream agentSource) = agentHex
  code : sampleSha256 (assetStream codeSource) = codeHex
  taskLock : sampleSha256 (LockIdentity.taskIdentity sampleTaskLock).toVec = taskLockHex
  agentLock : sampleSha256 (LockIdentity.candidateIdentity agentLock).toVec = agentLockHex
  codeLock : sampleSha256 (LockIdentity.candidateIdentity codeLock).toVec = codeLockHex
  edgeTaskLock :
    sampleSha256 (LockIdentity.taskIdentity edgeTaskLock).toVec = edgeTaskLockHex
  taskHex : taskHex.toList.length = 64 ∧ taskHex.toList.all Text.isHexDigit = true
  agentHex : agentHex.toList.length = 64 ∧ agentHex.toList.all Text.isHexDigit = true
  taskLockDigest : LockIdentity.validateDigest ("sha256:" ++ taskLockHex) = .ok ()
  edgeTaskLockDigest : LockIdentity.validateDigest ("sha256:" ++ edgeTaskLockHex) = .ok ()
  agentLockDigest : LockIdentity.validateDigest ("sha256:" ++ agentLockHex) = .ok ()
  agentLockFields : checkCodexFields Lock.agentLock = .ok () ∧
    Text.isBlank Lock.agentLock.candidateRevision = false
  judgeRevision : Text.isBlank sampleTaskLock.judgeRevision = false
  taskStream : TaskSnapshot.snapshotStream sampleHost.os sampleTaskTree =
    .ok (utf8 "task.acl" ++ [0, 0, 0] ++ sampleTaskSource ++ [0])
  agentStream : TaskSnapshot.snapshotStream sampleHost.os (assetTree agentSource) =
    .ok (assetStream agentSource)
  agentStored : sampleState.artifacts Lock.agentHex.toList = some (assetTree agentSource)
  agentLoaded : Asset.loadLocal sampleHost.os sampleHost.parseAcl
    (some (assetTree agentSource)) = .ok agentPackage

theorem sampleEvaluated : SampleEvaluated where
  agent := by rw [sampleSha256, if_neg (by decide +kernel), if_pos rfl]
  code := by
    rw [sampleSha256, if_neg (by decide +kernel), if_neg (by decide +kernel), if_pos rfl]
  taskLock := by
    rw [sampleSha256, if_neg (by decide +kernel), if_neg (by decide +kernel),
      if_neg (by decide +kernel), if_pos rfl]
  agentLock := by
    rw [sampleSha256, if_neg (by decide +kernel), if_neg (by decide +kernel),
      if_neg (by decide +kernel), if_neg (by decide +kernel), if_pos rfl]
  codeLock := by
    rw [sampleSha256, if_neg (by decide +kernel), if_neg (by decide +kernel),
      if_neg (by decide +kernel), if_neg (by decide +kernel), if_neg (by decide +kernel),
      if_pos rfl]
  edgeTaskLock := by
    have himages : (LockIdentity.mapJson edgeTaskLock.resolvedImages).toVec ≠
        (LockIdentity.mapJson sampleTaskLock.resolvedImages).toVec := by decide +kernel
    have hne : (LockIdentity.taskIdentity edgeTaskLock).toVec ≠
        (LockIdentity.taskIdentity sampleTaskLock).toVec :=
      fun h => himages (@Json.toVec_concat_inj
        ((LockIdentity.legacyTaskMembers sampleTaskLock).take 6) "resolved_images" _ _ h)
    rw [sampleSha256, if_neg (by decide +kernel), if_neg (by decide +kernel),
      if_neg (by decide +kernel), if_neg hne, if_neg (by decide +kernel),
      if_neg (by decide +kernel), if_pos rfl]
  taskHex := by decide +kernel
  agentHex := by decide +kernel
  taskLockDigest := by decide +kernel
  edgeTaskLockDigest := by decide +kernel
  agentLockDigest := by decide +kernel
  agentLockFields := by decide +kernel
  judgeRevision := by decide +kernel
  taskStream := by decide +kernel
  agentStream := by decide +kernel
  agentStored := by decide +kernel
  agentLoaded := by decide +kernel

theorem sha256_task : sampleHost.os.sha256
    (utf8 "task.acl" ++ [0, 0, 0] ++ sampleTaskSource ++ [0]) = taskHex := by
  rw [sampleHost_sha256, sampleSha256, if_pos rfl]

theorem artifactPath_sha256 {hex : String}
    (h : hex.toList.length = 64 ∧ hex.toList.all Text.isHexDigit = true) :
    artifactPath ("sha256:" ++ hex) = .ok hex.toList :=
  digestHexWith_ok_iff.mpr ⟨by rw [String.ofList_toList], h⟩

/-- An artifact stored under the digest of its stream is found by it. -/
theorem lockedArtifact_of_stream {host : Host} {state : StateRoot} {hex : String} {root : Directory}
    {stream : Bytes} (hhex : hex.toList.length = 64 ∧ hex.toList.all Text.isHexDigit = true)
    (hstream : TaskSnapshot.snapshotStream host.os root = .ok stream)
    (hsha : host.os.sha256 stream = hex) (hstored : state.artifacts hex.toList = some root)
    (unavailable : String) :
    lockedArtifact host ("sha256:" ++ hex) unavailable state = .ok root := by
  have hverify := TaskSnapshot.verify_of_snapshotStream hstream
  rw [hsha] at hverify
  simp only [lockedArtifact, Result.bind_ok_iff, Result.context_ok_iff, Result.exists_unit_iff]
  refine ⟨_, artifactPath_sha256 hhex, ?_⟩
  rw [hstored]
  exact ⟨hverify, rfl⟩

theorem lockedArtifact_task (unavailable : String) :
    lockedArtifact sampleHost ("sha256:" ++ taskHex) unavailable sampleState =
      .ok sampleTaskTree := by
  have hstored : sampleState.artifacts taskHex.toList = some sampleTaskTree := by
    simp only [sampleState, sampleArtifacts, ↓reduceIte]
  exact lockedArtifact_of_stream sampleEvaluated.taskHex sampleEvaluated.taskStream sha256_task
    hstored unavailable

theorem lockedArtifact_agent (unavailable : String) :
    lockedArtifact sampleHost ("sha256:" ++ agentHex) unavailable sampleState =
      .ok (assetTree agentSource) :=
  lockedArtifact_of_stream sampleEvaluated.agentHex sampleEvaluated.agentStream
    sampleEvaluated.agent sampleEvaluated.agentStored unavailable

/-- A lock that differs from the sample in its images is loaded under its own digest. -/
theorem loadTask_like {lock : TaskLock} {digest : String} {images : StringMap}
    (hlock : lock = { sampleTaskLock with lockDigest := digest, resolvedImages := images })
    (hvalid : LockIdentity.validateDigest digest = .ok ())
    (hdigest : LockIdentity.task sampleHost.os lock = digest) :
    loadTask sampleHost (some (.ok lock)) sampleState =
      .ok { lock := lock, taskArtifact := sampleTaskTree
            judgeArtifact := assetTree agentSource } := by
  simp only [loadTask, Result.bind_ok_iff, Result.context_ok_iff, Result.exists_unit_iff,
    Result.ensure_ok_iff, Result.pure_ok_iff]
  have htask : sampleHost.loadLocalTask sampleTaskTree = .ok sampleTask := by
    simp only [sampleHost, ↓reduceIte]
  have hcheck : checkTaskLock sampleHost lock = .ok () := by
    simp only [checkTaskLock, Result.bind_ok_iff, Result.exists_unit_iff, Result.ensure_ok_iff,
      hdigest]
    subst hlock
    exact ⟨.inl rfl, hvalid, rfl, rfl, sampleEvaluated.judgeRevision⟩
  subst hlock
  exact ⟨_, rfl, hcheck, _, lockedArtifact_task _, sampleTask, htask, rfl, rfl, rfl, _,
    lockedArtifact_agent _, _, sampleEvaluated.agentLoaded, rfl, rfl⟩

theorem loadTask_sample : loadTask sampleHost (some (.ok sampleTaskLock)) sampleState =
    .ok { lock := sampleTaskLock, taskArtifact := sampleTaskTree
          judgeArtifact := assetTree agentSource } := by
  refine @loadTask_like sampleTaskLock ("sha256:" ++ taskLockHex) sampleTaskLock.resolvedImages rfl
    sampleEvaluated.taskLockDigest ?_
  rw [LockIdentity.task, Platform.digest, sampleHost_sha256, sampleEvaluated.taskLock]

theorem loadTask_edge : loadTask sampleHost (some (.ok edgeTaskLock)) sampleState =
    .ok { lock := edgeTaskLock, taskArtifact := sampleTaskTree
          judgeArtifact := assetTree agentSource } := by
  refine @loadTask_like edgeTaskLock ("sha256:" ++ edgeTaskLockHex) edgeTaskLock.resolvedImages rfl
    sampleEvaluated.edgeTaskLockDigest ?_
  rw [LockIdentity.task, Platform.digest, sampleHost_sha256, sampleEvaluated.edgeTaskLock]

theorem loadCandidate_agent : loadCandidate sampleHost (some (.ok agentLock)) sampleState =
    .ok ((agentLock, assetTree agentSource), sampleState) := by
  simp only [loadCandidate, Result.bind_ok_iff, Result.context_ok_iff, Result.exists_unit_iff,
    Result.ensure_ok_iff, Result.pure_ok_iff]
  refine ⟨agentLock, rfl, ?_, _, lockedArtifact_agent _, _, sampleEvaluated.agentLoaded, rfl, sampleState, rfl,
    rfl⟩
  have hdigest : LockIdentity.candidate sampleHost.os agentLock = "sha256:" ++ agentLockHex := by
    rw [LockIdentity.candidate, Platform.digest, sampleHost_sha256, sampleEvaluated.agentLock]
  simp only [checkCandidateLock, Result.bind_ok_iff, Result.exists_unit_iff, Result.ensure_ok_iff]
  exact ⟨.inl rfl, sampleEvaluated.agentLockDigest, hdigest, by decide,
    sampleEvaluated.agentLockFields⟩

/-- Two accepted locks of one kind with the same digest are the same lock. -/
theorem lock_eq_of_lockDigest_eq (host : Host) :
    (∀ (file file' : LockFile TaskLock) (state state' : StateRoot) (a b : LoadedTaskLock),
      loadTask host file state = .ok a → loadTask host file' state' = .ok b →
      host.os.Separates (LockIdentity.taskIdentity a.lock) (LockIdentity.taskIdentity b.lock) →
      a.lock.lockDigest = b.lock.lockDigest → a.lock = b.lock) ∧
    (∀ (file file' : LockFile CandidateLock) (state state' final final' : StateRoot)
        (a b : CandidateLock) (artifact artifact' : Directory),
      loadCandidate host file state = .ok ((a, artifact), final) →
      loadCandidate host file' state' = .ok ((b, artifact'), final') →
      host.os.Separates (LockIdentity.candidateIdentity a) (LockIdentity.candidateIdentity b) →
      a.lockDigest = b.lockDigest → a = b) := by
  constructor
  · intro file file' state state' a b ha hb hsep hdigest
    exact (taskFormat host).eq_of_carried_eq ⟨file, state, a, ha, rfl⟩ ⟨file', state', b, hb, rfl⟩
      (fun h => (Platform.digest_inj hsep).mp h) hdigest
  · intro file file' state state' final final' a b artifact artifact' ha hb hsep hdigest
    exact (candidateFormat host).eq_of_carried_eq ⟨file, state, final, artifact, ha⟩
      ⟨file', state', final', artifact', hb⟩ (fun h => (Platform.digest_inj hsep).mp h) hdigest

theorem lock_eq_of_lockDigest_eq_sample :
    sampleTaskLock = sampleTaskLock ∧ agentLock = agentLock :=
  ⟨(lock_eq_of_lockDigest_eq sampleHost).1 _ _ _ _ _ _ loadTask_sample loadTask_sample
      (fun _ => rfl) rfl,
    (lock_eq_of_lockDigest_eq sampleHost).2 _ _ _ _ _ _ _ _ _ _ loadCandidate_agent
      loadCandidate_agent (fun _ => rfl) rfl⟩

end Sample

end A3sBench.Lock
