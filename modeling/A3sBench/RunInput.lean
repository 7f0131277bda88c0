import A3sBench.LockBinding
import A3sBench.PreparedPackage
import Mathlib

/-!
# From a created CandidateLock to a run

`load_locks` loads both locks of a run, and then the cached package of whatever
product the CandidateLock names. Only the containerized Codex has one.
-/

namespace A3sBench.RunInput

open Asset (CandidateProtocol LocalAssetPackage)
open CodexPackage (CachedCodexPackage PlatformMatches Prepared readManifest)
open Lock
open TaskSnapshot (artifactPath)

structure LoadedRun where
  task : TaskInfo
  candidate : LocalAssetPackage
  judge : LocalAssetPackage
  judgeModel : Option String
  model : Option String
  reasoningEffort : Option String
  codexPackage : Option CachedCodexPackage
  resolvedImages : StringMap
  taskLockSchema : String
  taskLockResources : Option TaskResources
  taskLockDigest : String
  candidateLockDigest : String

/-- The package of the product a lock names. -/
def loadProduct (host : Host) (product : Option CandidateProductLock)
    (taskPlatform : Option String) (state : StateRoot) :
    Result (Option CachedCodexPackage × StateRoot) :=
  match product with
  | some product => do
    let (cached, state) ← Lock.loadCached host product taskPlatform state
    pure (some cached, state)
  | none => .ok (none, state)

def loadLocks (host : Host) (taskLock : LockFile TaskLock) (candidateLock : LockFile CandidateLock)
    (state : StateRoot) : Result (LoadedRun × StateRoot) := do
  let lockedTask ← loadTask host taskLock state
  let ((candidateLock, candidateArtifact), state) ← loadCandidate host candidateLock state
  let task ← host.loadLocalTask lockedTask.taskArtifact
  let (codexPackage, state) ← loadProduct host candidateLock.product task.workPlatform state
  let candidate ← Asset.loadLocal host.os host.parseAcl (some candidateArtifact)
  let judge ← Asset.loadLocal host.os host.parseAcl (some lockedTask.judgeArtifact)
  pure
    ({ task := task
       candidate := candidate
       judge := judge
       judgeModel := lockedTask.lock.judgeModel
       model := candidateLock.model
       reasoningEffort := candidateLock.reasoningEffort
       codexPackage := codexPackage
       resolvedImages := lockedTask.lock.resolvedImages
       taskLockSchema := lockedTask.lock.schema
       taskLockResources := lockedTask.lock.resources
       taskLockDigest := lockedTask.lock.lockDigest
       candidateLockDigest := candidateLock.lockDigest }, state)

variable {host : Host}

/-- The artifacts an accepted TaskLock names are loaded again without fail. -/
theorem artifacts_of_loadTask {file : LockFile TaskLock} {state : StateRoot}
    {loaded : LoadedTaskLock} (h : loadTask host file state = .ok loaded) :
    (∃ task, host.loadLocalTask loaded.taskArtifact = .ok task) ∧
      ∃ judge, Asset.loadLocal host.os host.parseAcl (some loaded.judgeArtifact) = .ok judge := by
  unfold loadTask at h
  simp only [Result.bind_ok_iff, Result.exists_unit_iff, Result.context_ok_iff,
    Result.pure_ok_iff] at h
  obtain ⟨_, _, _, _, _, task, htask, _, _, _, _, _, judge, hjudge, _, rfl⟩ := h
  exact ⟨⟨task, htask⟩, judge, hjudge⟩

/-- A run loads its locks exactly when the CandidateLock is accepted and the
product it names is cached. -/
theorem loadLocks_isOk_iff {taskFile : LockFile TaskLock} {file : LockFile CandidateLock}
    {state : StateRoot} {loaded : LoadedTaskLock} {task : TaskInfo}
    (htask : loadTask host taskFile state = .ok loaded)
    (hinfo : host.loadLocalTask loaded.taskArtifact = .ok task) :
    (loadLocks host taskFile file state).isOk = true ↔
      ∃ value artifact state', loadCandidate host file state = .ok ((value, artifact), state') ∧
        (loadProduct host value.product task.workPlatform state').isOk = true := by
  obtain ⟨-, judge, hjudge⟩ := artifacts_of_loadTask htask
  simp only [Result.isOk_iff, loadLocks, Result.bind_ok_iff, htask, hinfo, hjudge,
    Except.ok.injEq, exists_eq_left', Result.pure_ok_iff]
  constructor
  · rintro ⟨_, ⟨⟨value, artifact⟩, state'⟩, hload, result, hproduct, _⟩
    exact ⟨value, artifact, state', hload, result, hproduct⟩
  · rintro ⟨value, artifact, state', hload, result, hproduct⟩
    obtain ⟨candidate, hcandidate⟩ : ∃ candidate,
        Asset.loadLocal host.os host.parseAcl (some artifact) = .ok candidate := by
      simp only [loadCandidate, Result.bind_ok_iff, Result.exists_unit_iff, Result.context_ok_iff,
        Result.pure_ok_iff, Prod.mk.injEq] at hload
      obtain ⟨_, _, _, _, _, candidate, hcandidate, _, _, _, ⟨_, rfl⟩, _⟩ := hload
      exact ⟨candidate, hcandidate⟩
    exact ⟨_, _, hload, result, hproduct, candidate, hcandidate, rfl⟩

/-- What the run path asks of the Candidate and of the installed Codex package:
not the A3S Code protocol, and a package version that ends in no white space. -/
def Runnable (host : Host) : CandidateProtocol → Prop
  | .agentTool => True
  | .a3sCodeExec => False
  | .codexExec => ∀ source manifest, host.codexSource = .ok source →
      readManifest host.parseManifest source = .ok manifest →
      Text.trimEnd manifest.version.toList = manifest.version.toList

theorem candidate_newCandidateLock (asset : LocalAssetPackage) (digest : String)
    (model reasoningEffort : Option String) (product : Option CandidateProductLock) :
    LockIdentity.candidate host.os
        (newCandidateLock host asset digest model reasoningEffort product) =
      (newCandidateLock host asset digest model reasoningEffort product).lockDigest := rfl

/-- A captured package stays available under its digest. -/
theorem lockedArtifact_of_captureCandidate {reference digest : String} {state captured : StateRoot}
    {asset : LocalAssetPackage}
    (h : captureCandidate host reference state = .ok (asset, digest, captured)) :
    ∃ root, (∀ unavailable, lockedArtifact host digest unavailable captured = .ok root) ∧
      Asset.loadLocal host.os host.parseAcl (some root) = .ok asset := by
  simp only [captureCandidate, Result.bind_ok_iff, Result.pure_ok_iff, Prod.mk.injEq] at h
  obtain ⟨_, _, ⟨digest', artifacts⟩, hcapture, hex, hhex, _, hload, rfl, rfl, rfl⟩ := h
  obtain ⟨hex', hhex', hverify⟩ := TaskSnapshot.verify_of_captureWithHook hcapture
  obtain rfl : hex' = hex := Except.ok.inj (hhex'.symm.trans hhex)
  dsimp only at hload ⊢
  cases hroot : artifacts hex' with
  | none =>
    rw [hroot] at hload
    cases hload
  | some root =>
    rw [hroot] at hload
    refine ⟨root, fun unavailable => ?_, hload⟩
    simp only [lockedArtifact, Result.bind_ok_iff, Result.context_ok_iff, Result.exists_unit_iff,
      Result.okOr_ok_iff]
    exact ⟨hex', hhex', hverify, hroot⟩

theorem lockedArtifact_congr {digest unavailable : String} {state state' : StateRoot}
    (h : state'.artifacts = state.artifacts) :
    lockedArtifact host digest unavailable state' = lockedArtifact host digest unavailable state := by
  simp only [lockedArtifact, h]

theorem artifacts_of_createProduct {protocol : CandidateProtocol} {state state' : StateRoot}
    {product : Option CandidateProductLock}
    (h : createProduct host protocol state = .ok (product, state')) :
    state'.artifacts = state.artifacts := by
  cases protocol with
  | agentTool =>
    cases h
    rfl
  | a3sCodeExec =>
    simp only [createProduct, Result.bind_ok_iff, Result.pure_ok_iff, Prod.mk.injEq] at h
    obtain ⟨_, _, _, rfl⟩ := h
    rfl
  | codexExec =>
    simp only [createProduct, Result.bind_ok_iff, Result.pure_ok_iff, Prod.mk.injEq] at h
    obtain ⟨_, _, _, _, _, rfl⟩ := h
    rfl

/-- Only the Codex protocol admits a requested reasoning effort. -/
theorem effort_eq_none_of_checkRequest {asset : LocalAssetPackage}
    {model effort codexDefault : Option String}
    (h : checkRequest asset model effort codexDefault = .ok ())
    (hprotocol : asset.protocol ≠ .codexExec) :
    lockedEffort asset.protocol effort codexDefault = none := by
  simp only [checkRequest, Result.bind_ok_iff, Result.exists_unit_iff] at h
  cases effort with
  | none => simp [lockedEffort, hprotocol]
  | some effort => simp [hprotocol] at h

/-- The requested model and reasoning effort pass the checks of the v3 loader. -/
theorem codex_of_checkRequest {asset : LocalAssetPackage} {model effort codexDefault : Option String}
    (h : checkRequest asset model effort codexDefault = .ok ())
    (hprotocol : asset.protocol = .codexExec) :
    (model.toList).forM validateCodexModel = .ok () ∧
      ((lockedEffort asset.protocol effort codexDefault).toList).forM validateReasoningEffort =
        .ok () ∧
      validateModelReasoningCompatibility model
        (lockedEffort asset.protocol effort codexDefault) = .ok () := by
  simp only [checkRequest, Result.bind_ok_iff, Result.exists_unit_iff] at h
  obtain ⟨hdefault, heffort, hcompatible, hmodel⟩ := h
  refine ⟨?_, ?_, hcompatible⟩
  · cases model with
    | none => rfl
    | some model => simpa [checkModel, hprotocol] using hmodel
  · rw [lockedEffort, if_pos hprotocol]
    cases effort with
    | none => exact hdefault
    | some effort => simpa [hprotocol] using heffort

theorem checkCandidateLock_new (hsha : host.os.HexDigests) {asset : LocalAssetPackage}
    {digest : String} {model effort codexDefault : Option String}
    {product : Option CandidateProductLock}
    (hrequest : checkRequest asset model effort codexDefault = .ok ())
    (hidentity : Text.isBlank asset.identity = false)
    (hproduct : asset.protocol = .a3sCodeExec → ∀ p ∈ product, p.name ≠ "codex-cli") :
    checkCandidateLock host (newCandidateLock host asset digest model
      (lockedEffort asset.protocol effort codexDefault) product) = .ok () := by
  have hschema : candidateSchema asset.protocol = "a3s.bench.candidate-lock.v1" ∨
      candidateSchema asset.protocol = "a3s.bench.candidate-lock.v2" ∨
      candidateSchema asset.protocol = "a3s.bench.candidate-lock.v3" := by
    cases asset.protocol <;> simp [candidateSchema]
  have hcodex : checkCodexFields (newCandidateLock host asset digest model
      (lockedEffort asset.protocol effort codexDefault) product) = .ok () := by
    unfold checkCodexFields
    split
    · rename_i hv3
      have hprotocol : asset.protocol = .codexExec := by
        cases hp : asset.protocol <;> simp [newCandidateLock, candidateSchema, hp] at hv3 ⊢
      obtain ⟨hmodel, heffort, hcompatible⟩ := codex_of_checkRequest hrequest hprotocol
      simp only [Result.bind_ok_iff, Result.exists_unit_iff]
      exact ⟨hmodel, heffort, hcompatible⟩
    · rfl
  have hlegacy : candidateSchema asset.protocol = "a3s.bench.candidate-lock.v2" →
      ∀ p ∈ product, p.name ≠ "codex-cli" := by
    intro hv2
    apply hproduct
    cases hp : asset.protocol <;> simp [candidateSchema, hp] at hv2 ⊢
  simp only [checkCandidateLock, Result.bind_ok_iff, Result.exists_unit_iff, Result.ensure_ok_iff]
  exact ⟨hschema, LockIdentity.validateDigest_digest hsha _, candidate_newCandidateLock .., hlegacy,
    hcodex, hidentity⟩

theorem isBlank_identity {parse : Bytes → Result Acl.Document} {os : Platform}
    {reference : Option Directory} {asset : LocalAssetPackage}
    (h : Asset.loadLocal os parse reference = .ok asset) : Text.isBlank asset.identity = false := by
  obtain ⟨stream, hidentity⟩ := Asset.identity_of_loadLocal h
  rw [hidentity, Text.isBlank, String.toList_append, List.all_append]
  rfl

/-- Loading a new lock is down to its product. -/
theorem loadCandidate_new_iff {lock value : CandidateLock} {asset : LocalAssetPackage}
    {root artifact : Directory} {state state' : StateRoot}
    (hlock : checkCandidateLock host lock = .ok ())
    (hroot : ∀ unavailable, lockedArtifact host lock.artifactDigest unavailable state = .ok root)
    (hload : Asset.loadLocal host.os host.parseAcl (some root) = .ok asset)
    (hrevision : asset.identity = lock.candidateRevision) :
    loadCandidate host (some (.ok lock)) state = .ok ((value, artifact), state') ↔
      checkProduct host asset.protocol lock state = .ok state' ∧ value = lock ∧
        artifact = root := by
  simp only [loadCandidate, readLockFile, Result.bind_ok_iff, Result.exists_unit_iff,
    Result.context_ok_iff, Result.ensure_ok_iff, Result.pure_ok_iff, Except.ok.injEq,
    exists_eq_left', hlock, hroot, hload, hrevision, true_and, Prod.mk.injEq]
  constructor
  · rintro ⟨_, hproduct, ⟨rfl, rfl⟩, rfl⟩
    exact ⟨hproduct, rfl, rfl⟩
  · rintro ⟨hproduct, rfl, rfl⟩
    exact ⟨_, hproduct, ⟨rfl, rfl⟩, rfl⟩

theorem loadCached_new_iff {metadata : CodexPackage.CacheMetadata} {cached : CachedCodexPackage}
    {taskPlatform : Option String} {state : StateRoot} {product : CandidateProductLock}
    (hprepared : Prepared host.os host.parseManifest state.packages metadata cached)
    (hproduct : product =
      { name := "codex-cli", version := cached.reportedVersion
        targetTriple := some cached.manifest.targetTriple
        artifactSetDigest := some cached.artifactSetDigest })
    (hmatch : PlatformMatches metadata.manifest.targetTriple taskPlatform)
    {result : CachedCodexPackage × StateRoot} :
    Lock.loadCached host product taskPlatform state = .ok result ↔
      Text.trimEnd metadata.manifest.version.toList = metadata.manifest.version.toList ∧
        result = (cached, state) := by
  subst hproduct
  simp only [Lock.loadCached, Result.bind_ok_iff, Result.pure_ok_iff,
    CodexPackage.loadCached_prepared hprepared hmatch]
  constructor
  · rintro ⟨_, ⟨htrim, rfl⟩, rfl⟩
    exact ⟨htrim, rfl⟩
  · rintro ⟨htrim, rfl⟩
    exact ⟨_, ⟨htrim, rfl⟩, rfl⟩

theorem loadProduct_new_iff {protocol : CandidateProtocol} {lock : CandidateLock}
    {captured created : StateRoot} {taskPlatform : Option String}
    (hproduct : createProduct host protocol captured = .ok (lock.product, created))
    (hschema : lock.schema = candidateSchema protocol)
    (heffort : protocol ≠ .codexExec → lock.reasoningEffort = none)
    (hplatform : ∀ product ∈ lock.product, ∀ targetTriple ∈ product.targetTriple,
      PlatformMatches targetTriple taskPlatform) :
    (∃ state, checkProduct host protocol lock created = .ok state ∧
        (loadProduct host lock.product taskPlatform state).isOk = true) ↔
      Runnable host protocol := by
  cases protocol with
  | agentTool =>
    simp only [createProduct, Except.ok.injEq, Prod.mk.injEq] at hproduct
    have heffort := heffort (by decide)
    simp [checkProduct, Runnable, loadProduct, ← hproduct.1, hschema, heffort, candidateSchema,
      ensure]
  | a3sCodeExec =>
    simp only [createProduct, Result.bind_ok_iff, Result.pure_ok_iff, Prod.mk.injEq] at hproduct
    obtain ⟨version, _, hproduct, _⟩ := hproduct
    simp only [Runnable, iff_false, not_exists, not_and]
    intro state _
    -- the product has no package target, and loading it fails on that
    rw [← hproduct]
    simp [loadProduct, Lock.loadCached, CodexPackage.loadCached, okOr, bind, Except.bind]
  | codexExec =>
    simp only [createProduct, Result.bind_ok_iff, Result.pure_ok_iff, Prod.mk.injEq] at hproduct
    obtain ⟨source, hsource, ⟨package, packages⟩, hprepare, hproduct, rfl⟩ := hproduct
    obtain ⟨metadata, hprepared, hmanifest, _⟩ :=
      CodexPackage.prepared_of_prepareFromPath hprepare
    have htriple : package.manifest.targetTriple = metadata.manifest.targetTriple := by
      rw [hprepared.cached_eq]
    have hmatch : PlatformMatches metadata.manifest.targetTriple taskPlatform :=
      hplatform _ hproduct.symm _ (congrArg some htriple)
    have hlinux : PlatformMatches metadata.manifest.targetTriple none := fun _ h => by cases h
    have hrunnable : Runnable host .codexExec ↔
        Text.trimEnd metadata.manifest.version.toList = metadata.manifest.version.toList := by
      constructor
      · exact fun h => h source _ hsource hmanifest
      · intro htrim source' manifest hsource' hmanifest'
        obtain rfl := Except.ok.inj (hsource.symm.trans hsource')
        obtain rfl := Except.ok.inj (hmanifest.symm.trans hmanifest')
        exact htrim
    have hload (platform : Option String) := @loadCached_new_iff host metadata package platform
      { captured with packages := packages } _ hprepared rfl
    rw [hrunnable, ← hproduct]
    simp only [checkProduct, ← hproduct, Result.bind_ok_iff, Result.exists_unit_iff,
      Result.ensure_ok_iff, Result.pure_ok_iff, loadProduct, Result.isOk_iff]
    constructor
    · rintro ⟨_, ⟨_, _, _, _, hcheck, _⟩, _⟩
      exact ((hload none hlinux).mp hcheck).1
    · intro htrim
      have hcheck := (hload none hlinux).mpr ⟨htrim, rfl⟩
      have hrun := (hload taskPlatform hmatch).mpr ⟨htrim, rfl⟩
      refine ⟨_, ⟨trivial, ⟨?_, ?_⟩, hschema, _, hcheck, rfl⟩, _, _, hrun, rfl⟩
      · simp
      · simp

theorem create_of_captured {reference digest : String} {model effort codexDefault : Option String}
    {state captured created : StateRoot} {asset : LocalAssetPackage}
    {product : Option CandidateProductLock}
    (hcapture : captureCandidate host reference state = .ok (asset, digest, captured))
    (hrequest : checkRequest asset model effort codexDefault = .ok ())
    (hproduct : createProduct host asset.protocol captured = .ok (product, created)) :
    createCandidateWithCodexDefault host reference model effort codexDefault state none =
      .ok (newCandidateLock host asset digest model
          (lockedEffort asset.protocol effort codexDefault) product, created,
        some (.ok (newCandidateLock host asset digest model
          (lockedEffort asset.protocol effort codexDefault) product))) := by
  simp only [createCandidateWithCodexDefault, hcapture, hrequest, hproduct, Result.bind_ok_iff,
    Except.ok.injEq, exists_eq_left', Result.exists_unit_iff, Result.pure_ok_iff, true_and]
  exact ⟨_, rfl, rfl⟩

section Sample

set_option maxRecDepth 20000

theorem sampleHost_hexDigests : sampleHost.os.HexDigests := by
  intro input
  have hite : ∀ {P : String → Prop} {c : Prop} [Decidable c] {a b : String}, P a → P b →
      P (if c then a else b) := by
    intro P c _ a b ha hb
    split
    · exact ha
    · exact hb
  rw [sampleHost_sha256, sampleSha256]
  iterate 12
    refine @hite (fun hex => hex.toList.length = 64 ∧ hex.toList.all Text.isHexDigit = true) _ _ _ _
      (by decide +kernel) ?_
  decide +kernel

theorem captureCandidate_sample {reference hex : String} {source : Bytes}
    {package : LocalAssetPackage}
    (hresolve : resolve sampleHost reference = .ok package)
    (hroot : package.root = assetTree source)
    (hstream : TaskSnapshot.snapshotStream sampleHost.os (assetTree source) =
      .ok (assetStream source))
    (hsha : sampleHost.os.sha256 (assetStream source) = hex)
    (hstore : sampleState.artifacts hex.toList = some (assetTree source))
    (hload : Asset.loadLocal sampleHost.os sampleHost.parseAcl (some (assetTree source)) =
      .ok package) :
    captureCandidate sampleHost reference sampleState =
      .ok (package, "sha256:" ++ hex, sampleState) := by
  subst hsha
  have hhex := artifactPath_sha256 (sampleHost_hexDigests (assetStream source))
  have hcapture := TaskSnapshot.capture_of_published hstream hhex hstore
  simp only [captureCandidate, Result.bind_ok_iff, Result.pure_ok_iff]
  rw [← hroot] at hcapture
  refine ⟨package, hresolve, _, hcapture, _, hhex, package, ?_, rfl⟩
  dsimp only
  rw [hstore, hload]

theorem captureCandidate_agent : captureCandidate sampleHost "./agent" sampleState =
    .ok (agentPackage, "sha256:" ++ agentHex, sampleState) := by
  have hresolve : resolve sampleHost "./agent" = .ok agentPackage := by
    rw [← sampleEvaluated.agentLoaded]
    rfl
  exact captureCandidate_sample hresolve rfl sampleEvaluated.agentStream sampleEvaluated.agent
    sampleEvaluated.agentStored sampleEvaluated.agentLoaded

def codePackage : LocalAssetPackage :=
  { root := assetTree codeSource, entrypoint := "run", definitionPath := some "run"
    identity := "sha256:" ++ codeHex, protocol := .a3sCodeExec }

theorem captureCandidate_code : captureCandidate sampleHost "a3s-code" sampleState =
    .ok (codePackage, "sha256:" ++ codeHex, sampleState) := by
  have hload : Asset.loadLocal sampleHost.os sampleHost.parseAcl (some (assetTree codeSource)) =
      .ok codePackage := by decide +kernel
  have hresolve : resolve sampleHost "a3s-code" = .ok codePackage := by
    rw [← hload]
    rfl
  exact captureCandidate_sample hresolve rfl (by decide +kernel) sampleEvaluated.code (by decide +kernel)
    hload

theorem newCandidateLock_agent : newCandidateLock sampleHost agentPackage ("sha256:" ++ agentHex)
    none (lockedEffort .agentTool none none) none = agentLock := by
  have hdigest : LockIdentity.candidate sampleHost.os agentLock = "sha256:" ++ agentLockHex := by
    rw [LockIdentity.candidate, Platform.digest, sampleHost_sha256, sampleEvaluated.agentLock]
  rw [newCandidateLock]
  exact congrArg (fun digest => { agentLock with lockDigest := digest }) hdigest

theorem newCandidateLock_code : newCandidateLock sampleHost codePackage ("sha256:" ++ codeHex)
    none (lockedEffort .a3sCodeExec none none) codeLock.product = codeLock := by
  have hdigest : LockIdentity.candidate sampleHost.os codeLock = "sha256:" ++ codeLockHex := by
    rw [LockIdentity.candidate, Platform.digest, sampleHost_sha256, sampleEvaluated.codeLock]
  rw [newCandidateLock]
  exact congrArg (fun digest => { codeLock with lockDigest := digest }) hdigest

theorem create_agent : createCandidateWithCodexDefault sampleHost "./agent" none none none
    sampleState none = .ok (agentLock, sampleState, some (.ok agentLock)) := by
  rw [← newCandidateLock_agent]
  exact create_of_captured captureCandidate_agent rfl rfl

theorem create_code : createCandidateWithCodexDefault sampleHost "a3s-code" none none none
    sampleState none = .ok (codeLock, sampleState, some (.ok codeLock)) := by
  rw [← newCandidateLock_code]
  exact create_of_captured captureCandidate_code rfl rfl

end Sample

/-- A created CandidateLock is accepted by the run path, with any accepted
TaskLock for its platform, exactly when the Candidate is runnable. -/
theorem loadLocks_created_iff {host : Host} (hsha : host.os.HexDigests) {reference : String}
    {model effort codexDefault : Option String} {state created : StateRoot}
    {output file : LockFile CandidateLock} {value : CandidateLock}
    (hcreate : createCandidateWithCodexDefault host reference model effort codexDefault state output =
      .ok (value, created, file))
    {taskFile : LockFile TaskLock} {loaded : LoadedTaskLock} {task : TaskInfo}
    (htask : loadTask host taskFile created = .ok loaded)
    (hinfo : host.loadLocalTask loaded.taskArtifact = .ok task)
    (hplatform : ∀ product ∈ value.product, ∀ targetTriple ∈ product.targetTriple,
      PlatformMatches targetTriple task.workPlatform) :
    (loadLocks host taskFile file created).isOk = true ↔
      ∃ asset digest captured, captureCandidate host reference state = .ok (asset, digest, captured) ∧
        Runnable host asset.protocol := by
  unfold createCandidateWithCodexDefault at hcreate
  simp only [Result.bind_ok_iff, Result.exists_unit_iff, Result.pure_ok_iff, Prod.mk.injEq] at hcreate
  obtain ⟨⟨asset, digest, captured⟩, hcapture, hrequest, ⟨product, prepared⟩, hproduct, _, hwrite,
    rfl, rfl, rfl⟩ := hcreate
  obtain ⟨rfl, rfl⟩ := writeExclusive_ok_iff.mp hwrite
  obtain ⟨root, hroot, hload⟩ := lockedArtifact_of_captureCandidate hcapture
  have hname : asset.protocol = .a3sCodeExec → ∀ p ∈ product, p.name ≠ "codex-cli" := by
    intro hprotocol p hp
    simp only [hprotocol, createProduct, Result.bind_ok_iff, Result.pure_ok_iff,
      Prod.mk.injEq] at hproduct
    obtain ⟨_, _, rfl, _⟩ := hproduct
    obtain rfl := Option.mem_some_iff.mp hp
    simp
  have hlock : checkCandidateLock host (newCandidateLock host asset digest model
      (lockedEffort asset.protocol effort codexDefault) product) = .ok () :=
    checkCandidateLock_new hsha hrequest (isBlank_identity hload) hname
  have hruns := loadProduct_new_iff
    (show createProduct host asset.protocol captured = .ok ((newCandidateLock host asset digest
      model (lockedEffort asset.protocol effort codexDefault) product).product, prepared) from
      hproduct) rfl (effort_eq_none_of_checkRequest hrequest) hplatform
  have hartifact (unavailable : String) :
      lockedArtifact host digest unavailable prepared = .ok root := by
    rw [lockedArtifact_congr (artifacts_of_createProduct hproduct), hroot]
  rw [loadLocks_isOk_iff htask hinfo]
  simp only [loadCandidate_new_iff hlock hartifact hload rfl]
  constructor
  · rintro ⟨_, _, created, ⟨hcheck, rfl, rfl⟩, hrun⟩
    exact ⟨asset, digest, captured, hcapture, hruns.mp ⟨created, hcheck, hrun⟩⟩
  · rintro ⟨asset', digest', captured', hcapture', hrunnable⟩
    obtain ⟨rfl, rfl, rfl⟩ : asset' = asset ∧ digest' = digest ∧ captured' = captured := by
      simpa using hcapture'.symm.trans hcapture
    obtain ⟨created, hcheck, hrun⟩ := hruns.mpr hrunnable
    exact ⟨_, root, created, ⟨hcheck, rfl, rfl⟩, hrun⟩

theorem loadLocks_created_iff_agent :
    (loadLocks sampleHost (some (.ok sampleTaskLock)) (some (.ok agentLock)) sampleState).isOk =
      true := by
  have htask : sampleHost.loadLocalTask sampleTaskTree = .ok sampleTask := by
    simp only [sampleHost, ↓reduceIte]
  exact (loadLocks_created_iff sampleHost_hexDigests create_agent loadTask_sample htask (by simp [agentLock])).mpr
    ⟨agentPackage, _, _, captureCandidate_agent, trivial⟩

theorem loadCandidate_code : ∃ artifact,
    loadCandidate sampleHost (some (.ok codeLock)) sampleState =
      .ok ((codeLock, artifact), sampleState) := by
  obtain ⟨root, hroot, hload⟩ := lockedArtifact_of_captureCandidate captureCandidate_code
  have hlock : checkCandidateLock sampleHost codeLock = .ok () := by
    rw [← newCandidateLock_code]
    exact checkCandidateLock_new sampleHost_hexDigests rfl (isBlank_identity hload) (by decide)
  exact ⟨root, (loadCandidate_new_iff hlock hroot hload rfl).mpr ⟨rfl, rfl, rfl⟩⟩

/-- The lock of the A3S Code Candidate is created, and the lock loader accepts
it; the run path does not. -/
theorem codeLock_not_runnable :
    sampleHost.os.HexDigests ∧
      createCandidateWithCodexDefault sampleHost "a3s-code" none none none sampleState none =
        .ok (codeLock, sampleState, some (.ok codeLock)) ∧
      loadTask sampleHost (some (.ok sampleTaskLock)) sampleState =
        .ok { lock := sampleTaskLock, taskArtifact := sampleTaskTree
              judgeArtifact := assetTree agentSource } ∧
      sampleHost.loadLocalTask sampleTaskTree = .ok sampleTask ∧ sampleTask.workPlatform = none ∧
      (loadCandidate sampleHost (some (.ok codeLock)) sampleState).isOk = true ∧
      (loadLocks sampleHost (some (.ok sampleTaskLock)) (some (.ok codeLock)) sampleState).isOk =
        false := by
  have htask : sampleHost.loadLocalTask sampleTaskTree = .ok sampleTask := by
    simp only [sampleHost, ↓reduceIte]
  obtain ⟨artifact, hload⟩ := loadCandidate_code
  refine ⟨sampleHost_hexDigests, create_code, loadTask_sample, htask, rfl, by rw [hload]; rfl, ?_⟩
  rw [Bool.eq_false_iff, Ne, loadLocks_isOk_iff loadTask_sample htask]
  rintro ⟨value, artifact', state, hload', hproduct⟩
  obtain ⟨⟨rfl, rfl⟩, rfl⟩ : (codeLock = value ∧ artifact = artifact') ∧ sampleState = state := by
    simpa using hload.symm.trans hload'
  cases hproduct

end A3sBench.RunInput
