import A3sBench.PreparationSteps
import Mathlib

/-!
# Concurrent preparations of packages

Any number of processes prepare packages in one cache, each step of a call
between steps of the others. Whatever fails, the cache is only ever filled in
and sealed, so that what a call has returned stays where its lock looks for it.
-/

namespace A3sBench.CodexPackage

open Library Library.System

/-! ## What each phase relies on -/

section Invariant

variable (os : Platform) (parseManifest : Bytes → Result CodexPackageManifest)
  (taskPlatform : Option String)

/-- What a plan returns in the end. -/
def Plan.cached (plan : Plan) : CachedCodexPackage :=
  { manifest := plan.metadata.manifest
    reportedVersion := plan.metadata.reportedVersion
    artifactSetDigest := plan.metadata.artifactSetDigest }

/-- A plan that passed the checks before the cache is looked at. -/
structure Plan.Valid (plan : Plan) : Prop where
  metadata_ok : validateCacheMetadata os plan.metadata = .ok ()
  hex_ok : digestHex plan.metadata.artifactSetDigest = .ok plan.hex
  platform_ok : validatePlatform plan.metadata.manifest.targetTriple taskPlatform = .ok ()

def Plan.Verified (plan : Plan) (tree : PackageTree) : Prop :=
  verifyCachedRoot os parseManifest tree plan.metadata = .ok plan.cached

/-- The package of the plan is in the cache, verified and sealed. -/
structure Ready (cache : PackageCache) (plan : Plan) : Prop where
  valid : plan.Valid os taskPlatform
  package : ∃ tree, cache.packages plan.hex = some tree ∧ plan.Verified os parseManifest tree ∧
    Sealed tree

/-- The outcome of a call is prepared, for the platform that was asked for. -/
def Delivered (cache : PackageCache) (cached : CachedCodexPackage) : Prop :=
  ∃ metadata, Prepared os parseManifest cache metadata cached ∧
    validatePlatform metadata.manifest.targetTriple taskPlatform = .ok ()

/-- No empty directory is in the place of the package. -/
def Unclaimed (cache : PackageCache) (hex : List Char) : Prop :=
  ∀ tree, cache.packages hex = some tree → tree.entries ≠ []

/-- What is known of the cache where the phase depends on it. -/
def PhaseKnows (cache : PackageCache) : PreparePhase → Prop
  | .readSource | .returned (.error _) => True
  | .checkDestination plan => plan.Valid os taskPlatform
  | .checkMetadata plan | .copy plan | .verifySource plan _ | .sealStaging plan _ =>
    plan.Valid os taskPlatform ∧ Unclaimed cache plan.hex
  | .rename plan staging =>
    plan.Valid os taskPlatform ∧ Unclaimed cache plan.hex ∧
      plan.Verified os parseManifest staging ∧ Sealed staging
  | .verifyDestination plan =>
    plan.Valid os taskPlatform ∧ ∃ tree, cache.packages plan.hex = some tree
  | .reseal plan remaining =>
    plan.Valid os taskPlatform ∧ ∃ tree, cache.packages plan.hex = some tree ∧
      plan.Verified os parseManifest tree ∧ SealedExcept remaining tree
  | .verifySealed plan => Ready os parseManifest taskPlatform cache plan
  | .matchMetadata plan cached | .linkMetadata plan cached =>
    Ready os parseManifest taskPlatform cache plan ∧ cached = plan.cached
  | .rematchMetadata plan cached =>
    Ready os parseManifest taskPlatform cache plan ∧ cached = plan.cached ∧
      (cache.metadata plan.hex).isSome = true
  | .syncMetadata cached | .returned (.ok cached) =>
    Delivered os parseManifest taskPlatform cache cached

end Invariant

section Preservation

variable {os : Platform} {parseManifest : Bytes → Result CodexPackageManifest}
  {taskPlatform : Option String}

theorem Plan.Verified.of_sealing {plan : Plan} {tree tree' : PackageTree}
    (h : plan.Verified os parseManifest tree) (hseal : Sealing tree tree') :
    plan.Verified os parseManifest tree' :=
  (verifyCachedRoot_congr hseal.contents_eq plan.metadata).trans h

theorem Plan.Verified.entries_ne_nil {plan : Plan} {tree : PackageTree}
    (h : plan.Verified os parseManifest tree) : tree.entries ≠ [] := by
  intro hnil
  simp only [Plan.Verified, verifyCachedRoot, verifyPackageTree, readManifest, regularFile, hnil,
    List.lookup_nil, Result.bind_ok_iff, Result.exists_unit_iff] at h
  obtain ⟨_, _, ⟨_, _, ⟨_, h, _⟩, _⟩, _⟩ := h
  cases h

theorem Unclaimed.advances {cache cache' : PackageCache} {hex : List Char}
    (h : Unclaimed cache hex) (hadv : Advances cache cache') : Unclaimed cache' hex := by
  intro tree' htree'
  cases htree : cache.packages hex with
  | none => exact hadv.fresh hex tree' htree htree'
  | some tree =>
    obtain ⟨tree₂, htree₂, hseal⟩ := hadv.packages hex tree htree
    obtain rfl : tree₂ = tree' := Option.some.inj (htree₂.symm.trans htree')
    exact hseal.entries_ne_nil (h tree htree)

theorem Ready.advances {cache cache' : PackageCache} {plan : Plan}
    (h : Ready os parseManifest taskPlatform cache plan) (hadv : Advances cache cache') :
    Ready os parseManifest taskPlatform cache' plan := by
  obtain ⟨hvalid, tree, htree, hverified, hsealed⟩ := h
  obtain ⟨tree', htree', hseal⟩ := hadv.packages _ tree htree
  obtain rfl := hseal.eq_of_sealed hsealed
  exact ⟨hvalid, tree', htree', hverified, hsealed⟩

theorem Delivered.advances {cache cache' : PackageCache} {cached : CachedCodexPackage}
    (h : Delivered os parseManifest taskPlatform cache cached) (hadv : Advances cache cache') :
    Delivered os parseManifest taskPlatform cache' cached := by
  obtain ⟨metadata, ⟨hmetadata, hex, tree, hhex, htree, hfile, hsealed, hverify⟩, hplatform⟩ := h
  obtain ⟨tree', htree', hseal⟩ := hadv.packages hex tree htree
  obtain rfl := hseal.eq_of_sealed hsealed
  exact ⟨metadata, ⟨hmetadata, hex, tree', hhex, htree', hadv.metadata hex _ hfile, hsealed,
    hverify⟩, hplatform⟩

/-- What a phase knows of the cache outlasts the steps of the other calls. -/
theorem phaseKnows_advances {cache cache' : PackageCache} (hadv : Advances cache cache')
    {phase : PreparePhase} (h : PhaseKnows os parseManifest taskPlatform cache phase) :
    PhaseKnows os parseManifest taskPlatform cache' phase := by
  cases phase with
  | readSource | checkDestination => exact h
  | checkMetadata | copy | verifySource | sealStaging => exact ⟨h.1, h.2.advances hadv⟩
  | rename => exact ⟨h.1, h.2.1.advances hadv, h.2.2⟩
  | verifyDestination plan =>
    obtain ⟨hvalid, tree, htree⟩ := h
    obtain ⟨tree', htree', _⟩ := hadv.packages _ tree htree
    exact ⟨hvalid, tree', htree'⟩
  | reseal plan remaining =>
    obtain ⟨hvalid, tree, htree, hverified, hsealed⟩ := h
    obtain ⟨tree', htree', hseal⟩ := hadv.packages _ tree htree
    exact ⟨hvalid, tree', htree', hverified.of_sealing hseal, hseal.sealedExcept hsealed⟩
  | verifySealed => exact Ready.advances h hadv
  | matchMetadata | linkMetadata => exact ⟨h.1.advances hadv, h.2⟩
  | rematchMetadata plan cached =>
    obtain ⟨hready, hcached, hsome⟩ := h
    obtain ⟨file, hfile⟩ := Option.isSome_iff_exists.mp hsome
    exact ⟨hready.advances hadv, hcached, by rw [hadv.metadata _ file hfile]; rfl⟩
  | syncMetadata => exact Delivered.advances h hadv
  | returned result =>
    cases result with
    | error => trivial
    | ok => exact Delivered.advances h hadv

theorem planPackage_valid {source : PackageTree} {plan : Plan}
    (h : planPackage os parseManifest source taskPlatform = .ok plan) :
    plan.Valid os taskPlatform := by
  simp only [planPackage, Result.bind_ok_iff, Result.exists_unit_iff, Result.context_ok_iff,
    Result.pure_ok_iff] at h
  obtain ⟨_, _, _, hplatform, _, _, hmetadata, _, hhex, rfl⟩ := h
  exact ⟨hmetadata, hhex, hplatform⟩

theorem sealStaged_spec {plan : Plan} {staging tree : PackageTree}
    (hvalid : plan.Valid os taskPlatform)
    (h : sealStaged os parseManifest staging plan.metadata = .ok tree) :
    plan.Verified os parseManifest tree ∧ Sealed tree := by
  simp only [sealStaged, Result.bind_ok_iff, Result.context_ok_iff, Result.pure_ok_iff] at h
  obtain ⟨_, _, _, hseal, _, hverify, rfl⟩ := h
  exact ⟨verifyCachedRoot_of_verifyPackageTree hvalid.metadata_ok hverify,
    resealCachedTree_idem hseal⟩

theorem ensureMetadataMatches_ok_iff {existing : Option (Result CacheMetadata)}
    {metadata : CacheMetadata} :
    ensureMetadataMatches existing metadata = .ok () ↔ existing = some (.ok metadata) := by
  simp only [ensureMetadataMatches, Result.bind_ok_iff, Result.okOr_ok_iff, Result.context_ok_iff,
    Result.ensure_ok_iff]
  constructor
  · rintro ⟨_, hexisting, _, rfl, rfl⟩
    exact hexisting
  · intro h
    exact ⟨_, h, _, rfl, rfl⟩

theorem verifyCachedRootSealed_of_sealed {plan : Plan} {tree : PackageTree}
    (h : plan.Verified os parseManifest tree) (hsealed : Sealed tree) :
    verifyCachedRootSealed os parseManifest tree plan.metadata = .ok plan.cached := by
  simp only [verifyCachedRootSealed, Result.bind_ok_iff, Result.exists_unit_iff,
    Result.pure_ok_iff]
  exact ⟨plan.cached, h, verifySealedTree_of_sealed hsealed, rfl⟩

/-- A package that is ready and whose metadata is in place is delivered. -/
theorem Ready.delivered {cache : PackageCache} {plan : Plan}
    (h : Ready os parseManifest taskPlatform cache plan)
    (hfile : cache.metadata plan.hex = some (.ok plan.metadata)) :
    Delivered os parseManifest taskPlatform cache plan.cached := by
  obtain ⟨hvalid, tree, htree, hverified, hsealed⟩ := h
  exact ⟨plan.metadata, ⟨hvalid.metadata_ok, plan.hex, tree, hvalid.hex_ok, htree, hfile, hsealed,
    verifyCachedRootSealed_of_sealed hverified hsealed⟩, hvalid.platform_ok⟩

theorem phaseKnows_proceed {cache : PackageCache} {fault : Option String}
    {next : Result PreparePhase}
    (h : ∀ phase, next = .ok phase → PhaseKnows os parseManifest taskPlatform cache phase) :
    PhaseKnows os parseManifest taskPlatform cache (proceed fault next) := by
  cases fault with
  | some error => trivial
  | none =>
    cases next with
    | error => trivial
    | ok phase => exact h phase rfl

/-- One step of a call: the cache advances, and the next phase knows what it
relies on. -/
theorem stepPrepare_spec (fault : Option String) (source : PackageTree) {cache : PackageCache}
    {phase : PreparePhase} (h : PhaseKnows os parseManifest taskPlatform cache phase) :
    Advances cache (stepPrepare os parseManifest taskPlatform fault source cache phase).1 ∧
      PhaseKnows os parseManifest taskPlatform
        (stepPrepare os parseManifest taskPlatform fault source cache phase).1
        (stepPrepare os parseManifest taskPlatform fault source cache phase).2 := by
  cases phase with
  | readSource =>
    refine ⟨.refl cache, phaseKnows_proceed fun phase hnext => ?_⟩
    simp only [Result.bind_ok_iff, Result.pure_ok_iff] at hnext
    obtain ⟨plan, hplan, rfl⟩ := hnext
    exact planPackage_valid hplan
  | checkDestination plan =>
    refine ⟨.refl cache, phaseKnows_proceed fun phase hnext => ?_⟩
    cases hnext
    by_cases hsome : (cache.packages plan.hex).isSome = true
    · rw [if_pos hsome]
      exact ⟨h, Option.isSome_iff_exists.mp hsome⟩
    · rw [if_neg hsome]
      refine ⟨h, fun tree htree => absurd ?_ hsome⟩
      rw [show cache.packages plan.hex = some tree from htree]
      rfl
  | checkMetadata plan =>
    rw [stepPrepare]
    split
    · exact ⟨.refl cache, trivial⟩
    · exact ⟨.refl cache, h⟩
  | copy plan =>
    refine ⟨.refl cache, phaseKnows_proceed fun phase hnext => ?_⟩
    simp only [Result.bind_ok_iff, Result.pure_ok_iff] at hnext
    obtain ⟨staging, _, rfl⟩ := hnext
    exact h
  | verifySource plan staging =>
    refine ⟨.refl cache, phaseKnows_proceed fun phase hnext => ?_⟩
    simp only [Result.bind_ok_iff, Result.pure_ok_iff] at hnext
    obtain ⟨_, _, rfl⟩ := hnext
    exact h
  | sealStaging plan staging =>
    refine ⟨.refl cache, phaseKnows_proceed fun phase hnext => ?_⟩
    simp only [Result.bind_ok_iff, Result.pure_ok_iff] at hnext
    obtain ⟨tree, htree, rfl⟩ := hnext
    obtain ⟨hverified, hsealed⟩ := sealStaged_spec h.1 htree
    exact ⟨h.1, h.2, hverified, hsealed⟩
  | rename plan staging =>
    obtain ⟨hvalid, hunclaimed, hverified, _⟩ := h
    cases hpackage : cache.packages plan.hex with
    | none =>
      cases fault with
      | none =>
        simp only [stepPrepare, hpackage, vacant]
        exact ⟨advances_put (by simp [hpackage]) fun _ => hverified.entries_ne_nil,
          hvalid, staging, put_packages_self ..⟩
      | some error =>
        simp only [stepPrepare, hpackage]
        exact ⟨.refl cache, trivial⟩
    | some tree =>
      have hne : vacant (some tree) = false := by
        simp [vacant, hunclaimed tree hpackage]
      simp only [stepPrepare, hpackage, hne, Bool.and_false]
      exact ⟨.refl cache, hvalid, tree, hpackage⟩
  | verifyDestination plan =>
    refine ⟨.refl cache, phaseKnows_proceed fun phase hnext => ?_⟩
    simp only [Result.bind_ok_iff, Result.okOr_ok_iff, Result.pure_ok_iff] at hnext
    obtain ⟨tree, htree, cached, hverify, rfl⟩ := hnext
    have hcached : cached = plan.cached := cached_eq_of_verifyCachedRoot hverify
    refine ⟨h.1, tree, htree, by rw [Plan.Verified, hverify, hcached], fun e he => .inl ?_⟩
    exact List.mem_map_of_mem he
  | reseal plan remaining =>
    obtain ⟨hvalid, tree, htree, hverified, hsealed⟩ := h
    cases fault with
    | some error => exact ⟨.refl cache, trivial⟩
    | none =>
      cases remaining with
      | nil =>
        simp only [stepPrepare, htree]
        have hseal := sealing_mode tree
        refine ⟨advances_put (by simp [htree, hseal]) (by simp [htree]), hvalid, _,
          put_packages_self .., hverified.of_sealing hseal, sealed_iff.mpr ⟨rfl, fun e he => ?_⟩⟩
        exact (hsealed e he).resolve_left (by simp)
      | cons name rest =>
        obtain ⟨tree', htree'⟩ := exists_sealAt (sealable_of_verifyCachedRoot hverified) name
        obtain ⟨hseal, hrest⟩ := sealAt_spec htree' hsealed
        simp only [stepPrepare, htree, htree']
        exact ⟨advances_put (by simp [htree, hseal]) (by simp [htree]), hvalid, tree',
          put_packages_self .., hverified.of_sealing hseal, hrest⟩
  | verifySealed plan =>
    refine ⟨.refl cache, phaseKnows_proceed fun phase hnext => ?_⟩
    simp only [Result.bind_ok_iff, Result.okOr_ok_iff, Result.pure_ok_iff] at hnext
    obtain ⟨tree, _, cached, hverify, rfl⟩ := hnext
    exact ⟨h, cached_eq_of_verifyCachedRoot (verifyCachedRoot_of_sealed hverify)⟩
  | matchMetadata plan cached =>
    refine ⟨.refl cache, phaseKnows_proceed fun phase hnext => ?_⟩
    obtain ⟨hready, rfl⟩ := h
    split at hnext
    · cases hnext
      exact ⟨hready, rfl⟩
    · simp only [Result.bind_ok_iff, Result.exists_unit_iff, ensureMetadataMatches_ok_iff,
        Result.pure_ok_iff] at hnext
      obtain ⟨hfile, rfl⟩ := hnext
      exact hready.delivered hfile
  | linkMetadata plan cached =>
    obtain ⟨hready, rfl⟩ := h
    cases fault with
    | some error => exact ⟨.refl cache, trivial⟩
    | none =>
      cases hfile : cache.metadata plan.hex with
      | none =>
        simp only [stepPrepare, hfile]
        have hadv : Advances cache (cache.link plan.hex plan.metadata) := advances_link hfile
        exact ⟨hadv, (hready.advances hadv).delivered (link_metadata_self ..)⟩
      | some file =>
        simp only [stepPrepare, hfile]
        exact ⟨.refl cache, hready, rfl, by simp [hfile]⟩
  | rematchMetadata plan cached =>
    refine ⟨.refl cache, phaseKnows_proceed fun phase hnext => ?_⟩
    obtain ⟨hready, rfl, _⟩ := h
    simp only [Result.bind_ok_iff, Result.exists_unit_iff, ensureMetadataMatches_ok_iff,
      Result.pure_ok_iff] at hnext
    obtain ⟨hfile, rfl⟩ := hnext
    exact hready.delivered hfile
  | syncMetadata cached =>
    refine ⟨.refl cache, phaseKnows_proceed fun phase hnext => ?_⟩
    cases hnext
    exact h
  | returned result => exact ⟨.refl cache, h⟩

/-- The writes of a step: the rename, the modes that sealing sets, the link. -/
theorem stepPrepare_cache (fault : Option String) (source : PackageTree) {cache : PackageCache}
    {phase : PreparePhase} (h : PhaseKnows os parseManifest taskPlatform cache phase) :
    (stepPrepare os parseManifest taskPlatform fault source cache phase).1 = cache ∨
      (∃ (plan : Plan) (tree : PackageTree),
        (stepPrepare os parseManifest taskPlatform fault source cache phase).1 =
          cache.put plan.hex tree ∧ plan.Valid os taskPlatform ∧
        plan.Verified os parseManifest tree) ∨
      ∃ plan : Plan, (stepPrepare os parseManifest taskPlatform fault source cache phase).1 =
          cache.link plan.hex plan.metadata ∧ Ready os parseManifest taskPlatform cache plan := by
  cases phase with
  | rename plan staging =>
    rw [stepPrepare]
    split
    · exact .inr (.inl ⟨plan, staging, rfl, h.1, h.2.2.1⟩)
    · split
      · exact .inl rfl
      · exact .inl rfl
  | reseal plan remaining =>
    obtain ⟨hvalid, tree, htree, hverified, hsealed⟩ := h
    cases fault with
    | some error => exact .inl rfl
    | none =>
      cases remaining with
      | nil =>
        simp only [stepPrepare, htree]
        exact .inr (.inl ⟨plan, _, rfl, hvalid, hverified.of_sealing (sealing_mode tree)⟩)
      | cons name rest =>
        obtain ⟨tree', htree'⟩ := exists_sealAt (sealable_of_verifyCachedRoot hverified) name
        simp only [stepPrepare, htree, htree']
        exact .inr (.inl ⟨plan, tree', rfl, hvalid,
          hverified.of_sealing (sealAt_spec htree' hsealed).1⟩)
  | linkMetadata plan cached =>
    cases fault with
    | some error => exact .inl rfl
    | none =>
      cases hfile : cache.metadata plan.hex with
      | none =>
        simp only [stepPrepare, hfile]
        exact .inr (.inr ⟨plan, rfl, h.1⟩)
      | some file =>
        simp only [stepPrepare, hfile]
        exact .inl trivial
  | checkMetadata plan =>
    rw [stepPrepare]
    split
    · exact .inl rfl
    · exact .inl rfl
  | readSource | checkDestination | copy | verifySource | sealStaging | verifyDestination
  | verifySealed | matchMetadata | rematchMetadata | syncMetadata | returned => exact .inl rfl

end Preservation

/-! ## A call by itself -/

section Alone

variable {os : Platform} {parseManifest : Bytes → Result CodexPackageManifest}
  {taskPlatform : Option String} {source : PackageTree}

/-- The steps of one call, with no fault and none of another call between. -/
inductive Reaches (os : Platform) (parseManifest : Bytes → Result CodexPackageManifest)
    (taskPlatform : Option String) (source : PackageTree) :
    PackageCache × PreparePhase → PackageCache × PreparePhase → Prop where
  | refl (p : PackageCache × PreparePhase) : Reaches os parseManifest taskPlatform source p p
  | step {p q r : PackageCache × PreparePhase} :
      stepPrepare os parseManifest taskPlatform none source p.1 p.2 = q →
      Reaches os parseManifest taskPlatform source q r →
      Reaches os parseManifest taskPlatform source p r

/-- A step that succeeds and writes nothing. -/
theorem Reaches.next {cache : PackageCache} {phase phase' : PreparePhase}
    {result : Result PreparePhase} {r : PackageCache × PreparePhase}
    (hstep : stepPrepare os parseManifest taskPlatform none source cache phase =
      (cache, proceed none result)) (hresult : result = .ok phase')
    (hr : Reaches os parseManifest taskPlatform source (cache, phase') r) :
    Reaches os parseManifest taskPlatform source (cache, phase) r := by
  subst hresult
  exact .step hstep hr

@[simp] theorem put_put (cache : PackageCache) (hex : List Char) (tree tree' : PackageTree) :
    (cache.put hex tree).put hex tree' = cache.put hex tree' := by
  simp [PackageCache.put]

/-- The loop over the names ends at the sealed tree. -/
theorem reaches_reseal {plan : Plan} {cache : PackageCache} {tree tree' : PackageTree}
    {remaining : List String} {q : PackageCache × PreparePhase}
    (htree : cache.packages plan.hex = some tree)
    (hsealable : ∀ e ∈ tree.entries, ∃ e', sealEntry e = .ok e')
    (hsealed : SealedExcept remaining tree) (hreseal : resealCachedTree tree = .ok tree')
    (hq : Reaches os parseManifest taskPlatform source
      (cache.put plan.hex tree', .verifySealed plan) q) :
    Reaches os parseManifest taskPlatform source (cache, .reseal plan remaining) q := by
  induction remaining generalizing cache tree with
  | nil =>
    have hdone : Sealed { tree with mode := normalizedExecutableMode } :=
      sealed_iff.mpr ⟨rfl, fun e he => (hsealed e he).resolve_left (by simp)⟩
    obtain rfl : { tree with mode := normalizedExecutableMode } = tree' :=
      Except.ok.inj (hdone.symm.trans ((resealCachedTree_congr (sealing_mode tree)).trans hreseal))
    exact .step (by simp only [stepPrepare, htree]) hq
  | cons name rest ih =>
    obtain ⟨tree₁, htree₁⟩ := exists_sealAt hsealable name
    obtain ⟨hseal, hrest⟩ := sealAt_spec htree₁ hsealed
    have hstep : stepPrepare os parseManifest taskPlatform none source cache
        (.reseal plan (name :: rest)) = (cache.put plan.hex tree₁, .reseal plan rest) := by
      simp only [stepPrepare, htree, htree₁]
    refine .step hstep (ih (put_packages_self ..) ?_ hrest
      ((resealCachedTree_congr hseal).trans hreseal) (by rwa [put_put]))
    refine forall_mem_of_forall₂ hseal.entries ?_
    rintro e he e' (rfl | he')
    · exact hsealable _ he
    · exact ⟨e', sealEntry_idem he'⟩

/-- Once the package is ready, a call alone writes the metadata if there is none. -/
theorem reaches_writeMetadataIfAbsent {plan : Plan} {cache cache' : PackageCache}
    {cached : CachedCodexPackage}
    (h : writeMetadataIfAbsent plan.hex plan.metadata cache = .ok cache') :
    Reaches os parseManifest taskPlatform source (cache, .matchMetadata plan cached)
      (cache', .returned (.ok cached)) := by
  unfold writeMetadataIfAbsent at h
  split at h
  · rename_i hnone
    cases h
    have hlink : stepPrepare os parseManifest taskPlatform none source cache
        (.linkMetadata plan cached) =
          (cache.link plan.hex plan.metadata, .syncMetadata cached) := by
      simp only [stepPrepare, hnone]
    exact .next rfl (by simp [hnone]) (.step hlink (.next rfl rfl (.refl _)))
  · rename_i existing hexisting
    simp only [Result.bind_ok_iff, Result.context_ok_iff, Result.exists_unit_iff,
      Result.ensure_ok_iff, Result.pure_ok_iff] at h
    obtain ⟨_, rfl, rfl, rfl⟩ := h
    refine .next rfl ?_ (.refl _)
    simp [hexisting, ensureMetadataMatches_ok_iff]

/-- From the destination on, a call alone does what `publishCached` does. -/
theorem reaches_publishCached {plan : Plan} {cache cache' : PackageCache} {tree : PackageTree}
    {cached : CachedCodexPackage} (htree : cache.packages plan.hex = some tree)
    (h : publishCached os parseManifest plan.hex tree plan.metadata cache = .ok (cached, cache')) :
    Reaches os parseManifest taskPlatform source (cache, .verifyDestination plan)
      (cache', .returned (.ok cached)) := by
  simp only [publishCached, Result.bind_ok_iff, Result.pure_ok_iff, Prod.mk.injEq] at h
  obtain ⟨_, hroot, sealed, hreseal, _, hverify, _, hwrite, rfl, rfl⟩ := h
  refine .next rfl (by simp [htree, hroot]) (reaches_reseal htree
    (sealable_of_verifyCachedRoot hroot) (fun e he => .inl (List.mem_map_of_mem he)) hreseal ?_)
  exact .next rfl (by simp [hverify]) (reaches_writeMetadataIfAbsent hwrite)

/-- A call alone that finds nothing stages its source and renames it into place. -/
theorem reaches_staged {plan : Plan} {cache : PackageCache} {staging sealed : PackageTree}
    {files : ArtifactFiles} {r : PackageCache × PreparePhase}
    (hpackage : cache.packages plan.hex = none) (hfile : cache.metadata plan.hex = none)
    (hstage : stagePackage os parseManifest source plan.metadata = .ok staging)
    (hagain : verifyPackageTree os parseManifest source plan.metadata.manifest
      (some plan.metadata.files) true false = .ok files)
    (hstaged : sealStaged os parseManifest staging plan.metadata = .ok sealed)
    (hr : Reaches os parseManifest taskPlatform source
      (cache.put plan.hex sealed, .verifyDestination plan) r) :
    Reaches os parseManifest taskPlatform source (cache, .checkMetadata plan) r := by
  have hcheck : stepPrepare os parseManifest taskPlatform none source cache (.checkMetadata plan) =
      (cache, .copy plan) := by
    simp [stepPrepare, hfile]
  have hcopy : stepPrepare os parseManifest taskPlatform none source cache (.copy plan) =
      (cache, .verifySource plan staging) := by
    rw [stepPrepare, hstage]
    rfl
  have hverify : stepPrepare os parseManifest taskPlatform none source cache
      (.verifySource plan staging) = (cache, .sealStaging plan staging) := by
    rw [stepPrepare, hagain]
    rfl
  have hseal : stepPrepare os parseManifest taskPlatform none source cache
      (.sealStaging plan staging) = (cache, .rename plan sealed) := by
    rw [stepPrepare, hstaged]
    rfl
  have hrename : stepPrepare os parseManifest taskPlatform none source cache
      (.rename plan sealed) = (cache.put plan.hex sealed, .verifyDestination plan) := by
    simp [stepPrepare, hpackage, vacant]
  exact .step hcheck (.step hcopy (.step hverify (.step hseal (.step hrename hr))))

/-- Where `prepareFromPath` succeeds, a call that nothing disturbs takes steps
to the same outcome and the same cache. -/
theorem reaches_prepareFromPath {cache cache' : PackageCache} {cached : CachedCodexPackage}
    (h : prepareFromPath os parseManifest source taskPlatform cache = .ok (cached, cache')) :
    Reaches os parseManifest taskPlatform source (cache, .readSource)
      (cache', .returned (.ok cached)) := by
  simp only [prepareFromPath, Result.bind_ok_iff, Result.exists_unit_iff,
    Result.context_ok_iff] at h
  obtain ⟨manifest, hmanifest, hvalid, hplatform, files, hfiles, hmetadata, hex, hhex, h⟩ := h
  have hplan : planPackage os parseManifest source taskPlatform =
      .ok { metadata := cacheMetadata os manifest files, hex := hex } := by
    simp only [planPackage, Result.bind_ok_iff, Result.exists_unit_iff, Result.context_ok_iff,
      Result.pure_ok_iff]
    exact ⟨manifest, hmanifest, hvalid, hplatform, files, hfiles, hmetadata, hex, hhex, rfl⟩
  refine .next rfl (by rw [hplan]; rfl) (.next rfl rfl ?_)
  split at h
  · rename_i tree htree
    simp only [htree]
    exact reaches_publishCached htree h
  · rename_i hnone
    simp only [Result.bind_ok_iff, Result.exists_unit_iff, Result.ensure_ok_iff,
      Result.context_ok_iff] at h
    obtain ⟨hfile, staging, hcopy, first, hfirst, sealed, hseal, second, hsecond, h⟩ := h
    have hstage : stagePackage os parseManifest source (cacheMetadata os manifest files) =
        .ok staging := by
      simp only [verifyPackageTree, Result.bind_ok_iff, Result.exists_unit_iff,
        Result.ensure_ok_iff] at hfirst
      obtain ⟨_, actual, hactual, rfl, _⟩ := hfirst
      simp only [stagePackage, Result.bind_ok_iff, Result.exists_unit_iff, Result.ensure_ok_iff,
        Result.pure_ok_iff]
      exact ⟨staging, hcopy, _, hactual, rfl, rfl⟩
    have hagain : verifyPackageTree os parseManifest source manifest (some files) true false =
        .ok files := by
      simp only [verifyPackageTree, Result.bind_ok_iff, Result.exists_unit_iff,
        Result.ensure_ok_iff, Result.pure_ok_iff] at hfiles ⊢
      obtain ⟨_, actual, hactual, hsame, file, hfile, paths, hpaths, allowed, hallowed, streamed,
        hstream, hmeta, _, hmode, rfl⟩ := hfiles
      exact ⟨hvalid, actual, hactual, hsame, file, hfile, paths, hpaths, allowed, hallowed, streamed,
        hstream, hmeta, by simp, hmode, rfl⟩
    have hstaged : sealStaged os parseManifest staging (cacheMetadata os manifest files) =
        .ok sealed := by
      simp only [sealStaged, Result.bind_ok_iff, Result.context_ok_iff, Result.pure_ok_iff]
      exact ⟨first, hfirst, sealed, hseal, second, hsecond, rfl⟩
    rw [hnone]
    refine reaches_staged hnone hfile hstage hagain hstaged (reaches_publishCached
      (put_packages_self ..) ?_)
    simpa only [publishCached, PackageCache.put, Function.update_idem] using h

theorem Reaches.advances {p q : PackageCache × PreparePhase}
    (h : Reaches os parseManifest taskPlatform source p q)
    (hp : PhaseKnows os parseManifest taskPlatform p.1 p.2) : Advances p.1 q.1 := by
  induction h with
  | refl p => exact .refl p.1
  | step hstep _ ih =>
    obtain ⟨hadv, hnext⟩ := stepPrepare_spec none source hp
    rw [hstep] at hadv hnext
    exact hadv.trans (ih hnext)

theorem advances_of_prepareFromPath {cache cache' : PackageCache} {cached : CachedCodexPackage}
    (h : prepareFromPath os parseManifest source taskPlatform cache = .ok (cached, cache')) :
    Advances cache cache' :=
  (reaches_prepareFromPath h).advances trivial

end Alone

/-! ## Runs -/

section Runs

variable {os : Platform} {parseManifest : Bytes → Result CodexPackageManifest} {Call : Type}
  [DecidableEq Call] {taskPlatform : Call → Option String} {cache : PackageCache}
  {h : List (Preparations Call × PrepareStep Call)} {s : Preparations Call}

/-- Every call knows what its phase relies on. -/
def AllKnow (os : Platform) (parseManifest : Bytes → Result CodexPackageManifest)
    (taskPlatform : Call → Option String) (s : Preparations Call) : Prop :=
  ∀ c, PhaseKnows os parseManifest (taskPlatform c) s.cache (s.phases c)

theorem allKnow_init (hinit : (preparations os parseManifest taskPlatform cache).init s) :
    AllKnow os parseManifest taskPlatform s := by
  intro c
  rw [hinit.2 c]
  trivial

theorem allKnow_step (hs : AllKnow os parseManifest taskPlatform s) (a : PrepareStep Call) :
    AllKnow os parseManifest taskPlatform (stepPreparations os parseManifest taskPlatform s a) ∧
      Advances s.cache (stepPreparations os parseManifest taskPlatform s a).cache := by
  obtain ⟨hadv, hnext⟩ := stepPrepare_spec a.fault a.source (hs a.call)
  refine ⟨fun c => ?_, hadv⟩
  by_cases hc : c = a.call
  · subst hc
    simpa [stepPreparations] using hnext
  · have hkept := phaseKnows_advances hadv (hs c)
    simpa [stepPreparations, hc] using hkept

theorem allKnow_of_run (hrun : Run (preparations os parseManifest taskPlatform cache) h s) :
    AllKnow os parseManifest taskPlatform s :=
  hrun.invariant (I := AllKnow os parseManifest taskPlatform) (fun _ hinit => allKnow_init hinit)
    fun s a s' hs hstep => by
      subst hstep
      exact (allKnow_step hs a).1

theorem platformMatches_of_validatePlatform {targetTriple : String} {taskPlatform : Option String}
    (h : validatePlatform targetTriple taskPlatform = .ok ()) :
    PlatformMatches targetTriple taskPlatform := by
  rintro platform hplatform
  obtain rfl : taskPlatform = some platform := hplatform
  simp only [validatePlatform, Result.bind_ok_iff, Result.exists_unit_iff,
    Result.ensure_ok_iff] at h
  obtain ⟨_, expected, hexpected, rfl⟩ := h
  exact hexpected

/-- What is asked of a run: the cache has only advanced, and every package a
call has returned is still loaded by its lock, which changes nothing. -/
def KeepsPackages (os : Platform) (parseManifest : Bytes → Result CodexPackageManifest)
    (taskPlatform : Call → Option String) (h : List (Preparations Call × PrepareStep Call))
    (s : Preparations Call) : Prop :=
  (∀ p ∈ h, Advances p.1.cache s.cache) ∧
  ∀ c cached, s.phases c = .returned (.ok cached) →
    Text.trimEnd cached.manifest.version.toList = cached.manifest.version.toList →
    loadCached os parseManifest (some cached.manifest.targetTriple)
      (some cached.artifactSetDigest) cached.reportedVersion (taskPlatform c) s.cache =
        .ok (cached, s.cache)

/-- What two packages with one digest and different metadata amount to. -/
def Collides (os : Platform) : Prop :=
  ∃ metadata metadata' : CacheMetadata, metadata ≠ metadata' ∧
    validateCacheMetadata os metadata = .ok () ∧ validateCacheMetadata os metadata' = .ok () ∧
    metadata.artifactSetDigest = metadata'.artifactSetDigest

/-- Every package of the cache is what some plan asks for, and metadata is
beside a package only. -/
structure Sound (os : Platform) (parseManifest : Bytes → Result CodexPackageManifest)
    (cache : PackageCache) : Prop where
  packages : ∀ hex tree, cache.packages hex = some tree → ∃ (plan : Plan) (platform : Option String),
    plan.hex = hex ∧ plan.Valid os platform ∧ plan.Verified os parseManifest tree
  metadata : ∀ hex file, cache.metadata hex = some file → (cache.packages hex).isSome = true ∧
    ∃ (plan : Plan) (platform : Option String), plan.hex = hex ∧ plan.Valid os platform ∧
      file = .ok plan.metadata

def PackageCache.empty : PackageCache := { packages := fun _ => none, metadata := fun _ => none }

theorem sound_empty : Sound os parseManifest .empty where
  packages _ _ h := by cases h
  metadata _ _ h := by cases h

theorem sound_put {cache : PackageCache} (h : Sound os parseManifest cache) {plan : Plan}
    {platform : Option String} {tree : PackageTree} (hvalid : plan.Valid os platform)
    (hverified : plan.Verified os parseManifest tree) :
    Sound os parseManifest (cache.put plan.hex tree) where
  packages hex tree' htree' := by
    by_cases hhex : hex = plan.hex
    · subst hhex
      rw [put_packages_self] at htree'
      cases htree'
      exact ⟨plan, platform, rfl, hvalid, hverified⟩
    · rw [put_packages_of_ne hhex] at htree'
      exact h.packages hex tree' htree'
  metadata hex file hfile := by
    obtain ⟨hsome, hplan⟩ := h.metadata hex file hfile
    refine ⟨?_, hplan⟩
    by_cases hhex : hex = plan.hex
    · rw [hhex, put_packages_self]
      rfl
    · rw [put_packages_of_ne hhex, hsome]

theorem sound_link {cache : PackageCache} (h : Sound os parseManifest cache) {plan : Plan}
    {platform : Option String} (hready : Ready os parseManifest platform cache plan) :
    Sound os parseManifest (cache.link plan.hex plan.metadata) where
  packages := h.packages
  metadata hex file hfile := by
    by_cases hhex : hex = plan.hex
    · subst hhex
      rw [link_metadata_self] at hfile
      cases hfile
      obtain ⟨tree, htree, _⟩ := hready.package
      exact ⟨by rw [link_packages, htree]; rfl, plan, platform, rfl, hready.valid, rfl⟩
    · exact h.metadata hex file ((Function.update_of_ne hhex ..).symm.trans hfile)

theorem sound_step (hsound : Sound os parseManifest s.cache)
    (hs : AllKnow os parseManifest taskPlatform s) (a : PrepareStep Call) :
    Sound os parseManifest (stepPreparations os parseManifest taskPlatform s a).cache := by
  rcases stepPrepare_cache a.fault a.source (hs a.call) with
    hsame | ⟨plan, tree, hput, hvalid, hverified⟩ | ⟨plan, hlink, hready⟩
  · simpa [stepPreparations, hsame] using hsound
  · simpa [stepPreparations, hput] using sound_put hsound hvalid hverified
  · simpa [stepPreparations, hlink] using sound_link hsound hready

/-- Plans with one place in the cache agree, unless digests collide. -/
theorem metadata_eq_of_hex {plan plan' : Plan} {platform platform' : Option String}
    (hvalid : plan.Valid os platform) (hvalid' : plan'.Valid os platform')
    (hhex : plan'.hex = plan.hex) : plan'.metadata = plan.metadata ∨ Collides os := by
  refine or_iff_not_imp_left.mpr fun hne => ⟨plan'.metadata, plan.metadata, hne,
    hvalid'.metadata_ok, hvalid.metadata_ok, ?_⟩
  obtain ⟨hdigest, _⟩ := digestHexWith_ok_iff.mp hvalid.hex_ok
  obtain ⟨hdigest', _⟩ := digestHexWith_ok_iff.mp hvalid'.hex_ok
  rw [hdigest, hdigest', hhex]

theorem matches_or_collides {cache : PackageCache} (hsound : Sound os parseManifest cache)
    {plan : Plan} {platform : Option String} (hvalid : plan.Valid os platform)
    {file : Result CacheMetadata} (hfile : cache.metadata plan.hex = some file) :
    ensureMetadataMatches (some file) plan.metadata = .ok () ∨ Collides os := by
  obtain ⟨_, plan', platform', hhex, hvalid', rfl⟩ := hsound.metadata _ file hfile
  rw [ensureMetadataMatches_ok_iff, Option.some.injEq, Except.ok.injEq]
  exact metadata_eq_of_hex hvalid hvalid' hhex

/-- The call works on its own source or staging directory. -/
def PreparePhase.ownSource : PreparePhase → Bool
  | .readSource | .copy _ | .verifySource _ _ | .sealStaging _ _ => true
  | _ => false

/-- A step without a fault that refuses its call did so for the call's own
source, for metadata that another call published with its package since the
destination was looked at, or for a collision. -/
theorem refused_step {cache : PackageCache} {platform : Option String} {source : PackageTree}
    {phase : PreparePhase} {error : String} (hsound : Sound os parseManifest cache)
    (hknows : PhaseKnows os parseManifest platform cache phase)
    (hphase : ∀ result, phase ≠ .returned result)
    (h : (stepPrepare os parseManifest platform none source cache phase).2 =
      .returned (.error error)) :
    phase.ownSource = true ∨
      (∃ plan, phase = .checkMetadata plan ∧ (cache.packages plan.hex).isSome = true) ∨
      Collides os := by
  cases phase with
  | readSource | copy | verifySource | sealStaging => exact .inl rfl
  | returned result => exact absurd rfl (hphase result)
  | checkDestination plan =>
    simp only [stepPrepare, proceed] at h
    split at h <;> cases h
  | checkMetadata plan =>
    refine .inr (.inl ⟨plan, rfl, ?_⟩)
    cases hfile : cache.metadata plan.hex with
    | none => simp [stepPrepare, hfile] at h
    | some file => exact (hsound.metadata plan.hex file hfile).1
  | rename plan staging =>
    cases hpackage : cache.packages plan.hex with
    | none => simp [stepPrepare, hpackage, vacant] at h
    | some tree =>
      simp only [stepPrepare, hpackage] at h
      split at h <;> cases h
  | verifyDestination plan =>
    obtain ⟨hvalid, tree, htree⟩ := hknows
    obtain ⟨plan', platform', hhex, hvalid', hverified⟩ := hsound.packages _ tree htree
    rcases metadata_eq_of_hex hvalid hvalid' hhex with hsame | hcollides
    · have hroot : verifyCachedRoot os parseManifest tree plan.metadata = .ok plan'.cached := by
        rw [← hsame]
        exact hverified
      simp [stepPrepare, proceed, htree, hroot, okOr, bind, Except.bind, pure, Except.pure] at h
    · exact .inr (.inr hcollides)
  | reseal plan remaining =>
    obtain ⟨hvalid, tree, htree, hverified, hsealed⟩ := hknows
    cases remaining with
    | nil => simp [stepPrepare, htree] at h
    | cons name rest =>
      obtain ⟨tree', htree'⟩ := exists_sealAt (sealable_of_verifyCachedRoot hverified) name
      simp [stepPrepare, htree, htree'] at h
  | verifySealed plan =>
    obtain ⟨_, tree, htree, hverified, hsealed⟩ := hknows
    have hroot := verifyCachedRootSealed_of_sealed hverified hsealed
    simp [stepPrepare, proceed, htree, hroot, okOr, bind, Except.bind, pure, Except.pure] at h
  | linkMetadata plan cached =>
    cases hfile : cache.metadata plan.hex <;> simp [stepPrepare, hfile] at h
  | syncMetadata cached => cases h
  | matchMetadata plan cached =>
    cases hfile : cache.metadata plan.hex with
    | none => simp [stepPrepare, proceed, hfile] at h
    | some file =>
      rcases matches_or_collides hsound hknows.1.valid hfile with hmatch | hcollides
      · simp [stepPrepare, proceed, hfile, hmatch, bind, Except.bind, pure, Except.pure] at h
      · exact .inr (.inr hcollides)
  | rematchMetadata plan cached =>
    obtain ⟨hready, _, hsome⟩ := hknows
    obtain ⟨file, hfile⟩ := Option.isSome_iff_exists.mp hsome
    rcases matches_or_collides hsound hready.valid hfile with hmatch | hcollides
    · simp [stepPrepare, proceed, hfile, hmatch, bind, Except.bind, pure, Except.pure] at h
    · exact .inr (.inr hcollides)

/-- Every step of a run that refuses its call without a fault is explained by
`refused_step`: a package in the cache is never found unsealed, and metadata
never found to differ. -/
def RefusesOnly (os : Platform) (parseManifest : Bytes → Result CodexPackageManifest)
    (taskPlatform : Call → Option String) (h : List (Preparations Call × PrepareStep Call)) :
    Prop :=
  ∀ p ∈ h, p.2.fault = none → (∀ result, p.1.phases p.2.call ≠ .returned result) →
    ∀ error, (stepPreparations os parseManifest taskPlatform p.1 p.2).phases p.2.call =
        .returned (.error error) →
      (p.1.phases p.2.call).ownSource = true ∨
        (∃ plan, p.1.phases p.2.call = .checkMetadata plan ∧
          (p.1.cache.packages plan.hex).isSome = true) ∨
        Collides os

end Runs

section Sample

def sampleOs : Platform := .ascii (fun _ => String.ofList (List.replicate 64 '0'))

def sampleManifest : CodexPackageManifest :=
  { layoutVersion := 1, version := "0.1.0", targetTriple := "x86_64-unknown-linux-musl"
    variant := "codex", entrypoint := "bin/codex", resourcesDir := "codex-resources"
    pathDir := "codex-path" }

/-- An installed package before anything has been sealed. -/
def sampleSource : PackageTree :=
  { mode := 493
    entries := [("codex-package.json", .file [123, 125] 420 1), ("bin", .directory 493),
      ("bin/codex", .file [1] 493 1), ("bin/codex-code-mode-host", .file [2] 493 1),
      ("codex-path", .directory 493), ("codex-path/rg", .file [3] 493 1),
      ("codex-resources", .directory 493), ("codex-resources/bwrap", .file [4] 493 1)] }

/-- The state after the calls have taken their steps in this order, with the
history; two calls, nothing fails. -/
def sampleRun (order : List Bool) :
    List (Preparations Bool × PrepareStep Bool) × Preparations Bool :=
  replay (stepPreparations sampleOs (fun _ => .ok sampleManifest) (fun _ => some "linux/amd64"))
    { cache := .empty, phases := fun _ => .readSource }
    (order.map (fun c => { call := c, fault := none, source := sampleSource }))

theorem sampleRun_run (order : List Bool) :
    Run (preparations sampleOs (fun _ => .ok sampleManifest) (fun _ => some "linux/amd64") .empty)
      (sampleRun order).1 (sampleRun order).2 := by
  refine Run.replay (fun _ _ => rfl) ?_ _
  exact ⟨rfl, fun _ => rfl⟩

def PreparePhase.succeeded : PreparePhase → Bool
  | .returned (.ok _) => true
  | _ => false

/-- Two calls step by step in turn. -/
def inTurn : List Bool := (List.replicate 24 [true, false]).flatten

/-- Both prepare the package, each sealing what the other has published. -/
example : ((sampleRun inTurn).2.phases true).succeeded = true ∧
    ((sampleRun inTurn).2.phases false).succeeded = true := by decide +kernel

/-- One call finds no destination, and then the metadata of the other. -/
def overtaken : List Bool := List.replicate 2 true ++ List.replicate 24 false ++ [true]

example : ((sampleRun overtaken).2.phases false).succeeded = true ∧
    ((sampleRun overtaken).2.phases true).succeeded = false := by decide +kernel

end Sample

end A3sBench.CodexPackage
