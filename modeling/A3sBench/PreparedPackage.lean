import A3sBench.CodexPackage
import Mathlib

/-!
# A prepared package is found again

`prepare_from_path` leaves a sealed tree with its metadata beside it. Loading it
for a lock changes nothing and fails on one thing only: the locked version is
trimmed before it is compared with the recorded one, which is not.
-/

namespace A3sBench.Text

/-- White space at the end is all that trimming can take off after a letter. -/
theorem trim_cons_iff {s : String} {c : Char} {rest : List Char} (hs : s.toList = c :: rest)
    (hc : isWhitespace c = false) : trim s = s ↔ trimEnd s.toList = s.toList := by
  rw [trim, hs, List.dropWhile_cons_of_neg (by simp [hc]), ← hs, ← String.toList_inj,
    String.toList_ofList]

theorem trimEnd_eq_self_iff {s : List Char} :
    trimEnd s = s ↔ ∀ h : s ≠ [], isWhitespace (s.getLast h) = false := by
  rw [trimEnd, List.rdropWhile_eq_self_iff]
  simp

/-- The end of a text is the end of its last part. -/
theorem trimEnd_append_iff {s t : List Char} (ht : t ≠ []) :
    trimEnd (s ++ t) = s ++ t ↔ trimEnd t = t := by
  have hne : s ++ t ≠ [] := by simp [ht]
  rw [trimEnd_eq_self_iff, trimEnd_eq_self_iff]
  constructor
  · intro h _
    rw [← List.getLast_append_of_ne_nil hne ht]
    exact h hne
  · intro h _
    rw [List.getLast_append_of_ne_nil hne ht]
    exact h ht

theorem ne_empty_of_not_isBlank {s : String} (h : isBlank s = false) : s.toList ≠ [] := by
  intro hnil
  rw [isBlank, hnil] at h
  cases h

end A3sBench.Text

namespace A3sBench.CodexPackage

theorem sealEntry_idem {e e' : String × Node} (h : sealEntry e = .ok e') :
    sealEntry e' = .ok e' := by
  obtain ⟨name, node⟩ := e
  cases node with
  | directory mode => cases h; rfl
  | file content mode links => cases h; rfl
  | symlink target => cases h
  | special => cases h

theorem mapM_sealEntry_idem {entries sealed : List (String × Node)}
    (h : entries.mapM sealEntry = .ok sealed) : sealed.mapM sealEntry = .ok sealed := by
  induction entries generalizing sealed with
  | nil => cases h; rfl
  | cons e entries ih =>
    rw [List.mapM_cons] at h
    simp only [Result.bind_ok_iff, Result.pure_ok_iff] at h
    obtain ⟨e', he, rest, hrest, rfl⟩ := h
    rw [List.mapM_cons, sealEntry_idem he, ih hrest]
    rfl

/-- Sealing a sealed tree changes nothing. -/
theorem resealCachedTree_idem {tree sealed : PackageTree}
    (h : resealCachedTree tree = .ok sealed) : resealCachedTree sealed = .ok sealed := by
  simp only [resealCachedTree, Result.bind_ok_iff, Result.pure_ok_iff] at h
  obtain ⟨entries, hentries, rfl⟩ := h
  simp only [resealCachedTree, Result.bind_ok_iff, Result.pure_ok_iff]
  exact ⟨entries, mapM_sealEntry_idem hentries, rfl⟩

section Cache

variable {os : Platform} {parseManifest : Bytes → Result CodexPackageManifest}

/-- A cache entry as a successful preparation leaves it. -/
structure Prepared (os : Platform) (parseManifest : Bytes → Result CodexPackageManifest)
    (cache : PackageCache) (metadata : CacheMetadata) (cached : CachedCodexPackage) : Prop where
  metadata_ok : validateCacheMetadata os metadata = .ok ()
  entry : ∃ hex tree, digestHex metadata.artifactSetDigest = .ok hex ∧
    cache.packages hex = some tree ∧ cache.metadata hex = some (.ok metadata) ∧
    resealCachedTree tree = .ok tree ∧
    verifyCachedRootSealed os parseManifest tree metadata = .ok cached

theorem cached_eq_of_verifyCachedRoot {tree : PackageTree} {metadata : CacheMetadata}
    {cached : CachedCodexPackage}
    (h : verifyCachedRoot os parseManifest tree metadata = .ok cached) :
    cached =
      { manifest := metadata.manifest
        reportedVersion := metadata.reportedVersion
        artifactSetDigest := metadata.artifactSetDigest } := by
  simp only [verifyCachedRoot, Result.bind_ok_iff, Result.exists_unit_iff, Result.ensure_ok_iff,
    Result.pure_ok_iff] at h
  obtain ⟨_, files, _, hdigest, rfl⟩ := h
  rw [hdigest]

theorem verifyCachedRoot_of_sealed {tree : PackageTree} {metadata : CacheMetadata}
    {cached : CachedCodexPackage}
    (h : verifyCachedRootSealed os parseManifest tree metadata = .ok cached) :
    verifyCachedRoot os parseManifest tree metadata = .ok cached := by
  simp only [verifyCachedRootSealed, Result.bind_ok_iff, Result.exists_unit_iff,
    Result.pure_ok_iff] at h
  obtain ⟨_, hroot, _, rfl⟩ := h
  exact hroot

theorem Prepared.cached_eq {cache : PackageCache} {metadata : CacheMetadata}
    {cached : CachedCodexPackage} (h : Prepared os parseManifest cache metadata cached) :
    cached =
      { manifest := metadata.manifest
        reportedVersion := metadata.reportedVersion
        artifactSetDigest := metadata.artifactSetDigest } := by
  obtain ⟨_, _, _, _, _, _, hverify⟩ := h.entry
  exact cached_eq_of_verifyCachedRoot (verifyCachedRoot_of_sealed hverify)

theorem writeMetadataIfAbsent_spec {hex : List Char} {metadata : CacheMetadata}
    {cache cache' : PackageCache} (h : writeMetadataIfAbsent hex metadata cache = .ok cache') :
    cache'.packages = cache.packages ∧ cache'.metadata hex = some (.ok metadata) := by
  unfold writeMetadataIfAbsent at h
  split at h
  · cases h
    exact ⟨rfl, Function.update_self ..⟩
  · rename_i existing hexisting
    simp only [Result.bind_ok_iff, Result.context_ok_iff, Result.exists_unit_iff,
      Result.ensure_ok_iff, Result.pure_ok_iff] at h
    obtain ⟨_, rfl, rfl, rfl⟩ := h
    exact ⟨rfl, hexisting⟩

theorem prepared_of_publishCached {hex : List Char} {tree : PackageTree}
    {metadata : CacheMetadata} {cache cache' : PackageCache} {cached : CachedCodexPackage}
    (hmetadata : validateCacheMetadata os metadata = .ok ())
    (hhex : digestHex metadata.artifactSetDigest = .ok hex)
    (h : publishCached os parseManifest hex tree metadata cache = .ok (cached, cache')) :
    Prepared os parseManifest cache' metadata cached := by
  simp only [publishCached, Result.bind_ok_iff, Result.pure_ok_iff, Prod.mk.injEq] at h
  obtain ⟨_, _, sealed, hseal, _, hverify, _, hwrite, rfl, rfl⟩ := h
  obtain ⟨hpackages, hfile⟩ := writeMetadataIfAbsent_spec hwrite
  refine ⟨hmetadata, hex, sealed, hhex, ?_, hfile, resealCachedTree_idem hseal, hverify⟩
  rw [hpackages]
  exact Function.update_self ..

/-- What a successful preparation has done. -/
theorem prepared_of_prepareFromPath {source : PackageTree} {taskPlatform : Option String}
    {cache cache' : PackageCache} {cached : CachedCodexPackage}
    (h : prepareFromPath os parseManifest source taskPlatform cache = .ok (cached, cache')) :
    ∃ metadata, Prepared os parseManifest cache' metadata cached ∧
      readManifest parseManifest source = .ok metadata.manifest ∧
      validatePlatform metadata.manifest.targetTriple taskPlatform = .ok () := by
  simp only [prepareFromPath, Result.bind_ok_iff, Result.exists_unit_iff,
    Result.context_ok_iff] at h
  obtain ⟨manifest, hmanifest, _, hplatform, files, _, hmetadata, hex, hhex, h⟩ := h
  refine ⟨cacheMetadata os manifest files, ?_, hmanifest, hplatform⟩
  split at h
  · exact prepared_of_publishCached hmetadata hhex h
  · simp only [Result.bind_ok_iff, Result.exists_unit_iff, Result.ensure_ok_iff,
      Result.context_ok_iff] at h
    obtain ⟨_, staging, _, _, _, sealed, _, _, _, h⟩ := h
    exact prepared_of_publishCached hmetadata hhex h

/-- The Task platform is absent or names the architecture of the target. -/
def PlatformMatches (targetTriple : String) (taskPlatform : Option String) : Prop :=
  ∀ platform ∈ taskPlatform, canonicalPlatform platform =
    .ok (canonicalArchitecture (targetTriple.toList.takeWhile (· ≠ '-')))

theorem validatePlatform_of_matches {targetTriple : String} {taskPlatform : Option String}
    (hlinux : validatePlatform targetTriple none = .ok ())
    (hmatch : PlatformMatches targetTriple taskPlatform) :
    validatePlatform targetTriple taskPlatform = .ok () := by
  simp only [validatePlatform, Result.bind_ok_iff, Result.exists_unit_iff,
    Result.ensure_ok_iff] at hlinux ⊢
  refine ⟨hlinux.1, ?_⟩
  cases taskPlatform with
  | none => rfl
  | some platform =>
    simp only [Result.bind_ok_iff, Result.ensure_ok_iff]
    exact ⟨_, hmatch platform rfl, rfl⟩

theorem validatePlatform_none_of_manifest {manifest : CodexPackageManifest}
    (h : validateManifest manifest = .ok ()) :
    validatePlatform manifest.targetTriple none = .ok () ∧ Text.isBlank manifest.version = false := by
  simp only [validateManifest, Result.bind_ok_iff, Result.exists_unit_iff,
    Result.ensure_ok_iff] at h
  obtain ⟨_, hversion, _, hplatform, _⟩ := h
  refine ⟨hplatform, ?_⟩
  simp only [isPrintable, Bool.and_eq_true, Bool.not_eq_true'] at hversion
  exact hversion.1

theorem reportedVersion_of_validate {metadata : CacheMetadata}
    (h : validateCacheMetadata os metadata = .ok ()) :
    metadata.reportedVersion = "codex-cli " ++ metadata.manifest.version := by
  simp only [validateCacheMetadata, Result.bind_ok_iff, Result.exists_unit_iff,
    Result.ensure_ok_iff] at h
  exact h.2.2.1.1

/-- The recorded version survives trimming exactly when the package version ends
in no white space. -/
theorem trim_reportedVersion_iff {metadata : CacheMetadata}
    (h : validateCacheMetadata os metadata = .ok ()) :
    Text.trim metadata.reportedVersion = metadata.reportedVersion ↔
      Text.trimEnd metadata.manifest.version.toList = metadata.manifest.version.toList := by
  have hversion := reportedVersion_of_validate h
  simp only [validateCacheMetadata, Result.bind_ok_iff, Result.exists_unit_iff,
    Result.ensure_ok_iff] at h
  obtain ⟨_, hmanifest, _⟩ := h
  have hne := Text.ne_empty_of_not_isBlank (validatePlatform_none_of_manifest hmanifest).2
  have hlist : metadata.reportedVersion.toList =
      "codex-cli ".toList ++ metadata.manifest.version.toList := by
    rw [hversion, String.toList_append]
  rw [Text.trim_cons_iff hlist (by decide), hlist, Text.trimEnd_append_iff hne]

/-- A prepared package is loaded for its own product lock exactly when the
version has nothing to trim, and then nothing has changed. -/
theorem loadCached_prepared {cache : PackageCache} {metadata : CacheMetadata}
    {cached : CachedCodexPackage} {taskPlatform : Option String}
    (h : Prepared os parseManifest cache metadata cached)
    (hmatch : PlatformMatches metadata.manifest.targetTriple taskPlatform)
    {result : CachedCodexPackage × PackageCache} :
    loadCached os parseManifest (some cached.manifest.targetTriple)
        (some cached.artifactSetDigest) cached.reportedVersion taskPlatform cache = .ok result ↔
      Text.trimEnd metadata.manifest.version.toList = metadata.manifest.version.toList ∧
        result = (cached, cache) := by
  obtain ⟨hmetadata, hex, tree, hhex, htree, hfile, hreseal, hverify⟩ := h
  have hroot := verifyCachedRoot_of_sealed hverify
  have hcached := cached_eq_of_verifyCachedRoot hroot
  have hlinux : validatePlatform metadata.manifest.targetTriple none = .ok () := by
    simp only [validateCacheMetadata, Result.bind_ok_iff, Result.exists_unit_iff] at hmetadata
    exact (validatePlatform_none_of_manifest hmetadata.2.1).1
  have hplatform := validatePlatform_of_matches hlinux hmatch
  have hsame : Function.update cache.packages hex (some tree) = cache.packages := by
    rw [← htree, Function.update_eq_self]
  have hne : Text.trim metadata.reportedVersion = metadata.reportedVersion →
      Text.trim metadata.reportedVersion ≠ "" := by
    intro htrim
    rw [htrim, reportedVersion_of_validate hmetadata]
    simp
  rw [← trim_reportedVersion_iff hmetadata]
  -- every step but the comparison of the version is known to succeed
  simp only [loadCached, Result.bind_ok_iff, Result.exists_unit_iff, Result.ensure_ok_iff,
    Result.context_ok_iff, Result.okOr_ok_iff, Result.pure_ok_iff, Option.some.injEq,
    exists_eq_left', hcached, hhex, Except.ok.injEq, htree, hfile, hmetadata, hplatform, hroot,
    hreseal, hverify, hsame, true_and]
  constructor
  · rintro ⟨_, htrim, rfl⟩
    exact ⟨htrim, rfl⟩
  · rintro ⟨htrim, rfl⟩
    exact ⟨hne htrim, htrim, rfl⟩

end Cache

end A3sBench.CodexPackage
