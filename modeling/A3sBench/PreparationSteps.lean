import A3sBench.Library.Runs
import A3sBench.PreparedPackage
import Mathlib

/-!
# The steps of preparing a package

`prepare_from_path` as the file system sees it: one step for each read of the
source, each directory entry that is sealed and each publication. The source
may change from step to step, and every step may fail.
-/

namespace A3sBench.CodexPackage

open Library Library.System

/-- What a call has settled once it has read its source. -/
structure Plan where
  metadata : CacheMetadata
  hex : List Char

/-- Where a call to `prepare_from_path` stands. -/
inductive PreparePhase where
  | readSource
  | checkDestination (plan : Plan)
  | checkMetadata (plan : Plan)
  | copy (plan : Plan)
  | verifySource (plan : Plan) (staging : PackageTree)
  | sealStaging (plan : Plan) (staging : PackageTree)
  | rename (plan : Plan) (staging : PackageTree)
  | verifyDestination (plan : Plan)
  | reseal (plan : Plan) (remaining : List String)
  | verifySealed (plan : Plan)
  | matchMetadata (plan : Plan) (cached : CachedCodexPackage)
  | linkMetadata (plan : Plan) (cached : CachedCodexPackage)
  | rematchMetadata (plan : Plan) (cached : CachedCodexPackage)
  | syncMetadata (cached : CachedCodexPackage)
  | returned (result : Result CachedCodexPackage)

/-- The directory named `hex` has become `tree`. -/
def PackageCache.put (cache : PackageCache) (hex : List Char) (tree : PackageTree) :
    PackageCache :=
  { cache with packages := Function.update cache.packages hex (some tree) }

/-- The metadata file of `hex` has been linked. -/
def PackageCache.link (cache : PackageCache) (hex : List Char) (metadata : CacheMetadata) :
    PackageCache :=
  { cache with metadata := Function.update cache.metadata hex (some (.ok metadata)) }

/-- `set_permissions` on the entry of one name, as sealing visits it. -/
def sealAt (tree : PackageTree) (name : String) : Result PackageTree := do
  let entries ← tree.entries.mapM (fun e => if e.1 = name then sealEntry e else pure e)
  pure { tree with entries := entries }

/-- `rename` puts a directory where nothing is, or over an empty directory. -/
def vacant : Option PackageTree → Bool
  | none => true
  | some tree => tree.entries.isEmpty

/-- The next phase, unless the step fails by itself or is made to fail. -/
def proceed (fault : Option String) (next : Result PreparePhase) : PreparePhase :=
  match fault, next with
  | some error, _ | none, .error error => .returned (.error error)
  | none, .ok phase => phase

/-- `ensure_metadata_matches`. -/
def ensureMetadataMatches (existing : Option (Result CacheMetadata)) (metadata : CacheMetadata) :
    Result Unit := do
  let existing ← okOr existing "Codex package cache metadata is unavailable"
  let existing ← context "invalid Codex package cache metadata" existing
  ensure (existing = metadata)
    "Codex package cache metadata does not match the verified package"

section Steps

variable (os : Platform) (parseManifest : Bytes → Result CodexPackageManifest)

/-- The first part of `prepare_from_path`, up to the paths in the cache. -/
def planPackage (source : PackageTree) (taskPlatform : Option String) : Result Plan := do
  let manifest ← readManifest parseManifest source
  validateManifest manifest
  validatePlatform manifest.targetTriple taskPlatform
  let files ← context "Codex package source failed verification"
    (verifyPackageTree os parseManifest source manifest none true false)
  let metadata := cacheMetadata os manifest files
  validateCacheMetadata os metadata
  let hex ← digestHex metadata.artifactSetDigest
  pure { metadata := metadata, hex := hex }

/-- `copy_package_tree`, which reads the copied manifest back. -/
def stagePackage (source : PackageTree) (metadata : CacheMetadata) : Result PackageTree := do
  let staging ← copyPackageTree os source metadata.manifest metadata.files
  let copied ← readManifest parseManifest staging
  ensure (copied = metadata.manifest)
    "Codex package manifest changed while it was being copied"
  pure staging

/-- Verify the staged tree, seal it and verify it again. -/
def sealStaged (staging : PackageTree) (metadata : CacheMetadata) : Result PackageTree := do
  let _ ← context "staged Codex package failed verification"
    (verifyPackageTree os parseManifest staging metadata.manifest (some metadata.files) false false)
  let staging ← resealCachedTree staging
  let _ ← context "sealed staged Codex package failed verification"
    (verifyPackageTree os parseManifest staging metadata.manifest (some metadata.files) false false)
  pure staging

/-- One step of a call, on the source as this step meets it. -/
def stepPrepare (taskPlatform : Option String) (fault : Option String) (source : PackageTree)
    (cache : PackageCache) : PreparePhase → PackageCache × PreparePhase
  | .readSource =>
    (cache, proceed fault (do
      let plan ← planPackage os parseManifest source taskPlatform
      pure (.checkDestination plan)))
  | .checkDestination plan =>
    (cache, proceed fault (.ok
      (if (cache.packages plan.hex).isSome then .verifyDestination plan else .checkMetadata plan)))
  | .checkMetadata plan =>
    -- `Path::exists` answers `false` when it fails
    if fault.isNone && (cache.metadata plan.hex).isSome then
      (cache, .returned (.error "Codex package cache metadata exists without its package"))
    else (cache, .copy plan)
  | .copy plan =>
    (cache, proceed fault (do
      let staging ← stagePackage os parseManifest source plan.metadata
      pure (.verifySource plan staging)))
  | .verifySource plan staging =>
    (cache, proceed fault (do
      let _ ← context "Codex package source changed while it was being staged"
        (verifyPackageTree os parseManifest source plan.metadata.manifest
          (some plan.metadata.files) true false)
      pure (.sealStaging plan staging)))
  | .sealStaging plan staging =>
    (cache, proceed fault (do
      let staging ← sealStaged os parseManifest staging plan.metadata
      pure (.rename plan staging)))
  | .rename plan staging =>
    if fault.isNone && vacant (cache.packages plan.hex) then
      (cache.put plan.hex staging, .verifyDestination plan)
    else if (cache.packages plan.hex).isSome then (cache, .verifyDestination plan)
    else
      (cache, .returned (.error ("could not publish Codex package cache: " ++ fault.getD "")))
  | .verifyDestination plan =>
    (cache, proceed fault (do
      let tree ← okOr (cache.packages plan.hex) "No such file or directory (os error 2)"
      let _ ← verifyCachedRoot os parseManifest tree plan.metadata
      pure (.reseal plan (tree.entries.map Prod.fst))))
  | .reseal plan remaining =>
    match fault, cache.packages plan.hex, remaining with
    | some error, _, _ => (cache, .returned (.error error))
    | none, none, _ => (cache, .returned (.error "No such file or directory (os error 2)"))
    | none, some tree, [] =>
      (cache.put plan.hex { tree with mode := normalizedExecutableMode }, .verifySealed plan)
    | none, some tree, name :: rest =>
      match sealAt tree name with
      | .error error => (cache, .returned (.error error))
      | .ok tree => (cache.put plan.hex tree, .reseal plan rest)
  | .verifySealed plan =>
    (cache, proceed fault (do
      let tree ← okOr (cache.packages plan.hex) "No such file or directory (os error 2)"
      let cached ← verifyCachedRootSealed os parseManifest tree plan.metadata
      pure (.matchMetadata plan cached)))
  | .matchMetadata plan cached =>
    (cache, proceed fault (
      if (cache.metadata plan.hex).isNone then .ok (.linkMetadata plan cached)
      else do
        ensureMetadataMatches (cache.metadata plan.hex) plan.metadata
        pure (.returned (.ok cached))))
  | .linkMetadata plan cached =>
    match fault, cache.metadata plan.hex with
    | some error, _ => (cache, .returned (.error error))
    | none, some _ => (cache, .rematchMetadata plan cached)
    | none, none => (cache.link plan.hex plan.metadata, .syncMetadata cached)
  | .rematchMetadata plan cached =>
    (cache, proceed fault (do
      ensureMetadataMatches (cache.metadata plan.hex) plan.metadata
      pure (.returned (.ok cached))))
  | .syncMetadata cached => (cache, proceed fault (.ok (.returned (.ok cached))))
  | .returned result => (cache, .returned result)

/-- The cache and where each call stands. -/
structure Preparations (Call : Type) where
  cache : PackageCache
  phases : Call → PreparePhase

/-- Which call takes its next step, the error it is made to fail with, and the
source it meets. -/
structure PrepareStep (Call : Type) where
  call : Call
  fault : Option String
  source : PackageTree

variable {Call : Type} [DecidableEq Call]

def stepPreparations (taskPlatform : Call → Option String) (s : Preparations Call)
    (a : PrepareStep Call) : Preparations Call :=
  let next := stepPrepare os parseManifest (taskPlatform a.call) a.fault a.source s.cache
    (s.phases a.call)
  { cache := next.1, phases := Function.update s.phases a.call next.2 }

/-- Any number of calls on one cache. -/
def preparations (taskPlatform : Call → Option String) (cache : PackageCache) :
    System (Preparations Call) (PrepareStep Call) where
  init s := s.cache = cache ∧ ∀ c, s.phases c = .readSource
  step s a s' := s' = stepPreparations os parseManifest taskPlatform s a

end Steps

/-! ## What sealing leaves of a tree -/

/-- The second tree is the first with some modes set as sealing sets them. -/
structure Sealing (tree tree' : PackageTree) : Prop where
  mode : tree'.mode = tree.mode ∨ tree'.mode = normalizedExecutableMode
  entries : List.Forall₂ (fun e e' => e' = e ∨ sealEntry e = .ok e') tree.entries tree'.entries

theorem Sealing.refl (tree : PackageTree) : Sealing tree tree :=
  ⟨.inl rfl, List.forall₂_same.mpr fun _ _ => .inl rfl⟩

theorem sealing_mode (tree : PackageTree) :
    Sealing tree { tree with mode := normalizedExecutableMode } :=
  ⟨.inr rfl, (Sealing.refl tree).entries⟩

theorem Sealing.trans {tree tree' tree'' : PackageTree} (h : Sealing tree tree')
    (h' : Sealing tree' tree'') : Sealing tree tree'' := by
  constructor
  · rcases h'.mode with hmode | hmode
    · rw [hmode]
      exact h.mode
    · exact .inr hmode
  · have hstep : ∀ e e' e'' : String × Node, (e' = e ∨ sealEntry e = .ok e') →
        (e'' = e' ∨ sealEntry e' = .ok e'') → e'' = e ∨ sealEntry e = .ok e'' := by
      rintro e e' e'' he (rfl | he')
      · exact he
      · rcases he with rfl | he
        · exact .inr he'
        · obtain rfl : e' = e'' := Except.ok.inj ((sealEntry_idem he).symm.trans he')
          exact .inr he
    have hall := h.entries
    have hall' := h'.entries
    generalize tree.entries = l, tree'.entries = l', tree''.entries = l'' at hall hall'
    induction hall generalizing l'' with
    | nil =>
      cases hall'
      exact .nil
    | cons he _ ih =>
      cases hall' with
      | cons he' hrest => exact .cons (hstep _ _ _ he he') (ih _ hrest)

/-- A tree that sealing leaves alone. -/
def Sealed (tree : PackageTree) : Prop := resealCachedTree tree = .ok tree

theorem mapM_sealEntry_self_iff {entries : List (String × Node)} :
    entries.mapM sealEntry = .ok entries ↔ ∀ e ∈ entries, sealEntry e = .ok e := by
  constructor
  · intro h e he
    have hall := Result.forall₂_of_mapM h
    exact List.forall₂_same.mp hall e he
  · intro h
    induction entries with
    | nil => rfl
    | cons e entries ih =>
      obtain ⟨he, hrest⟩ := List.forall_mem_cons.mp h
      rw [List.mapM_cons, he, ih hrest]
      rfl

theorem sealed_iff {tree : PackageTree} :
    Sealed tree ↔
      tree.mode = normalizedExecutableMode ∧ ∀ e ∈ tree.entries, sealEntry e = .ok e := by
  rw [← mapM_sealEntry_self_iff]
  obtain ⟨mode, entries⟩ := tree
  simp only [Sealed, resealCachedTree, Result.bind_ok_iff, Result.pure_ok_iff,
    PackageTree.mk.injEq]
  constructor
  · rintro ⟨entries', hentries, hmode, rfl⟩
    exact ⟨hmode.symm, hentries⟩
  · rintro ⟨rfl, hentries⟩
    exact ⟨entries, hentries, rfl, rfl⟩

theorem Sealing.eq_of_sealed {tree tree' : PackageTree} (h : Sealing tree tree')
    (hsealed : Sealed tree) : tree' = tree := by
  obtain ⟨hmode, hentries⟩ := sealed_iff.mp hsealed
  obtain ⟨mode, entries⟩ := tree
  obtain ⟨mode', entries'⟩ := tree'
  have hmode' : mode' = mode := by
    rcases h.mode with hsame | hset
    · exact hsame
    · exact hset.trans hmode.symm
  have hall : List.Forall₂ (· = ·) entries entries' := by
    refine ((List.forall₂_and_left ..).mpr ⟨hentries, h.entries⟩).imp ?_
    rintro e e' ⟨he, rfl | he'⟩
    · rfl
    · exact Except.ok.inj (he.symm.trans he')
  obtain rfl := List.forall₂_eq_eq_eq ▸ hall
  rw [hmode']

/-- A node without its permission bits. -/
def modeless : Node → Node
  | .directory _ => .directory 0
  | .file content _ links => .file content 0 links
  | .symlink target => .symlink target
  | .special => .special

/-- What a tree holds, whatever its modes. -/
def contents (tree : PackageTree) : List (String × Node) :=
  tree.entries.map (fun e => (e.1, modeless e.2))

theorem Sealing.contents_eq {tree tree' : PackageTree} (h : Sealing tree tree') :
    contents tree' = contents tree := by
  have hentry : ∀ e e' : String × Node, (e' = e ∨ sealEntry e = .ok e') →
      (e'.1, modeless e'.2) = (e.1, modeless e.2) := by
    rintro ⟨name, node⟩ e' (rfl | he)
    · rfl
    · cases node <;> cases he <;> rfl
  rw [contents, contents, ← List.forall₂_eq_eq_eq, List.forall₂_map_left_iff,
    List.forall₂_map_right_iff]
  exact (h.entries.imp hentry).flip

theorem lookup_contents (tree : PackageTree) (path : String) :
    (contents tree).lookup path = (tree.entries.lookup path).map modeless := by
  rw [contents]
  induction tree.entries with
  | nil => rfl
  | cons e entries ih =>
    obtain ⟨name, node⟩ := e
    by_cases hname : path = name
    · simp [List.lookup, hname]
    · have hne : (path == name) = false := by simpa using hname
      simp [List.lookup, hne, ih]

/-- Reading a file of either tree gives the same content; only the mode may differ. -/
theorem regularFile_bind_congr {α : Type} {tree tree' : PackageTree}
    (h : contents tree' = contents tree) (path kind : String) {f g : Bytes × Nat → Result α}
    (hfg : ∀ content mode mode', f (content, mode') = g (content, mode)) :
    (regularFile tree' path kind >>= f) = (regularFile tree path kind >>= g) := by
  have hlookup : (tree'.entries.lookup path).map modeless =
      (tree.entries.lookup path).map modeless := by
    rw [← lookup_contents, ← lookup_contents, h]
  unfold regularFile
  cases hnode : tree.entries.lookup path with
  | none =>
    have hnone : tree'.entries.lookup path = none := by simpa [hnode] using hlookup
    rw [hnone]
    rfl
  | some node =>
    obtain ⟨node', hnode', hsame⟩ : ∃ node', tree'.entries.lookup path = some node' ∧
        modeless node' = modeless node := by simpa [hnode] using hlookup
    rw [hnode']
    cases node with
    | file content mode links =>
      cases node' with
      | file content' mode' links' =>
        cases hsame
        by_cases hlinks : links = 1
        · simpa [ensure, hlinks, bind, Except.bind, pure, Except.pure] using hfg content mode mode'
        · simp [ensure, hlinks, bind, Except.bind]
      | directory | symlink | special => cases hsame
    | directory | symlink | special => (cases node' <;> cases hsame); rfl

theorem collectFiles_congr {tree tree' : PackageTree} (h : contents tree' = contents tree)
    (manifest : CodexPackageManifest) (allowConvenienceSymlink : Bool) :
    collectFiles tree' manifest allowConvenienceSymlink =
      collectFiles tree manifest allowConvenienceSymlink := by
  have hcheck : ∀ t : PackageTree, t.entries.forM (checkEntry manifest allowConvenienceSymlink) =
      (contents t).forM (checkEntry manifest allowConvenienceSymlink) := by
    intro t
    rw [contents]
    induction t.entries with
    | nil => rfl
    | cons e entries ih =>
      have hentry : checkEntry manifest allowConvenienceSymlink (e.1, modeless e.2) =
          checkEntry manifest allowConvenienceSymlink e := by
        obtain ⟨name, node⟩ := e
        cases node <;> rfl
      exact congrArg₂ (fun first rest => first >>= fun _ => rest) hentry.symm ih
  have hfiles : ∀ t : PackageTree, (t.entries.filter (fun e => isFile e.2)).map Prod.fst =
      ((contents t).filter (fun e => isFile e.2)).map Prod.fst := by
    intro t
    rw [contents, List.filter_map, List.map_map]
    have hsame : ((fun e : String × Node => isFile e.2) ∘ fun e : String × Node =>
        (e.1, modeless e.2)) = fun e : String × Node => isFile e.2 := by
      funext e
      obtain ⟨name, node⟩ := e
      cases node <;> rfl
    rw [hsame]
    rfl
  unfold collectFiles
  rw [hcheck, hcheck, hfiles, hfiles, h]

section Verify

variable {os : Platform} {parseManifest : Bytes → Result CodexPackageManifest}

theorem readManifest_congr {tree tree' : PackageTree} (h : contents tree' = contents tree) :
    readManifest parseManifest tree' = readManifest parseManifest tree :=
  regularFile_bind_congr h _ _ fun _ _ _ => rfl

theorem streamArtifactFiles_congr {tree tree' : PackageTree} (h : contents tree' = contents tree)
    (paths : List String) (totalSize : Nat) :
    streamArtifactFiles os tree' false paths totalSize =
      streamArtifactFiles os tree false paths totalSize := by
  have hfile : ∀ path totalSize, streamArtifactFile os tree' path totalSize false =
      streamArtifactFile os tree path totalSize false := by
    intro path totalSize
    exact regularFile_bind_congr h _ _ fun _ _ _ => by simp
  induction paths generalizing totalSize with
  | nil => rfl
  | cons path paths ih => simp only [streamArtifactFiles, hfile, ih]

/-- Verification that allows for mode drift sees no modes. -/
theorem verifyCachedRoot_congr {tree tree' : PackageTree} (h : contents tree' = contents tree)
    (metadata : CacheMetadata) :
    verifyCachedRoot os parseManifest tree' metadata =
      verifyCachedRoot os parseManifest tree metadata := by
  have hverify : verifyPackageTree os parseManifest tree' metadata.manifest (some metadata.files)
      false true = verifyPackageTree os parseManifest tree metadata.manifest (some metadata.files)
      false true := by
    simp only [verifyPackageTree, readManifest_congr h, collectFiles_congr h, Bool.not_true,
      streamArtifactFiles_congr h]
    congr 1
    funext _
    congr 1
    funext _
    congr 1
    funext _
    exact regularFile_bind_congr h _ _ fun _ _ _ => by simp
  rw [verifyCachedRoot, hverify, verifyCachedRoot]

theorem verifySealedTree_of_sealed {tree : PackageTree} (h : Sealed tree) :
    verifySealedTree tree = .ok () := by
  obtain ⟨hmode, hentries⟩ := sealed_iff.mp h
  simp only [verifySealedTree, Result.bind_ok_iff, Result.exists_unit_iff, Result.ensure_ok_iff,
    Result.forM_ok_iff]
  refine ⟨hmode, ?_⟩
  rintro ⟨name, node⟩ he
  have hseal := hentries _ he
  cases node with
  | directory mode =>
    cases hseal
    simp
  | file content mode links =>
    simp only [sealEntry, Except.ok.injEq, Prod.mk.injEq, Node.file.injEq, true_and,
      and_true] at hseal
    simp [hseal]
  | symlink target => cases hseal
  | special => cases hseal

/-- A verified cache entry holds nothing but directories and files. -/
theorem sealable_of_verifyCachedRoot {tree : PackageTree} {metadata : CacheMetadata}
    {cached : CachedCodexPackage}
    (h : verifyCachedRoot os parseManifest tree metadata = .ok cached) :
    ∀ e ∈ tree.entries, ∃ e', sealEntry e = .ok e' := by
  simp only [verifyCachedRoot, verifyPackageTree, collectFiles, Result.bind_ok_iff,
    Result.exists_unit_iff, Result.forM_ok_iff] at h
  obtain ⟨_, _, ⟨_, _, _, _, _, _, _, ⟨hentries, _⟩, _⟩, _⟩ := h
  rintro ⟨name, node⟩ he
  have hcheck := hentries _ he
  cases node with
  | directory mode => exact ⟨_, rfl⟩
  | file content mode links => exact ⟨_, rfl⟩
  | symlink target => simp [checkEntry] at hcheck
  | special => simp [checkEntry] at hcheck

/-- Files that pass as executable pass without the demand. -/
theorem streamArtifactFiles_of_executable {tree : PackageTree} {paths : List String}
    {totalSize : Nat} {files : ArtifactFiles}
    (h : streamArtifactFiles os tree true paths totalSize = .ok files) :
    streamArtifactFiles os tree false paths totalSize = .ok files := by
  induction paths generalizing totalSize files with
  | nil => exact h
  | cons path paths ih =>
    simp only [streamArtifactFiles, streamArtifactFile, Result.bind_ok_iff, Result.context_ok_iff,
      Result.exists_unit_iff, Result.ensure_ok_iff, Result.pure_ok_iff] at h ⊢
    obtain ⟨_, ⟨file, hfile, hsize, _, htotal⟩, rest, hrest, rfl⟩ := h
    exact ⟨_, ⟨file, hfile, hsize, by simp, htotal⟩, rest, ih hrest, rfl⟩

/-- What the strict verification of a staged tree says of it as a cache entry. -/
theorem verifyCachedRoot_of_verifyPackageTree {tree : PackageTree} {metadata : CacheMetadata}
    {files : ArtifactFiles} (hmetadata : validateCacheMetadata os metadata = .ok ())
    (h : verifyPackageTree os parseManifest tree metadata.manifest (some metadata.files) false
      false = .ok files) :
    verifyCachedRoot os parseManifest tree metadata = .ok
      { manifest := metadata.manifest
        reportedVersion := metadata.reportedVersion
        artifactSetDigest := metadata.artifactSetDigest } := by
  have hdigest : calculateArtifactSetDigest os metadata.manifest metadata.files =
      metadata.artifactSetDigest := by
    simp only [validateCacheMetadata, Result.bind_ok_iff, Result.exists_unit_iff,
      Result.ensure_ok_iff] at hmetadata
    exact hmetadata.2.2.2.2.1
  simp only [verifyPackageTree, Result.bind_ok_iff, Result.exists_unit_iff, Result.ensure_ok_iff,
    Result.pure_ok_iff] at h
  obtain ⟨hmanifest, actual, hread, hactual, file, hfile, paths, hpaths, allowed, hallowed,
    streamed, hstream, hfiles, hexpected, _, _⟩ := h
  obtain rfl : streamed = metadata.files := hexpected _ rfl
  simp only [verifyCachedRoot, verifyPackageTree, Result.bind_ok_iff, Result.exists_unit_iff,
    Result.ensure_ok_iff, Result.pure_ok_iff]
  refine ⟨hmetadata, metadata.files, ⟨hmanifest, actual, hread, hactual, file, hfile, paths, hpaths,
    allowed, hallowed, metadata.files, streamArtifactFiles_of_executable hstream, hfiles, by simp,
    .inl trivial, rfl⟩, hdigest, ?_⟩
  rw [hdigest]

end Verify

theorem sealEntry_name {e e' : String × Node} (h : sealEntry e = .ok e') : e'.1 = e.1 := by
  obtain ⟨name, node⟩ := e
  cases node <;> cases h <;> rfl

/-- Sealing has still to come by the entries of these names only. -/
def SealedExcept (remaining : List String) (tree : PackageTree) : Prop :=
  ∀ e ∈ tree.entries, e.1 ∈ remaining ∨ sealEntry e = .ok e

/-- What every pair carries over to the second list. -/
theorem forall_mem_of_forall₂ {α β : Type} {R : α → β → Prop} {P : β → Prop} {l : List α}
    {l' : List β} (h : List.Forall₂ R l l') (hP : ∀ a ∈ l, ∀ b, R a b → P b) :
    ∀ b ∈ l', P b := by
  induction h with
  | nil => simp
  | cons hab _ ih =>
    obtain ⟨ha, hrest⟩ := List.forall_mem_cons.mp hP
    exact List.forall_mem_cons.mpr ⟨ha _ hab, ih hrest⟩

theorem Sealing.sealedExcept {tree tree' : PackageTree} (h : Sealing tree tree')
    {remaining : List String} (hsealed : SealedExcept remaining tree) :
    SealedExcept remaining tree' := by
  refine forall_mem_of_forall₂ h.entries ?_
  rintro e he e' (rfl | he')
  · exact hsealed _ he
  · exact .inr (sealEntry_idem he')

/-- Sealing one name leaves a tree with that name sealed as well. -/
theorem sealAt_spec {tree tree' : PackageTree} {name : String} {rest : List String}
    (h : sealAt tree name = .ok tree') (hsealed : SealedExcept (name :: rest) tree) :
    Sealing tree tree' ∧ SealedExcept rest tree' := by
  simp only [sealAt, Result.bind_ok_iff, Result.pure_ok_iff] at h
  obtain ⟨entries, hentries, rfl⟩ := h
  have hall := Result.forall₂_of_mapM hentries
  refine ⟨⟨.inl rfl, hall.imp fun e e' he => ?_⟩, forall_mem_of_forall₂ hall fun e hmem e' he => ?_⟩
  · by_cases hname : e.1 = name
    · exact .inr (by simpa [hname] using he)
    · exact .inl (by simpa [hname, eq_comm, pure, Except.pure] using he)
  · by_cases hname : e.1 = name
    · exact .inr (sealEntry_idem (by simpa [hname] using he))
    · obtain rfl : e = e' := by simpa [hname, pure, Except.pure] using he
      simpa [hname] using hsealed e hmem

theorem exists_sealAt {tree : PackageTree} (h : ∀ e ∈ tree.entries, ∃ e', sealEntry e = .ok e')
    (name : String) : ∃ tree', sealAt tree name = .ok tree' := by
  obtain ⟨entries, hentries⟩ := Result.exists_mapM
    (f := fun e => if e.1 = name then sealEntry e else pure e) (l := tree.entries) (by
      intro e he
      by_cases hname : e.1 = name
      · simpa [hname] using h e he
      · exact ⟨e, by simp [hname, pure, Except.pure]⟩)
  exact ⟨{ tree with entries := entries }, by simp [sealAt, hentries]⟩

/-! ## The cache only fills up -/

/-- Packages are only sealed further, metadata stays as it is, and what is new
is not empty. -/
structure Advances (cache cache' : PackageCache) : Prop where
  packages : ∀ hex tree, cache.packages hex = some tree →
    ∃ tree', cache'.packages hex = some tree' ∧ Sealing tree tree'
  metadata : ∀ hex file, cache.metadata hex = some file → cache'.metadata hex = some file
  fresh : ∀ hex tree', cache.packages hex = none → cache'.packages hex = some tree' →
    tree'.entries ≠ []

theorem Sealing.entries_ne_nil {tree tree' : PackageTree} (h : Sealing tree tree')
    (hne : tree.entries ≠ []) : tree'.entries ≠ [] := by
  intro hnil
  have hlength := h.entries.length_eq
  rw [hnil] at hlength
  exact hne (List.eq_nil_of_length_eq_zero hlength)

theorem Advances.refl (cache : PackageCache) : Advances cache cache where
  packages _ tree h := ⟨tree, h, .refl tree⟩
  metadata _ _ h := h
  fresh _ _ hnone hsome := by rw [hnone] at hsome; cases hsome

theorem Advances.trans {cache cache' cache'' : PackageCache} (h : Advances cache cache')
    (h' : Advances cache' cache'') : Advances cache cache'' where
  packages hex tree htree := by
    obtain ⟨tree', htree', hseal⟩ := h.packages hex tree htree
    obtain ⟨tree'', htree'', hseal'⟩ := h'.packages hex tree' htree'
    exact ⟨tree'', htree'', hseal.trans hseal'⟩
  metadata hex file hfile := h'.metadata hex file (h.metadata hex file hfile)
  fresh hex tree'' hnone htree'' := by
    cases htree' : cache'.packages hex with
    | none => exact h'.fresh hex tree'' htree' htree''
    | some tree' =>
      obtain ⟨tree₂, htree₂, hseal⟩ := h'.packages hex tree' htree'
      obtain rfl : tree₂ = tree'' := Option.some.inj (htree₂.symm.trans htree'')
      exact hseal.entries_ne_nil (h.fresh hex tree' hnone htree')

@[simp] theorem put_packages_self (cache : PackageCache) (hex : List Char) (tree : PackageTree) :
    (cache.put hex tree).packages hex = some tree := Function.update_self ..

@[simp] theorem put_metadata (cache : PackageCache) (hex : List Char) (tree : PackageTree) :
    (cache.put hex tree).metadata = cache.metadata := rfl

@[simp] theorem link_metadata_self (cache : PackageCache) (hex : List Char)
    (metadata : CacheMetadata) : (cache.link hex metadata).metadata hex = some (.ok metadata) :=
  Function.update_self ..

@[simp] theorem link_packages (cache : PackageCache) (hex : List Char) (metadata : CacheMetadata) :
    (cache.link hex metadata).packages = cache.packages := rfl

theorem put_packages_of_ne {hex hex' : List Char} (h : hex' ≠ hex) (cache : PackageCache)
    (tree : PackageTree) : (cache.put hex tree).packages hex' = cache.packages hex' :=
  Function.update_of_ne h ..

theorem advances_put {cache : PackageCache} {hex : List Char} {tree' : PackageTree}
    (hseal : ∀ tree, cache.packages hex = some tree → Sealing tree tree')
    (hnew : cache.packages hex = none → tree'.entries ≠ []) :
    Advances cache (cache.put hex tree') where
  packages hex' tree htree := by
    by_cases hhex : hex' = hex
    · subst hhex
      exact ⟨tree', put_packages_self .., hseal tree htree⟩
    · exact ⟨tree, by rw [put_packages_of_ne hhex, htree], .refl tree⟩
  metadata _ _ h := h
  fresh hex' new hnone hsome := by
    by_cases hhex : hex' = hex
    · subst hhex
      rw [put_packages_self] at hsome
      cases hsome
      exact hnew hnone
    · rw [put_packages_of_ne hhex, hnone] at hsome
      cases hsome

theorem advances_link {cache : PackageCache} {hex : List Char} {metadata : CacheMetadata}
    (h : cache.metadata hex = none) : Advances cache (cache.link hex metadata) where
  packages _ tree htree := ⟨tree, htree, .refl tree⟩
  metadata hex' file hfile := by
    have hne : hex' ≠ hex := by
      rintro rfl
      rw [h] at hfile
      cases hfile
    exact (Function.update_of_ne hne ..).trans hfile
  fresh _ _ hnone hsome := by
    rw [link_packages, hnone] at hsome
    cases hsome

/-- Sealing comes to the same from a tree that is partly sealed. -/
theorem resealCachedTree_congr {tree tree' : PackageTree} (h : Sealing tree tree') :
    resealCachedTree tree' = resealCachedTree tree := by
  have hmap : tree'.entries.mapM sealEntry = tree.entries.mapM sealEntry := by
    have hall := h.entries
    generalize tree.entries = l, tree'.entries = l' at hall
    induction hall with
    | nil => rfl
    | @cons e e' l l' he _ ih =>
      have hseal : sealEntry e' = sealEntry e := by
        rcases he with rfl | he
        · rfl
        · rw [he, sealEntry_idem he]
      rw [List.mapM_cons, List.mapM_cons, hseal, ih]
  rw [resealCachedTree, hmap, resealCachedTree]

theorem sealing_of_resealCachedTree {tree tree' : PackageTree}
    (h : resealCachedTree tree = .ok tree') : Sealing tree tree' := by
  simp only [resealCachedTree, Result.bind_ok_iff, Result.pure_ok_iff] at h
  obtain ⟨entries, hentries, rfl⟩ := h
  exact ⟨.inr rfl, (Result.forall₂_of_mapM hentries).imp fun _ _ he => .inr he⟩

section Load

variable {os : Platform} {parseManifest : Bytes → Result CodexPackageManifest}
  {targetTriple artifactSetDigest taskPlatform : Option String} {version : String}
  {cache cache' : PackageCache} {cached : CachedCodexPackage}

theorem advances_of_loadCached (h : loadCached os parseManifest targetTriple artifactSetDigest
    version taskPlatform cache = .ok (cached, cache')) : Advances cache cache' := by
  simp only [loadCached, Result.bind_ok_iff, Result.exists_unit_iff, Result.okOr_ok_iff,
    Result.context_ok_iff, Result.pure_ok_iff, Prod.mk.injEq] at h
  obtain ⟨_, _, _, _, hex, _, tree, htree, _, _, _, _, _, _, _, _, _, _, _, _, sealed, hseal, _, _,
    _, rfl⟩ := h
  exact advances_put (fun tree' htree' => by
    obtain rfl := Option.some.inj (htree.symm.trans htree')
    exact sealing_of_resealCachedTree hseal) (by simp [htree])

theorem Advances.put {hex : List Char} (h : Advances cache cache') (tree : PackageTree) :
    Advances (cache.put hex tree) (cache'.put hex tree) where
  packages hex' tree' htree' := by
    by_cases hhex : hex' = hex
    · subst hhex
      rw [put_packages_self] at htree'
      cases htree'
      exact ⟨tree, put_packages_self .., .refl tree⟩
    · rw [put_packages_of_ne hhex] at htree' ⊢
      exact h.packages hex' tree' htree'
  metadata := h.metadata
  fresh hex' tree' hnone hsome := by
    by_cases hhex : hex' = hex
    · rw [hhex, put_packages_self] at hnone
      cases hnone
    · rw [put_packages_of_ne hhex] at hnone hsome
      exact h.fresh hex' tree' hnone hsome

/-- A lock that finds its package finds it in every later cache. -/
theorem loadCached_advances {cache₁ : PackageCache} (hadv : Advances cache cache')
    (h : loadCached os parseManifest targetTriple artifactSetDigest version taskPlatform cache =
      .ok (cached, cache₁)) :
    ∃ cache₂, loadCached os parseManifest targetTriple artifactSetDigest version taskPlatform
      cache' = .ok (cached, cache₂) ∧ Advances cache₁ cache₂ := by
  simp only [loadCached, Result.bind_ok_iff, Result.exists_unit_iff, Result.okOr_ok_iff,
    Result.context_ok_iff, Result.ensure_ok_iff, Result.pure_ok_iff, Prod.mk.injEq] at h ⊢
  obtain ⟨triple, htriple, digest, hdigest, hex, hhex, tree, htree, file, hfile, metadata, hmetadata,
    hvalid, hsame, hsame', hplatform, hne, hversion, root, hroot, sealed, hseal, cached', hverify,
    rfl, rfl⟩ := h
  obtain ⟨tree', htree', hsealing⟩ := hadv.packages hex tree htree
  exact ⟨_, ⟨triple, htriple, digest, hdigest, hex, hhex, tree', htree', file,
    hadv.metadata hex file hfile, metadata, hmetadata, hvalid, hsame, hsame', hplatform, hne,
    hversion, root, (verifyCachedRoot_congr hsealing.contents_eq metadata).trans hroot, sealed,
    (resealCachedTree_congr hsealing).trans hseal, cached', hverify, rfl, rfl⟩, hadv.put sealed⟩

end Load

end A3sBench.CodexPackage
