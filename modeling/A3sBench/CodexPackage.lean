import A3sBench.Digest
import A3sBench.Json
import A3sBench.Platform
import Mathlib

/-!
# The Codex package cache

`prepare_from_path` verifies an installed Codex package, copies it to a cache
directory named by the digest of its files and writes the metadata beside it;
`load_cached` is how a lock finds the package again.
-/

namespace A3sBench.CodexPackage

def cacheMetadataSchema : String := "a3s.bench.codex-package-cache.v1"

def manifestFile : String := "codex-package.json"

def maxManifestBytes : Nat := 64 * 1024

def maxPackageFileBytes : Nat := 512 * 1024 * 1024

def maxPackageBytes : Nat := 1024 * 1024 * 1024

/-- `0o555`. -/
def normalizedExecutableMode : Nat := 365

/-- `0o444`. -/
def normalizedNonexecutableMode : Nat := 292

structure CodexPackageManifest where
  layoutVersion : Nat
  version : String
  targetTriple : String
  variant : String
  entrypoint : String
  resourcesDir : String
  pathDir : String
  deriving DecidableEq

structure ArtifactFile where
  fileType : String
  mode : Nat
  size : Nat
  contentSha256 : String
  deriving DecidableEq

abbrev ArtifactFiles := List (String × ArtifactFile)

structure CacheMetadata where
  schema : String
  manifest : CodexPackageManifest
  reportedVersion : String
  files : ArtifactFiles
  artifactSetDigest : String
  deriving DecidableEq

structure CachedCodexPackage where
  manifest : CodexPackageManifest
  reportedVersion : String
  artifactSetDigest : String
  deriving DecidableEq

/-- What a package tree has at a path, with the permission bits. -/
inductive Node where
  | directory (mode : Nat)
  | file (content : Bytes) (mode links : Nat)
  | symlink (target : String)
  | special
  deriving DecidableEq

/-- A real directory: its mode, and every entry below it in the order a visit
meets them. -/
structure PackageTree where
  mode : Nat
  entries : List (String × Node)
  deriving DecidableEq

def manifestJson (m : CodexPackageManifest) : Json :=
  .object
    [("layoutVersion", .number (.posInt (UInt64.ofNat m.layoutVersion))),
      ("version", .string m.version), ("target", .string m.targetTriple),
      ("variant", .string m.variant), ("entrypoint", .string m.entrypoint),
      ("resourcesDir", .string m.resourcesDir), ("pathDir", .string m.pathDir)]

def fileJson (f : ArtifactFile) : Json :=
  .object
    [("file_type", .string f.fileType), ("mode", .number (.posInt (UInt64.ofNat f.mode))),
      ("size", .number (.posInt (UInt64.ofNat f.size))),
      ("content_sha256", .string f.contentSha256)]

/-- The path components of a relative path. -/
def components (path : String) : List (List Char) := path.toList.splitOn '/'

def validateRelativePath (path : String) : Result Unit :=
  ensure (path ≠ "" ∧
      (path.toList.all (fun c => Text.isAsciiAlphanumeric c || c = '/' || c = '.' || c = '_' ||
        c = '-')) = true ∧
      path.toList.head? ≠ some '/' ∧
      ∀ part ∈ components path, part ≠ [] ∧ part ≠ ['.'] ∧ part ≠ ['.', '.'])
    ("Codex package path " ++ path.quote ++ " is unsafe")

/-- `join_package_path`; an empty parent is the root of the package. -/
def joinPackagePath (parent child : String) : Result String := do
  let value := if parent = "" then child else parent ++ "/" ++ child
  validateRelativePath value
  pure value

/-- `Path::parent` of a relative path. -/
def parentOf (path : String) : String :=
  String.ofList (['/'].intercalate (components path).dropLast)

structure CodexPackagePaths where
  entrypoint : String
  entrypointDir : String
  codeModeHost : String
  resourcesDir : String
  pathDir : String
  bwrap : String

def packagePaths (manifest : CodexPackageManifest) : Result CodexPackagePaths := do
  let entrypointDir := parentOf manifest.entrypoint
  let codeModeHost ← joinPackagePath entrypointDir "codex-code-mode-host"
  let bwrap ← joinPackagePath manifest.resourcesDir "bwrap"
  pure
    { entrypoint := manifest.entrypoint
      entrypointDir := entrypointDir
      codeModeHost := codeModeHost
      resourcesDir := manifest.resourcesDir
      pathDir := manifest.pathDir
      bwrap := bwrap }

/-- Paths of a `BTreeSet`. -/
def pathSet (paths : List String) : List String := (paths.dedup).insertionSort (· ≤ ·)

def requiredFiles (manifest : CodexPackageManifest) : Result (List String) := do
  let paths ← packagePaths manifest
  let ripgrep ← joinPackagePath paths.pathDir "rg"
  let required := pathSet [paths.entrypoint, paths.codeModeHost, ripgrep, paths.bwrap]
  ensure (required.length = 4)
    "Codex package layout points multiple required files at one path"
  pure required

def allowedFiles (manifest : CodexPackageManifest) : Result (List String) := do
  let files ← requiredFiles manifest
  if manifest.resourcesDir = "codex-resources" then
    pure (pathSet ("codex-resources/zsh/bin/zsh" :: files))
  else pure files

/-- `x86_64` and `aarch64` are other names of `amd64` and `arm64`. -/
def canonicalArchitecture (architecture : List Char) : List Char :=
  if architecture = "x86_64".toList then "amd64".toList
  else if architecture = "aarch64".toList then "arm64".toList
  else architecture

/-- `canonical_platform`: the canonical architecture. -/
def canonicalPlatform (value : String) : Result (List Char) :=
  match components value with
  | [os, architecture] => do
    ensure (os = "linux".toList ∧ architecture ≠ [])
      "Task work platform must use linux/architecture"
    pure (canonicalArchitecture architecture)
  | _ => .error "Task work platform must use linux/architecture"

def validatePlatform (targetTriple : String) (taskPlatform : Option String) : Result Unit := do
  ensure ("-linux-".toList <:+: targetTriple.toList ∨
      Text.startsWith targetTriple "linux-" = true)
    "Codex package target must be a Linux target triple"
  match taskPlatform with
  | none => pure ()
  | some taskPlatform =>
    let expected ← canonicalPlatform taskPlatform
    let target := canonicalArchitecture (targetTriple.toList.takeWhile (· ≠ '-'))
    ensure (target = expected)
      ("Codex package target " ++ targetTriple.quote ++
        " is incompatible with Task work platform " ++ ("linux/" ++ String.ofList expected).quote)

/-- No control character, and not blank. -/
def isPrintable (text : String) : Bool :=
  !Text.isBlank text && !text.toList.any Text.isControl

def validateManifest (manifest : CodexPackageManifest) : Result Unit := do
  ensure (manifest.layoutVersion = 1)
    ("unsupported Codex package layoutVersion " ++ toString manifest.layoutVersion)
  ensure (isPrintable manifest.version = true) "Codex package version is invalid"
  ensure (Text.isBlank manifest.targetTriple = false ∧
      (manifest.targetTriple.toList.all (fun c => Text.isAsciiAlphanumeric c || c = '-' ||
        c = '.' || c = '_')) = true)
    "Codex package target triple is invalid"
  validatePlatform manifest.targetTriple none
  ensure (manifest.variant = "codex") "Codex package variant must be \"codex\""
  ensure (manifest.entrypoint = "bin/codex" ∧ manifest.resourcesDir = "codex-resources" ∧
      manifest.pathDir = "codex-path")
    "Codex package manifest does not use the official standalone layout"
  validateRelativePath manifest.entrypoint
  validateRelativePath manifest.resourcesDir
  validateRelativePath manifest.pathDir
  ensure (manifest.entrypoint ≠ manifestFile ∧ manifest.resourcesDir ≠ manifestFile ∧
      manifest.pathDir ≠ manifestFile)
    "Codex package layout must not point at codex-package.json"
  let required ← requiredFiles manifest
  ensure (required ≠ []) "Codex package layout has no required files"

def validateDigest (value : String) : Result Unit := do
  let _ ← digestHexWith "digest must use sha256"
    "digest must contain exactly 64 hexadecimal characters" value
  pure ()

def digestHex (value : String) : Result (List Char) :=
  digestHexWith "Codex artifact digest must use sha256" "invalid Codex artifact-set digest" value

def validateFileMetadata (manifest : CodexPackageManifest) (files : ArtifactFiles) :
    Result Unit := do
  let allowed ← allowedFiles manifest
  ensure (∀ f ∈ files, f.1 ∈ allowed) "Codex package contains an unapproved artifact path"
  files.forM (fun f => do
    validateRelativePath f.1
    ensure (f.1 ≠ manifestFile ∧ f.2.fileType = "regular")
      ("Codex package artifact " ++ f.1.quote ++ " is not a regular file")
    ensure (f.2.mode = normalizedExecutableMode)
      ("Codex package artifact " ++ f.1.quote ++ " has an invalid normalized mode")
    ensure (f.2.size ≤ maxPackageFileBytes)
      ("Codex package artifact " ++ f.1.quote ++ " exceeds the permitted size")
    context ("invalid digest for package file " ++ f.1.quote) (validateDigest f.2.contentSha256))
  ensure (∃ f ∈ files, f.1 = manifest.entrypoint) "Codex package entrypoint is missing"
  let required ← requiredFiles manifest
  required.forM (fun path => ensure (∃ f ∈ files, f.1 = path)
    ("Codex package is missing required file " ++ path.quote))

section Platform

variable (os : Platform) (parseManifest : Bytes → Result CodexPackageManifest)

def calculateArtifactSetDigest (manifest : CodexPackageManifest) (files : ArtifactFiles) :
    String :=
  os.digest (.object [("manifest", manifestJson manifest),
    ("files", .object (files.map (fun f => (f.1, fileJson f.2))))])

def validateCacheMetadata (metadata : CacheMetadata) : Result Unit := do
  ensure (metadata.schema = cacheMetadataSchema)
    ("unsupported Codex package cache metadata schema " ++ metadata.schema.quote)
  validateManifest metadata.manifest
  ensure (metadata.reportedVersion = "codex-cli " ++ metadata.manifest.version ∧
      isPrintable metadata.reportedVersion = true)
    "Codex package reported version is invalid"
  validateFileMetadata metadata.manifest metadata.files
  ensure (calculateArtifactSetDigest os metadata.manifest metadata.files =
      metadata.artifactSetDigest)
    "Codex package cache artifact-set digest does not match its file hashes"
  validateDigest metadata.artifactSetDigest

/-- A regular file with one link. -/
def regularFile (tree : PackageTree) (path kind : String) : Result (Bytes × Nat) :=
  match tree.entries.lookup path with
  | some (.file content mode links) => do
    ensure (links = 1) (kind ++ " must not be a hard link")
    pure (content, mode)
  | some _ => .error (kind ++ " must be a real regular file")
  | none => .error (kind ++ " is unavailable at " ++ path)

def readManifest (tree : PackageTree) : Result CodexPackageManifest := do
  let (content, _) ← regularFile tree manifestFile "Codex package manifest"
  ensure (content.length ≤ maxManifestBytes) "Codex package manifest exceeds the permitted size"
  context "invalid official codex-package.json" (parseManifest content)

/-- What `collect_files` asks of one entry. -/
def checkEntry (manifest : CodexPackageManifest) (allowConvenienceSymlink : Bool)
    (e : String × Node) : Result Unit := do
  validateRelativePath e.1
  match e.2 with
  | .symlink target =>
    ensure (allowConvenienceSymlink = true ∧ e.1 = "codex" ∧ manifest.entrypoint = "bin/codex")
      "Codex package contains an unapproved symlink"
    context "Codex package convenience symlink target is unsafe" (validateRelativePath target)
    ensure (target = "bin/codex") "Codex package convenience symlink must be codex -> bin/codex"
  | .directory _ => pure ()
  | .file _ _ links => ensure (links = 1) "Codex package contains a hard link"
  | .special => .error "Codex package contains a special file"

def isFile : Node → Bool
  | .file _ _ _ => true
  | _ => false

/-- `collect_files`, with the checks on the names that follow it. -/
def collectFiles (tree : PackageTree) (manifest : CodexPackageManifest)
    (allowConvenienceSymlink : Bool) : Result (List String) := do
  tree.entries.forM (checkEntry manifest allowConvenienceSymlink)
  let files := (tree.entries.filter (fun e => isFile e.2)).map Prod.fst
  let allowed ← allowedFiles manifest
  ensure (∀ path ∈ files, path = manifestFile ∨ path ∈ allowed)
    "Codex package contains an extra file"
  pure files

/-- `normalized_mode`: whether any execute bit is set decides it. -/
def normalizedMode (mode : Nat) : Nat :=
  if mode &&& 73 ≠ 0 then normalizedExecutableMode else normalizedNonexecutableMode

/-- `stream_artifact_file`, with the total it adds to. -/
def streamArtifactFile (tree : PackageTree) (path : String) (totalSize : Nat)
    (requireExecutable : Bool) : Result (ArtifactFile × Nat) := do
  let (content, mode) ← regularFile tree path "Codex package artifact"
  ensure (content.length ≤ maxPackageFileBytes) "Codex package artifact exceeds the permitted size"
  ensure (requireExecutable = true → normalizedMode mode = normalizedExecutableMode)
    "Codex package required file is not executable"
  let totalSize := totalSize + content.length
  ensure (totalSize ≤ maxPackageBytes) "Codex package exceeds the permitted size"
  pure
    ({ fileType := "regular"
       mode := normalizedExecutableMode
       size := content.length
       contentSha256 := "sha256:" ++ os.sha256 content }, totalSize)

def streamArtifactFiles (tree : PackageTree) (requireExecutable : Bool) :
    List String → Nat → Result ArtifactFiles
  | [], _ => .ok []
  | path :: rest, totalSize => do
    let (file, totalSize) ← context ("could not verify Codex package file " ++ path.quote)
      (streamArtifactFile os tree path totalSize requireExecutable)
    let files ← streamArtifactFiles tree requireExecutable rest totalSize
    pure ((path, file) :: files)

/-- `verify_package_tree_inner`. -/
def verifyPackageTree (tree : PackageTree) (manifest : CodexPackageManifest)
    (expectedFiles : Option ArtifactFiles) (allowConvenienceSymlink allowModeDrift : Bool) :
    Result ArtifactFiles := do
  validateManifest manifest
  let actual ← readManifest parseManifest tree
  ensure (actual = manifest) "Codex package manifest changed during verification"
  let (content, mode) ← regularFile tree manifestFile "Codex package manifest"
  let files ← collectFiles tree manifest allowConvenienceSymlink
  let allowed ← allowedFiles manifest
  let present := allowed.filter (fun path => path ∈ files)
  let fileMetadata ← streamArtifactFiles os tree (!allowModeDrift) present content.length
  validateFileMetadata manifest fileMetadata
  ensure (∀ expected ∈ expectedFiles, fileMetadata = expected)
    "Codex package file metadata changed during verification"
  ensure (allowModeDrift = true ∨ mode &&& 73 = 0) "Codex package manifest must not be executable"
  pure fileMetadata

/-- `copy_package_tree`: the manifest printed anew, then the listed files. -/
def copyPackageTree (source : PackageTree) (manifest : CodexPackageManifest)
    (files : ArtifactFiles) : Result PackageTree := do
  let copies ← files.mapM (fun f => do
    let (content, mode) ← regularFile source f.1 "Codex package source file"
    ensure (content.length = f.2.size ∧ normalizedMode mode = f.2.mode)
      "Codex package source file metadata does not match its verified identity"
    ensure ("sha256:" ++ os.sha256 content = f.2.contentSha256)
      "Codex package source file content does not match its verified identity"
    pure (f.1, Node.file content f.2.mode 1))
  pure
    { mode := 448
      entries := (manifestFile, .file (manifestJson manifest).toVec 384 1) :: copies }

/-- The mode an entry of a sealed tree must have. -/
def sealedMode (name : String) : Nat :=
  if name = manifestFile then normalizedNonexecutableMode else normalizedExecutableMode

def sealEntry (e : String × Node) : Result (String × Node) :=
  match e.2 with
  | .directory _ => .ok (e.1, .directory normalizedExecutableMode)
  | .file content _ links => .ok (e.1, .file content (sealedMode e.1) links)
  | .symlink _ => .error "Codex package sealed tree contains a symlink"
  | .special => .error "Codex package sealed tree contains a special file"

/-- `reseal_cached_tree`. -/
def resealCachedTree (tree : PackageTree) : Result PackageTree := do
  let entries ← tree.entries.mapM sealEntry
  pure { mode := normalizedExecutableMode, entries := entries }

/-- `verify_sealed_tree`: the modes are the ones that sealing sets. -/
def verifySealedTree (tree : PackageTree) : Result Unit := do
  ensure (tree.mode = normalizedExecutableMode)
    "Codex package directory is not exactly mode 0555"
  tree.entries.forM (fun e =>
    match e.2 with
    | .directory mode => ensure (mode = normalizedExecutableMode)
        "Codex package directory is not exactly mode 0555"
    | .file _ mode _ => ensure (mode = sealedMode e.1)
        ("Codex package file " ++ e.1.quote ++ " is not sealed with its required mode")
    | .symlink _ => .error "Codex package sealed tree contains a symlink"
    | .special => .error "Codex package sealed tree contains a special file")

def verifyCachedRoot (tree : PackageTree) (metadata : CacheMetadata) :
    Result CachedCodexPackage := do
  validateCacheMetadata os metadata
  let files ← verifyPackageTree os parseManifest tree metadata.manifest (some metadata.files)
    false true
  let artifactSetDigest := calculateArtifactSetDigest os metadata.manifest files
  ensure (artifactSetDigest = metadata.artifactSetDigest)
    "Codex package artifact-set digest does not match cache metadata"
  pure
    { manifest := metadata.manifest
      reportedVersion := metadata.reportedVersion
      artifactSetDigest := artifactSetDigest }

def verifyCachedRootSealed (tree : PackageTree) (metadata : CacheMetadata) :
    Result CachedCodexPackage := do
  let cached ← verifyCachedRoot os parseManifest tree metadata
  verifySealedTree tree
  pure cached

/-- The two cache directories: packages, and metadata files as they parse. -/
structure PackageCache where
  packages : List Char → Option PackageTree
  metadata : List Char → Option (Result CacheMetadata)

/-- `write_metadata_if_absent`: an existing file must hold the same metadata. -/
def writeMetadataIfAbsent (hex : List Char) (metadata : CacheMetadata) (cache : PackageCache) :
    Result PackageCache :=
  match cache.metadata hex with
  | none => .ok { cache with metadata := Function.update cache.metadata hex (some (.ok metadata)) }
  | some existing => do
    let existing ← context "invalid Codex package cache metadata" existing
    ensure (existing = metadata)
      "Codex package cache metadata does not match the verified package"
    pure cache

/-- Verify the tree of a cache entry, seal it and write its metadata. -/
def publishCached (hex : List Char) (tree : PackageTree) (metadata : CacheMetadata)
    (cache : PackageCache) : Result (CachedCodexPackage × PackageCache) := do
  let _ ← verifyCachedRoot os parseManifest tree metadata
  let tree ← resealCachedTree tree
  let cached ← verifyCachedRootSealed os parseManifest tree metadata
  let cache := { cache with packages := Function.update cache.packages hex (some tree) }
  let cache ← writeMetadataIfAbsent hex metadata cache
  pure (cached, cache)

/-- The metadata of a verified package. -/
def cacheMetadata (manifest : CodexPackageManifest) (files : ArtifactFiles) : CacheMetadata :=
  { schema := cacheMetadataSchema
    manifest := manifest
    reportedVersion := "codex-cli " ++ manifest.version
    files := files
    artifactSetDigest := calculateArtifactSetDigest os manifest files }

/-- `prepare_from_path`, on the tree found at the source. -/
def prepareFromPath (source : PackageTree) (taskPlatform : Option String) (cache : PackageCache) :
    Result (CachedCodexPackage × PackageCache) := do
  let manifest ← readManifest parseManifest source
  validateManifest manifest
  validatePlatform manifest.targetTriple taskPlatform
  let files ← context "Codex package source failed verification"
    (verifyPackageTree os parseManifest source manifest none true false)
  let metadata := cacheMetadata os manifest files
  validateCacheMetadata os metadata
  let hex ← digestHex metadata.artifactSetDigest
  match cache.packages hex with
  | some tree => publishCached os parseManifest hex tree metadata cache
  | none =>
    ensure (cache.metadata hex = none)
      "Codex package cache metadata exists without its package"
    let staging ← copyPackageTree os source manifest files
    let _ ← context "staged Codex package failed verification"
      (verifyPackageTree os parseManifest staging manifest (some files) false false)
    let staging ← resealCachedTree staging
    let _ ← context "sealed staged Codex package failed verification"
      (verifyPackageTree os parseManifest staging manifest (some files) false false)
    publishCached os parseManifest hex staging metadata cache

/-- `load_cached`. Resealing is the only write. -/
def loadCached (targetTriple artifactSetDigest : Option String) (version : String)
    (taskPlatform : Option String) (cache : PackageCache) :
    Result (CachedCodexPackage × PackageCache) := do
  let targetTriple ← okOr targetTriple ("legacy native Codex CandidateLock has no package " ++
    "target; regenerate it for containerized Codex")
  let artifactSetDigest ← okOr artifactSetDigest ("legacy native Codex CandidateLock has no " ++
    "package digest; regenerate it for containerized Codex")
  let hex ← digestHex artifactSetDigest
  let tree ← okOr (cache.packages hex) "Codex package cache digest root must be a real directory"
  let metadata ← okOr (cache.metadata hex) ("verified Codex package " ++ artifactSetDigest ++
    " is unavailable; regenerate the CandidateLock")
  let metadata ← context "invalid Codex package cache metadata" metadata
  validateCacheMetadata os metadata
  ensure (metadata.manifest.targetTriple = targetTriple)
    "cached Codex package target does not match CandidateLock"
  ensure (metadata.artifactSetDigest = artifactSetDigest)
    "cached Codex package digest does not match CandidateLock"
  validatePlatform metadata.manifest.targetTriple taskPlatform
  let reported := Text.trim version
  ensure (reported ≠ "") "locked Codex product version is empty"
  ensure (reported = metadata.reportedVersion)
    "locked Codex product version does not match the prepared package"
  let _ ← context "locked Codex package is unavailable or corrupt"
    (verifyCachedRoot os parseManifest tree metadata)
  let tree ← resealCachedTree tree
  let cached ← context "locked Codex package is unavailable, corrupt, or not sealed"
    (verifyCachedRootSealed os parseManifest tree metadata)
  pure (cached, { cache with packages := Function.update cache.packages hex (some tree) })

end Platform

end A3sBench.CodexPackage
