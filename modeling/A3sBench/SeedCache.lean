import A3sBench.Result
import Mathlib

/-!
# The workspace seed cache

`materialize_seed` looks the seed up in a cache shared by all runs, and exports
and publishes it when the cache has no valid entry. A call is cut at its
file-system operations; `stepCall` is one of them, with the fault the operating
system may answer.
-/

namespace A3sBench.SeedCache

/-- What the file system has at a path. A symlink leads to a directory or nowhere. -/
inductive Node (α : Type) where
  | missing
  | directory (inner : α)
  | symlink (target : Option α)
  | other
  deriving DecidableEq

/-- A file inside an entry, read as text. -/
inductive Marker where
  | missing
  | file (bytes : String)
  | other
  deriving DecidableEq

/-- The directory at the cache path: `tree`, `.complete` and whatever else. -/
structure Entry (Tree : Type) where
  tree : Node Tree
  marker : Marker
  others : Bool
  deriving DecidableEq

structure WorkspaceSeed where
  image : String
  sourcePath : String
  platform : Option String
  deriving DecidableEq

variable {Tree : Type}

/-- `is_real_directory`. -/
def isRealDirectory {α : Type} : Node α → Result Bool
  | .missing => .ok false
  | .directory _ => .ok true
  | .symlink _ | .other => .error "workspace seed cache path is not a real directory"

/-- A path used below another component: symlinks are followed. -/
def followed {α : Type} : Node α → Result (Option α)
  | .missing => .ok none
  | .directory inner => .ok (some inner)
  | .symlink target => .ok target
  | .other => .error "Not a directory (os error 20)"

/-- `state_fs::read_optional_regular_file`. -/
def readOptionalRegularFile (marker : Marker) (kind : String) : Result (Option String) :=
  match marker with
  | .missing => .ok none
  | .file bytes => .ok (some bytes)
  | .other => .error (kind ++ " must be a real regular file")

def seedCacheMarker (imageId : String) (seed : WorkspaceSeed) : String :=
  imageId ++ "\n" ++ seed.sourcePath ++ "\n" ++ seed.platform.getD "" ++ "\n"

/-- `valid_seed_cache`, with the tree it points to. -/
def validSeedCache (path : Node (Entry Tree)) (imageId : String) (seed : WorkspaceSeed) :
    Result (Option Tree) := do
  match ← followed path with
  | none => pure none
  | some entry =>
    if ¬ (← isRealDirectory entry.tree) then pure none
    else
      match ← readOptionalRegularFile entry.marker "workspace seed cache marker" with
      | none => pure none
      | some bytes =>
        if bytes ≠ seedCacheMarker imageId seed then pure none
        else followed entry.tree

/-- `std::fs::remove_dir_all`. -/
def removeDirAll (path : Node (Entry Tree)) : Result (Node (Entry Tree)) :=
  match path with
  | .missing => .error "No such file or directory (os error 2)"
  | .directory _ | .symlink _ => .ok .missing
  | .other => .error "Not a directory (os error 20)"

/-- `rename` puts a directory where nothing is, or over an empty directory. -/
def vacant : Node (Entry Tree) → Bool
  | .missing => true
  | .directory entry => entry.tree matches .missing && entry.marker matches .missing && !entry.others
  | .symlink _ | .other => false

/-- `cp -a <cache>/tree/. <destination>/`. -/
def cloneTree (cache : Node (Entry Tree)) : Result Tree := do
  let entry ← okOr (← followed cache) "cp -a failed: No such file or directory"
  okOr (← followed entry.tree) "cp -a failed: No such file or directory"

/-- Where a call stands. -/
inductive Phase (Tree : Type) where
  | inspectImage
  | check
  | probe
  | remove
  | populate
  | publish
  | recheck (error : String)
  | clone
  | returned (result : Result Tree)

/-- What the calls for one seed image have in common. -/
structure SeedImage (Tree : Type) where
  imageId : String
  seed : WorkspaceSeed
  /-- The tree that a complete export of the image yields. -/
  tree : Tree

/-- What a successful `populate_seed_staging` leaves in the staging directory. -/
def SeedImage.entry (image : SeedImage Tree) : Entry Tree :=
  { tree := .directory image.tree
    marker := .file (seedCacheMarker image.imageId image.seed)
    others := false }

def SeedImage.valid (image : SeedImage Tree) (cache : Node (Entry Tree)) : Result (Option Tree) :=
  validSeedCache cache image.imageId image.seed

/-- The rename of the staging directory goes through. -/
def renames (cache : Node (Entry Tree)) (fault : Option String) : Bool :=
  fault.isNone && vacant cache

/-- One file-system step of a call to `materialize_seed`. -/
def stepCall (image : SeedImage Tree) (fault : Option String) (cache : Node (Entry Tree)) :
    Phase Tree → Node (Entry Tree) × Phase Tree
  | .inspectImage =>
    match fault with
    | some error => (cache, .returned (.error error))
    | none => (cache, .check)
  | .check =>
    match fault, image.valid cache with
    | some error, _ | none, .error error => (cache, .returned (.error error))
    | none, .ok (some _) => (cache, .clone)
    | none, .ok none => (cache, .probe)
  | .probe =>
    match fault, isRealDirectory cache with
    | some error, _ | none, .error error => (cache, .returned (.error error))
    | none, .ok true => (cache, .remove)
    | none, .ok false => (cache, .populate)
  | .remove =>
    match fault, removeDirAll cache with
    | some error, _ | none, .error error => (cache, .returned (.error error))
    | none, .ok cache => (cache, .populate)
  | .populate =>
    match fault with
    | some error => (cache, .returned (.error error))
    | none => (cache, .publish)
  | .publish =>
    if renames cache fault then (.directory image.entry, .clone)
    else (cache, .recheck (fault.getD "Directory not empty (os error 39)"))
  | .recheck error =>
    match fault, image.valid cache with
    | some error, _ | none, .error error => (cache, .returned (.error error))
    | none, .ok (some _) => (cache, .clone)
    | none, .ok none =>
      (cache, .returned (.error ("could not publish workspace seed cache: " ++ error)))
  | .clone =>
    match fault with
    | some error => (cache, .returned (.error ("cp -a failed: " ++ error)))
    | none => (cache, .returned (cloneTree cache))
  | .returned result => (cache, .returned result)

/-- The cache path and where each call stands. -/
structure State (Call Tree : Type) where
  cache : Node (Entry Tree)
  phases : Call → Phase Tree

variable {Call : Type} [DecidableEq Call]

/-- The call `a.1` takes its next step, meeting the fault `a.2`. -/
def step (image : SeedImage Tree) (s : State Call Tree) (a : Call × Option String) :
    State Call Tree :=
  let next := stepCall image a.2 s.cache (s.phases a.1)
  { cache := next.1, phases := Function.update s.phases a.1 next.2 }

end A3sBench.SeedCache
