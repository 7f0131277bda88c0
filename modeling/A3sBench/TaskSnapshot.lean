import A3sBench.Digest
import A3sBench.Library.Fields
import A3sBench.Platform

/-!
# Task snapshots

`collect` lists the regular files of a tree it can represent, `tree_digest`
hashes them in `PathBuf` order, and `verify` compares the digest of an artifact
directory with the one it was published under.
-/

namespace A3sBench.TaskSnapshot

open Library

/-- The two accumulators of the visit. -/
structure Visit where
  output : List Path
  seenCase : List Bytes
  deriving DecidableEq

def dot : Bytes := [46]

def dotDot : Bytes := [46, 46]

/-- The checks `collect` makes on one entry, before it descends. -/
def enter (os : Platform) (path : Path) (kind : EntryKind) (acc : Visit) : Result Visit := do
  ensure (kind ≠ .symlink) "snapshot source contains a symlink"
  let normalized := pathBytes path
  ensure (isUtf8 normalized = true) "snapshot path is not UTF-8"
  ensure (normalized ≠ [] ∧
      ∀ part ∈ normalized.splitOn separator, part ≠ [] ∧ part ≠ dot ∧ part ≠ dotDot)
    "snapshot source contains an unsafe path"
  ensure (os.toLowercase normalized ∉ acc.seenCase) "snapshot source contains case-colliding paths"
  let acc := { acc with seenCase := os.toLowercase normalized :: acc.seenCase }
  match kind with
  | .directory => pure acc
  | .file data =>
    ensure (data.links = 1) "snapshot source contains a hard link"
    pure { acc with output := acc.output ++ [path] }
  | .symlink | .special => .error "snapshot source contains a special file"

/-- The recursive visit of `collect`, below `relative`. -/
def visit (os : Platform) (relative : Path) : Directory → Visit → Result Visit
  | .empty, acc => .ok acc
  | .file name data rest, acc => do
    let acc ← enter os (relative ++ [name]) (.file data) acc
    visit os relative rest acc
  | .directory name inner rest, acc => do
    let acc ← enter os (relative ++ [name]) .directory acc
    let acc ← visit os (relative ++ [name]) inner acc
    visit os relative rest acc
  | .symlink name rest, acc => do
    let acc ← enter os (relative ++ [name]) .symlink acc
    visit os relative rest acc
  | .special name rest, acc => do
    let acc ← enter os (relative ++ [name]) .special acc
    visit os relative rest acc

/-- `task_snapshot::collect`. -/
def collect (os : Platform) (root : Directory) : Result (List Path) := do
  let acc ← visit os [] root { output := [], seenCase := [] }
  pure (acc.output.insertionSort (· ≤ ·))

/-- `u8::from(bool)`. -/
def bit : Bool → Byte
  | false => 0
  | true => 1

/-- The fields the hasher is fed for one file. -/
def fieldsOf (name : Bytes) (executable : Bool) (content : Bytes) : FieldRecord Byte :=
  { key := name, tag := bit executable, body := content }

/-- The bytes fed to the hasher by `tree_digest`, each file read anew. -/
def treeStream (os : Platform) (root : Directory) : List Path → Result Bytes
  | [] => .ok []
  | relative :: rest => do
    let (executable, content) ← okOr (root.fileAt relative) "No such file or directory (os error 2)"
    let stream ← treeStream os root rest
    pure (FieldRecord.encode 0
      [fieldsOf (os.toStringLossy (pathBytes relative)) executable content] ++ stream)

/-- `task_snapshot::tree_digest`. -/
def treeDigest (os : Platform) (root : Directory) (files : List Path) : Result String := do
  let stream ← treeStream os root files
  pure ("sha256:" ++ os.sha256 stream)

/-- `task_snapshot::verify`, on the directory found at the artifact path. -/
def verify (os : Platform) (artifact : Option Directory) (expected : String) : Result Unit := do
  let path ← okOr artifact "artifact directory is missing"
  let files ← collect os path
  let actual ← treeDigest os path files
  ensure (actual = expected) "artifact tree digest mismatch"

/-- The bytes hashed for a tree, when `collect` accepts it. -/
def snapshotStream (os : Platform) (root : Directory) : Result Bytes := do
  let files ← collect os root
  treeStream os root files

theorem verify_of_snapshotStream {os : Platform} {root : Directory} {stream : Bytes}
    (h : snapshotStream os root = .ok stream) :
    verify os (some root) ("sha256:" ++ os.sha256 stream) = .ok () := by
  obtain ⟨files, hfiles, hstream⟩ := Result.bind_ok_iff.mp h
  simp only [verify, Result.bind_ok_iff, Result.okOr_ok_iff, Result.ensure_ok_iff, treeDigest]
  exact ⟨root, rfl, files, hfiles, _, ⟨stream, hstream, rfl⟩, rfl⟩

end A3sBench.TaskSnapshot
