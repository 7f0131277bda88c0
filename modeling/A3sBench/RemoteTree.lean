import A3sBench.PathComponents
import A3sBench.Platform
import A3sBench.Result
import A3sBench.Library.Action
import A3sBench.Library.Base64

/-!
# The trees an os-runtime step exchanges

`capture` reads a directory as the kernel lists it, `replace` writes one into a
file system. A location is a canonical path; which location a path with
symlinks leads to is the kernel's affair, outside the source. Access checks are
left out: the run owns what it reads and writes.
-/

namespace A3sBench.OsRuntime

open Library

/-- A path is the UTF-8 bytes of its string. -/
structure RemoteFile where
  path : Bytes
  data : String
  executable : Bool
  deriving DecidableEq

structure RemoteTree where
  files : List RemoteFile
  deriving DecidableEq

def normalName : Component → Result Bytes
  | .normal value => do
    ensure (isUtf8 value = true) "path is not UTF-8"
    pure value
  | _ => .error "path is not a closed relative path"

def portableRelativePath (path : Bytes) : Result Bytes := do
  let values ← (components path).mapM normalName
  ensure (values ≠ []) "relative path is empty"
  pure ([separator].intercalate values)

def validateRelativePath (value : Bytes) : Result Unit := do
  let _ ← portableRelativePath value
  pure ()

/-- The entries of a directory and of those below it, in `read_dir` order. -/
def captureDirectory (directory : Path) : Directory → Result (List RemoteFile)
  | .empty => pure []
  | .file name data rest => do
    let path ← portableRelativePath (pathBytes (directory ++ [name]))
    let data64 := String.ofList (Base64.encode data.content)
    let files ← captureDirectory directory rest
    pure ({ path := path, data := data64, executable := data.executable } :: files)
  | .directory name inner rest => do
    let inside ← captureDirectory (directory ++ [name]) inner
    let files ← captureDirectory directory rest
    pure (inside ++ files)
  | .symlink _ _ => .error "os-runtime payload contains a symlink"
  | .special _ _ => .error "os-runtime payload contains a special file"

def capture (root : Directory) : Result RemoteTree := do
  let files ← captureDirectory [] root
  pure { files := files.insertionSort (fun left right => left.path ≤ right.path) }

/-! ## The file system `replace` writes to -/

/-- The permission bits of `st_mode`. -/
abbrev Mode := BitVec 12

def Mode.isExecutable (mode : Mode) : Bool := mode &&& 0o111 != 0

inductive Node where
  | directory (mode : Mode)
  | file (content : Bytes) (mode : Mode)
  | symlink (target : Bytes)
  | special (mode : Mode)
  deriving DecidableEq

def Node.isDirectory : Node → Bool
  | .directory _ => true
  | _ => false

def Node.mode : Node → Mode
  | .directory mode => mode
  | .file _ mode => mode
  | .symlink _ => 0o777
  | .special mode => mode

def Node.withMode (mode : Mode) : Node → Node
  | .directory _ => .directory mode
  | .file content _ => .file content mode
  | .symlink target => .symlink target
  | .special _ => .special mode

abbrev FileSystem := Path → Option Node

def FileSystem.IsLink (fs : FileSystem) (path : Path) : Prop :=
  ∃ target, fs path = some (.symlink target)

def FileSystem.put (fs : FileSystem) (path : Path) (node : Node) : FileSystem :=
  Function.update fs path (some node)

/-- What the process is given from outside. -/
structure Kernel where
  umask : Mode
  /-- The location a path leads to, every symlink followed. -/
  follow : FileSystem → Path → Result Path
  /-- `Path::display`. -/
  display : Path → String
  /-- The rendering of a `base64::DecodeError`. -/
  decodeError : String → String
  follow_of_no_link : ∀ fs path, (∀ q, q <+: path → ¬ FileSystem.IsLink fs q) →
    follow fs path = .ok path

abbrev FsAction := Action FileSystem String

namespace Kernel

variable (kernel : Kernel)

/-- A system call on the location a path leads to. -/
def call {α : Type} (path : Path) (operation : Path → FileSystem → FileSystem × Result α) :
    FsAction α := fun fs =>
  match kernel.follow fs path with
  | .ok location => operation location fs
  | .error e => (fs, .error e)

/-- One level of `create_dir_all`: what stands there already must be a directory. -/
def makeDirectory (path : Path) : FsAction Unit :=
  kernel.call path fun location fs =>
    match fs location with
    | none => (fs.put location (.directory (0o777 &&& ~~~kernel.umask)), .ok ())
    | some (.directory _) => (fs, .ok ())
    | some _ => (fs, .error "File exists (os error 17)")

/-- `std::fs::create_dir_all`, the ancestors first. -/
def createDirAll (ancestor : Path) : Path → FsAction Unit
  | [] => kernel.makeDirectory ancestor
  | name :: rest => do
    kernel.makeDirectory ancestor
    createDirAll (ancestor ++ [name]) rest

def metadata (path : Path) : FsAction Node :=
  kernel.call path fun location fs =>
    (fs, okOr (fs location) "No such file or directory (os error 2)")

/-- The last component is not followed. -/
def symlinkMetadata (path : Path) : FsAction Node :=
  kernel.call path.dropLast fun parent fs =>
    (fs, okOr (fs (parent ++ path.getLast?.toList)) "No such file or directory (os error 2)")

def setPermissions (path : Path) (mode : Mode) : FsAction Unit :=
  kernel.call path fun location fs =>
    match fs location with
    | some node => (fs.put location (node.withMode mode), .ok ())
    | none => (fs, .error "No such file or directory (os error 2)")

/-- `std::fs::write`: an existing file keeps its mode, a device takes the bytes. -/
def write (path : Path) (bytes : Bytes) : FsAction Unit :=
  kernel.call path fun location fs =>
    match fs location with
    | some (.file _ mode) => (fs.put location (.file bytes mode), .ok ())
    | some (.directory _) => (fs, .error "Is a directory (os error 21)")
    | some _ => (fs, .ok ())
    | none =>
      match fs location.dropLast with
      | some (.directory _) =>
        (fs.put location (.file bytes (0o666 &&& ~~~kernel.umask)), .ok ())
      | _ => (fs, .error "No such file or directory (os error 2)")

def secureDirectory (path : Path) : FsAction Unit := do
  kernel.createDirAll [] path
  let metadata ← kernel.symlinkMetadata path
  Action.lift (ensure (metadata.isDirectory = true)
    ("Bench state directory must not be a symlink: " ++ kernel.display path))
  kernel.setPermissions path 0o700

/-- The modes `set_owner_only_file` chooses from. -/
def ownerOnlyMode (readOnly executable : Bool) : Mode :=
  match readOnly, executable with
  | true, true => 0o500
  | true, false => 0o400
  | false, true => 0o700
  | false, false => 0o600

def setOwnerOnlyFile (path : Path) (readOnly : Bool) : FsAction Unit := do
  let metadata ← kernel.metadata path
  kernel.setPermissions path (ownerOnlyMode readOnly metadata.mode.isExecutable)

/-- What stands at the root goes, directories with all they hold. -/
def clear (root : Path) : FsAction Unit := fun fs =>
  match kernel.follow fs root with
  | .error _ => (fs, .ok ())
  | .ok location =>
    match fs location with
    | none => (fs, .ok ())
    | some (.directory _) =>
      ((fun q => if location <+: q ∧ q ≠ location then none else fs q), .ok ())
    | some _ => (fs, .error "Not a directory (os error 20)")

end Kernel

def rootComponents (root : Path) : List Component :=
  .rootDir :: root.map (fun name => .normal name.val)

/-- `Path::join`: an absolute path replaces the root. -/
def join (root : Path) (path : Bytes) : List Component :=
  if path.head? = some separator then components path
  else rootComponents root ++ (components path).filter (fun c => c ≠ .curDir)

/-- No system call takes a name with a NUL. -/
def enterComponent (path : Path) : Component → Result Path
  | .rootDir => .ok []
  | .curDir => .ok path
  | .parentDir => .ok path.dropLast
  | .normal name =>
    if h : name ≠ [] ∧ 0 ∉ name ∧ separator ∉ name then .ok (path ++ [⟨name, h⟩])
    else .error "file name contained an unexpected NUL byte"

/-- The path the system calls are given. -/
def systemPath (path : List Component) : Result Path := path.foldlM enterComponent []

variable (kernel : Kernel)

/-- One round of the loop of `replace`. -/
def replaceFile (root : Path) (file : RemoteFile) : FsAction Unit := do
  Action.lift (validateRelativePath file.path)
  let target := join root file.path
  Action.lift (ensure (rootComponents root <+: target) "remote file escapes workspace")
  let parent ← Action.lift (systemPath target.dropLast)
  kernel.secureDirectory parent
  let bytes ← Action.lift (context "os-runtime returned invalid base64 file data"
    (okOr (Base64.decode file.data.toList) (kernel.decodeError file.data)))
  let target ← Action.lift (systemPath target)
  kernel.write target bytes
  -- the flag of the file stands where `set_owner_only_file` takes `read_only`
  kernel.setOwnerOnlyFile target file.executable

def replace (tree : RemoteTree) (root : Path) : FsAction Unit := do
  kernel.clear root
  kernel.secureDirectory root
  tree.files.forM (replaceFile kernel root)

end A3sBench.OsRuntime
