import A3sBench.AtomicWrite
import A3sBench.Library.PathTree
import A3sBench.Library.Runs
import A3sBench.Platform

/-!
# Private Codex homes

`stage_from_source` sweeps the homes of one directory and then makes one of its
own, system call by system call; `PrivateCodexHome::cleanup` removes one. Any
number of both go on at once, from any number of processes.
-/

namespace A3sBench.CodexHomes

open Library Library.System

/-! ## One home -/

/-- What is in a home, at paths below it. -/
abbrev Dir := PathTree String Bytes

def ownerMarker : String := ".a3s-bench-codex-home"

def ownerMarkerContent : Bytes := utf8 "a3s-bench/codex-home/v1\n"

def homePrefix : String := "a3s-codex-home-"

/-- `STALE_HOME_AGE`, in seconds. -/
def staleHomeAge : Nat := 24 * 60 * 60

/-- `format!("{HOME_PREFIX}{pid}-{sequence}")` -/
def homeName (pid : UInt32) (sequence : Nat) : String :=
  homePrefix ++ toString pid.toNat ++ "-" ++ toString sequence

/-- The prefix and something after it. -/
def isHomeName (name : String) : Bool :=
  homePrefix.toList.isPrefixOf name.toList && name ≠ homePrefix

/-- An entry of the directory of homes. -/
structure Home where
  /-- The inode, which is another one for every entry that is made. -/
  id : Nat
  owner : Nat
  modified : Nat
  /-- None for anything but a directory. -/
  tree : Option Dir

/-- What a system call that makes a home gives it. -/
structure Stamp where
  id : Nat
  owner : Nat
  now : Nat

def newHome (stamp : Stamp) : Home :=
  { id := stamp.id, owner := stamp.owner, modified := stamp.now, tree := some .empty }

/-- The time of a directory changes with the names in it. -/
def Home.put (home : Home) (before after : Dir) (now : Nat) : Home :=
  { home with
    tree := some after
    modified := if after.children [] = before.children [] then home.modified else now }

/-- What a path leads to, from the directory of homes through one of its names. -/
def lookup (slot : Option Home) (path : List String) : Option (Content Bytes) :=
  slot.bind fun home =>
    match path, home.tree with
    | [], none => some .other
    | [], some _ => some .dir
    | _ :: _, tree => tree.bind fun t => t.find path

/-- A system call below a home. -/
def below (call : Dir → Except Errno Dir) (now : Nat) : Option Home → Except Errno (Option Home)
  | none => .error .notFound
  | some home =>
    match home.tree with
    | none => .error .refused
    | some t => (call t).map fun after => some (home.put t after now)

inductive Syscall where
  | makeDirs (path : List String)
  | stat (path : List String)
  | chmod (path : List String)
  | sync (path : List String)
  | create (path : List String) (content : Content Bytes)
  | rename (path path' : List String)

def Syscall.onTree : Syscall → Dir → Except Errno Dir
  | .makeDirs path, t => t.makeDirs path
  | .stat path, t =>
    if t.IsDir path then .ok t
    else .error (if t.find path = none then .notFound else .refused)
  | .chmod path, t => if path = [] ∨ t.find path ≠ none then .ok t else .error .notFound
  | .sync path, t => if path = [] ∨ t.find path ≠ none then .ok t else .error .notFound
  | .create path content, t => t.create path content
  | .rename path path', t => t.rename path path'

/-- `create_dir_all` makes the home too where it is not there. -/
def Syscall.run (stamp : Stamp) : Syscall → Option Home → Except Errno (Option Home)
  | .makeDirs path, none => below (·.makeDirs path) stamp.now (some (newHome stamp))
  | call, slot => below call.onTree stamp.now slot

/-- `secure_directory` -/
def secureDirectory (path : List String) : List Syscall := [.makeDirs path, .stat path, .chmod path]

/-- What `stage_from_source` does once the new marker is in a temporary file: the end of
`secure_atomic_write`, the `.codex` directory and `create_auth_copy`. -/
def fill (temporary : String) (auth : Bytes) : List Syscall :=
  [.rename [temporary] [ownerMarker], .sync [], .create [".codex"] .dir] ++
    secureDirectory [".codex"] ++
    [.create [".codex", "auth.json"] (.file auth), .chmod [".codex", "auth.json"]]

/-! ## `remove_tree` -/

/-- Where `inner` is in a directory: before its `set_permissions`, before its `read_dir`, or in the
loop over the entries. -/
inductive Frame where
  | enter (dir : List String)
  | opened (dir : List String)
  | entries (dir : List String) (rest : List (String × Bool))

def readDir (dir : List String) (slot : Option Home) : Except Errno (List (String × Bool)) :=
  match lookup slot dir with
  | none => .error .notFound
  | some .dir => .ok ((slot.bind Home.tree).elim [] fun t => t.children dir)
  | some _ => .error .refused

/-- `remove_dir`, of the home itself at the empty path. -/
def removeDir (dir : List String) (now : Nat) (slot : Option Home) : Except Errno (Option Home) :=
  match dir with
  | [] =>
    match readDir [] slot with
    | .error errno => .error errno
    | .ok [] => .ok none
    | .ok (_ :: _) => .error .notEmpty
  | _ :: _ => below (·.rmdir dir) now slot

/-- Whatever is gone already ends the removal well. -/
def unlessGone (slot : Option Home) : Errno → Except Errno (Option Home × List Frame)
  | .notFound => .ok (slot, [])
  | errno => .error errno

/-- The next system call of the removal, which is over when no frame is left. -/
def removeStep (now : Nat) (slot : Option Home) :
    List Frame → Except Errno (Option Home × List Frame)
  | [] => .ok (slot, [])
  | .enter dir :: frames =>
    match lookup slot dir with
    | none => unlessGone slot .notFound
    | some _ => .ok (slot, .opened dir :: frames)
  | .opened dir :: frames =>
    match readDir dir slot with
    | .error errno => unlessGone slot errno
    | .ok names => .ok (slot, .entries dir names :: frames)
  | .entries dir ((name, true) :: rest) :: frames =>
    .ok (slot, .enter (dir ++ [name]) :: .entries dir rest :: frames)
  | .entries dir ((name, false) :: rest) :: frames =>
    match below (·.unlink (dir ++ [name])) now slot with
    | .error errno => unlessGone slot errno
    | .ok slot => .ok (slot, .entries dir rest :: frames)
  | .entries dir [] :: frames =>
    match removeDir dir now slot with
    | .error errno => unlessGone slot errno
    | .ok slot => .ok (slot, frames)

/-! ## Calls -/

/-- What `symlink_metadata` said about a home. -/
structure Seen where
  id : Nat
  modified : Nat

/-- On whose behalf a home is examined and removed: a sweep that saw it, or the cleanup of the home
that was staged as this inode. -/
inductive Purpose where
  | sweep (seen : Seen)
  | cleanup (id : Nat)

/-- Where a call stands, by the system call it makes next. -/
inductive Phase where
  /-- `cleanup_stale_homes_at`: the next entry of the directory. -/
  | entry
  | metadata (name : String)
  /-- `owned_home`: `symlink_metadata` of the home, of its marker, and the read of the marker. -/
  | owned (purpose : Purpose) (name : String)
  | marker (purpose : Purpose) (name : String)
  | read (purpose : Purpose) (name : String)
  | remove (purpose : Purpose) (name : String) (frames : List Frame)
  /-- `create_home`, after so many names that were taken: the next number, and the directory. -/
  | allocate (tries : Nat)
  | make (tries : Nat) (name : String)
  /-- `secure_directory` on the new home, a second time in `secure_atomic_write`, where a failure
  takes the home away. -/
  | secure (unwinds : Bool) (name : String) (id : Nat) (rest : List Syscall)
  | temporary (name : String) (id : Nat) (tries : Nat)
  | fill (name : String) (id : Nat) (rest : List Syscall)
  | unwind (errno : Errno) (name : String) (id : Nat) (frames : List Frame)
  /-- `stage_from_source` has returned. -/
  | done (result : Except Errno Unit)
  /-- `PrivateCodexHome::cleanup` has returned. -/
  | cleaned (result : Except Errno Unit)

structure Call where
  pid : UInt32
  auth : Bytes
  /-- When the sweep began. -/
  now : Nat
  phase : Phase

/-- A home that a call returned and that is not cleaned up. -/
structure Live where
  pid : UInt32
  name : String
  id : Nat
  deriving DecidableEq

structure World where
  /-- The owner of the directory of homes. -/
  owner : Nat
  clock : Nat
  /-- The next inode. -/
  next : Nat
  homes : String → Option Home
  /-- `HOME_SEQUENCE` of every running process. -/
  running : UInt32 → Option Nat
  calls : Nat → Option Call
  live : List Live

/-- What a step finds that is not in the state: the entry that the directory stream yields, and the
number that `STAGING_SEQUENCE` is at. -/
structure Choice where
  entry : Option String
  number : UInt64

inductive Event where
  | start (pid : UInt32)
  | exit (pid : UInt32)
  | tick (clock : Nat)
  | stage (i : Nat) (pid : UInt32) (auth : Bytes)
  | cleanup (i : Nat) (home : Live)
  | advance (i : Nat) (choice : Choice)

def World.stamp (w : World) : Stamp := { id := w.next, owner := w.owner, now := w.clock }

def World.become (w : World) (i : Nat) (c : Call) (phase : Phase) : World :=
  { w with
    next := w.next + 1
    calls := Function.update w.calls i (some { c with phase := phase }) }

def World.setHome (w : World) (name : String) (slot : Option Home) : World :=
  { w with homes := Function.update w.homes name slot }

/-- The home is none of ours, or it is removed. -/
def Purpose.after : Purpose → Phase
  | .sweep _ => .entry
  | .cleanup _ => .cleaned (.ok ())

/-- A sweep passes every failure on, a cleanup all but that the home is gone. -/
def Purpose.fail : Purpose → Errno → Phase
  | .sweep _, errno => .done (.error errno)
  | .cleanup _, .notFound => .cleaned (.ok ())
  | .cleanup _, errno => .cleaned (.error errno)

/-- `age > max_age`, for a sweep -/
def Purpose.removes (purpose : Purpose) (now : Nat) : Bool :=
  match purpose with
  | .sweep seen => staleHomeAge < now - seen.modified
  | .cleanup _ => true

def maxTries : Nat := 32

/-- One step of a call. -/
def World.advance (w : World) (i : Nat) (c : Call) (choice : Choice) : World :=
  match c.phase with
  | .entry =>
    match choice.entry with
    -- the authentication is read and its secrets are taken out, on nothing that is shared
    | none => w.become i c (.allocate 0)
    | some name => w.become i c (if isHomeName name then .metadata name else .entry)
  | .metadata name =>
    match w.homes name with
    | none => w.become i c .entry
    | some home =>
      w.become i c
        (if home.tree.isSome then .owned (.sweep { id := home.id, modified := home.modified }) name
        else .entry)
  | .owned purpose name =>
    match w.homes name with
    | none => w.become i c (purpose.fail .notFound)
    | some home =>
      w.become i c
        (if home.tree.isSome ∧ home.owner = w.owner then .marker purpose name else purpose.after)
  | .marker purpose name =>
    match lookup (w.homes name) [ownerMarker] with
    | none => w.become i c purpose.after
    | some (.file _) => w.become i c (.read purpose name)
    | some _ => w.become i c (purpose.fail .refused)
  | .read purpose name =>
    match lookup (w.homes name) [ownerMarker] with
    | none => w.become i c (purpose.fail .notFound)
    | some (.file bytes) =>
      w.become i c
        (if bytes = ownerMarkerContent ∧ purpose.removes c.now then
          .remove purpose name [.enter []]
        else purpose.after)
    | some _ => w.become i c (purpose.fail .refused)
  | .remove purpose name frames =>
    match removeStep w.clock (w.homes name) frames with
    | .error errno => w.become i c (purpose.fail errno)
    | .ok (slot, []) => (w.setHome name slot).become i c purpose.after
    | .ok (slot, frame :: frames) =>
      (w.setHome name slot).become i c (.remove purpose name (frame :: frames))
  | .allocate tries =>
    match w.running c.pid with
    | none => w
    | some sequence =>
      if tries = maxTries then w.become i c (.done (.error .alreadyExists))
      else
        { w with running := Function.update w.running c.pid (some (sequence + 1)) }.become i c
          (.make tries (homeName c.pid (sequence % 2 ^ 64)))
  | .make tries name =>
    match w.homes name with
    | some _ => w.become i c (.allocate (tries + 1))
    | none =>
      (w.setHome name (some (newHome w.stamp))).become i c
        (.secure false name w.next (secureDirectory []))
  | .secure unwinds name id [] =>
    w.become i c
      (if unwinds then .temporary name id 0 else .secure true name id (secureDirectory []))
  | .secure unwinds name id (call :: rest) =>
    match call.run w.stamp (w.homes name) with
    | .error errno =>
      w.become i c
        (if unwinds then .unwind errno name id [.enter []] else .done (.error errno))
    | .ok slot => (w.setHome name slot).become i c (.secure unwinds name id rest)
  | .temporary name id tries =>
    let temporary := StateFs.temporaryName ownerMarker c.pid choice.number
    match (Syscall.create [temporary] (.file ownerMarkerContent)).run w.stamp (w.homes name) with
    | .ok slot => (w.setHome name slot).become i c (.fill name id (fill temporary c.auth))
    | .error errno =>
      w.become i c
        (if errno = .alreadyExists ∧ tries + 1 < maxTries then .temporary name id (tries + 1)
        else .unwind errno name id [.enter []])
  | .fill name id [] =>
    { w with live := { pid := c.pid, name := name, id := id } :: w.live }.become i c
      (.done (.ok ()))
  | .fill name id (call :: rest) =>
    match call.run w.stamp (w.homes name) with
    | .error errno => w.become i c (.unwind errno name id [.enter []])
    | .ok slot => (w.setHome name slot).become i c (.fill name id rest)
  | .unwind errno name id frames =>
    match removeStep w.clock (w.homes name) frames with
    | .error _ => w.become i c (.done (.error errno))
    | .ok (slot, []) => (w.setHome name slot).become i c (.done (.error errno))
    | .ok (slot, frame :: frames) =>
      (w.setHome name slot).become i c (.unwind errno name id (frame :: frames))
  | .done result => w.become i c (.done result)
  | .cleaned result => w.become i c (.cleaned result)

/-- An exit takes the calls and the homes of its process along, but not their files. -/
def World.exit (w : World) (pid : UInt32) : World :=
  { w with
    running := Function.update w.running pid none
    calls := fun i => (w.calls i).filter fun c => c.pid ≠ pid
    live := w.live.filter fun home => home.pid ≠ pid }

def World.step (w : World) : Event → Option World
  | .start pid =>
    if w.running pid = none then some { w with running := Function.update w.running pid (some 0) }
    else none
  | .exit pid => some (w.exit pid)
  | .tick clock => some { w with clock := clock }
  | .stage i pid auth =>
    if (w.calls i).isNone ∧ (w.running pid).isSome then
      some (w.become i { pid := pid, auth := auth, now := w.clock, phase := .entry } .entry)
    else none
  | .cleanup i home =>
    if (w.calls i).isNone ∧ home ∈ w.live then
      some ({ w with live := w.live.erase home }.become i
        { pid := home.pid, auth := [], now := w.clock, phase := .owned (.cleanup home.id) home.name }
        (.owned (.cleanup home.id) home.name))
    else none
  | .advance i choice => (w.calls i).map fun c => w.advance i c choice

/-- A marker is a file wherever there is one. -/
def MarkersAreFiles (homes : String → Option Home) : Prop :=
  ∀ name content, lookup (homes name) [ownerMarker] = some content → ∃ bytes, content = .file bytes

/-- Homes and other entries of earlier processes, and no process yet. -/
structure World.Initial (w : World) : Prop where
  fresh : ∀ name home, w.homes name = some home → home.id < w.next
  markers : MarkersAreFiles w.homes
  running : ∀ pid, w.running pid = none
  calls : ∀ i, w.calls i = none
  live : w.live = []

def homeSystem : System World Event where
  init := World.Initial
  step w e w' := w.step e = some w'

end A3sBench.CodexHomes
