import Mathlib

/-!
# Directory trees as `read_dir` shows them

A directory is the sequence of its entries in the order the file system returns
them, which the source never relies on. A path is the list of its components;
`walk` is the order in which every recursive visit of the source meets the
entries of a tree.
-/

namespace A3sBench

instance neZeroByte : NeZero 256 := ⟨by decide⟩

abbrev Byte := Fin 256

instance lawfulBEqByte : LawfulBEq Byte := inferInstance

abbrev Bytes := List Byte

/-- `std::path::MAIN_SEPARATOR` on Unix. -/
def separator : Byte := 47

/-- The name of a directory entry; the kernel admits no other. -/
abbrev FileName := {b : Bytes // b ≠ [] ∧ 0 ∉ b ∧ separator ∉ b}

abbrev Path := List FileName

/-- A relative path as the operating system spells it. -/
def pathBytes (path : Path) : Bytes := [separator].intercalate (path.map Subtype.val)

structure FileData where
  content : Bytes
  executable : Bool
  links : Nat
  deriving DecidableEq

/-- Entries in `read_dir` order. -/
inductive Directory where
  | empty
  | file (name : FileName) (data : FileData) (rest : Directory)
  | directory (name : FileName) (inner : Directory) (rest : Directory)
  | symlink (name : FileName) (rest : Directory)
  | special (name : FileName) (rest : Directory)
  deriving DecidableEq

inductive EntryKind where
  | file (data : FileData)
  | directory
  | symlink
  | special
  deriving DecidableEq

namespace Directory

/-- Every entry below a directory, a subdirectory before its own entries. -/
def walk : Directory → List (Path × EntryKind)
  | .empty => []
  | .file name data rest => ([name], .file data) :: walk rest
  | .directory name inner rest =>
    ([name], .directory) :: ((walk inner).map (fun e => (name :: e.1, e.2)) ++ walk rest)
  | .symlink name rest => ([name], .symlink) :: walk rest
  | .special name rest => ([name], .special) :: walk rest

/-- No two entries have the same path. File systems guarantee it. -/
def Distinct (d : Directory) : Prop := (d.walk.map Prod.fst).Nodup

end Directory

/-- A regular file with everything a snapshot keeps of it. -/
structure FileRecord where
  path : Path
  executable : Bool
  content : Bytes
  deriving DecidableEq

/-- What a visit records of an entry: something for regular files only. -/
def fileRecord (e : Path × EntryKind) : Option FileRecord :=
  match e.2 with
  | .file data => some { path := e.1, executable := data.executable, content := data.content }
  | _ => none

namespace Directory

def records (d : Directory) : List FileRecord := d.walk.filterMap fileRecord

/-- The regular files in `PathBuf` order. -/
def snapshot (d : Directory) : List FileRecord :=
  d.records.insertionSort (fun a b => a.path ≤ b.path)

/-- Opening a path: the mode bit and the bytes of the regular file there. -/
def fileAt (d : Directory) (path : Path) : Option (Bool × Bytes) :=
  (d.records.find? (fun r => r.path = path)).map (fun r => (r.executable, r.content))

/-- The same regular files, path by path. -/
def SameFiles (d d' : Directory) : Prop := ∀ path, d.fileAt path = d'.fileAt path

end Directory

theorem pathBytes_ne_nil {path : Path} (h : path ≠ []) : pathBytes path ≠ [] := by
  cases path with
  | nil => exact absurd rfl h
  | cons name rest =>
    cases rest with
    | nil => simpa [pathBytes, List.intercalate] using name.2.1
    | cons other rest => simp [pathBytes, List.intercalate, name.2.1]

theorem nul_not_mem_pathBytes (path : Path) : 0 ∉ pathBytes path := by
  induction path with
  | nil => simp [pathBytes, List.intercalate]
  | cons name rest ih =>
    cases rest with
    | nil => simpa [pathBytes, List.intercalate] using name.2.2.1
    | cons other rest =>
      have hsep : (0 : Byte) ≠ separator := by decide
      simp only [pathBytes, List.intercalate, List.map_cons, List.intersperse_cons_cons,
        List.flatten_cons, List.mem_append, List.mem_singleton, not_or] at ih ⊢
      exact ⟨name.2.2.1, hsep, ih⟩

theorem splitOn_pathBytes {path : Path} (h : path ≠ []) :
    (pathBytes path).splitOn separator = path.map Subtype.val := by
  apply List.splitOn_intercalate
  · intro name hname
    obtain ⟨n, _, rfl⟩ := List.mem_map.mp hname
    exact n.2.2.2
  · exact fun hnil => h (List.map_eq_nil_iff.mp hnil)

theorem pathBytes_injective {p q : Path} (hp : p ≠ []) (hq : q ≠ [])
    (h : pathBytes p = pathBytes q) : p = q := by
  have hmap : p.map Subtype.val = q.map Subtype.val := by
    rw [← splitOn_pathBytes hp, ← splitOn_pathBytes hq, h]
  exact (List.map_injective_iff.mpr Subtype.val_injective) hmap

namespace Directory

theorem walk_path_ne_nil (d : Directory) : ∀ e ∈ d.walk, e.1 ≠ [] := by
  induction d with
  | empty => simp [walk]
  | file name data rest ih => simpa [walk] using ih
  | directory name inner rest _ ih =>
    intro e he
    simp only [walk, List.mem_cons, List.mem_append, List.mem_map] at he
    rcases he with rfl | ⟨_, _, rfl⟩ | he
    · simp
    · simp
    · exact ih e he
  | symlink name rest ih => simpa [walk] using ih
  | special name rest ih => simpa [walk] using ih

theorem mem_records {d : Directory} {r : FileRecord} :
    r ∈ d.records ↔ ∃ data, (r.path, .file data) ∈ d.walk ∧
      r.executable = data.executable ∧ r.content = data.content := by
  simp only [records, List.mem_filterMap]
  constructor
  · rintro ⟨⟨path, kind⟩, he, hr⟩
    cases kind with
    | file data =>
      cases hr
      exact ⟨data, he, rfl, rfl⟩
    | directory | symlink | special => cases hr
  · rintro ⟨data, he, hexec, hcontent⟩
    refine ⟨_, he, ?_⟩
    cases r
    simp_all [fileRecord]

/-- A visit keeps the order of the walk. -/
theorem filterMap_fileRecord_sublist (l : List (Path × EntryKind)) :
    ((l.filterMap fileRecord).map FileRecord.path).Sublist (l.map Prod.fst) := by
  induction l with
  | nil => exact .slnil
  | cons e l ih =>
    obtain ⟨path, kind⟩ := e
    cases kind with
    | file data => simpa [fileRecord] using ih.cons_cons path
    | directory | symlink | special => exact ih.cons path

theorem Distinct.records_nodup {d : Directory} (h : d.Distinct) :
    (d.records.map FileRecord.path).Nodup :=
  (filterMap_fileRecord_sublist d.walk).nodup h

theorem snapshot_perm (d : Directory) : d.snapshot.Perm d.records :=
  List.perm_insertionSort _ _

theorem mem_snapshot {d : Directory} {r : FileRecord} : r ∈ d.snapshot ↔ r ∈ d.records :=
  d.snapshot_perm.mem_iff

theorem snapshot_sorted (d : Directory) :
    d.snapshot.Pairwise (fun a b => a.path ≤ b.path) := by
  have : IsTrans FileRecord (fun a b => a.path ≤ b.path) := ⟨fun _ _ _ => le_trans⟩
  have : Std.Total (fun a b : FileRecord => a.path ≤ b.path) := ⟨fun a b => le_total _ _⟩
  exact List.pairwise_insertionSort _ _

theorem Distinct.snapshot_nodup {d : Directory} (h : d.Distinct) :
    (d.snapshot.map FileRecord.path).Nodup :=
  ((d.snapshot_perm.map _).nodup_iff).mpr h.records_nodup

theorem Distinct.snapshot_strict {d : Directory} (h : d.Distinct) :
    d.snapshot.Pairwise (fun a b => a.path < b.path) := by
  have hne := List.pairwise_map.mp h.snapshot_nodup
  exact (d.snapshot_sorted.and hne).imp (fun hab => lt_of_le_of_ne hab.1 hab.2)

theorem eq_of_strict {l l' : List FileRecord}
    (hl : l.Pairwise (fun a b => a.path < b.path)) (hl' : l'.Pairwise (fun a b => a.path < b.path))
    (h : ∀ r, r ∈ l ↔ r ∈ l') : l = l' := by
  have hnodup : ∀ {m : List FileRecord}, m.Pairwise (fun a b => a.path < b.path) → m.Nodup :=
    fun hm => hm.imp (fun hab heq => absurd (heq ▸ hab) (lt_irrefl _))
  have hperm : l.Perm l' := (List.perm_ext_iff_of_nodup (hnodup hl) (hnodup hl')).mpr h
  exact hperm.eq_of_pairwise (fun a b _ _ hab hba => absurd (hab.trans hba) (lt_irrefl _)) hl hl'

theorem Distinct.eq_of_path_eq {d : Directory} (h : d.Distinct) {r s : FileRecord}
    (hr : r ∈ d.records) (hs : s ∈ d.records) (hpath : r.path = s.path) : r = s :=
  List.inj_on_of_nodup_map h.records_nodup hr hs hpath

theorem Distinct.fileAt_eq_some_iff {d : Directory} (h : d.Distinct) {path : Path} {e : Bool}
    {c : Bytes} : d.fileAt path = some (e, c) ↔
      { path := path, executable := e, content := c } ∈ d.records := by
  simp only [fileAt, Option.map_eq_some_iff, Prod.mk.injEq]
  constructor
  · rintro ⟨r, hr, rfl, rfl⟩
    have hpath : r.path = path := by simpa using List.find?_some hr
    subst hpath
    exact List.mem_of_find?_eq_some hr
  · intro hmem
    cases hfind : d.records.find? (fun r => r.path = path) with
    | none => simpa using List.find?_eq_none.mp hfind _ hmem
    | some r =>
      have hpath : r.path = path := by simpa using List.find?_some hfind
      have hr := h.eq_of_path_eq (List.mem_of_find?_eq_some hfind) hmem hpath
      exact ⟨r, rfl, by rw [hr], by rw [hr]⟩

/-- Trees with the same files have the same sorted listing, contents included. -/
theorem Distinct.sameFiles_iff {d d' : Directory} (h : d.Distinct) (h' : d'.Distinct) :
    SameFiles d d' ↔ d.snapshot = d'.snapshot := by
  constructor
  · intro hsame
    refine eq_of_strict h.snapshot_strict h'.snapshot_strict (fun r => ?_)
    rw [mem_snapshot, mem_snapshot, ← h.fileAt_eq_some_iff, ← h'.fileAt_eq_some_iff, hsame]
  · intro heq path
    refine Option.ext (fun v => ?_)
    obtain ⟨e, c⟩ := v
    rw [h.fileAt_eq_some_iff, h'.fileAt_eq_some_iff, ← mem_snapshot, ← mem_snapshot, heq]

/-- A change of the directory called `name`, made when there is none. -/
def descend (name : FileName) (f : Directory → Directory) : Directory → Directory
  | .empty => .directory name (f .empty) .empty
  | .file n data rest => .file n data (descend name f rest)
  | .directory n inner rest =>
    if n = name then .directory n (f inner) rest else .directory n inner (descend name f rest)
  | .symlink n rest => .symlink n (descend name f rest)
  | .special n rest => .special n (descend name f rest)

/-- `create_dir_all` of the parent, then the file. -/
def insertFile (data : FileData) : Path → Directory → Directory
  | [], d => d
  | [name], d => .file name data d
  | name :: rest, d => descend name (insertFile data rest) d

/-- The same tree with regular files rewritten or removed. -/
def rewriteFiles (g : Path → Bool → Bytes → Option (Bool × Bytes)) : Directory → Directory
  | .empty => .empty
  | .file name data rest =>
    match g [name] data.executable data.content with
    | some (e, c) =>
      .file name { data with executable := e, content := c } (rewriteFiles g rest)
    | none => rewriteFiles g rest
  | .directory name inner rest =>
    .directory name (rewriteFiles (fun path => g (name :: path)) inner) (rewriteFiles g rest)
  | .symlink name rest => .symlink name (rewriteFiles g rest)
  | .special name rest => .special name (rewriteFiles g rest)

/-- What a rewriting does to one entry of the walk. -/
def rewriteEntry (g : Path → Bool → Bytes → Option (Bool × Bytes)) (e : Path × EntryKind) :
    Option (Path × EntryKind) :=
  match e.2 with
  | .file data => (g e.1 data.executable data.content).map
      (fun v => (e.1, .file { data with executable := v.1, content := v.2 }))
  | kind => some (e.1, kind)

theorem walk_rewriteFiles (g : Path → Bool → Bytes → Option (Bool × Bytes)) (d : Directory) :
    (rewriteFiles g d).walk = d.walk.filterMap (rewriteEntry g) := by
  induction d generalizing g with
  | empty => rfl
  | file name data rest ih =>
    simp only [rewriteFiles, walk, List.filterMap_cons, rewriteEntry]
    cases g [name] data.executable data.content with
    | none => exact ih g
    | some v => simp [walk, ih g]
  | directory name inner rest ihInner ih =>
    simp only [rewriteFiles, walk, List.filterMap_cons, rewriteEntry, List.filterMap_append,
      ihInner, ih g, List.filterMap_map, List.map_filterMap]
    congr 3
    funext e
    obtain ⟨path, kind⟩ := e
    cases kind with
    | file data => simp [rewriteEntry, Function.comp_def]
    | directory | symlink | special => rfl
  | symlink name rest ih => simp [rewriteFiles, walk, rewriteEntry, ih g]
  | special name rest ih => simp [rewriteFiles, walk, rewriteEntry, ih g]

def rewriteRecord (g : Path → Bool → Bytes → Option (Bool × Bytes)) (r : FileRecord) :
    Option FileRecord :=
  (g r.path r.executable r.content).map
    (fun v => { path := r.path, executable := v.1, content := v.2 })

theorem records_rewriteFiles (g : Path → Bool → Bytes → Option (Bool × Bytes)) (d : Directory) :
    (rewriteFiles g d).records = d.records.filterMap (rewriteRecord g) := by
  simp only [records, walk_rewriteFiles, List.filterMap_filterMap]
  congr 1
  funext e
  obtain ⟨path, kind⟩ := e
  cases kind with
  | file data =>
    simp only [rewriteEntry, fileRecord, rewriteRecord, Option.bind_some]
    cases g path data.executable data.content <;> rfl
  | directory | symlink | special => rfl

/-- The paths that survive a rewriting keep the order of the walk. -/
theorem walk_rewriteFiles_sublist (g : Path → Bool → Bytes → Option (Bool × Bytes))
    (d : Directory) : ((rewriteFiles g d).walk.map Prod.fst).Sublist (d.walk.map Prod.fst) := by
  rw [walk_rewriteFiles]
  generalize d.walk = l
  induction l with
  | nil => exact .slnil
  | cons e l ih =>
    obtain ⟨path, kind⟩ := e
    cases kind with
    | file data =>
      simp only [List.filterMap_cons, rewriteEntry]
      cases g path data.executable data.content with
      | none => exact ih.cons path
      | some v => exact ih.cons_cons path
    | directory | symlink | special => exact ih.cons_cons path

theorem Distinct.snapshot_rewriteFiles {d : Directory} (h : d.Distinct)
    (g : Path → Bool → Bytes → Option (Bool × Bytes)) :
    (rewriteFiles g d).snapshot = d.snapshot.filterMap (rewriteRecord g) := by
  have hd : (rewriteFiles g d).Distinct := (walk_rewriteFiles_sublist g d).nodup h
  have hpath : ∀ {r s : FileRecord}, rewriteRecord g r = some s → s.path = r.path := by
    intro r s hrs
    obtain ⟨v, _, rfl⟩ := Option.map_eq_some_iff.mp hrs
    rfl
  refine eq_of_strict hd.snapshot_strict ?_ (fun r => ?_)
  · refine h.snapshot_strict.filterMap _ (fun a b hab a' ha b' hb => ?_)
    rwa [hpath ha, hpath hb]
  · rw [mem_snapshot, records_rewriteFiles, List.mem_filterMap, List.mem_filterMap]
    simp only [mem_snapshot]

end Directory

end A3sBench
