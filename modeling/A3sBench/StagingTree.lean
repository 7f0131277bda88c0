import A3sBench.FileTree
import Mathlib

/-!
# Trees built file by file

What `insertFile` adds to a tree is the file and the directories above it.
-/

namespace A3sBench.Directory

/-- A path lies above another one. -/
def Above (upper lower : Path) : Prop := upper <+: lower ∧ upper ≠ [] ∧ upper ≠ lower

theorem not_above_singleton {upper : Path} {name : FileName} : ¬ Above upper [name] := by
  rintro ⟨habove, hnil, hne⟩
  cases upper with
  | nil => exact hnil rfl
  | cons first inner =>
    obtain ⟨rfl, hinner⟩ := List.cons_prefix_cons.mp habove
    exact hne (by rw [List.prefix_nil.mp hinner])

/-- Above an entry of a subdirectory lie the subdirectory and what is above the entry in it. -/
theorem above_cons_iff {upper rest : Path} {name : FileName} (hrest : rest ≠ []) :
    Above upper (name :: rest) ↔ upper = [name] ∨ ∃ inner, Above inner rest ∧ upper = name :: inner := by
  constructor
  · rintro ⟨habove, hnil, hne⟩
    cases upper with
    | nil => exact absurd rfl hnil
    | cons first inner =>
      obtain ⟨rfl, hinner⟩ := List.cons_prefix_cons.mp habove
      by_cases hempty : inner = []
      · exact .inl (by rw [hempty])
      · exact .inr ⟨inner, ⟨hinner, hempty, fun h => hne (by rw [h])⟩, rfl⟩
  · rintro (rfl | ⟨inner, ⟨hinner, -, hne⟩, rfl⟩)
    · exact ⟨List.cons_prefix_cons.mpr ⟨rfl, List.nil_prefix⟩, List.cons_ne_nil _ _,
        fun h => hrest (List.cons.inj h).2.symm⟩
    · exact ⟨List.cons_prefix_cons.mpr ⟨rfl, hinner⟩, List.cons_ne_nil _ _,
        fun h => hne (List.cons.inj h).2⟩

/-- Above an entry of a tree there are only directories. -/
theorem walk_ancestor {d : Directory} {upper : Path} {e : Path × EntryKind} (he : e ∈ d.walk)
    (habove : Above upper e.1) : (upper, .directory) ∈ d.walk := by
  induction d generalizing upper e with
  | empty => cases he
  | file name data rest ih | symlink name rest ih | special name rest ih =>
    rcases List.mem_cons.mp he with rfl | he
    · exact absurd habove not_above_singleton
    · exact List.mem_cons_of_mem _ (ih he habove)
  | directory name inner rest ihInner ih =>
    rcases List.mem_cons.mp he with rfl | he
    · exact absurd habove not_above_singleton
    rcases List.mem_append.mp he with he | he
    · obtain ⟨below, hbelow, rfl⟩ := List.mem_map.mp he
      rcases (above_cons_iff (inner.walk_path_ne_nil _ hbelow)).mp habove with
        rfl | ⟨upper, hupper, rfl⟩
      · exact List.mem_cons_self
      · refine List.mem_cons_of_mem _ (List.mem_append_left _ ?_)
        exact List.mem_map.mpr ⟨_, ihInner hbelow hupper, rfl⟩
    · exact List.mem_cons_of_mem _ (List.mem_append_right _ (ih he habove))

section Descend

variable {name : FileName} {f : Directory → Directory}

/-- A change that adds entries to a directory adds them, and the directory, to the tree. -/
theorem mem_walk_descend {added : Path × EntryKind → Prop}
    (hf : ∀ inner e, e ∈ (f inner).walk ↔ e ∈ inner.walk ∨ added e) {d : Directory}
    {e : Path × EntryKind} : e ∈ (descend name f d).walk ↔
      e ∈ d.walk ∨ e = ([name], .directory) ∨ ∃ e', added e' ∧ e = (name :: e'.1, e'.2) := by
  induction d with
  | empty =>
    simp only [descend, walk, List.append_nil, List.mem_cons, List.mem_map, List.not_mem_nil,
      false_or, hf]
    exact or_congr_right (exists_congr fun e' => and_congr_right' eq_comm)
  | file n data rest ih | symlink n rest ih | special n rest ih =>
    simp only [descend, walk, List.mem_cons, ih, or_assoc]
  | directory n inner rest _ ih =>
    rw [descend]
    split_ifs with hname
    · subst hname
      simp only [walk, List.mem_cons, List.mem_append, List.mem_map, hf]
      constructor
      · rintro (rfl | ⟨e', he' | he', rfl⟩ | he)
        · exact .inr (.inl rfl)
        · exact .inl (.inr (.inl ⟨e', he', rfl⟩))
        · exact .inr (.inr ⟨e', he', rfl⟩)
        · exact .inl (.inr (.inr he))
      · rintro ((rfl | ⟨e', he', rfl⟩ | he) | rfl | ⟨e', he', rfl⟩)
        · exact .inl rfl
        · exact .inr (.inl ⟨e', .inl he', rfl⟩)
        · exact .inr (.inr he)
        · exact .inl rfl
        · exact .inr (.inl ⟨e', .inr he', rfl⟩)
    · simp only [walk, List.mem_cons, List.mem_append, ih, or_assoc]

end Descend

theorem insertFile_cons {data : FileData} {name : FileName} {rest : Path} (hrest : rest ≠ [])
    {d : Directory} : insertFile data (name :: rest) d = descend name (insertFile data rest) d :=
  insertFile.eq_3 data d name rest hrest

/-- A new file brings the directories above it. -/
theorem mem_walk_insertFile {data : FileData} {path : Path} (hpath : path ≠ []) {d : Directory}
    {e : Path × EntryKind} : e ∈ (insertFile data path d).walk ↔
      e ∈ d.walk ∨ e = (path, .file data) ∨ e.2 = .directory ∧ Above e.1 path := by
  induction path generalizing d e with
  | nil => exact absurd rfl hpath
  | cons name rest ih =>
    cases rest with
    | nil =>
      simp only [insertFile, walk, List.mem_cons, not_above_singleton, and_false, or_false]
      exact or_comm
    | cons second rest =>
      rw [insertFile_cons (List.cons_ne_nil _ _), mem_walk_descend fun inner e => @ih (List.cons_ne_nil _ _) inner e]
      refine or_congr_right ?_
      obtain ⟨upper, kind⟩ := e
      simp only [above_cons_iff (List.cons_ne_nil second rest), Prod.mk.injEq]
      constructor
      · rintro (⟨rfl, rfl⟩ | ⟨⟨inner, kind'⟩, hadded | ⟨hkind, habove⟩, rfl, rfl⟩)
        · exact .inr ⟨rfl, .inl rfl⟩
        · obtain ⟨rfl, rfl⟩ := Prod.mk.inj hadded
          exact .inl ⟨rfl, rfl⟩
        · exact .inr ⟨hkind, .inr ⟨inner, habove, rfl⟩⟩
      · rintro (⟨rfl, rfl⟩ | ⟨rfl, rfl | ⟨inner, habove, rfl⟩⟩)
        · exact .inr ⟨(second :: rest, .file data), .inl rfl, rfl, rfl⟩
        · exact .inl ⟨rfl, rfl⟩
        · exact .inr ⟨(inner, .directory), .inr ⟨rfl, habove⟩, rfl, rfl⟩

/-! ## Names stay distinct -/

/-- The first name on the way to an entry is an entry. -/
theorem exists_first {d : Directory} {name : FileName} {rest : Path} {kind : EntryKind}
    (h : (name :: rest, kind) ∈ d.walk) : ∃ kind, ([name], kind) ∈ d.walk := by
  by_cases hrest : rest = []
  · exact ⟨kind, hrest ▸ h⟩
  · exact ⟨.directory, walk_ancestor h ((above_cons_iff hrest).mpr (.inl rfl))⟩

theorem distinct_directory_iff {name : FileName} {inner rest : Directory} :
    (directory name inner rest).Distinct ↔
      (∀ kind, ([name], kind) ∉ rest.walk) ∧ inner.Distinct ∧ rest.Distinct := by
  have hpaths : (inner.walk.map fun e => (name :: e.1, e.2)).map Prod.fst =
      (inner.walk.map Prod.fst).map (List.cons name) := by
    rw [List.map_map, List.map_map]
    rfl
  have hinner : ((inner.walk.map fun e => (name :: e.1, e.2)).map Prod.fst).Nodup ↔
      inner.Distinct := by
    rw [hpaths, List.nodup_map_iff List.cons_injective]
    rfl
  simp only [Distinct, walk, List.map_cons, List.map_append, List.nodup_cons, List.nodup_append,
    List.mem_append, not_or]
  rw [hinner]
  constructor
  · rintro ⟨⟨-, hname⟩, hinner, hrest, -⟩
    exact ⟨fun kind hkind => hname (List.mem_map_of_mem hkind), hinner, hrest⟩
  · rintro ⟨hname, hinner, hrest⟩
    have hfirst : [name] ∉ rest.walk.map Prod.fst := by
      intro h
      obtain ⟨⟨path, kind⟩, hkind, rfl⟩ := List.mem_map.mp h
      exact hname kind hkind
    refine ⟨⟨?_, hfirst⟩, hinner, hrest, ?_⟩
    · intro h
      obtain ⟨_, he, hpath⟩ := List.mem_map.mp h
      obtain ⟨e, hinner, rfl⟩ := List.mem_map.mp he
      exact inner.walk_path_ne_nil e hinner (List.cons.inj hpath).2
    · rintro _ hleft _ hright rfl
      obtain ⟨_, he, rfl⟩ := List.mem_map.mp hleft
      obtain ⟨e, he, rfl⟩ := List.mem_map.mp he
      obtain ⟨⟨path, kind⟩, hother, hpath⟩ := List.mem_map.mp hright
      obtain rfl : path = name :: e.1 := hpath
      obtain ⟨kind, hkind⟩ := exists_first hother
      exact hname kind hkind

theorem Distinct.descend {name : FileName} {f : Directory → Directory} {d : Directory}
    (h : d.Distinct) (hname : ∀ kind, ([name], kind) ∈ d.walk → kind = .directory)
    (hempty : (f .empty).Distinct)
    (hf : ∀ inner, inner.Distinct → (∀ e ∈ inner.walk, (name :: e.1, e.2) ∈ d.walk) →
      (f inner).Distinct) : (descend name f d).Distinct := by
  have hnew : ∀ (d : Directory) (n : FileName) (kind : EntryKind), n ≠ name →
      ([n], kind) ∉ d.walk → ([n], kind) ∉ (Directory.descend name f d).walk := by
    intro d n kind hn
    induction d with
    | empty => simp [Directory.descend, walk, hn, hn.symm]
    | file other data rest ih | symlink other rest ih | special other rest ih =>
      simp only [Directory.descend, walk, List.mem_cons, not_or]
      exact And.imp_right ih
    | directory other inner rest _ ih =>
      rw [Directory.descend]
      split_ifs with hother
      · subst hother
        simp [walk, hn, hn.symm]
      · simp only [walk, List.mem_cons, List.mem_append, not_or]
        exact And.imp_right (And.imp_right ih)
  induction d with
  | empty => exact distinct_directory_iff.mpr ⟨fun kind => List.not_mem_nil, hempty, List.nodup_nil⟩
  | file n data rest ih | symlink n rest ih | special n rest ih =>
    have hn : n ≠ name := by
      rintro rfl
      cases hname _ List.mem_cons_self
    obtain ⟨hfirst, hrest⟩ := List.nodup_cons.mp h
    refine List.nodup_cons.mpr ⟨?_, ih hrest (fun kind hkind => hname kind (.tail _ hkind))
      fun inner hinner he => hf inner hinner fun e hmem => .tail _ (he e hmem)⟩
    intro hmem
    obtain ⟨⟨path, kind⟩, hkind, rfl⟩ := List.mem_map.mp hmem
    exact hnew rest n kind hn (fun hold => hfirst (List.mem_map.mpr ⟨_, hold, rfl⟩)) hkind
  | directory n inner rest _ ih =>
    obtain ⟨hfirst, hinner, hrest⟩ := distinct_directory_iff.mp h
    rw [Directory.descend]
    split_ifs with hn
    · subst hn
      refine distinct_directory_iff.mpr ⟨hfirst, hf inner hinner fun e he => ?_, hrest⟩
      exact .tail _ (List.mem_append_left _ (List.mem_map_of_mem he))
    · refine distinct_directory_iff.mpr ⟨fun kind => hnew rest n kind hn (hfirst kind), hinner,
        ih hrest (fun kind hkind => hname kind (.tail _ (List.mem_append_right _ hkind))) ?_⟩
      exact fun inner' hinner' he => hf inner' hinner'
        fun e hmem => .tail _ (List.mem_append_right _ (he e hmem))

/-- A new file that no other entry is in the way of. -/
theorem Distinct.insertFile {data : FileData} {path : Path} {d : Directory} (h : d.Distinct)
    (hpath : ∀ kind, (path, kind) ∉ d.walk)
    (habove : ∀ upper kind, Above upper path → (upper, kind) ∈ d.walk → kind = .directory) :
    (insertFile data path d).Distinct := by
  induction path generalizing d with
  | nil => exact h
  | cons name rest ih =>
    by_cases hrest : rest = []
    · subst hrest
      refine List.nodup_cons.mpr ⟨?_, h⟩
      intro hmem
      obtain ⟨⟨_, kind⟩, hkind, rfl⟩ := List.mem_map.mp hmem
      exact hpath kind hkind
    · rw [insertFile_cons hrest]
      have hinner : ∀ {upper}, Above upper rest → Above (name :: upper) (name :: rest) :=
        fun hupper => (above_cons_iff hrest).mpr (.inr ⟨_, hupper, rfl⟩)
      refine h.descend (fun kind => habove _ kind ((above_cons_iff hrest).mpr (.inl rfl))) ?_ ?_
      · refine ih List.nodup_nil (fun kind => List.not_mem_nil) ?_
        exact fun upper kind _ hmem => absurd hmem List.not_mem_nil
      · intro inner hdistinct he
        refine ih hdistinct (fun kind hmem => hpath kind (he _ hmem)) ?_
        exact fun upper kind hupper hmem => habove _ kind (hinner hupper) (he _ hmem)

/-! ## What a staging directory holds -/

/-- The tree consists of these files and the directories above them. -/
structure Holds (files : List (Path × FileData)) (d : Directory) : Prop where
  distinct : d.Distinct
  mem : ∀ e, e ∈ d.walk ↔ (∃ file ∈ files, e = (file.1, .file file.2)) ∨
    e.2 = .directory ∧ ∃ file ∈ files, Above e.1 file.1

theorem Holds.empty : Holds [] .empty :=
  ⟨List.nodup_nil, fun e => by simp [walk]⟩

/-- Neither of two files is in the way of the other. -/
def Apart (path path' : Path) : Prop := path ≠ path' ∧ ¬ Above path path' ∧ ¬ Above path' path

theorem Holds.insertFile {files : List (Path × FileData)} {d : Directory} (h : Holds files d)
    {file : Path × FileData} (hnil : file.1 ≠ []) (hapart : ∀ other ∈ files, Apart other.1 file.1) :
    Holds (files ++ [file]) (d.insertFile file.2 file.1) := by
  refine ⟨h.distinct.insertFile (fun kind hmem => ?_) (fun upper kind hupper hmem => ?_), ?_⟩
  · rcases (h.mem _).mp hmem with ⟨other, hother, heq⟩ | ⟨-, other, hother, habove⟩
    · exact (hapart other hother).1 (congrArg Prod.fst heq).symm
    · exact (hapart other hother).2.2 habove
  · rcases (h.mem _).mp hmem with ⟨other, hother, heq⟩ | ⟨hkind, -⟩
    · obtain ⟨rfl, -⟩ := Prod.mk.inj heq
      exact absurd hupper (hapart other hother).2.1
    · exact hkind
  · intro e
    rw [mem_walk_insertFile hnil, h.mem]
    simp only [List.mem_append, List.mem_singleton, or_and_right, exists_or, exists_eq_left]
    rw [and_or_left]
    exact or_or_or_comm

end A3sBench.Directory
