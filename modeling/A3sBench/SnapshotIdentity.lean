import A3sBench.TaskSnapshot

/-!
# What a tree digest identifies

The stream of `tree_digest` separates its fields by NUL, which paths cannot
contain and contents can. A file can therefore swallow the file after it, and
the digest singles out one tree only where nothing can be swallowed.
-/

namespace A3sBench.TaskSnapshot

open Library

/-- What `enter` asks of an entry on its own. -/
structure Admissible (path : Path) (kind : EntryKind) : Prop where
  utf8 : isUtf8 (pathBytes path) = true
  plain : ∀ name ∈ path, name.1 ≠ dot ∧ name.1 ≠ dotDot
  kind : kind = .directory ∨ ∃ data, kind = .file data ∧ data.links = 1

def caseKey (os : Platform) (path : Path) : Bytes := os.toLowercase (pathBytes path)

/-- The files among the visited entries, in visiting order. -/
def filePaths (l : List (Path × EntryKind)) : List Path :=
  (l.filterMap fileRecord).map FileRecord.path

theorem filePaths_cons (e : Path × EntryKind) (l : List (Path × EntryKind)) :
    filePaths (e :: l) = filePaths [e] ++ filePaths l := by
  simp only [filePaths, List.filterMap_cons, List.filterMap_nil]
  cases fileRecord e <;> rfl

theorem safe_parts_iff {path : Path} (h : path ≠ []) :
    (∀ part ∈ (pathBytes path).splitOn separator, part ≠ [] ∧ part ≠ dot ∧ part ≠ dotDot) ↔
      ∀ name ∈ path, name.1 ≠ dot ∧ name.1 ≠ dotDot := by
  rw [splitOn_pathBytes h, List.forall_mem_map]
  exact forall₂_congr (fun name _ => and_iff_right name.2.1)

theorem enter_ok_iff {os : Platform} {path : Path} {kind : EntryKind} {acc acc' : Visit}
    (h : path ≠ []) : enter os path kind acc = .ok acc' ↔
      Admissible path kind ∧ caseKey os path ∉ acc.seenCase ∧
        acc' = { output := acc.output ++ filePaths [(path, kind)]
                 seenCase := caseKey os path :: acc.seenCase } := by
  simp only [enter, Result.bind_ok_iff, Result.exists_unit_iff, Result.ensure_ok_iff,
    safe_parts_iff h]
  constructor
  · rintro ⟨_, hutf, ⟨_, hplain⟩, hseen, hkind⟩
    cases kind with
    | directory =>
      simp only [Result.pure_ok_iff] at hkind
      exact ⟨⟨hutf, hplain, .inl rfl⟩, hseen, by simp [← hkind, filePaths, fileRecord, caseKey]⟩
    | file data =>
      simp only [Result.bind_ok_iff, Result.exists_unit_iff, Result.ensure_ok_iff,
        Result.pure_ok_iff] at hkind
      exact ⟨⟨hutf, hplain, .inr ⟨data, rfl, hkind.1⟩⟩, hseen,
        by simp [← hkind.2, filePaths, fileRecord, caseKey]⟩
    | symlink | special => cases hkind
  · rintro ⟨⟨hutf, hplain, hkind⟩, hseen, rfl⟩
    rcases hkind with rfl | ⟨data, rfl, hlinks⟩
    · exact ⟨by simp, hutf, ⟨pathBytes_ne_nil h, hplain⟩, hseen,
        by simp [filePaths, fileRecord, caseKey]⟩
    · exact ⟨by simp, hutf, ⟨pathBytes_ne_nil h, hplain⟩, hseen,
        by simp [filePaths, fileRecord, caseKey, hlinks]⟩

/-- The recursion of `collect` is one pass over the walk. -/
theorem visit_eq_foldlM (os : Platform) (relative : Path) (d : Directory) (acc : Visit) :
    visit os relative d acc =
      d.walk.foldlM (fun acc e => enter os (relative ++ e.1) e.2 acc) acc := by
  induction d generalizing relative acc with
  | empty => rfl
  | file name data rest ih => simp [visit, Directory.walk, ih]
  | directory name inner rest ihInner ih =>
    simp [visit, Directory.walk, ih, ihInner, List.foldlM_append, List.foldlM_map,
      List.append_assoc]
  | symlink name rest ih => simp [visit, Directory.walk, ih]
  | special name rest ih => simp [visit, Directory.walk, ih]

theorem foldlM_enter_ok_iff {os : Platform} {l : List (Path × EntryKind)} (hl : ∀ e ∈ l, e.1 ≠ [])
    {acc acc' : Visit} :
    l.foldlM (fun acc e => enter os e.1 e.2 acc) acc = .ok acc' ↔
      (∀ e ∈ l, Admissible e.1 e.2) ∧ (l.map (fun e => caseKey os e.1)).Nodup ∧
        (∀ e ∈ l, caseKey os e.1 ∉ acc.seenCase) ∧
        acc' = { output := acc.output ++ filePaths l
                 seenCase := (l.map (fun e => caseKey os e.1)).reverse ++ acc.seenCase } := by
  induction l generalizing acc with
  | nil => simp [filePaths, pure, Except.pure, eq_comm]
  | cons e l ih =>
    obtain ⟨he, hl⟩ := List.forall_mem_cons.mp hl
    rw [List.foldlM_cons]
    simp only [Result.bind_ok_iff, enter_ok_iff he, ih hl, List.forall_mem_cons, List.map_cons,
      List.nodup_cons, filePaths_cons e l]
    constructor
    · rintro ⟨_, ⟨hadm, hseen, rfl⟩, hadms, hnodup, hfresh, rfl⟩
      have hfresh' : ∀ f ∈ l, caseKey os f.1 ≠ caseKey os e.1 ∧ caseKey os f.1 ∉ acc.seenCase :=
        fun f hf => not_or.mp (fun h => hfresh f hf (List.mem_cons.mpr h))
      refine ⟨⟨hadm, hadms⟩, ⟨?_, hnodup⟩, ⟨hseen, fun f hf => (hfresh' f hf).2⟩, by simp⟩
      intro hmem
      obtain ⟨f, hf, heq⟩ := List.mem_map.mp hmem
      exact (hfresh' f hf).1 heq
    · rintro ⟨⟨hadm, hadms⟩, ⟨hnew, hnodup⟩, ⟨hseen, hfresh⟩, rfl⟩
      refine ⟨_, ⟨hadm, hseen, rfl⟩, hadms, hnodup, fun f hf hmem => ?_, by simp⟩
      rcases List.mem_cons.mp hmem with heq | hmem
      · exact hnew (List.mem_map.mpr ⟨f, hf, heq⟩)
      · exact hfresh f hf hmem

/-- A tree `collect` accepts: admissible entries, no two alike up to case. -/
structure Collectible (os : Platform) (d : Directory) : Prop where
  admissible : ∀ e ∈ d.walk, Admissible e.1 e.2
  caseDistinct : (d.walk.map (fun e => caseKey os e.1)).Nodup

theorem collect_ok_iff {os : Platform} {d : Directory} {files : List Path} :
    collect os d = .ok files ↔
      Collectible os d ∧ files = d.snapshot.map FileRecord.path := by
  have hsort : (filePaths d.walk).insertionSort (· ≤ ·) = d.snapshot.map FileRecord.path := by
    have hsorted : (d.snapshot.map FileRecord.path).Pairwise (· ≤ ·) :=
      List.pairwise_map.mpr d.snapshot_sorted
    have hperm : ((filePaths d.walk).insertionSort (· ≤ ·)).Perm
        (d.snapshot.map FileRecord.path) :=
      (List.perm_insertionSort _ _).trans (d.snapshot_perm.symm.map _)
    exact hperm.eq_of_pairwise (fun _ _ _ _ => le_antisymm)
      (List.pairwise_insertionSort _ _) hsorted
  simp only [collect, visit_eq_foldlM, List.nil_append, Result.bind_ok_iff,
    foldlM_enter_ok_iff d.walk_path_ne_nil, Result.pure_ok_iff]
  constructor
  · rintro ⟨_, ⟨hadm, hnodup, _, rfl⟩, rfl⟩
    exact ⟨⟨hadm, hnodup⟩, by simpa using hsort⟩
  · rintro ⟨⟨hadm, hnodup⟩, rfl⟩
    exact ⟨_, ⟨hadm, hnodup, by simp, rfl⟩, by simpa using hsort⟩

theorem Collectible.distinct {os : Platform} {d : Directory} (h : Collectible os d) :
    d.Distinct := by
  have hcase := h.caseDistinct
  rw [show (fun e : Path × EntryKind => caseKey os e.1) = caseKey os ∘ Prod.fst from rfl,
    ← List.map_map] at hcase
  exact hcase.of_map _

/-- The fields hashed for one file of an accepted tree. -/
def recordFields (r : FileRecord) : FieldRecord Byte :=
  fieldsOf (pathBytes r.path) r.executable r.content

theorem treeStream_eq {os : Platform} {d : Directory} (hd : d.Distinct) {l : List FileRecord}
    (hl : ∀ r ∈ l, r ∈ d.records ∧ isUtf8 (pathBytes r.path) = true) :
    treeStream os d (l.map FileRecord.path) = .ok (FieldRecord.encode 0 (l.map recordFields)) := by
  induction l with
  | nil => rfl
  | cons r l ih =>
    obtain ⟨⟨hr, hutf⟩, hl⟩ := List.forall_mem_cons.mp hl
    have hread : d.fileAt r.path = some (r.executable, r.content) :=
      hd.fileAt_eq_some_iff.mpr hr
    simp only [List.map_cons, treeStream, Result.bind_ok_iff, Result.okOr_ok_iff, ih hl, hread,
      os.toStringLossy_of_isUtf8 hutf, Result.pure_ok_iff]
    exact ⟨_, rfl, _, rfl, by simp [recordFields, fieldsOf]⟩

theorem Collectible.snapshot_utf8 {os : Platform} {d : Directory} (h : Collectible os d)
    {r : FileRecord} (hr : r ∈ d.snapshot) : isUtf8 (pathBytes r.path) = true := by
  obtain ⟨data, he, _⟩ := Directory.mem_records.mp (Directory.mem_snapshot.mp hr)
  exact (h.admissible _ he).utf8

/-- The stream of an accepted tree is the encoding of its sorted records. -/
theorem Collectible.snapshotStream_eq {os : Platform} {d : Directory} (h : Collectible os d) :
    snapshotStream os d = .ok (FieldRecord.encode 0 (d.snapshot.map recordFields)) := by
  have hcollect := collect_ok_iff.mpr ⟨h, rfl⟩
  have hstream := @treeStream_eq os d h.distinct d.snapshot
    (fun r hr => ⟨Directory.mem_snapshot.mp hr, h.snapshot_utf8 hr⟩)
  simp only [snapshotStream, Result.bind_ok_iff]
  exact ⟨_, hcollect, hstream⟩

theorem snapshot_path_ne_nil {d : Directory} {r : FileRecord} (hr : r ∈ d.snapshot) :
    r.path ≠ [] := by
  obtain ⟨data, he, _⟩ := Directory.mem_records.mp (Directory.mem_snapshot.mp hr)
  exact d.walk_path_ne_nil _ he

theorem nul_not_mem_key (r : FileRecord) : (0 : Byte) ∉ (recordFields r).key :=
  nul_not_mem_pathBytes r.path

theorem bit_injective : Function.Injective bit := by
  intro a b
  cases a <;> cases b <;> decide

theorem recordFields_inj {r s : FileRecord} (hr : r.path ≠ []) (hs : s.path ≠ [])
    (h : recordFields r = recordFields s) : r = s := by
  obtain ⟨hkey, htag, hbody⟩ := FieldRecord.mk.inj h
  cases r
  cases s
  obtain rfl := pathBytes_injective hr hs hkey
  obtain rfl := bit_injective htag
  obtain rfl := hbody
  rfl

theorem eq_of_recordFields {l l' : List FileRecord} (hl : ∀ r ∈ l, r.path ≠ [])
    (hl' : ∀ r ∈ l', r.path ≠ []) (h : l.map recordFields = l'.map recordFields) : l = l' := by
  induction l generalizing l' with
  | nil => exact (List.map_eq_nil_iff.mp h.symm).symm
  | cons r l ih =>
    obtain ⟨s, rest, rfl, hs, hrest⟩ := List.map_eq_cons_iff.mp h.symm
    obtain ⟨hr, hl⟩ := List.forall_mem_cons.mp hl
    obtain ⟨hs', hl'⟩ := List.forall_mem_cons.mp hl'
    rw [recordFields_inj hr hs' hs.symm, ih hl hl' hrest.symm]

theorem Collectible.rewriteFiles {os : Platform} {d : Directory} (h : Collectible os d)
    (g : Path → Bool → Bytes → Option (Bool × Bytes)) :
    Collectible os (d.rewriteFiles g) := by
  constructor
  · intro e he
    rw [Directory.walk_rewriteFiles, List.mem_filterMap] at he
    obtain ⟨⟨path, kind⟩, he, heq⟩ := he
    have hadm := h.admissible _ he
    cases kind with
    | file data =>
      obtain ⟨v, _, rfl⟩ := Option.map_eq_some_iff.mp heq
      obtain hdir | ⟨data', hfile, hlinks⟩ := hadm.kind
      · cases hdir
      · cases hfile
        exact ⟨hadm.utf8, hadm.plain, .inr ⟨_, rfl, hlinks⟩⟩
    | directory | symlink | special =>
      cases heq
      exact hadm
  · have hsub := (Directory.walk_rewriteFiles_sublist g d).map (caseKey os)
    rw [List.map_map, List.map_map] at hsub
    exact hsub.nodup h.caseDistinct

/-- Every tree hashed from the same bytes has the same files. -/
def Identified (os : Platform) (d : Directory) : Prop :=
  ∀ d' stream, snapshotStream os d = .ok stream → snapshotStream os d' = .ok stream →
    d.SameFiles d'

/-- `verify` accepts a tree under the digest of `d` only if it has the files of
`d`, unless SHA-256 collides on the two. -/
def VerifiedOnly (os : Platform) (d : Directory) : Prop :=
  ∀ d' stream stream', snapshotStream os d = .ok stream → snapshotStream os d' = .ok stream' →
    (os.sha256 stream = os.sha256 stream' → stream = stream') →
    verify os (some d') ("sha256:" ++ os.sha256 stream) = .ok () → d.SameFiles d'

/-- Some acceptable tree has exactly these two files, in this order. -/
def ListableAfter (os : Platform) (p q : Path) : Prop :=
  ∃ d, Collectible os d ∧ d.snapshot.map FileRecord.path = [p, q]

/-- Nothing in the tree can be swallowed or released: it has no file, or one
file whose content never spells the header of a file that could follow it. -/
def Unambiguous (os : Platform) (d : Directory) : Prop :=
  d.snapshot = [] ∨ ∃ r, d.snapshot = [r] ∧ ∀ front q e back,
    r.content = front ++ 0 :: (pathBytes q ++ 0 :: bit e :: 0 :: back) →
      ¬ ListableAfter os r.path q

/-- Put new contents at one path and drop or replace another. -/
def overwrite (p : Path) (v : Bool × Bytes) (q : Path) (w : Option (Bool × Bytes)) :
    Path → Bool → Bytes → Option (Bool × Bytes) :=
  fun path e c => if path = p then some v else if path = q then w else some (e, c)

theorem filterMap_overwrite {r s : FileRecord} {l : List FileRecord} {v : Bool × Bytes}
    {w : Option (Bool × Bytes)}
    (h : (r :: s :: l).Pairwise (fun a b => a.path < b.path)) :
    (r :: s :: l).filterMap (Directory.rewriteRecord (overwrite r.path v s.path w)) =
      { path := r.path, executable := v.1, content := v.2 } ::
        ((w.map (fun u => { path := s.path, executable := u.1, content := u.2 })).toList ++ l) := by
  obtain ⟨hr, hs⟩ := List.pairwise_cons.mp h
  obtain ⟨hs, _⟩ := List.pairwise_cons.mp hs
  have hsr : s.path ≠ r.path := (hr s List.mem_cons_self).ne'
  have htail : l.filterMap (Directory.rewriteRecord (overwrite r.path v s.path w)) = l := by
    rw [List.filterMap_eq_map_iff_forall_eq_some.mpr, List.map_id]
    intro t ht
    have h1 : t.path ≠ r.path := (hr t (List.mem_cons_of_mem _ ht)).ne'
    have h2 : t.path ≠ s.path := (hs t ht).ne'
    simp [Directory.rewriteRecord, overwrite, h1, h2]
  cases w with
  | none => simp [Directory.rewriteRecord, overwrite, hsr, htail]
  | some u => simp [Directory.rewriteRecord, overwrite, hsr, htail]

theorem Collectible.snapshot_rewriteFiles {os : Platform} {d : Directory} (h : Collectible os d)
    (g : Path → Bool → Bytes → Option (Bool × Bytes)) :
    (d.rewriteFiles g).snapshot = d.snapshot.filterMap (Directory.rewriteRecord g) :=
  h.distinct.snapshot_rewriteFiles g

/-- Of an acceptable tree the first two files can be kept alone. -/
theorem Collectible.listableAfter {os : Platform} {d : Directory} (h : Collectible os d)
    {r s : FileRecord} {rest : List FileRecord} (hd : d.snapshot = r :: s :: rest) :
    ListableAfter os r.path s.path := by
  let keep : Path → Bool → Bytes → Option (Bool × Bytes) :=
    fun path e c => if path = r.path ∨ path = s.path then some (e, c) else none
  refine ⟨d.rewriteFiles keep, h.rewriteFiles keep, ?_⟩
  have hstrict := h.distinct.snapshot_strict
  rw [hd] at hstrict
  obtain ⟨hr, hs⟩ := List.pairwise_cons.mp hstrict
  obtain ⟨hs, _⟩ := List.pairwise_cons.mp hs
  have hrest : rest.filterMap (Directory.rewriteRecord keep) = [] := by
    refine List.filterMap_eq_nil_iff.mpr (fun t ht => ?_)
    have h1 : t.path ≠ r.path := (hr t (List.mem_cons_of_mem _ ht)).ne'
    have h2 : t.path ≠ s.path := (hs t ht).ne'
    simp [Directory.rewriteRecord, keep, h1, h2]
  rw [h.snapshot_rewriteFiles, hd]
  simp [Directory.rewriteRecord, keep, hrest]

/-- A file can always swallow the next one of its tree. -/
theorem Collectible.exists_swallowed {os : Platform} {d : Directory} (h : Collectible os d)
    {r s : FileRecord} {rest : List FileRecord} (hd : d.snapshot = r :: s :: rest) :
    ∃ d', Collectible os d' ∧ snapshotStream os d = snapshotStream os d' ∧ ¬ d.SameFiles d' := by
  let swallowed := (FieldRecord.swallow 0 (recordFields r) (recordFields s)).body
  let g := overwrite r.path (r.executable, swallowed) s.path none
  have h' : Collectible os (d.rewriteFiles g) := h.rewriteFiles g
  have hstrict := h.distinct.snapshot_strict
  rw [hd] at hstrict
  have hsnap : (d.rewriteFiles g).snapshot =
      { path := r.path, executable := r.executable, content := swallowed } :: rest := by
    rw [h.snapshot_rewriteFiles, hd, filterMap_overwrite hstrict]
    rfl
  refine ⟨_, h', ?_, ?_⟩
  · rw [h.snapshotStream_eq, h'.snapshotStream_eq, hsnap, hd]
    exact congrArg Except.ok (FieldRecord.encode_swallow _ _ _).symm
  · rw [h.distinct.sameFiles_iff h'.distinct, hd, hsnap]
    exact fun heq => absurd (congrArg List.length heq) (by simp)

/-- A lone file whose content spells a header can release a second file. -/
theorem Collectible.exists_released {os : Platform} {d : Directory} (h : Collectible os d)
    {r : FileRecord} (hd : d.snapshot = [r]) {front back : Bytes} {q : Path} {e : Bool}
    (hcontent : r.content = front ++ 0 :: (pathBytes q ++ 0 :: bit e :: 0 :: back))
    (hlist : ListableAfter os r.path q) :
    ∃ d', Collectible os d' ∧ snapshotStream os d = snapshotStream os d' ∧ ¬ d.SameFiles d' := by
  obtain ⟨t, ht, hpaths⟩ := hlist
  obtain ⟨r', tail, hsnapt, hr', htail⟩ := List.map_eq_cons_iff.mp hpaths
  obtain ⟨s', last, rfl, rfl, hlast⟩ := List.map_eq_cons_iff.mp htail
  obtain rfl := List.map_eq_nil_iff.mp hlast
  let g := overwrite r'.path (r.executable, front) s'.path (some (e, back))
  have h' : Collectible os (t.rewriteFiles g) := ht.rewriteFiles g
  have hstrict := ht.distinct.snapshot_strict
  rw [hsnapt] at hstrict
  have hsnap : (t.rewriteFiles g).snapshot =
      [{ path := r'.path, executable := r.executable, content := front },
        { path := s'.path, executable := e, content := back }] := by
    rw [ht.snapshot_rewriteFiles, hsnapt, filterMap_overwrite hstrict]
    rfl
  refine ⟨_, h', ?_, ?_⟩
  · rw [h.snapshotStream_eq, h'.snapshotStream_eq, hsnap, hd]
    simp [recordFields, fieldsOf, hcontent, hr']
  · rw [h.distinct.sameFiles_iff h'.distinct, hd, hsnap]
    exact fun heq => absurd (congrArg List.length heq) (by simp)

theorem Unambiguous.snapshot_eq {os : Platform} {d d' : Directory} (hd : Unambiguous os d)
    (h : Collectible os d) (h' : Collectible os d')
    (hstream : snapshotStream os d = snapshotStream os d') : d.snapshot = d'.snapshot := by
  have hpath : ∀ r ∈ d.snapshot, r.path ≠ [] := fun r hr => snapshot_path_ne_nil hr
  have hpath' : ∀ r ∈ d'.snapshot, r.path ≠ [] := fun r hr => snapshot_path_ne_nil hr
  rw [h.snapshotStream_eq, h'.snapshotStream_eq, Except.ok.injEq] at hstream
  rcases hd with hnil | ⟨r, hr, hfree⟩
  · rw [hnil] at hstream ⊢
    cases hsnap' : d'.snapshot with
    | nil => rfl
    | cons s rest =>
      rw [hsnap'] at hstream
      exact absurd hstream.symm (FieldRecord.encode_ne_nil _ _)
  · rw [hr] at hstream hpath ⊢
    match hsnap' : d'.snapshot with
    | [] =>
      rw [hsnap'] at hstream
      exact absurd hstream (FieldRecord.encode_ne_nil _ _)
    | [s] =>
      rw [hsnap'] at hstream hpath'
      obtain ⟨hkey, htag, hbody⟩ :=
        FieldRecord.encode_cons_inj (nul_not_mem_key r) (nul_not_mem_key s) hstream
      have hfields : recordFields r = recordFields s := by
        rw [FieldRecord.mk.injEq]
        exact ⟨hkey, htag, List.append_cancel_right hbody⟩
      rw [recordFields_inj (hpath r (by simp)) (hpath' s (by simp)) hfields]
    | s :: t :: rest =>
      have hlist := h'.listableAfter hsnap'
      rw [hsnap'] at hstream hpath'
      obtain ⟨hkey, _, _⟩ :=
        FieldRecord.encode_cons_inj (nul_not_mem_key r) (nul_not_mem_key s) hstream
      obtain ⟨back, hback⟩ :=
        FieldRecord.exists_body_split (nul_not_mem_key r) (nul_not_mem_key s) hstream
      rw [← pathBytes_injective (hpath r (by simp)) (hpath' s (by simp)) hkey] at hlist
      exact absurd hlist (hfree _ _ _ _ hback)

theorem snapshotStream_ok_iff {os : Platform} {d : Directory} {stream : Bytes} :
    snapshotStream os d = .ok stream ↔ Collectible os d ∧
      stream = FieldRecord.encode 0 (d.snapshot.map recordFields) := by
  constructor
  · intro h
    obtain ⟨files, hcollect, _⟩ := Result.bind_ok_iff.mp h
    obtain ⟨hd, _⟩ := collect_ok_iff.mp hcollect
    rw [hd.snapshotStream_eq] at h
    exact ⟨hd, (Except.ok.inj h).symm⟩
  · rintro ⟨hd, rfl⟩
    exact hd.snapshotStream_eq

theorem verify_ok_iff {os : Platform} {d : Directory} {expected : String} :
    verify os (some d) expected = .ok () ↔
      ∃ stream, snapshotStream os d = .ok stream ∧ "sha256:" ++ os.sha256 stream = expected := by
  simp only [verify, treeDigest, snapshotStream, Result.bind_ok_iff, Result.okOr_ok_iff,
    Result.ensure_ok_iff, Result.pure_ok_iff]
  constructor
  · rintro ⟨root, hroot, files, hfiles, digest, ⟨stream, hstream, rfl⟩, heq⟩
    obtain rfl := Option.some.inj hroot
    exact ⟨stream, ⟨files, hfiles, hstream⟩, heq⟩
  · rintro ⟨stream, ⟨files, hfiles, hstream⟩, heq⟩
    exact ⟨d, rfl, files, hfiles, _, ⟨stream, hstream, rfl⟩, heq⟩

/-- A tree that is not unambiguous shares its stream with another one. -/
theorem Collectible.exists_collision {os : Platform} {d : Directory} (h : Collectible os d)
    (hd : ¬ Unambiguous os d) :
    ∃ d', Collectible os d' ∧ snapshotStream os d = snapshotStream os d' ∧ ¬ d.SameFiles d' := by
  match hsnap : d.snapshot with
  | [] => exact absurd (.inl hsnap) hd
  | [r] =>
    by_contra hnone
    refine hd (.inr ⟨r, hsnap, fun front q e back hcontent hlist => hnone ?_⟩)
    exact h.exists_released hsnap hcontent hlist
  | r :: s :: rest => exact h.exists_swallowed hsnap

theorem Collectible.identified_iff {os : Platform} {d : Directory} (h : Collectible os d) :
    Identified os d ↔ Unambiguous os d := by
  constructor
  · intro hident
    by_contra hd
    obtain ⟨d', h', hstream, hdiff⟩ := h.exists_collision hd
    exact hdiff (hident d' _ h.snapshotStream_eq (hstream ▸ h.snapshotStream_eq))
  · intro hd d' stream hstream hstream'
    obtain ⟨h', _⟩ := snapshotStream_ok_iff.mp hstream'
    rw [h.distinct.sameFiles_iff h'.distinct]
    exact hd.snapshot_eq h h' (hstream.trans hstream'.symm)

theorem verifiedOnly_iff_identified {os : Platform} {d : Directory} :
    VerifiedOnly os d ↔ Identified os d := by
  constructor
  · intro honly d' stream hstream hstream'
    exact honly d' stream stream hstream hstream' (fun _ => rfl)
      (verify_ok_iff.mpr ⟨stream, hstream', rfl⟩)
  · intro hident d' stream stream' hstream hstream' hsha hverify
    obtain ⟨actual, hactual, hdigest⟩ := verify_ok_iff.mp hverify
    obtain rfl := Except.ok.inj (hstream'.symm.trans hactual)
    have heq : stream = stream' := hsha ((String.append_right_inj _).mp hdigest).symm
    exact hident d' stream hstream (heq ▸ hstream')

/-- The digest of an accepted tree identifies it, and `verify` accepts nothing
else under it, exactly when the tree is unambiguous. -/
theorem identified_iff_unambiguous (os : Platform) (d : Directory) (files : List Path)
    (h : collect os d = .ok files) :
    (Identified os d ↔ Unambiguous os d) ∧ (VerifiedOnly os d ↔ Unambiguous os d) := by
  obtain ⟨hd, _⟩ := collect_ok_iff.mp h
  exact ⟨hd.identified_iff, verifiedOnly_iff_identified.trans hd.identified_iff⟩

private theorem nameA_valid : ([97] : Bytes) ≠ [] ∧ 0 ∉ ([97] : Bytes) ∧ separator ∉ ([97] : Bytes) := by
  decide

private def nameA : FileName := ⟨[97], nameA_valid⟩

private theorem nameB_valid : ([98] : Bytes) ≠ [] ∧ 0 ∉ ([98] : Bytes) ∧ separator ∉ ([98] : Bytes) := by
  decide

private def nameB : FileName := ⟨[98], nameB_valid⟩

/-- A lone file `a` that holds `x`. -/
private def single : Directory :=
  .file nameA { content := [120], executable := false, links := 1 } .empty

theorem identified_iff_unambiguous_single :
    let os := Platform.ascii
      (fun _ => "44bd28b3aea21a093ff20a2e4370e42c94e23845036c6044fc2239922506355a")
    (Identified os single ↔ Unambiguous os single) ∧
      (VerifiedOnly os single ↔ Unambiguous os single) :=
  identified_iff_unambiguous _ single [[nameA]] (by decide)

/-- Files `a` and `b`, holding `x` and `y`. -/
private def pair : Directory :=
  .file nameA { content := [120], executable := false, links := 1 }
    (.file nameB { content := [121], executable := false, links := 1 } .empty)

/-- A lone file `a` whose content spells the fields of `b`. -/
private def swallowed : Directory :=
  .file nameA { content := [120, 0, 98, 0, 0, 0, 121], executable := false, links := 1 } .empty

/-- Two accepted trees with other files are hashed alike, and `verify` takes
one for the other. -/
theorem swallowed_not_identified :
    let os := Platform.ascii
      (fun _ => "8297820a4a4fd2ed07cbe8fb902db2b865da39cec20985bc46dbb99e2556663e")
    collect os pair = .ok [[nameA], [nameB]] ∧ collect os swallowed = .ok [[nameA]] ∧
      snapshotStream os pair = snapshotStream os swallowed ∧
      treeDigest os pair [[nameA], [nameB]] = .ok
        "sha256:8297820a4a4fd2ed07cbe8fb902db2b865da39cec20985bc46dbb99e2556663e" ∧
      verify os (some swallowed)
        "sha256:8297820a4a4fd2ed07cbe8fb902db2b865da39cec20985bc46dbb99e2556663e" = .ok () ∧
      ¬ pair.SameFiles swallowed := by
  refine ⟨by decide, by decide, by decide, by decide, by decide, fun hsame => ?_⟩
  exact absurd (hsame [nameB]) (by decide)

/-- Files without NUL are told apart by the digest, in any number. -/
theorem sameFiles_of_nulFree {os : Platform} {d d' : Directory} (h : Collectible os d)
    (h' : Collectible os d') (hfree : ∀ r ∈ d.snapshot, 0 ∉ r.content)
    (hfree' : ∀ r ∈ d'.snapshot, 0 ∉ r.content)
    (hstream : snapshotStream os d = snapshotStream os d') : d.SameFiles d' := by
  have hplain : ∀ {l : List FileRecord}, (∀ r ∈ l, 0 ∉ r.content) →
      ∀ f ∈ l.map recordFields, 0 ∉ f.key ∧ 0 ∉ f.body := by
    intro l hl f hf
    obtain ⟨r, hr, rfl⟩ := List.mem_map.mp hf
    exact ⟨nul_not_mem_key r, hl r hr⟩
  rw [h.snapshotStream_eq, h'.snapshotStream_eq, Except.ok.injEq] at hstream
  have hfields := FieldRecord.encode_injective_of_free (hplain hfree) (hplain hfree') hstream
  rw [h.distinct.sameFiles_iff h'.distinct]
  exact eq_of_recordFields (fun _ hr => snapshot_path_ne_nil hr)
    (fun _ hr => snapshot_path_ne_nil hr) hfields

end A3sBench.TaskSnapshot
