import A3sBench.RemoteTree
import A3sBench.StagingTree

/-!
# Capturing a tree that was written

A captured tree is written file by file under the target; what is read back has
the same paths and bytes, and no executable bit.
-/

namespace A3sBench.OsRuntime

open Library

/-! ## What `capture` accepts -/

/-- A name that `read_dir` may return. -/
def PlainName (name : FileName) : Prop := name.val ≠ dot ∧ name.val ≠ dotDot

structure Listed (d : Directory) : Prop where
  distinct : d.Distinct
  plain : ∀ e ∈ d.walk, ∀ name ∈ e.1, PlainName name

theorem component_plain {name : FileName} (h : PlainName name) :
    component name.val = some (.normal name.val) := by
  rw [component, if_neg (by simp [name.2.1, h.1]), if_neg h.2]

theorem filterMap_component {path : Path} (h : ∀ name ∈ path, PlainName name) :
    (path.map Subtype.val).filterMap component = path.map (fun name => .normal name.val) := by
  induction path with
  | nil => rfl
  | cons name path ih =>
      obtain ⟨hname, hpath⟩ := List.forall_mem_cons.mp h
      rw [List.map_cons, List.filterMap_cons_some (component_plain hname), ih hpath, List.map_cons]

theorem head?_pathBytes {path : Path} (h : path ≠ []) : (pathBytes path).head? ≠ some separator := by
  cases path with
  | nil => exact absurd rfl h
  | cons name rest =>
      obtain ⟨b, bytes, hbytes⟩ := List.exists_cons_of_ne_nil name.2.1
      have hhead : (pathBytes (name :: rest)).head? = some b := by
        cases rest <;> simp [pathBytes, List.intercalate, hbytes]
      have hb : separator ≠ b := fun heq => name.2.2.2 (by simp [hbytes, heq])
      rw [hhead]
      exact fun heq => hb (Option.some.inj heq).symm

theorem components_pathBytes {path : Path} (hne : path ≠ []) (h : ∀ name ∈ path, PlainName name) :
    components (pathBytes path) = path.map (fun name => .normal name.val) := by
  have hfirst : (path.map Subtype.val).head? ≠ some dot := by
    cases path with
    | nil => exact absurd rfl hne
    | cons name rest => simpa using (h name List.mem_cons_self).1
  simp only [components, splitOn_pathBytes hne]
  rw [if_neg (head?_pathBytes hne), if_neg hfirst, filterMap_component h, List.nil_append]

def Utf8Path (path : Path) : Prop := ∀ name ∈ path, isUtf8 name.val = true

theorem mapM_normalName {path : Path} {values : List Bytes} :
    (path.map (fun name => Component.normal name.val)).mapM normalName = .ok values ↔
      Utf8Path path ∧ path.map Subtype.val = values := by
  induction path generalizing values with
  | nil => simp [Utf8Path]
  | cons name path ih =>
      simp only [List.map_cons, List.mapM_cons, normalName, Result.bind_ok_iff, ih,
        Result.exists_unit_iff, Result.ensure_ok_iff, Result.pure_ok_iff, Utf8Path,
        List.forall_mem_cons]
      constructor
      · rintro ⟨_, ⟨hname, rfl⟩, _, ⟨hpath, rfl⟩, rfl⟩
        exact ⟨⟨hname, hpath⟩, rfl⟩
      · rintro ⟨⟨hname, hpath⟩, rfl⟩
        exact ⟨_, ⟨hname, rfl⟩, _, ⟨hpath, rfl⟩, rfl⟩

theorem portableRelativePath_ok_iff {path : Path} (hne : path ≠ [])
    (h : ∀ name ∈ path, PlainName name) {b : Bytes} :
    portableRelativePath (pathBytes path) = .ok b ↔ Utf8Path path ∧ pathBytes path = b := by
  rw [portableRelativePath, components_pathBytes hne h]
  simp only [Result.bind_ok_iff, mapM_normalName, Result.exists_unit_iff, Result.ensure_ok_iff,
    Result.pure_ok_iff]
  constructor
  · rintro ⟨_, ⟨hutf8, rfl⟩, _, rfl⟩
    exact ⟨hutf8, rfl⟩
  · rintro ⟨hutf8, rfl⟩
    exact ⟨_, ⟨hutf8, rfl⟩, fun h => hne (List.map_eq_nil_iff.mp h), rfl⟩

/-- The file a record is sent as. -/
def remoteFile (r : FileRecord) : RemoteFile :=
  { path := pathBytes r.path, data := String.ofList (Base64.encode r.content),
    executable := r.executable }

def FileRecord.under (directory : Path) (r : FileRecord) : FileRecord :=
  { r with path := directory ++ r.path }

/-- An entry that a captured tree may hold. -/
def Carried (path : Path) : EntryKind → Prop
  | .file _ => Utf8Path path
  | .directory => True
  | .symlink | .special => False

theorem captureDirectory_ok_iff {d : Directory} {directory : Path} {files : List RemoteFile}
    (hat : ∀ name ∈ directory, PlainName name)
    (h : ∀ e ∈ d.walk, ∀ name ∈ e.1, PlainName name) :
    captureDirectory directory d = .ok files ↔
      (∀ e ∈ d.walk, Carried (directory ++ e.1) e.2) ∧
        d.records.map (fun r => remoteFile (FileRecord.under directory r)) = files := by
  induction d generalizing directory files with
  | empty => simp [captureDirectory, Directory.walk, Directory.records]
  | file name data rest ih =>
      obtain ⟨hname, hrest⟩ := List.forall_mem_cons.mp h
      have hplain : ∀ n ∈ directory ++ [name], PlainName n :=
        List.forall_mem_append.mpr ⟨hat, hname⟩
      simp only [captureDirectory, Result.bind_ok_iff,
        portableRelativePath_ok_iff (by simp : directory ++ [name] ≠ []) hplain, ih hat hrest,
        Result.pure_ok_iff, Directory.walk, List.forall_mem_cons, Carried, Directory.records,
        List.filterMap_cons, fileRecord, List.map_cons]
      constructor
      · rintro ⟨_, ⟨hutf8, rfl⟩, _, ⟨hrest, rfl⟩, rfl⟩
        exact ⟨⟨hutf8, hrest⟩, rfl⟩
      · rintro ⟨⟨hutf8, hrest⟩, rfl⟩
        exact ⟨_, ⟨hutf8, rfl⟩, _, ⟨hrest, rfl⟩, rfl⟩
  | directory name inner rest ihInner ih =>
      obtain ⟨hname, hbelow⟩ := List.forall_mem_cons.mp h
      obtain ⟨hinner, hrest⟩ := List.forall_mem_append.mp hbelow
      have hplain : ∀ n ∈ directory ++ [name], PlainName n :=
        List.forall_mem_append.mpr ⟨hat, hname⟩
      have hinner : ∀ e ∈ inner.walk, ∀ n ∈ e.1, PlainName n :=
        fun e he n hn => hinner _ (List.mem_map_of_mem he) n (List.mem_cons_of_mem _ hn)
      have hkinds : (∀ e ∈ (inner.walk.map (fun e => (name :: e.1, e.2))),
          Carried (directory ++ e.1) e.2) ↔
          ∀ e ∈ inner.walk, Carried (directory ++ [name] ++ e.1) e.2 := by
        simp only [List.forall_mem_map, List.append_assoc, List.singleton_append]
      have hrecords : ((inner.walk.map (fun e => (name :: e.1, e.2))).filterMap fileRecord).map
            (fun r => remoteFile (FileRecord.under directory r)) =
          inner.records.map (fun r => remoteFile (FileRecord.under (directory ++ [name]) r)) := by
        simp only [Directory.records, List.filterMap_map, List.map_filterMap]
        congr 1
        funext e
        obtain ⟨path, kind⟩ := e
        cases kind <;> simp [fileRecord, FileRecord.under, remoteFile]
      simp only [captureDirectory, Result.bind_ok_iff, ihInner hplain hinner, ih hat hrest,
        Result.pure_ok_iff, Directory.walk, List.forall_mem_cons, List.forall_mem_append, Carried,
        true_and, Directory.records, List.filterMap_cons, fileRecord,
        List.filterMap_append, List.map_append, hrecords]
      constructor
      · rintro ⟨_, ⟨hinside, rfl⟩, _, ⟨hafter, rfl⟩, rfl⟩
        exact ⟨⟨hkinds.mpr hinside, hafter⟩, rfl⟩
      · rintro ⟨⟨hinside, hafter⟩, rfl⟩
        exact ⟨_, ⟨hkinds.mp hinside, rfl⟩, _, ⟨hafter, rfl⟩, rfl⟩
  | symlink name rest ih =>
      simp [captureDirectory, Directory.walk, Carried]
  | special name rest ih =>
      simp [captureDirectory, Directory.walk, Carried]

theorem capture_ok_iff {d : Directory} (h : ∀ e ∈ d.walk, ∀ name ∈ e.1, PlainName name)
    {tree : RemoteTree} :
    capture d = .ok tree ↔ (∀ e ∈ d.walk, Carried e.1 e.2) ∧
      (d.records.map remoteFile).insertionSort (fun left right => left.path ≤ right.path) =
        tree.files := by
  have hroot : ∀ files, captureDirectory [] d = .ok files ↔
      (∀ e ∈ d.walk, Carried e.1 e.2) ∧ d.records.map remoteFile = files :=
    fun files => captureDirectory_ok_iff (fun name h => absurd h List.not_mem_nil) h
  simp only [capture, Result.bind_ok_iff, hroot, Result.pure_ok_iff]
  constructor
  · rintro ⟨_, ⟨hcarried, rfl⟩, rfl⟩
    exact ⟨hcarried, rfl⟩
  · rintro ⟨hcarried, hfiles⟩
    exact ⟨_, ⟨hcarried, rfl⟩, congrArg RemoteTree.mk hfiles⟩

/-! ## Making directories -/

variable {kernel : Kernel} {fs fs' : FileSystem} {root path : Path}

/-- Nothing but directories on the way to a location, and nothing yet below the first gap. -/
def Walkable (fs : FileSystem) (path : Path) : Prop :=
  ∀ q, q <+: path → fs q = none ∨ ∃ mode, fs q = some (.directory mode)

/-- The file system with the missing directories on the way. -/
def withDirectories (kernel : Kernel) (fs : FileSystem) (path : Path) : FileSystem := fun q =>
  if q <+: path ∧ fs q = none then some (.directory (0o777 &&& ~~~kernel.umask)) else fs q

theorem Walkable.follow (h : Walkable fs path) : kernel.follow fs path = .ok path := by
  refine kernel.follow_of_no_link fs path (fun q hq hlink => ?_)
  obtain ⟨target, htarget⟩ := hlink
  rcases h q hq with hnone | ⟨mode, hmode⟩
  · simp [hnone] at htarget
  · simp [hmode] at htarget

theorem Walkable.mono {path q : Path} (h : Walkable fs path) (hq : q <+: path) : Walkable fs q :=
  fun r hr => h r (hr.trans hq)

theorem withDirectories_ne_none {path q : Path} (h : q <+: path) :
    withDirectories kernel fs path q ≠ none := by
  unfold withDirectories
  split_ifs with hgap
  · simp
  · exact fun hnone => hgap ⟨h, hnone⟩

theorem withDirectories_of_some {path q : Path} (h : fs q ≠ none) :
    withDirectories kernel fs path q = fs q := if_neg (fun hgap => h hgap.2)

theorem withDirectories_elsewhere {path q : Path} (h : ¬ q <+: path) :
    withDirectories kernel fs path q = fs q := if_neg (fun hgap => h hgap.1)

theorem Walkable.withDirectories {path : Path} (h : Walkable fs path) {q : Path} :
    Walkable (withDirectories kernel fs q) path := by
  intro r hr
  unfold OsRuntime.withDirectories
  split_ifs with hgap
  · exact .inr ⟨_, rfl⟩
  · exact h r hr

theorem withDirectories_trans {path q : Path} (h : q <+: path) :
    withDirectories kernel (withDirectories kernel fs q) path = withDirectories kernel fs path := by
  funext r
  by_cases hr : r <+: q
  · rw [withDirectories_of_some (withDirectories_ne_none hr)]
    simp [withDirectories, hr, hr.trans h]
  · simp [withDirectories, hr]

theorem makeDirectory_gap (kernel : Kernel) {path : Path} (hbefore : ∀ q, q <+: path → q ≠ path → fs q ≠ none)
    (h : Walkable fs path) :
    kernel.makeDirectory path fs = (withDirectories kernel fs path, .ok ()) := by
  have hsame : ∀ q ≠ path, withDirectories kernel fs path q = fs q := by
    intro q hq
    by_cases hstands : q <+: path
    · exact withDirectories_of_some (hbefore q hstands hq)
    · exact withDirectories_elsewhere hstands
  simp only [Kernel.makeDirectory, Kernel.call, h.follow]
  rcases h path (List.prefix_refl _) with hnone | ⟨mode, hmode⟩
  · simp only [hnone]
    congr 1
    funext q
    by_cases hq : q = path
    · subst hq
      simp [FileSystem.put, withDirectories, hnone]
    · rw [hsame q hq]
      exact Function.update_of_ne hq ..
  · simp only [hmode]
    congr 1
    funext q
    by_cases hq : q = path
    · subst hq
      exact (withDirectories_of_some (by simp [hmode])).symm
    · exact (hsame q hq).symm

/-- `create_dir_all` fills the gaps and changes nothing else. -/
theorem createDirAll_walkable (rest : Path) : ∀ (ancestor : Path) (fs : FileSystem),
    (∀ q, q <+: ancestor → q ≠ ancestor → fs q ≠ none) → Walkable fs (ancestor ++ rest) →
      kernel.createDirAll ancestor rest fs =
        (withDirectories kernel fs (ancestor ++ rest), .ok ()) := by
  induction rest with
  | nil =>
      intro ancestor fs hbefore h
      rw [List.append_nil] at h ⊢
      exact makeDirectory_gap kernel hbefore h
  | cons name rest ih =>
      intro ancestor fs hbefore h
      have hpath : ancestor ++ name :: rest = ancestor ++ [name] ++ rest := by simp
      have hat : ancestor <+: ancestor ++ name :: rest := List.prefix_append ..
      have hmade := makeDirectory_gap kernel hbefore (h.mono hat)
      have hgaps : ∀ q, q <+: ancestor ++ [name] → q ≠ ancestor ++ [name] →
          withDirectories kernel fs ancestor q ≠ none := by
        intro q hq hne
        exact withDirectories_ne_none ((List.prefix_concat_iff.mp hq).resolve_left hne)
      change Action.bind _ _ fs = _
      rw [Action.bind, hmade]
      have hrest := ih (ancestor ++ [name]) _ hgaps (hpath ▸ h.withDirectories)
      rw [← hpath, withDirectories_trans hat] at hrest
      exact hrest

theorem createDirAll_root {path : Path} (h : Walkable fs path) :
    kernel.createDirAll [] path fs = (withDirectories kernel fs path, .ok ()) :=
  createDirAll_walkable path [] fs (fun _ hq hne => absurd (List.prefix_nil.mp hq) hne) h

theorem dropLast_append_getLast? (path : Path) : path.dropLast ++ path.getLast?.toList = path := by
  cases hlast : path.getLast? with
  | none =>
    obtain rfl := List.getLast?_eq_none_iff.mp hlast
    rfl
  | some name => exact List.dropLast_append_getLast? name hlast

/-- `secure_directory` leaves directories on the way and mode 0700 at the end. -/
theorem secureDirectory_walkable {path : Path} (h : Walkable fs path) :
    kernel.secureDirectory path fs =
      ((withDirectories kernel fs path).put path (.directory 0o700), .ok ()) := by
  have hmade : Walkable (withDirectories kernel fs path) path := h.withDirectories
  obtain ⟨mode, hmode⟩ : ∃ mode, withDirectories kernel fs path path = some (.directory mode) :=
    (hmade path (List.prefix_refl _)).resolve_left (withDirectories_ne_none (List.prefix_refl _))
  refine Action.bind_ok_iff.mpr ⟨_, _, createDirAll_root h, ?_⟩
  refine Action.bind_ok_iff.mpr ⟨.directory mode, withDirectories kernel fs path, ?_, ?_⟩
  · simp only [Kernel.symlinkMetadata, Kernel.call, (hmade.mono (List.dropLast_prefix path)).follow,
      dropLast_append_getLast?, hmode]
    rfl
  · refine Action.bind_ok_iff.mpr ⟨(), _, rfl, ?_⟩
    simp only [Kernel.setPermissions, Kernel.call, hmade.follow, hmode]
    rfl

/-! ## The paths of the files -/

theorem filter_normal (path : Path) :
    (path.map (fun name => Component.normal name.val)).filter (fun c => c ≠ .curDir) =
      path.map (fun name => Component.normal name.val) := by
  apply List.filter_eq_self.mpr
  intro c hc
  obtain ⟨name, -, rfl⟩ := List.mem_map.mp hc
  rfl

theorem join_pathBytes {path : Path} (hne : path ≠ []) (h : ∀ name ∈ path, PlainName name) :
    join root (pathBytes path) = rootComponents (root ++ path) := by
  rw [join, if_neg (head?_pathBytes hne), components_pathBytes hne h, filter_normal]
  simp [rootComponents]

theorem foldlM_enterComponent (path : Path) : ∀ reached : Path,
    (path.map (fun name => Component.normal name.val)).foldlM enterComponent reached =
      .ok (reached ++ path) := by
  induction path with
  | nil => exact fun reached => congrArg Except.ok (List.append_nil reached).symm
  | cons name path ih =>
      intro reached
      rw [List.map_cons, List.foldlM_cons, enterComponent, dif_pos name.2]
      exact (ih (reached ++ [name])).trans (by simp)

theorem systemPath_rootComponents (path : Path) : systemPath (rootComponents path) = .ok path :=
  foldlM_enterComponent path []

theorem dropLast_rootComponents {path : Path} (hne : path ≠ []) :
    (rootComponents path).dropLast = rootComponents path.dropLast := by
  simp only [rootComponents]
  rw [List.dropLast_cons_of_ne_nil (fun h => hne (List.map_eq_nil_iff.mp h)), List.map_dropLast]

/-! ## Writing the files of a tree -/

/-- A new file `content` below directories that may have to be made. -/
def withFile (kernel : Kernel) (fs : FileSystem) (path : Path) (content : Bytes)
    (readOnly : Bool) : FileSystem :=
  ((withDirectories kernel fs path.dropLast).put path.dropLast (.directory 0o700)).put path
    (.file content (Kernel.ownerOnlyMode readOnly false))

theorem newFile_not_executable (umask : Mode) :
    Mode.isExecutable (0o666 &&& ~~~umask) = false := by
  have hbits : (0o666 &&& 0o111 : Mode) = 0 := by decide
  have hnone : (0o666 &&& ~~~umask) &&& 0o111 = (0 : Mode) := by
    rw [BitVec.and_assoc, BitVec.and_comm (~~~umask), ← BitVec.and_assoc, hbits]
    exact BitVec.zero_and
  exact bne_eq_false_iff_eq.mpr hnone

theorem Walkable.follow_put_file (h : Walkable fs path) (content : Bytes) (mode : Mode) :
    kernel.follow (fs.put path (.file content mode)) path = .ok path := by
  refine kernel.follow_of_no_link _ path (fun q hq hlink => ?_)
  obtain ⟨target, htarget⟩ := hlink
  by_cases hsame : q = path
  · subst hsame
    simp [FileSystem.put] at htarget
  · rw [FileSystem.put, Function.update_of_ne hsame] at htarget
    rcases h q hq with hnone | ⟨mode, hmode⟩
    · simp [hnone] at htarget
    · simp [hmode] at htarget

/-- `write` and `set_owner_only_file` on a free path: the new file is never executable. -/
theorem write_setOwnerOnlyFile {content : Bytes} {readOnly : Bool} (hwalk : Walkable fs path)
    (hfree : fs path = none) (hparent : ∃ mode, fs path.dropLast = some (.directory mode)) :
    (do
      kernel.write path content
      kernel.setOwnerOnlyFile path readOnly : FsAction Unit) fs =
      (fs.put path (.file content (Kernel.ownerOnlyMode readOnly false)), .ok ()) := by
  obtain ⟨mode, hmode⟩ := hparent
  let created : Mode := 0o666 &&& ~~~kernel.umask
  have hwrite : kernel.write path content fs =
      (fs.put path (.file content created), .ok ()) := by
    simp only [Kernel.write, Kernel.call, hwalk.follow, hfree, hmode, created]
  have hself : fs.put path (.file content created) path = some (.file content created) :=
    Function.update_self ..
  refine Action.bind_ok_iff.mpr ⟨(), _, hwrite, ?_⟩
  refine Action.bind_ok_iff.mpr ⟨.file content created, fs.put path (.file content created), ?_, ?_⟩
  · simp only [Kernel.metadata, Kernel.call, hwalk.follow_put_file, hself]
    rfl
  · have hplain : Mode.isExecutable created = false := newFile_not_executable kernel.umask
    simp only [Kernel.setPermissions, Kernel.call, hwalk.follow_put_file, hself, Node.mode, hplain,
      Node.withMode]
    simp only [FileSystem.put, Function.update_idem]

theorem ne_of_prefix_dropLast {q : Path} (hne : path ≠ []) (h : q <+: path.dropLast) :
    q ≠ path := by
  rintro rfl
  have hlength := h.length_le
  have hpos := List.length_pos_of_ne_nil hne
  rw [List.length_dropLast] at hlength
  omega

theorem replaceFile_ok (kernel : Kernel) {file : RemoteFile} {content : Bytes} (hne : path ≠ [])
    (hplain : ∀ name ∈ path, PlainName name) (hutf8 : Utf8Path path)
    (hpath : file.path = pathBytes path) (hdata : Base64.decode file.data.toList = some content)
    (hwalk : Walkable fs (root ++ path)) (hfree : fs (root ++ path) = none) :
    replaceFile kernel root file fs =
      (withFile kernel fs (root ++ path) content file.executable, .ok ()) := by
  have hparent : (root ++ path).dropLast <+: root ++ path := List.dropLast_prefix _
  have hlocation : root ++ path ≠ [] := by simp [hne]
  have hjoin : join root file.path = rootComponents (root ++ path) := by
    rw [hpath, join_pathBytes hne hplain]
  have hvalid : validateRelativePath file.path = .ok () := by
    refine Result.bind_ok_iff.mpr ⟨pathBytes path, ?_, rfl⟩
    rw [hpath]
    exact (portableRelativePath_ok_iff hne hplain).mpr ⟨hutf8, rfl⟩
  have hstarts : rootComponents root <+: rootComponents (root ++ path) := by
    simp [rootComponents]
  refine Action.bind_ok_iff.mpr ⟨(), fs, by rw [Action.lift, hvalid], ?_⟩
  rw [hjoin]
  refine Action.bind_ok_iff.mpr ⟨(), fs, by rw [Action.lift, ensure, if_pos hstarts], ?_⟩
  refine Action.bind_ok_iff.mpr ⟨(root ++ path).dropLast, fs, ?_, ?_⟩
  · rw [dropLast_rootComponents hlocation, systemPath_rootComponents]
    rfl
  refine Action.bind_ok_iff.mpr ⟨(), _, secureDirectory_walkable (hwalk.mono hparent), ?_⟩
  refine Action.bind_ok_iff.mpr ⟨content, _, by rw [Action.lift, hdata]; rfl, ?_⟩
  refine Action.bind_ok_iff.mpr
    ⟨root ++ path, _, by rw [Action.lift, systemPath_rootComponents], ?_⟩
  have hbelow : ¬ root ++ path <+: (root ++ path).dropLast :=
    fun h => ne_of_prefix_dropLast hlocation h rfl
  have hother : root ++ path ≠ (root ++ path).dropLast := fun h => hbelow (h ▸ List.prefix_refl _)
  refine write_setOwnerOnlyFile (fun q hq => ?_) ?_ ⟨0o700, Function.update_self ..⟩
  · by_cases hsame : q = (root ++ path).dropLast
    · exact .inr ⟨0o700, by rw [hsame]; exact Function.update_self ..⟩
    · rw [FileSystem.put, Function.update_of_ne hsame]
      exact hwalk.withDirectories q hq
  · rw [FileSystem.put, Function.update_of_ne hother, withDirectories_elsewhere hbelow, hfree]

theorem prefix_dropLast {q : Path} (h : q <+: path) (hne : q ≠ path) : q <+: path.dropLast := by
  cases hlast : path.getLast? with
  | none =>
    obtain rfl := List.getLast?_eq_none_iff.mp hlast
    exact h
  | some name =>
    have hpath := List.dropLast_append_getLast? name hlast
    rw [← hpath] at h hne
    exact (List.prefix_concat_iff.mp h).resolve_left hne

section WithFile

variable {q : Path} {content : Bytes} {readOnly : Bool}

theorem withFile_elsewhere (hne : q ≠ path) (h : ¬ q <+: path.dropLast) :
    withFile kernel fs path content readOnly q = fs q := by
  have hparent : q ≠ path.dropLast := fun heq => h (heq ▸ List.prefix_refl _)
  rw [withFile, FileSystem.put, Function.update_of_ne hne, FileSystem.put,
    Function.update_of_ne hparent, withDirectories_elsewhere h]

theorem withFile_of_some (hne : q ≠ path) (hparent : q ≠ path.dropLast) (h : fs q ≠ none) :
    withFile kernel fs path content readOnly q = fs q := by
  rw [withFile, FileSystem.put, Function.update_of_ne hne, FileSystem.put,
    Function.update_of_ne hparent, withDirectories_of_some h]

theorem withFile_directory (hpath : path ≠ []) (hwalk : Walkable fs path)
    (h : q <+: path.dropLast) : ∃ mode, withFile kernel fs path content readOnly q =
      some (.directory mode) := by
  rw [withFile, FileSystem.put, Function.update_of_ne (ne_of_prefix_dropLast hpath h)]
  by_cases hparent : q = path.dropLast
  · exact ⟨0o700, by rw [hparent]; exact Function.update_self ..⟩
  · rw [FileSystem.put, Function.update_of_ne hparent]
    exact (hwalk.withDirectories q (h.trans (List.dropLast_prefix path))).resolve_left
      (withDirectories_ne_none h)

end WithFile

/-- What a tree is written as: paths below the root, with the bytes there. -/
abbrev Contents := List (Path × Bytes)

/-- The file system `before`, with the root holding exactly these files. -/
structure Holds (before : FileSystem) (root : Path) (contents : Contents) (fs : FileSystem) :
    Prop where
  outside : ∀ q, ¬ root <+: q → fs q = before q
  top : ∃ mode, fs root = some (.directory mode)
  file : ∀ e ∈ contents, ∃ mode, fs (root ++ e.1) = some (.file e.2 mode) ∧
    mode.isExecutable = false
  directory : ∀ e ∈ contents, ∀ q, q <+: e.1 → q ≠ e.1 →
    ∃ mode, fs (root ++ q) = some (.directory mode)
  only : ∀ q, q ≠ [] → fs (root ++ q) ≠ none → ∃ e ∈ contents, q <+: e.1

/-- The root is a directory, reached through directories. -/
def Reached (fs : FileSystem) (root : Path) : Prop :=
  ∀ q, q <+: root → ∃ mode, fs q = some (.directory mode)

namespace Holds

variable {before : FileSystem} {contents : Contents}

theorem walkable (hs : Holds before root contents fs) (hreached : Reached before root)
    (hfree : ∀ e ∈ contents, ¬ e.1 <+: path) : Walkable fs (root ++ path) := by
  intro q hq
  rcases List.prefix_or_prefix_of_prefix hq (List.prefix_append root path) with hroot | ⟨r, rfl⟩
  · by_cases hsame : root <+: q
    · obtain rfl := hroot.eq_of_length_le hsame.length_le
      exact .inr hs.top
    · rw [hs.outside q hsame]
      exact .inr (hreached q hroot)
  · by_cases hr : r = []
    · subst hr
      rw [List.append_nil]
      exact .inr hs.top
    · by_cases hnone : fs (root ++ r) = none
      · exact .inl hnone
      · obtain ⟨e, he, hre⟩ := hs.only r hr hnone
        refine .inr (hs.directory e he r hre ?_)
        rintro rfl
        exact hfree e he (List.prefix_append_right_inj root |>.mp hq)

/-- One more file, next to those that are there. -/
theorem snoc (kernel : Kernel) (hs : Holds before root contents fs) (hreached : Reached before root)
    (hne : path ≠ []) (hfree : ∀ e ∈ contents, ¬ e.1 <+: path ∧ ¬ path <+: e.1) (content : Bytes)
    (readOnly : Bool) :
    Holds before root (contents ++ [(path, content)])
      (withFile kernel fs (root ++ path) content readOnly) := by
  have hwalk : Walkable fs (root ++ path) := hs.walkable hreached (fun e he => (hfree e he).1)
  have hlocation : root ++ path ≠ [] := by simp [hne]
  have hparent : (root ++ path).dropLast = root ++ path.dropLast :=
    List.dropLast_append_of_ne_nil hne
  have hbelow : ∀ q, root ++ q <+: (root ++ path).dropLast ↔ q <+: path.dropLast := by
    intro q
    rw [hparent, List.prefix_append_right_inj]
  have hproper : path.dropLast <+: path := List.dropLast_prefix path
  refine
    { outside := fun q hq => ?_, top := ?_, file := fun e he => ?_,
      directory := fun e he q hqe hne' => ?_, only := fun q hq hsome => ?_ }
  · have hother : q ≠ root ++ path := fun h => hq (h ▸ List.prefix_append ..)
    by_cases hway : q <+: (root ++ path).dropLast
    · have hroot : q <+: root :=
        (List.prefix_or_prefix_of_prefix hway (hparent ▸ List.prefix_append ..)).resolve_right hq
      obtain ⟨mode, hmode⟩ := hreached q hroot
      have hsame : fs q = before q := hs.outside q hq
      rw [withFile_of_some hother (fun h => hq (h ▸ hparent ▸ List.prefix_append ..))
        (by simp [hsame, hmode]), hsame]
    · rw [withFile_elsewhere hother hway, hs.outside q hq]
  · exact withFile_directory hlocation hwalk (hparent ▸ List.prefix_append ..)
  · rcases List.mem_append.mp he with he | he
    · have haway : ¬ root ++ e.1 <+: (root ++ path).dropLast :=
        fun h => (hfree e he).1 (((hbelow e.1).mp h).trans hproper)
      have hother : root ++ e.1 ≠ root ++ path := by
        intro h
        exact (hfree e he).1 (List.append_cancel_left h ▸ List.prefix_refl _)
      rw [withFile_elsewhere hother haway]
      exact hs.file e he
    · obtain rfl := List.mem_singleton.mp he
      refine ⟨_, Function.update_self .., ?_⟩
      cases readOnly <;> decide
  · by_cases hway : root ++ q <+: (root ++ path).dropLast
    · exact withFile_directory hlocation hwalk hway
    · rcases List.mem_append.mp he with he | he
      · have hother : root ++ q ≠ root ++ path := by
          intro h
          exact (hfree e he).2 (List.append_cancel_left h ▸ hqe)
        rw [withFile_elsewhere hother hway]
        exact hs.directory e he q hqe hne'
      · obtain rfl := List.mem_singleton.mp he
        exact absurd ((hbelow q).mpr (prefix_dropLast hqe hne')) hway
  · by_cases hpath : q = path
    · exact ⟨(path, content), by simp, hpath ▸ List.prefix_refl _⟩
    · by_cases hway : root ++ q <+: (root ++ path).dropLast
      · exact ⟨(path, content), by simp, ((hbelow q).mp hway).trans hproper⟩
      · rw [withFile_elsewhere (fun h => hpath (List.append_cancel_left h)) hway] at hsome
        obtain ⟨e, he, hqe⟩ := hs.only q hq hsome
        exact ⟨e, List.mem_append_left _ he, hqe⟩

end Holds

/-- The file that is sent for a path and its bytes. -/
structure Sends (file : RemoteFile) (path : Path) (content : Bytes) : Prop where
  ne : path ≠ []
  plain : ∀ name ∈ path, PlainName name
  utf8 : Utf8Path path
  path_eq : file.path = pathBytes path
  data : Base64.decode file.data.toList = some content

def Apart (a b : Path) : Prop := ¬ a <+: b ∧ ¬ b <+: a

/-- The loop of `replace`: whatever was written stays, and the files are added. -/
theorem forM_replaceFile (kernel : Kernel) {before : FileSystem} (hreached : Reached before root)
    {l : List FileRecord} (hsends : ∀ r ∈ l, Sends (remoteFile r) r.path r.content)
    (hapart : l.Pairwise (fun a b => Apart a.path b.path)) :
    ∀ (contents : Contents) (fs : FileSystem), Holds before root contents fs →
      (∀ e ∈ contents, ∀ r ∈ l, Apart e.1 r.path) →
      ∃ fs', (l.map remoteFile).forM (replaceFile kernel root) fs = (fs', .ok ()) ∧
        Holds before root (contents ++ l.map (fun r => (r.path, r.content))) fs' := by
  induction l with
  | nil =>
      intro contents fs hs _
      exact ⟨fs, rfl, by simpa using hs⟩
  | cons r l ih =>
      intro contents fs hs hothers
      obtain ⟨hr, hrest⟩ := List.forall_mem_cons.mp hsends
      obtain ⟨hfirst, hapart⟩ := List.pairwise_cons.mp hapart
      have hfree : ∀ e ∈ contents, ¬ e.1 <+: r.path ∧ ¬ r.path <+: e.1 :=
        fun e he => hothers e he r List.mem_cons_self
      have hwalk : Walkable fs (root ++ r.path) :=
        hs.walkable hreached (fun e he => (hfree e he).1)
      have hnone : fs (root ++ r.path) = none := by
        by_contra hsome
        obtain ⟨e, he, hstands⟩ := hs.only r.path hr.ne hsome
        exact (hfree e he).2 hstands
      have hwritten := replaceFile_ok kernel hr.ne hr.plain hr.utf8 hr.path_eq hr.data
        hwalk hnone
      have hnext := hs.snoc kernel hreached hr.ne hfree r.content
        (remoteFile r).executable
      obtain ⟨fs', hrun, hfinal⟩ := ih hrest hapart _ _ hnext (by
        intro e he q hq
        rcases List.mem_append.mp he with he | he
        · exact hothers e he q (List.mem_cons_of_mem _ hq)
        · obtain rfl := List.mem_singleton.mp he
          exact hfirst q hq)
      refine ⟨fs', ?_, by simpa using hfinal⟩
      exact Action.bind_ok_iff.mpr ⟨(), _, hwritten, hrun⟩

/-- Everything below the root is gone before the first file is written. -/
theorem clear_secureDirectory (kernel : Kernel) (hreached : Reached fs root) :
    ∃ cleared fs', kernel.clear root fs = (cleared, .ok ()) ∧
      kernel.secureDirectory root cleared = (fs', .ok ()) ∧ Holds fs root [] fs' := by
  let cleared : FileSystem := fun q => if root <+: q ∧ q ≠ root then none else fs q
  have hsame : ∀ q, ¬ (root <+: q ∧ q ≠ root) → cleared q = fs q := fun q hq => if_neg hq
  have hfollow : kernel.follow fs root = .ok root :=
    Walkable.follow (fun q hq => .inr (hreached q hq))
  have hway : Walkable cleared root := by
    intro q hq
    have hkept : ¬ (root <+: q ∧ q ≠ root) :=
      fun h => h.2 (hq.eq_of_length_le h.1.length_le)
    rw [hsame q hkept]
    exact .inr (hreached q hq)
  refine ⟨cleared, _, ?_, secureDirectory_walkable hway, ?_⟩
  · obtain ⟨mode, hmode⟩ := hreached root (List.prefix_refl _)
    simp only [Kernel.clear, hfollow, hmode, cleared]
  · have hat : ∀ q, q ≠ root →
        (withDirectories kernel cleared root).put root (.directory 0o700) q = cleared q := by
      intro q hq
      rw [FileSystem.put, Function.update_of_ne hq]
      by_cases hstands : q <+: root
      · refine withDirectories_of_some ?_
        obtain ⟨mode, hmode⟩ := hreached q hstands
        rw [hsame q (fun h => h.2 (hstands.eq_of_length_le h.1.length_le)), hmode]
        simp
      · exact withDirectories_elsewhere hstands
    refine
      { outside := fun q hq => ?_, top := ⟨0o700, Function.update_self ..⟩
        file := fun e he => absurd he List.not_mem_nil
        directory := fun e he => absurd he List.not_mem_nil
        only := fun q hq hsome => ?_ }
    · rw [hat q (fun h => hq (h ▸ List.prefix_refl _)), hsame q (fun h => hq h.1)]
    · have hne : root ++ q ≠ root := by simpa using hq
      rw [hat _ hne] at hsome
      exact absurd (if_pos ⟨List.prefix_append .., hne⟩) hsome

/-! ## Reading the tree back -/

theorem Listed.kind_eq {d : Directory} (h : Listed d) {path : Path} {kind kind' : EntryKind}
    (he : (path, kind) ∈ d.walk) (he' : (path, kind') ∈ d.walk) : kind = kind' :=
  (Prod.mk.inj (List.inj_on_of_nodup_map h.distinct he he' rfl)).2

theorem records_apart {d : Directory} (h : Listed d) {l : List FileRecord}
    (hl : l.Perm d.records) : l.Pairwise (fun a b => Apart a.path b.path) := by
  have hfile : ∀ {r}, r ∈ l → ∃ data, (r.path, .file data) ∈ d.walk := by
    intro r hr
    obtain ⟨data, hdata, -⟩ := Directory.mem_records.mp (hl.mem_iff.mp hr)
    exact ⟨data, hdata⟩
  have hstrict : ∀ {a b}, a ∈ l → b ∈ l → a.path ≠ b.path → ¬ a.path <+: b.path := by
    intro a b ha hb hne hstands
    obtain ⟨data, hdata⟩ := hfile ha
    obtain ⟨data', hdata'⟩ := hfile hb
    have hdirectory := Directory.walk_ancestor hdata' ⟨hstands, d.walk_path_ne_nil _ hdata, hne⟩
    exact EntryKind.noConfusion (h.kind_eq hdata hdirectory)
  have hdifferent : l.Pairwise (fun a b => a.path ≠ b.path) :=
    List.pairwise_map.mp ((hl.map _).nodup_iff.mpr h.distinct.records_nodup)
  refine hdifferent.imp_of_mem (fun ha hb hne => ?_)
  exact ⟨hstrict ha hb hne, hstrict hb ha hne.symm⟩

/-- What `read_dir` tells of a node. -/
def Displays : Node → EntryKind → Prop
  | .directory _, .directory => True
  | .file content mode, .file data => data.content = content ∧ data.executable = mode.isExecutable
  | .symlink _, .symlink => True
  | .special _, .special => True
  | _, _ => False

/-- A listing of the directory at a location. -/
structure Shows (fs : FileSystem) (root : Path) (d : Directory) : Prop where
  listed : Listed d
  shown : ∀ e ∈ d.walk, ∃ node, fs (root ++ e.1) = some node ∧ Displays node e.2
  complete : ∀ q, q ≠ [] → fs (root ++ q) ≠ none → q ∈ d.walk.map Prod.fst

/-- The record of a file that has lost its executable bit. -/
def FileRecord.plain (r : FileRecord) : FileRecord := { r with executable := false }

section Shown

variable {before : FileSystem} {l : List FileRecord} {d : Directory}
variable (hs : Holds before root (l.map (fun r => (r.path, r.content))) fs) (hd : Shows fs root d)
include hs

theorem node_cases {q : Path} {node : Node} (hq : q ≠ []) (hnode : fs (root ++ q) = some node) :
    (∃ mode, node = .directory mode) ∨
      ∃ r ∈ l, r.path = q ∧ ∃ mode, node = .file r.content mode ∧ mode.isExecutable = false := by
  obtain ⟨e, he, hstands⟩ := hs.only q hq (by simp [hnode])
  by_cases hsame : q = e.1
  · obtain ⟨r, hr, rfl⟩ := List.mem_map.mp he
    obtain ⟨mode, hmode, hplain⟩ := hs.file _ he
    rw [hsame, hmode] at hnode
    exact .inr ⟨r, hr, hsame.symm, mode, (Option.some.inj hnode).symm, hplain⟩
  · obtain ⟨mode, hmode⟩ := hs.directory e he q hstands hsame
    rw [hmode] at hnode
    exact .inl ⟨mode, (Option.some.inj hnode).symm⟩

include hd

theorem carried_of_shows (hutf8 : ∀ r ∈ l, Utf8Path r.path) :
    ∀ e ∈ d.walk, Carried e.1 e.2 := by
  rintro ⟨path, kind⟩ he
  obtain ⟨node, hnode, hdisplays⟩ := hd.shown _ he
  rcases node_cases hs (d.walk_path_ne_nil _ he) hnode with
    ⟨mode, rfl⟩ | ⟨r, hr, rfl, mode, rfl, -⟩
  · cases kind with
    | directory => trivial
    | file | symlink | special => exact hdisplays.elim
  · cases kind with
    | file data => exact hutf8 r hr
    | directory | symlink | special => exact hdisplays.elim

/-- The records that are read back: every path and every byte, no executable bit. -/
theorem mem_records_of_shows (hne : ∀ r ∈ l, r.path ≠ []) {r : FileRecord} :
    r ∈ d.records ↔ r ∈ l.map FileRecord.plain := by
  rw [Directory.mem_records, List.mem_map]
  constructor
  · rintro ⟨data, he, hexec, hcontent⟩
    obtain ⟨node, hnode, hdisplays⟩ := hd.shown _ he
    rcases node_cases hs (d.walk_path_ne_nil _ he) hnode with
      ⟨mode, rfl⟩ | ⟨r', hr, hpath, mode, rfl, hplain⟩
    · exact hdisplays.elim
    · refine ⟨r', hr, ?_⟩
      cases r
      simp_all [FileRecord.plain, Displays]
  · rintro ⟨r', hr, rfl⟩
    obtain ⟨mode, hmode, hplain⟩ := hs.file _ (List.mem_map_of_mem hr)
    have hlisted := hd.complete r'.path (hne r' hr) (by simp [hmode])
    obtain ⟨⟨path, kind⟩, he, rfl⟩ := List.mem_map.mp hlisted
    obtain ⟨node, hnode, hdisplays⟩ := hd.shown _ he
    obtain rfl := Option.some.inj (hmode.symm.trans hnode)
    cases kind with
    | file data => exact ⟨data, he, by rw [hdisplays.2, hplain]; rfl, hdisplays.1.symm⟩
    | directory | symlink | special => exact hdisplays.elim

theorem records_of_shows (hnodup : (l.map FileRecord.path).Nodup) (hne : ∀ r ∈ l, r.path ≠ []) :
    d.records.Perm (l.map FileRecord.plain) := by
  have hplain : ((l.map FileRecord.plain).map FileRecord.path).Nodup := by
    rw [List.map_map]
    exact hnodup
  refine (List.perm_ext_iff_of_nodup ?_ (List.Nodup.of_map _ hplain)).mpr
    (fun r => mem_records_of_shows hs hd hne)
  exact List.Nodup.of_map _ hd.listed.distinct.records_nodup

end Shown

theorem sorted_of_perm {l l' : List RemoteFile} (hperm : l.Perm l')
    (hnodup : (l.map RemoteFile.path).Nodup) :
    l.insertionSort (fun left right => left.path ≤ right.path) =
      l'.insertionSort (fun left right => left.path ≤ right.path) := by
  have htrans : IsTrans RemoteFile (fun left right => left.path ≤ right.path) :=
    ⟨fun _ _ _ => le_trans⟩
  have htotal : Std.Total (fun left right : RemoteFile => left.path ≤ right.path) :=
    ⟨fun left right => le_total _ _⟩
  have hsorted : ((l.insertionSort (fun left right => left.path ≤ right.path)).Perm
      (l'.insertionSort (fun left right => left.path ≤ right.path))) :=
    ((List.perm_insertionSort _ l).trans hperm).trans (List.perm_insertionSort _ l').symm
  refine hsorted.eq_of_pairwise (fun a b ha hb hab hba => ?_) (List.pairwise_insertionSort _ _)
    (List.pairwise_insertionSort _ _)
  have hmem : b ∈ l := hperm.mem_iff.mpr ((List.mem_insertionSort _).mp hb)
  exact List.inj_on_of_nodup_map hnodup ((List.mem_insertionSort _).mp ha) hmem
    (le_antisymm hab hba)

theorem remotePaths_nodup {l : List FileRecord} (hnodup : (l.map FileRecord.path).Nodup)
    (hne : ∀ r ∈ l, r.path ≠ []) : ((l.map remoteFile).map RemoteFile.path).Nodup := by
  rw [List.map_map]
  refine List.Nodup.map_on (fun a ha b hb hab => ?_) (List.Nodup.of_map _ hnodup)
  exact List.inj_on_of_nodup_map hnodup ha hb (pathBytes_injective (hne a ha) (hne b hb) hab)

theorem remoteFile_sends {source : Directory} (hsource : Listed source)
    (hcarried : ∀ e ∈ source.walk, Carried e.1 e.2) {r : FileRecord} (hr : r ∈ source.records) :
    Sends (remoteFile r) r.path r.content := by
  obtain ⟨data, he, -⟩ := Directory.mem_records.mp hr
  exact
    { ne := source.walk_path_ne_nil _ he
      plain := hsource.plain _ he
      utf8 := hcarried _ he
      path_eq := rfl
      data := by simp [remoteFile] }

/-- What a successful `capture` sends, and in which order. -/
theorem capture_records {source : Directory} {tree : RemoteTree} (hsource : Listed source)
    (hcapture : capture source = .ok tree) :
    ∃ l : List FileRecord, l.Perm source.records ∧ tree.files = l.map remoteFile ∧
      ∀ r ∈ l, Sends (remoteFile r) r.path r.content := by
  obtain ⟨hcarried, hfiles⟩ := (capture_ok_iff hsource.plain).mp hcapture
  have hl : (source.records.insertionSort (fun a b => pathBytes a.path ≤ pathBytes b.path)).Perm
      source.records := List.perm_insertionSort _ _
  refine ⟨_, hl, ?_, fun r hr => remoteFile_sends hsource hcarried (hl.mem_iff.mp hr)⟩
  rw [← hfiles]
  exact (List.map_insertionSort (fun a b => pathBytes a.path ≤ pathBytes b.path)
    (fun left right => left.path ≤ right.path) remoteFile source.records
    (fun _ _ _ _ => Iff.rfl)).symm

/-- `replace` succeeds, and the root then holds exactly the files that were sent. -/
theorem replace_holds (kernel : Kernel) {source : Directory} {tree : RemoteTree}
    {l : List FileRecord} (hsource : Listed source) (hl : l.Perm source.records)
    (htree : tree.files = l.map remoteFile)
    (hsends : ∀ r ∈ l, Sends (remoteFile r) r.path r.content) (hreached : Reached fs root) :
    ∃ fs', replace kernel tree root fs = (fs', .ok ()) ∧
      Holds fs root (l.map (fun r => (r.path, r.content))) fs' := by
  obtain ⟨cleared, started, hclear, hstart, hempty⟩ := clear_secureDirectory kernel hreached
  obtain ⟨fs', hloop, hholds⟩ := forM_replaceFile kernel hreached hsends
    (records_apart hsource hl) [] started hempty (fun e he => absurd he List.not_mem_nil)
  refine ⟨fs', ?_, hholds⟩
  refine Action.bind_ok_iff.mpr ⟨(), cleared, hclear, ?_⟩
  refine Action.bind_ok_iff.mpr ⟨(), started, hstart, ?_⟩
  rw [htree]
  exact hloop

section Sample

/-- A kernel on a file system without symlinks. -/
def plainKernel : Kernel where
  umask := 0o022
  follow := fun _ path => .ok path
  display := fun _ => "run"
  decodeError := fun _ => "Invalid padding"
  follow_of_no_link := fun _ _ _ => rfl

def runName : FileName := ⟨[114, 117, 110], by decide⟩

/-- `run` with one byte in it. -/
def program (executable : Bool) : Directory :=
  .file runName { content := [35], executable := executable, links := 1 } .empty

def programTree (executable : Bool) : RemoteTree :=
  { files := [{ path := [114, 117, 110], data := "Iw==", executable := executable }] }

/-- A file system that is one empty directory. -/
def emptyRoot : FileSystem := fun q => if q = [] then some (.directory 0o755) else none

theorem listed_program (executable : Bool) : Listed (program executable) where
  distinct := by simp [Directory.Distinct, program, Directory.walk]
  plain := by
    simp only [program, Directory.walk, List.forall_mem_singleton]
    exact ⟨by decide, by decide⟩

theorem capture_program (executable : Bool) :
    capture (program executable) = .ok (programTree executable) := by
  cases executable <;> decide +kernel

theorem reached_emptyRoot : Reached emptyRoot [] := by
  intro q hq
  rw [List.prefix_nil.mp hq]
  exact ⟨0o755, rfl⟩

/-- The file that comes out of the transport, executable or not. -/
theorem replace_program (executable : Bool) :
    ∃ fs', replace plainKernel (programTree executable) [] emptyRoot = (fs', .ok ()) ∧
      Shows fs' [] (program false) := by
  have hsource := listed_program executable
  have hcarried := ((capture_ok_iff hsource.plain).mp (capture_program executable)).1
  obtain ⟨fs', hreplace, hholds⟩ := replace_holds plainKernel hsource (.refl _)
    (show (programTree executable).files = (program executable).records.map remoteFile by
      cases executable <;> decide +kernel)
    (fun r hr => remoteFile_sends hsource hcarried hr) reached_emptyRoot
  refine ⟨fs', hreplace, listed_program false, fun e he => ?_, fun q hq hsome => ?_⟩
  · obtain rfl := List.mem_singleton.mp he
    obtain ⟨mode, hmode, hplain⟩ := hholds.file ([runName], [35]) (by
      simp [program, Directory.records, Directory.walk, fileRecord])
    exact ⟨_, hmode, rfl, hplain.symm⟩
  · obtain ⟨e, he, hstands⟩ := hholds.only q hq hsome
    obtain rfl : e = ([runName], [35]) := by
      simpa [program, Directory.records, Directory.walk, fileRecord] using he
    have hname : q = [runName] := by
      by_contra hne
      exact Directory.not_above_singleton ⟨hstands, hq, hne⟩
    simp [hname, program, Directory.walk]

end Sample

end A3sBench.OsRuntime
