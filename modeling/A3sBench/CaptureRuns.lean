import A3sBench.ArtifactStore
import A3sBench.Library.Runs
import A3sBench.SnapshotIdentity

/-!
# Concurrent captures into one state root

A capture is cut at its accesses to the source and to the artifacts, and the
source may show something else at each of them. The artifact a capture returns
has the files that were read, unless trees with other files hash alike.
-/

namespace A3sBench.TaskSnapshot

open Library Library.System

/-! ## Modes -/

/-- `is_executable`, on the permission bits. -/
def isExecutable (mode : Nat) : Bool := mode &&& 0o111 ≠ 0

/-- `set_owner_only_file`: the mode it sets. -/
def ownerOnlyMode (readOnly executable : Bool) : Nat :=
  match readOnly, executable with
  | true, true => 0o500
  | true, false => 0o400
  | false, true => 0o700
  | false, false => 0o600

/-- The new mode keeps what the digest sees of the old one. -/
@[simp] theorem isExecutable_ownerOnlyMode (readOnly executable : Bool) :
    isExecutable (ownerOnlyMode readOnly executable) = executable := by
  cases readOnly <;> cases executable <;> decide

/-- `seal_tree_read_only`. -/
def sealTreeReadOnly : Directory → Result Directory
  | .empty => .ok .empty
  | .file name data rest => do
    let sealed := { data with executable := isExecutable (ownerOnlyMode true data.executable) }
    let rest ← sealTreeReadOnly rest
    pure (.file name sealed rest)
  | .directory name inner rest => do
    let inner ← sealTreeReadOnly inner
    let rest ← sealTreeReadOnly rest
    pure (.directory name inner rest)
  | .symlink _ _ => .error "sealed tree contains a symlink"
  | .special _ _ => .error "sealed tree contains a special file"

theorem eq_of_sealTreeReadOnly {d sealed : Directory} (h : sealTreeReadOnly d = .ok sealed) :
    sealed = d := by
  induction d generalizing sealed with
  | empty => exact (Except.ok.inj h).symm
  | file name data rest ih =>
    simp only [sealTreeReadOnly, Result.bind_ok_iff, Result.pure_ok_iff,
      isExecutable_ownerOnlyMode] at h
    obtain ⟨rest', hrest, rfl⟩ := h
    rw [ih hrest]
  | directory name inner rest ihInner ih =>
    simp only [sealTreeReadOnly, Result.bind_ok_iff, Result.pure_ok_iff] at h
    obtain ⟨inner', hinner, rest', hrest, rfl⟩ := h
    rw [ihInner hinner, ih hrest]
  | symlink name rest | special name rest => cases h

/-- A tree of files and directories is sealed as it is. -/
theorem sealTreeReadOnly_ok {d : Directory}
    (h : ∀ e ∈ d.walk, e.2 ≠ .symlink ∧ e.2 ≠ .special) : sealTreeReadOnly d = .ok d := by
  induction d with
  | empty => rfl
  | file name data rest ih =>
    obtain ⟨-, hrest⟩ := List.forall_mem_cons.mp h
    rw [sealTreeReadOnly, ih hrest, isExecutable_ownerOnlyMode]
    rfl
  | directory name inner rest ihInner ih =>
    obtain ⟨-, hbelow⟩ := List.forall_mem_cons.mp h
    obtain ⟨hinner, hrest⟩ := List.forall_mem_append.mp hbelow
    have hinner : ∀ e ∈ inner.walk, e.2 ≠ .symlink ∧ e.2 ≠ .special :=
      fun e he => hinner (name :: e.1, e.2) (List.mem_map.mpr ⟨e, he, rfl⟩)
    rw [sealTreeReadOnly, ihInner hinner, ih hrest]
    rfl
  | symlink name rest => exact absurd rfl (h _ List.mem_cons_self).1
  | special name rest => exact absurd rfl (h _ List.mem_cons_self).2

/-! ## What a capture sees -/

/-- The source as one pass over it sees it: the tree that was walked, and what reading its
files returned. Edits in between make the two differ. -/
structure View where
  listed : Directory
  read : Directory

/-- A tree that nobody edits. -/
def View.still (d : Directory) : View := { listed := d, read := d }

/-- The files of a pass. -/
def contents (files : List Path) (read : Directory) (path : Path) : Option (Bool × Bytes) :=
  if path ∈ files then read.fileAt path else none

/-- The first pass, with the place of its artifact. -/
structure Reading (os : Platform) where
  view : View
  files : List Path
  digest : String
  hex : List Char
  collected : collect os view.listed = .ok files
  digested : treeDigest os view.read files = .ok digest
  named : artifactPath digest = .ok hex

def Reading.contents {os : Platform} (r : Reading os) : Path → Option (Bool × Bytes) :=
  TaskSnapshot.contents r.files r.view.read

def readSource (os : Platform) (view : View) : Result (Reading os) :=
  match hfiles : collect os view.listed with
  | .error e => .error e
  | .ok files =>
    match hdigest : treeDigest os view.read files with
    | .error e => .error e
    | .ok digest =>
      match hname : artifactPath digest with
      | .error e => .error e
      | .ok hex => .ok {
          view := view, files := files, digest := digest, hex := hex
          collected := hfiles, digested := hdigest, named := hname }

/-- `ensure_stable_generation`, on a source that may change between its walk and its reads. -/
def ensureStableView (os : Platform) (view : View) (staging : Directory) (initialFiles : List Path)
    (initialDigest : String) : Result Unit := do
  let capturedFiles ← collect os staging
  let capturedDigest ← treeDigest os staging capturedFiles
  let finalFiles ← context sourceChanged (collect os view.listed)
  let finalDigest ← context sourceChanged (treeDigest os view.read finalFiles)
  ensure (initialFiles = finalFiles ∧ initialDigest = capturedDigest ∧
      initialDigest = finalDigest) sourceChanged

theorem ensureStableView_still (os : Platform) (source staging : Directory) (files : List Path)
    (digest : String) : ensureStableView os (.still source) staging files digest =
      ensureStableGeneration os source staging files digest := rfl

/-! ## The steps -/

/-- Where a capture stands; `last` is the pass that confirmed the copy, if there was one. -/
inductive Phase (os : Platform) where
  | reading
  | looking (first : Reading os)
  | existing (first : Reading os)
  | copying (first : Reading os) (left : List Path) (staging : Directory)
  | staged (first : Reading os) (staging : Directory)
  | stable (first : Reading os) (staging : Directory) (last : View)
  | published (first : Reading os) (last : View)
  | verified (first : Reading os) (last : Option View)
  | returned (first : Reading os) (last : Option View)
  | failed (message : String)

/-- What the source shows at a step, and the error the operating system may answer with. -/
structure Input where
  view : View
  fault : Option String

/-- `rename` of a directory: where nothing is, or over an empty directory. -/
def vacant : Option Directory → Bool
  | none => true
  | some .empty => true
  | some _ => false

def stepCapture (os : Platform) (input : Input) (store : ArtifactStore) :
    Phase os → ArtifactStore × Phase os
  | .returned first last => (store, .returned first last)
  | .failed message => (store, .failed message)
  | .stable first staging last =>
    match input.fault with
    | some error =>
      -- a failed rename is no failure once the destination is there
      if (store first.hex).isSome then (store, .published first last)
      else (store, .failed ("could not publish artifact staging: " ++ error))
    | none =>
      if vacant (store first.hex) then
        (Function.update store first.hex (some staging), .published first last)
      else (store, .published first last)
  | phase =>
    match input.fault with
    | some error => (store, .failed error)
    | none =>
      match phase with
      | .reading =>
        match readSource os input.view with
        | .ok first => (store, .looking first)
        | .error message => (store, .failed message)
      | .looking first =>
        if (store first.hex).isSome then (store, .existing first)
        else (store, .copying first first.files .empty)
      | .existing first =>
        match verify os (store first.hex) first.digest with
        | .ok _ => (store, .verified first none)
        | .error message => (store, .failed message)
      | .copying first [] staging => (store, .staged first staging)
      | .copying first (relative :: left) staging =>
        match stage input.view.read [relative] staging with
        | .ok staging => (store, .copying first left staging)
        | .error message => (store, .failed message)
      | .staged first staging =>
        match ensureStableView os input.view staging first.files first.digest with
        | .ok _ => (store, .stable first staging input.view)
        | .error message => (store, .failed message)
      | .published first last =>
        match context "published artifact failed verification"
            (verify os (store first.hex) first.digest) with
        | .ok _ => (store, .verified first (some last))
        | .error message => (store, .failed message)
      | .verified first last =>
        match (okOr (store first.hex) "No such file or directory (os error 2)").bind
            sealTreeReadOnly with
        | .ok sealed => (Function.update store first.hex (some sealed), .returned first last)
        | .error message => (store, .failed message)
      | phase => (store, phase)

structure State (os : Platform) (Call : Type) where
  store : ArtifactStore
  phases : Call → Phase os

variable {os : Platform} {Call : Type} [DecidableEq Call]

def step (os : Platform) (s : State os Call) (a : Call × Input) : State os Call where
  store := (stepCapture os a.2 s.store (s.phases a.1)).1
  phases := Function.update s.phases a.1 (stepCapture os a.2 s.store (s.phases a.1)).2

/-- Every artifact verifies under the digest it is named by. -/
def Verified (os : Platform) (store : ArtifactStore) : Prop :=
  ∀ hex artifact, store hex = some artifact →
    ∃ digest, artifactPath digest = .ok hex ∧ verify os (some artifact) digest = .ok ()

/-- Any number of captures into a state root whose artifacts verify. -/
def captureSystem (os : Platform) (Call : Type) [DecidableEq Call] :
    System (State os Call) (Call × Input) where
  init s := Verified os s.store ∧ ∀ c, s.phases c = .reading
  step s a s' := s' = step os s a

/-! ## Trees that hash alike -/

/-- Two passes that hash alike found the same files. -/
def Told (os : Platform) (v w : View) : Prop :=
  ∀ files files' stream stream', collect os v.listed = .ok files → collect os w.listed = .ok files' →
    treeStream os v.read files = .ok stream → treeStream os w.read files' = .ok stream' →
    os.sha256 stream = os.sha256 stream' → contents files v.read = contents files' w.read

/-- The trees a step holds against the first pass of its capture: the artifact at the destination,
the copy. -/
def compared (store : ArtifactStore) : Phase os → List View
  | .looking first | .stable first _ _ => (store first.hex).toList.map View.still
  | .staged _ staging => [.still staging]
  | _ => []

/-- Where the first pass of a capture is known. -/
def Phase.first : Phase os → Option (Reading os)
  | .reading | .failed _ => none
  | .looking first | .existing first | .copying first _ _ | .staged first _ | .stable first _ _
  | .published first _ | .verified first _ | .returned first _ => some first

/-- None of them has other files than the first pass and hashes alike. -/
def ToldApart (os : Platform) (s : State os Call) (a : Call × Input) : Prop :=
  ∀ first, (s.phases a.1).first = some first →
    ∀ w ∈ compared s.store (s.phases a.1), Told os first.view w

theorem treeDigest_ok_iff {d : Directory} {files : List Path} {digest : String} :
    treeDigest os d files = .ok digest ↔
      ∃ stream, treeStream os d files = .ok stream ∧ "sha256:" ++ os.sha256 stream = digest := by
  simp only [treeDigest, Result.bind_ok_iff, Result.pure_ok_iff]

theorem Told.contents_eq {first : Reading os} {w : View} (h : Told os first.view w)
    {files : List Path} (hfiles : collect os w.listed = .ok files)
    (hdigest : treeDigest os w.read files = .ok first.digest) :
    contents files w.read = first.contents := by
  obtain ⟨stream, hstream, heq⟩ := treeDigest_ok_iff.mp first.digested
  obtain ⟨stream', hstream', heq'⟩ := treeDigest_ok_iff.mp hdigest
  refine (h _ _ _ _ first.collected hfiles hstream hstream' ?_).symm
  exact (String.append_right_inj _).mp (heq.trans heq'.symm)

theorem contents_still {d : Directory} {files : List Path} (h : collect os d = .ok files) :
    contents files d = d.fileAt := by
  obtain ⟨hd, rfl⟩ := collect_ok_iff.mp h
  funext path
  by_cases hmem : path ∈ d.snapshot.map FileRecord.path
  · exact if_pos hmem
  · rw [contents, if_neg hmem]
    cases hat : d.fileAt path with
    | none => rfl
    | some data =>
      obtain ⟨executable, content⟩ := data
      have hrecord := hd.distinct.fileAt_eq_some_iff.mp hat
      exact absurd (List.mem_map_of_mem (Directory.mem_snapshot.mpr hrecord)) hmem

theorem Told.refl (v : View) : Told os v v := by
  intro files files' stream stream' hfiles hfiles' _ _ _
  rw [Except.ok.inj (hfiles.symm.trans hfiles')]

/-- What the hasher was fed, file by file. -/
theorem exists_records_of_treeStream {d : Directory} {files : List Path} {stream : Bytes}
    (hfiles : ∀ path ∈ files, isUtf8 (pathBytes path) = true)
    (h : treeStream os d files = .ok stream) : ∃ records : List FileRecord,
      records.map FileRecord.path = files ∧
        (∀ r ∈ records, d.fileAt r.path = some (r.executable, r.content)) ∧
        stream = FieldRecord.encode 0 (records.map recordFields) := by
  induction files generalizing stream with
  | nil => exact ⟨[], rfl, by simp, (Except.ok.inj h).symm⟩
  | cons path files ih =>
    obtain ⟨hutf, hfiles⟩ := List.forall_mem_cons.mp hfiles
    simp only [treeStream, Result.bind_ok_iff, Result.okOr_ok_iff, Result.pure_ok_iff] at h
    obtain ⟨⟨executable, content⟩, hread, rest, hrest, rfl⟩ := h
    obtain ⟨records, hpaths, hat, rfl⟩ := ih hfiles hrest
    refine ⟨⟨path, executable, content⟩ :: records, by rw [List.map_cons, hpaths],
      List.forall_mem_cons.mpr ⟨hread, hat⟩, ?_⟩
    simp [recordFields, os.toStringLossy_of_isUtf8 hutf]

theorem utf8_of_collect {d : Directory} {files : List Path} (h : collect os d = .ok files)
    {path : Path} (hpath : path ∈ files) : isUtf8 (pathBytes path) = true ∧ path ≠ [] := by
  obtain ⟨hd, rfl⟩ := collect_ok_iff.mp h
  obtain ⟨r, hr, rfl⟩ := List.mem_map.mp hpath
  exact ⟨hd.snapshot_utf8 hr, snapshot_path_ne_nil hr⟩

/-- No file of the pass holds a NUL. -/
def View.NulFree (v : View) : Prop :=
  ∀ path executable content, v.read.fileAt path = some (executable, content) → 0 ∉ content

/-- Passes over files without NUL are told apart, unless SHA-256 collides on them. -/
theorem Told.of_nulFree {v w : View} (hv : v.NulFree) (hw : w.NulFree)
    (hsha : ∀ files files' stream stream', treeStream os v.read files = .ok stream →
      treeStream os w.read files' = .ok stream' → os.sha256 stream = os.sha256 stream' →
        stream = stream') : Told os v w := by
  intro files files' stream stream' hfiles hfiles' hstream hstream' hsame
  obtain ⟨records, rfl, hat, heq⟩ :=
    exists_records_of_treeStream (fun _ h => (utf8_of_collect hfiles h).1) hstream
  obtain ⟨records', rfl, hat', heq'⟩ :=
    exists_records_of_treeStream (fun _ h => (utf8_of_collect hfiles' h).1) hstream'
  have hfree : ∀ {u : View}, u.NulFree → ∀ {l : List FileRecord},
      (∀ r ∈ l, u.read.fileAt r.path = some (r.executable, r.content)) →
        ∀ f ∈ l.map recordFields, 0 ∉ f.key ∧ 0 ∉ f.body := by
    intro u hu l hl f hf
    obtain ⟨r, hr, rfl⟩ := List.mem_map.mp hf
    exact ⟨nul_not_mem_key r, hu _ _ _ (hl r hr)⟩
  have hfields : records.map recordFields = records'.map recordFields := by
    refine FieldRecord.encode_injective_of_free (hfree hv hat) (hfree hw hat') ?_
    rw [← heq, ← heq']
    exact hsha _ _ _ _ hstream hstream' hsame
  have hrecords : records = records' := by
    refine eq_of_recordFields (fun r hr => ?_) (fun r hr => ?_) hfields
    · exact (utf8_of_collect hfiles (List.mem_map_of_mem hr)).2
    · exact (utf8_of_collect hfiles' (List.mem_map_of_mem hr)).2
  subst hrecords
  funext path
  by_cases hpath : path ∈ records.map FileRecord.path
  · obtain ⟨r, hr, rfl⟩ := List.mem_map.mp hpath
    rw [contents, contents, if_pos hpath, if_pos hpath, hat r hr, hat' r hr]
  · rw [contents, contents, if_neg hpath, if_neg hpath]

theorem verify_eq_ok_iff {d : Directory} {digest : String} :
    verify os (some d) digest = .ok () ↔
      ∃ files, collect os d = .ok files ∧ treeDigest os d files = .ok digest := by
  simp only [verify, Result.bind_ok_iff, Result.okOr_ok_iff, Option.some.injEq, exists_eq_left',
    Result.ensure_ok_iff]
  constructor
  · rintro ⟨files, hfiles, _, hdigest, rfl⟩
    exact ⟨files, hfiles, hdigest⟩
  · rintro ⟨files, hfiles, hdigest⟩
    exact ⟨files, hfiles, _, hdigest, rfl⟩

/-- A tree that verifies under the digest of a pass has the files of the pass. -/
theorem Told.fileAt_eq {first : Reading os} {d : Directory} (h : Told os first.view (.still d))
    (hverify : verify os (some d) first.digest = .ok ()) : d.fileAt = first.contents := by
  obtain ⟨files, hfiles, hdigest⟩ := verify_eq_ok_iff.mp hverify
  exact (contents_still hfiles).symm.trans (h.contents_eq hfiles hdigest)

theorem artifactPath_inj {digest digest' : String} {hex : List Char}
    (h : artifactPath digest = .ok hex) (h' : artifactPath digest' = .ok hex) : digest = digest' := by
  rw [(digestHexWith_ok_iff.mp h).1, (digestHexWith_ok_iff.mp h').1]

theorem verify_of_verified {store : ArtifactStore} (h : Verified os store) {first : Reading os}
    {artifact : Directory} (hartifact : store first.hex = some artifact) :
    verify os (some artifact) first.digest = .ok () := by
  obtain ⟨digest, hname, hverify⟩ := h _ _ hartifact
  rwa [artifactPath_inj first.named hname]

/-! ## The invariant -/

/-- The last pass found the list and the digest of the first, so its contents too where the two are
told apart. -/
structure Confirmed (first : Reading os) (last : View) : Prop where
  collected : collect os last.listed = .ok first.files
  digested : treeDigest os last.read first.files = .ok first.digest
  contents : Told os first.view last → TaskSnapshot.contents first.files last.read = first.contents

/-- The artifact of a capture has the files its first pass found. -/
def Has (store : ArtifactStore) (first : Reading os) : Prop :=
  ∃ artifact, store first.hex = some artifact ∧ artifact.fileAt = first.contents

/-- What holds of a capture where it stands. -/
def Holds (store : ArtifactStore) : Phase os → Prop
  | .reading | .looking _ | .copying _ _ _ | .staged _ _ | .failed _ => True
  | .existing first => Has store first
  | .stable first staging last =>
    verify os (some staging) first.digest = .ok () ∧ staging.fileAt = first.contents ∧
      Confirmed first last
  | .published first last => Has store first ∧ Confirmed first last
  | .verified first last | .returned first last =>
    Has store first ∧ ∀ view ∈ last, Confirmed first view

/-- Artifacts stay, with their files. -/
def Keeps (store store' : ArtifactStore) : Prop :=
  ∀ hex artifact, store hex = some artifact →
    ∃ artifact', store' hex = some artifact' ∧ artifact'.fileAt = artifact.fileAt

theorem Keeps.refl (store : ArtifactStore) : Keeps store store :=
  fun _ artifact h => ⟨artifact, h, rfl⟩

theorem Keeps.has {store store' : ArtifactStore} (h : Keeps store store') {first : Reading os}
    (hhas : Has store first) : Has store' first := by
  obtain ⟨artifact, hartifact, hfiles⟩ := hhas
  obtain ⟨artifact', hartifact', hsame⟩ := h _ _ hartifact
  exact ⟨artifact', hartifact', hsame.trans hfiles⟩

theorem Keeps.holds {store store' : ArtifactStore} (h : Keeps store store') {phase : Phase os}
    (hphase : Holds store phase) : Holds store' phase := by
  cases phase with
  | reading | looking | copying | staged | failed => trivial
  | existing first => exact h.has hphase
  | stable first staging last => exact hphase
  | published first last => exact ⟨h.has hphase.1, hphase.2⟩
  | verified first last | returned first last => exact ⟨h.has hphase.1, hphase.2⟩

theorem Keeps.update {store : ArtifactStore} {hex : List Char} {new : Directory}
    (h : ∀ artifact, store hex = some artifact → new.fileAt = artifact.fileAt) :
    Keeps store (Function.update store hex (some new)) := by
  intro hex' artifact hartifact
  by_cases heq : hex' = hex
  · subst heq
    exact ⟨new, Function.update_self .., h artifact hartifact⟩
  · exact ⟨artifact, (Function.update_of_ne heq ..).trans hartifact, rfl⟩

theorem Verified.update {store : ArtifactStore} (h : Verified os store) {first : Reading os}
    {new : Directory} (hnew : verify os (some new) first.digest = .ok ()) :
    Verified os (Function.update store first.hex (some new)) := by
  intro hex artifact hartifact
  by_cases heq : hex = first.hex
  · subst heq
    rw [Function.update_self] at hartifact
    obtain rfl := Option.some.inj hartifact
    exact ⟨first.digest, first.named, hnew⟩
  · rw [Function.update_of_ne heq] at hartifact
    exact h hex artifact hartifact

/-- What a step of a capture preserves. -/
structure Sound (os : Platform) (store store' : ArtifactStore) (phase : Phase os) : Prop where
  verified : Verified os store'
  keeps : Keeps store store'
  holds : Holds store' phase

theorem Sound.idle {store : ArtifactStore} {phase : Phase os} (h : Verified os store)
    (hphase : Holds store phase) : Sound os store store phase :=
  ⟨h, .refl store, hphase⟩

theorem ensureStableView_ok_iff {view : View} {staging : Directory} {first : Reading os} :
    ensureStableView os view staging first.files first.digest = .ok () ↔
      verify os (some staging) first.digest = .ok () ∧ collect os view.listed = .ok first.files ∧
        treeDigest os view.read first.files = .ok first.digest := by
  simp only [ensureStableView, Result.bind_ok_iff, Result.context_ok_iff, Result.ensure_ok_iff,
    verify_eq_ok_iff]
  constructor
  · rintro ⟨captured, hcaptured, _, hdigest, _, hlisted, _, hread, rfl, rfl, hsame⟩
    exact ⟨⟨captured, hcaptured, hdigest⟩, hlisted, hsame ▸ hread⟩
  · rintro ⟨⟨captured, hcaptured, hdigest⟩, hlisted, hread⟩
    exact ⟨captured, hcaptured, _, hdigest, _, hlisted, _, hread, rfl, rfl, rfl⟩

theorem has_of_told {store : ArtifactStore} (hstore : Verified os store) {first : Reading os}
    {artifact : Directory} (hartifact : store first.hex = some artifact)
    (htold : ∀ w ∈ (store first.hex).toList.map View.still, Told os first.view w) :
    artifact.fileAt = first.contents := by
  refine Told.fileAt_eq (htold _ ?_) (verify_of_verified hstore hartifact)
  rw [hartifact]
  exact List.mem_singleton_self _

/-- A step of a capture whose compared trees are told apart. -/
theorem stepCapture_sound (input : Input) {store : ArtifactStore} {phase : Phase os}
    (hstore : Verified os store) (hphase : Holds store phase)
    (htold : ∀ first, phase.first = some first →
      ∀ w ∈ compared store phase, Told os first.view w) :
    Sound os store (stepCapture os input store phase).1 (stepCapture os input store phase).2 := by
  cases phase with
  | returned first last => exact .idle hstore hphase
  | failed message => exact .idle hstore trivial
  | stable first staging last =>
    obtain ⟨hverify, hfiles, hlast⟩ := hphase
    have hartifact : ∀ artifact, store first.hex = some artifact →
        staging.fileAt = artifact.fileAt :=
      fun artifact h => hfiles.trans (has_of_told hstore h (htold first rfl)).symm
    have hlost : (store first.hex).isSome = true → Holds store (.published first last) := by
      intro hsome
      obtain ⟨artifact, h⟩ := Option.isSome_iff_exists.mp hsome
      exact ⟨⟨artifact, h, (hartifact artifact h).symm.trans hfiles⟩, hlast⟩
    unfold stepCapture
    cases input.fault with
    | some error =>
      dsimp only
      split_ifs with hsome
      · exact .idle hstore (hlost hsome)
      · exact .idle hstore trivial
    | none =>
      dsimp only
      split_ifs with hvacant
      · exact ⟨hstore.update hverify, Keeps.update hartifact,
          ⟨staging, Function.update_self .., hfiles⟩, hlast⟩
      · refine .idle hstore (hlost ?_)
        cases hdest : store first.hex with
        | none => exact absurd (by rw [hdest]; rfl) hvacant
        | some artifact => rfl
  | reading =>
    unfold stepCapture
    cases input.fault with
    | some error => exact .idle hstore trivial
    | none =>
      dsimp only
      split
      · exact .idle hstore trivial
      · exact .idle hstore trivial
  | looking first =>
    unfold stepCapture
    cases input.fault with
    | some error => exact .idle hstore trivial
    | none =>
      dsimp only
      split_ifs with hsome
      · obtain ⟨artifact, hartifact⟩ := Option.isSome_iff_exists.mp hsome
        exact .idle hstore ⟨artifact, hartifact, has_of_told hstore hartifact (htold first rfl)⟩
      · exact .idle hstore trivial
  | existing first =>
    unfold stepCapture
    cases input.fault with
    | some error => exact .idle hstore trivial
    | none =>
      dsimp only
      split
      · exact .idle hstore ⟨hphase, fun view hview => absurd hview (Option.not_mem_none view)⟩
      · exact .idle hstore trivial
  | copying first left staging =>
    unfold stepCapture
    cases input.fault with
    | some error => exact .idle hstore trivial
    | none =>
      cases left with
      | nil => exact .idle hstore trivial
      | cons relative left =>
        dsimp only
        split
        · exact .idle hstore trivial
        · exact .idle hstore trivial
  | staged first staging =>
    unfold stepCapture
    cases input.fault with
    | some error => exact .idle hstore trivial
    | none =>
      dsimp only
      split
      · rename_i hstable
        obtain ⟨hverify, hlisted, hread⟩ := ensureStableView_ok_iff.mp hstable
        have hcopy : Told os first.view (.still staging) := htold first rfl _ List.mem_cons_self
        exact .idle hstore ⟨hverify, hcopy.fileAt_eq hverify, hlisted, hread,
          fun hlast => hlast.contents_eq hlisted hread⟩
      · exact .idle hstore trivial
  | published first last =>
    unfold stepCapture
    cases input.fault with
    | some error => exact .idle hstore trivial
    | none =>
      dsimp only
      split
      · exact .idle hstore ⟨hphase.1, fun view hview => Option.mem_some_iff.mp hview ▸ hphase.2⟩
      · exact .idle hstore trivial
  | verified first last =>
    obtain ⟨⟨artifact, hartifact, hfiles⟩, hlast⟩ := hphase
    unfold stepCapture
    cases input.fault with
    | some error => exact .idle hstore trivial
    | none =>
      dsimp only
      split
      · rename_i sealed hseal
        rw [hartifact] at hseal
        obtain rfl := eq_of_sealTreeReadOnly (show sealTreeReadOnly artifact = .ok sealed from hseal)
        -- sealing puts the artifact back as it was
        rw [Function.update_eq_self_iff.mpr hartifact.symm]
        exact .idle hstore ⟨⟨sealed, hartifact, hfiles⟩, hlast⟩
      · exact .idle hstore trivial

/-! ## Runs -/

/-- Artifacts verify, and every capture holds what its place promises. -/
structure Consistent (os : Platform) (s : State os Call) : Prop where
  verified : Verified os s.store
  holds : ∀ c, Holds s.store (s.phases c)

@[simp] theorem step_store (s : State os Call) (a : Call × Input) :
    (step os s a).store = (stepCapture os a.2 s.store (s.phases a.1)).1 := rfl

@[simp] theorem step_phases_self (s : State os Call) (a : Call × Input) :
    (step os s a).phases a.1 = (stepCapture os a.2 s.store (s.phases a.1)).2 :=
  Function.update_self ..

theorem step_phases_of_ne (s : State os Call) (a : Call × Input) {c : Call} (hc : c ≠ a.1) :
    (step os s a).phases c = s.phases c :=
  Function.update_of_ne hc ..

theorem consistent_step {s : State os Call} (hs : Consistent os s) {a : Call × Input}
    (htold : ToldApart os s a) : Consistent os (step os s a) ∧ Keeps s.store (step os s a).store := by
  have hsound := stepCapture_sound a.2 hs.verified (hs.holds a.1) htold
  refine ⟨⟨hsound.verified, fun c => ?_⟩, hsound.keeps⟩
  by_cases hc : c = a.1
  · subst hc
    rw [step_phases_self, step_store]
    exact hsound.holds
  · rw [step_phases_of_ne s a hc, step_store]
    exact hsound.keeps.holds (hs.holds c)

theorem consistent_of_run {h : List (State os Call × (Call × Input))} {s : State os Call}
    (hrun : Run (captureSystem os Call) h s) (hG : Guarded (ToldApart os) h) : Consistent os s := by
  have hinit : ∀ s, (captureSystem os Call).init s → Consistent os s := by
    intro s hinit
    refine ⟨hinit.1, fun c => ?_⟩
    rw [hinit.2 c]
    trivial
  refine hrun.guarded_invariant hinit (fun s a s' hs htold hstep => ?_) hG
  obtain rfl : s' = step os s a := hstep
  exact (consistent_step hs htold).1

/-- A capture of an artifact alone, step by step. -/
def recapture (os : Platform) (artifact : Directory) (store : ArtifactStore) :
    ArtifactStore × Phase os :=
  let input : Input := { view := .still artifact, fault := none }
  (List.range 4).foldl (fun at_ _ => stepCapture os input at_.1 at_.2) (store, .reading)

theorem readSource_still {first : Reading os} {artifact : Directory}
    (h : verify os (some artifact) first.digest = .ok ()) : ∃ again : Reading os,
      readSource os (.still artifact) = .ok again ∧ again.digest = first.digest ∧
        again.hex = first.hex := by
  obtain ⟨files, hfiles, hdigest⟩ := verify_eq_ok_iff.mp h
  unfold readSource
  split
  · rename_i hfailed
    cases hfiles.symm.trans hfailed
  · rename_i files' hfiles'
    obtain rfl := Except.ok.inj (hfiles.symm.trans hfiles')
    split
    · rename_i hfailed
      cases hdigest.symm.trans hfailed
    · rename_i digest' hdigest'
      obtain rfl := Except.ok.inj (hdigest.symm.trans hdigest')
      split
      · rename_i hfailed
        cases first.named.symm.trans hfailed
      · rename_i hex' hname
        exact ⟨_, rfl, rfl, Except.ok.inj (hname.symm.trans first.named)⟩

/-- The capture that finds an artifact and is left alone returns it as it is. -/
theorem looking_returns {store : ArtifactStore} {first : Reading os} {artifact : Directory}
    (view : View) (hartifact : store first.hex = some artifact)
    (hverify : verify os (some artifact) first.digest = .ok ()) :
    (List.range 3).foldl (fun at_ _ => stepCapture os { view := view, fault := none } at_.1 at_.2)
      (store, .looking first) = (store, .returned first none) := by
  have hseal : sealTreeReadOnly artifact = .ok artifact := by
    obtain ⟨files, hfiles, -⟩ := verify_eq_ok_iff.mp hverify
    refine sealTreeReadOnly_ok fun e he => ?_
    rcases ((collect_ok_iff.mp hfiles).1.admissible e he).kind with hkind | ⟨data, hkind, -⟩
    · rw [hkind]
      exact ⟨EntryKind.noConfusion, EntryKind.noConfusion⟩
    · rw [hkind]
      exact ⟨EntryKind.noConfusion, EntryKind.noConfusion⟩
  have hsame : Function.update store first.hex (some artifact) = store := by
    rw [← hartifact, Function.update_eq_self]
  simp only [List.range_succ, List.range_zero, List.nil_append, List.foldl_append,
    List.foldl_cons, List.foldl_nil, stepCapture, hartifact, Option.isSome_some, if_true,
    hverify, okOr, Except.bind, hseal, hsame]

/-- An artifact that verifies is captured again under its digest, and stays as it is. -/
theorem recapture_eq {store : ArtifactStore} {first : Reading os} {artifact : Directory}
    (hartifact : store first.hex = some artifact)
    (hverify : verify os (some artifact) first.digest = .ok ()) : ∃ again : Reading os,
      recapture os artifact store = (store, .returned again none) ∧
        again.digest = first.digest := by
  obtain ⟨again, hread, hdigest, hhex⟩ := readSource_still hverify
  refine ⟨again, ?_, hdigest⟩
  have hreturns := looking_returns (.still artifact) (hhex ▸ hartifact) (hdigest ▸ hverify)
  rw [recapture, List.range_succ_eq_map, List.foldl_cons, List.foldl_map]
  simpa only [stepCapture, hread] using hreturns

/-- Whatever the source shows at each access, however captures interleave and whatever fails: a
capture that returned its digest has an artifact that verifies under it and holds the files of its
first pass, whose list and digest the last pass found again if there was a copy; and that artifact
captured again gives the digest again and stays as it is. -/
theorem capture_never_torn {h : List (State os Call × (Call × Input))} {s : State os Call}
    (hrun : Run (captureSystem os Call) h s) (hG : Guarded (ToldApart os) h) {c : Call}
    {first : Reading os} {last : Option View} (hreturned : s.phases c = .returned first last) :
    ∃ artifact, s.store first.hex = some artifact ∧
      verify os (some artifact) first.digest = .ok () ∧ artifact.fileAt = first.contents ∧
      (∀ view ∈ last, Confirmed first view) ∧
      ∃ again : Reading os, recapture os artifact s.store = (s.store, .returned again none) ∧
        again.digest = first.digest := by
  have hs := consistent_of_run hrun hG
  have hholds := hs.holds c
  rw [hreturned] at hholds
  obtain ⟨⟨artifact, hartifact, hfiles⟩, hlast⟩ := hholds
  have hverify := verify_of_verified hs.verified hartifact
  exact ⟨artifact, hartifact, hverify, hfiles, hlast, recapture_eq hartifact hverify⟩

theorem verified_none : Verified os (fun _ => none) := by
  intro hex artifact h
  cases h

private def sourceName (byte : Byte) (h : byte ≠ 0 ∧ byte ≠ 47) : FileName :=
  ⟨[byte], by simpa [separator, eq_comm] using h⟩

private def nameOfA : FileName := sourceName 97 (by decide)

private def plainFile (content : Bytes) : FileData :=
  { content := content, executable := false, links := 1 }

private def sampleOs : Platform :=
  Platform.ascii (fun _ => "44bd28b3aea21a093ff20a2e4370e42c94e23845036c6044fc2239922506355a")

/-- A file `a` that holds `x`. -/
private def sampleSource : Directory := .file nameOfA (plainFile [120]) .empty

private def sampleReading : Reading sampleOs where
  view := .still sampleSource
  files := [[nameOfA]]
  digest := "sha256:44bd28b3aea21a093ff20a2e4370e42c94e23845036c6044fc2239922506355a"
  hex := "44bd28b3aea21a093ff20a2e4370e42c94e23845036c6044fc2239922506355a".toList
  collected := by decide
  digested := by decide
  named := by decide

/-- Eight steps of one capture, then four of another. -/
private def sampleLabels : List (Bool × Input) :=
  (List.replicate 8 false ++ List.replicate 4 true).map fun c =>
    (c, { view := .still sampleSource, fault := none })

private def sampleRun : List (State sampleOs Bool × (Bool × Input)) × State sampleOs Bool :=
  System.replay (step sampleOs) { store := fun _ => none, phases := fun _ => .reading } sampleLabels

/-- What a step compares its first pass with. -/
private def comparison {os : Platform} {Call : Type} (p : State os Call × (Call × Input)) :
    Option (Reading os) × List View :=
  ((p.1.phases p.2.1).first, compared p.1.store (p.1.phases p.2.1))

private theorem sampleRun_comparison : sampleRun.1.map comparison =
    [(some sampleReading, []), (some sampleReading, []),
      (some sampleReading, [.still sampleSource]), (none, []),
      (some sampleReading, []), (some sampleReading, []), (some sampleReading, []),
      (some sampleReading, [.still sampleSource]),
      (some sampleReading, []), (some sampleReading, []), (some sampleReading, []), (none, [])] := by
  rfl

private theorem sampleRun_guarded : System.Guarded (ToldApart sampleOs) sampleRun.1 := by
  have hsame : ∀ q ∈ sampleRun.1.map comparison, ∀ first, q.1 = some first →
      ∀ w ∈ q.2, w = first.view := by
    rw [sampleRun_comparison]
    simp [sampleReading]
  intro p hp first hfirst w hw
  rw [hsame _ (List.mem_map_of_mem hp) first hfirst w hw]
  exact .refl _

/-- A source that nobody edits is captured, and captured again. -/
theorem capture_never_torn_sample :
    ∃ artifact, sampleRun.2.store sampleReading.hex = some artifact ∧
      verify sampleOs (some artifact) sampleReading.digest = .ok () ∧
      artifact.fileAt = sampleReading.contents ∧ Confirmed sampleReading (.still sampleSource) := by
  have hrun : System.Run (captureSystem sampleOs Bool) sampleRun.1 sampleRun.2 :=
    System.Run.replay (M := captureSystem sampleOs Bool) (fun _ _ => rfl)
      ⟨verified_none, fun _ => rfl⟩ sampleLabels
  have hreturned : sampleRun.2.phases false = .returned sampleReading (some (.still sampleSource)) :=
    rfl
  obtain ⟨artifact, hartifact, hverify, hfiles, hlast, -⟩ :=
    capture_never_torn hrun sampleRun_guarded hreturned
  exact ⟨artifact, hartifact, hverify, hfiles, hlast _ rfl⟩

private def nameOfB : FileName := sourceName 98 (by decide)

private def pairOf (a b : Bytes) : Directory :=
  .file nameOfA (plainFile a) (.file nameOfB (plainFile b) .empty)

/-- The SHA-256 of what the two trees below are hashed from. -/
private def tornOs : Platform :=
  Platform.ascii (fun _ => "92f2bc9b64f19a37e864721bbbb971f0f5f0afcd4aca7e04c3780b39add0666d")

/-- The contents of `a` spell a second `b`. -/
private def tornSource : Directory := pairOf [120, 0, 98, 0, 0, 0, 121] [122]

/-- Here those of `b` do. -/
private def tornCopy : Directory :=
  .file nameOfB (plainFile [121, 0, 98, 0, 0, 0, 122]) (.file nameOfA (plainFile [120]) .empty)

/-- What the source is at each access: edited before each of the two copies, put back after. -/
private def tornLabels : List (Unit × Input) :=
  [tornSource, tornSource, pairOf [120] [122], pairOf [119] [121, 0, 98, 0, 0, 0, 122], tornSource,
    tornSource, tornSource, tornSource, tornSource].map fun d =>
    ((), { view := .still d, fault := none })

private def tornRun : List (State tornOs Unit × (Unit × Input)) × State tornOs Unit :=
  System.replay (step tornOs) { store := fun _ => none, phases := fun _ => .reading } tornLabels

private def tornReading : Reading tornOs where
  view := .still tornSource
  files := [[nameOfA], [nameOfB]]
  digest := "sha256:92f2bc9b64f19a37e864721bbbb971f0f5f0afcd4aca7e04c3780b39add0666d"
  hex := "92f2bc9b64f19a37e864721bbbb971f0f5f0afcd4aca7e04c3780b39add0666d".toList
  collected := by decide
  digested := by decide
  named := by decide

/-- Two edits between the copies, undone before the last pass: the capture returns a digest, and
its artifact is no tree the source ever was. -/
theorem edits_publish_torn :
    System.Run (captureSystem tornOs Unit) tornRun.1 tornRun.2 ∧
      tornRun.2.phases () = .returned tornReading (some (.still tornSource)) ∧
      tornRun.2.store tornReading.hex = some tornCopy ∧
      snapshotStream tornOs tornCopy = snapshotStream tornOs tornSource ∧
      tornCopy.fileAt ≠ tornReading.contents ∧
      ∀ label ∈ tornLabels, tornCopy.fileAt ≠ label.2.view.read.fileAt := by
  refine ⟨System.Run.replay (M := captureSystem tornOs Unit) (fun _ _ => rfl)
      ⟨verified_none, fun _ => rfl⟩ tornLabels,
    rfl, rfl, by decide, fun heq => ?_, fun label hlabel heq => ?_⟩
  · exact absurd (congrFun heq [nameOfA]) (by decide)
  · have hdiffer : ∀ label ∈ tornLabels,
        ¬ (tornCopy.fileAt [nameOfA] = label.2.view.read.fileAt [nameOfA] ∧
          tornCopy.fileAt [nameOfB] = label.2.view.read.fileAt [nameOfB]) := by decide
    exact hdiffer label hlabel ⟨congrFun heq _, congrFun heq _⟩

end A3sBench.TaskSnapshot
