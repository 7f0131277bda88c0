import A3sBench.LockBinding
import A3sBench.PathComponents
import A3sBench.Platform
import A3sBench.TaskSource

/-!
# Where the run directories of a Task lie

`run_directory` names a directory of the state root after the Task id.
`replace_directory` removes what is there with everything below it.
-/

namespace A3sBench.Workspace

/-- What `std::process::id` and `RUN_DIRECTORY_SEQUENCE.fetch_add` add to a name. -/
def runSuffix (processId : UInt32) (sequence : UInt64) : String :=
  "-" ++ toString processId.toNat ++ "-" ++ toString sequence.toNat

def uniqueRunDirectory (root : Bytes) (taskId : String) (processId : UInt32) (sequence : UInt64) :
    Bytes :=
  joinPath root (utf8 (taskId ++ runSuffix processId sequence))

/-- `run_directory`, where `secureDirectory` makes its parent. -/
def runDirectory (secureDirectory : Bytes → Result Unit) (stateRoot : Bytes) (kind taskId : String)
    (processId : UInt32) (sequence : UInt64) : Result Bytes := do
  let root := joinPath stateRoot (utf8 kind)
  secureDirectory root
  pure (uniqueRunDirectory root taskId processId sequence)

/-- `state_root`, below the current directory. -/
def stateRoot (currentDir : Bytes) : Bytes := joinPath currentDir (utf8 ".a3s/bench")

/-- One name below a directory. -/
def DirectChild (path directory : Bytes) : Prop :=
  ∃ name, components path = components directory ++ [.normal name]

/-- The id is relative and leads nowhere before its last part. -/
def IdStays (taskId : String) : Prop :=
  (utf8 taskId).head? ≠ some separator ∧
    ∀ part ∈ ((utf8 taskId).splitOn separator).dropLast, part = [] ∨ part = dot

/-! ## The name of a run -/

theorem runSuffix_ascii {processId : UInt32} {sequence : UInt64} {c : Char}
    (h : c ∈ (runSuffix processId sequence).toList) :
    c = '-' ∨ Text.isAsciiAlphanumeric c = true := by
  simp only [runSuffix, String.toList_append, List.mem_append] at h
  rcases h with ((hdash | hid) | hdash) | hsequence
  · exact .inl (by simpa using hdash)
  · exact .inr (Text.isAsciiAlphanumeric_of_mem_repr hid)
  · exact .inl (by simpa using hdash)
  · exact .inr (Text.isAsciiAlphanumeric_of_mem_repr hsequence)

theorem separator_notMem_runSuffix (processId : UInt32) (sequence : UInt64) :
    separator ∉ utf8 (runSuffix processId sequence) := by
  have hchar : ∀ c ∈ (runSuffix processId sequence).toList, c.toNat = 45 ∨
      48 ≤ c.toNat ∧ c.toNat < 128 := by
    intro c hc
    rcases runSuffix_ascii hc with rfl | halnum
    · exact .inl rfl
    · exact .inr (Text.toNat_of_isAsciiAlphanumeric halnum)
  have hascii : ∀ c ∈ (runSuffix processId sequence).toList, c.toNat < 128 := by
    intro c hc
    have := hchar c hc
    omega
  intro hmem
  obtain ⟨c, hc, heq⟩ := (mem_utf8Chars_ascii hascii).mp hmem
  have := hchar c hc
  change 47 = c.toNat at heq
  omega

/-- A run suffix starts with a dash. -/
theorem utf8_runSuffix (processId : UInt32) (sequence : UInt64) :
    ∃ rest, utf8 (runSuffix processId sequence) = 45 :: rest := by
  refine ⟨utf8 (toString processId.toNat ++ "-" ++ toString sequence.toNat), ?_⟩
  rw [runSuffix, String.append_assoc, String.append_assoc, utf8_append, String.append_assoc]
  rfl

theorem component_runName (last : Bytes) (processId : UInt32) (sequence : UInt64) :
    component (last ++ utf8 (runSuffix processId sequence)) =
      some (.normal (last ++ utf8 (runSuffix processId sequence))) := by
  obtain ⟨rest, hrest⟩ := utf8_runSuffix processId sequence
  have hmem : (45 : Byte) ∈ last ++ utf8 (runSuffix processId sequence) := by
    rw [hrest]
    simp
  apply component_of_ne
  · exact List.ne_nil_of_mem hmem
  · intro h
    rw [h] at hmem
    exact absurd hmem (by decide)
  · intro h
    rw [h] at hmem
    exact absurd hmem (by decide)

/-! ## The run directories -/

theorem runDirectory_ok_iff {secureDirectory : Bytes → Result Unit} {stateRoot : Bytes}
    {kind taskId : String} {processId : UInt32} {sequence : UInt64} {path : Bytes} :
    runDirectory secureDirectory stateRoot kind taskId processId sequence = .ok path ↔
      secureDirectory (joinPath stateRoot (utf8 kind)) = .ok () ∧
        uniqueRunDirectory (joinPath stateRoot (utf8 kind)) taskId processId sequence = path := by
  simp only [runDirectory, Result.bind_ok_iff, Result.exists_unit_iff, Result.pure_ok_iff]

theorem head?_joinPath {base path : Bytes} (h : base.head? = some separator) :
    (joinPath base path).head? = some separator := by
  unfold joinPath
  split_ifs with hpath
  · exact hpath
  · rw [List.head?_append, h]
    rfl
  · rw [List.head?_append, h]
    rfl

theorem head?_runName (taskId : String) (processId : UInt32) (sequence : UInt64) :
    (utf8 (taskId ++ runSuffix processId sequence)).head? = some separator ↔
      (utf8 taskId).head? = some separator := by
  obtain ⟨rest, hrest⟩ := utf8_runSuffix processId sequence
  rw [utf8_append, hrest]
  cases utf8 taskId with
  | nil => simp [separator]
  | cons b id => simp

/-- Below an absolute directory a relative id stays there where its last part
comes first. -/
theorem directChild_uniqueRunDirectory_iff {root : Bytes} {taskId : String}
    (hroot : root.head? = some separator) (hid : (utf8 taskId).head? ≠ some separator)
    (processId : UInt32) (sequence : UInt64) :
    DirectChild (uniqueRunDirectory root taskId processId sequence) root ↔
      ∀ part ∈ ((utf8 taskId).splitOn separator).dropLast, part = [] ∨ part = dot := by
  have hsplit : (utf8 taskId).splitOn separator =
      ((utf8 taskId).splitOn separator).dropLast ++
        [((utf8 taskId).splitOn separator).getLast (List.splitOn_ne_nil _ _)] :=
    (List.dropLast_append_getLast _).symm
  have hcomponents := components_joinPath hroot
    (mt (head?_runName taskId processId sequence).mp hid)
  rw [utf8_append, filterMap_component_append hsplit (separator_notMem_runSuffix _ _)
    (component_runName _ _ _)] at hcomponents
  have hnone : (((utf8 taskId).splitOn separator).dropLast.filterMap component = []) ↔
      ∀ part ∈ ((utf8 taskId).splitOn separator).dropLast, part = [] ∨ part = dot := by
    simp only [List.filterMap_eq_nil_iff, component_eq_none_iff]
  rw [← hnone, DirectChild, uniqueRunDirectory, utf8_append, hcomponents]
  constructor
  · rintro ⟨name, hname⟩
    have happend : _ ++ [_] = [] ++ [_] := List.append_cancel_left hname
    exact (List.append_inj' happend rfl).1
  · intro hnil
    rw [hnil]
    exact ⟨_, rfl⟩

/-- An absolute id leads to one place from both directories. -/
theorem not_directChild_of_absolute {root root' : Bytes} {taskId : String}
    (hid : (utf8 taskId).head? = some separator) (hroots : components root ≠ components root')
    {processId processId' : UInt32} {sequence sequence' : UInt64}
    (h : DirectChild (uniqueRunDirectory root taskId processId sequence) root) :
    ¬DirectChild (uniqueRunDirectory root' taskId processId' sequence') root' := by
  have hpath : ∀ (base : Bytes) (processId : UInt32) (sequence : UInt64), ∃ name,
      components (uniqueRunDirectory base taskId processId sequence) =
        .rootDir :: ((utf8 taskId).splitOn separator).dropLast.filterMap component ++
          [.normal name] := by
    intro base processId sequence
    have hname := (head?_runName taskId processId sequence).mpr hid
    refine ⟨((utf8 taskId).splitOn separator).getLast (List.splitOn_ne_nil _ _) ++
      utf8 (runSuffix processId sequence), ?_⟩
    rw [uniqueRunDirectory, joinPath, if_pos hname, components_absolute hname, utf8_append,
      filterMap_component_append (List.dropLast_append_getLast (List.splitOn_ne_nil _ _)).symm
        (separator_notMem_runSuffix _ _) (component_runName _ _ _)]
    rfl
  rintro ⟨name', hname'⟩
  obtain ⟨name, hname⟩ := h
  obtain ⟨own, hown⟩ := hpath root processId sequence
  obtain ⟨own', hown'⟩ := hpath root' processId' sequence'
  rw [hown] at hname
  rw [hown'] at hname'
  apply hroots
  exact (List.append_inj' hname rfl).1.symm.trans (List.append_inj' hname' rfl).1

theorem head?_stateRoot {currentDir : Bytes} (h : currentDir.head? = some separator) :
    (stateRoot currentDir).head? = some separator := head?_joinPath h

theorem components_kind {stateRoot : Bytes} (h : stateRoot.head? = some separator) :
    components (joinPath stateRoot (utf8 "workspaces")) =
        components stateRoot ++ [.normal (utf8 "workspaces")] ∧
      components (joinPath stateRoot (utf8 "submissions")) =
        components stateRoot ++ [.normal (utf8 "submissions")] := by
  rw [components_joinPath h (by decide), components_joinPath h (by decide)]
  exact ⟨congrArg _ (by decide), congrArg _ (by decide)⟩

theorem rootBlock_ok_iff {document : Acl.Document} {block : Acl.Block} {id : String} :
    TaskSource.rootBlock document = .ok (block, id) ↔
      document.blocks = [block] ∧ block.name = "bench" ∧ block.labels = [id] := by
  unfold TaskSource.rootBlock
  constructor
  · intro h
    split at h
    · rename_i root hroot
      obtain ⟨label, hlabel, hpair⟩ := Result.bind_ok_iff.mp h
      obtain ⟨rfl, rfl⟩ := Prod.mk.inj (Except.ok.inj hpair)
      rw [Result.okOr_ok_iff] at hlabel
      split at hlabel
      · rename_i hname hlabels
        exact ⟨hroot, hname, hlabels.trans (congrArg (fun id => [id]) (Option.some.inj hlabel))⟩
      · cases hlabel
    · cases h
  · rintro ⟨hroot, hname, hlabels⟩
    rw [hroot]
    simp [hname, hlabels, okOr]

/-- The id of a Task is the label of its root block, -/
theorem loadLocal_label {loader : TaskSource.Loader} {files : TaskSource.TaskFiles}
    {task : TaskInfo} (h : TaskSource.loadLocal loader files = .ok task) :
    ∃ attributes blocks, files.document = .ok ⟨[.mk "bench" [task.id] attributes blocks]⟩ := by
  simp only [TaskSource.loadLocal, Result.bind_ok_iff, Result.pure_ok_iff] at h
  obtain ⟨⟨documentBlocks⟩, hdocument, ⟨⟨name, labels, attributes, blocks⟩, id⟩, hroot, _, _, _, _,
    _, _, _, _, _, _, _, _, _, _, _, _, _, _, _, _, rfl⟩ := h
  obtain ⟨hblocks, hname, hlabels⟩ := rootBlock_ok_iff.mp hroot
  cases hblocks
  cases hname
  cases hlabels
  exact ⟨attributes, blocks, hdocument⟩

/-- and any label is accepted. -/
theorem loadLocal_relabel {loader : TaskSource.Loader} {files : TaskSource.TaskFiles}
    {attributes : List (String × Acl.Value)} {blocks : List Acl.Block} {task : TaskInfo}
    {label : String}
    (hdocument : files.document = .ok ⟨[.mk "bench" [label] attributes blocks]⟩)
    (h : TaskSource.loadLocal loader files = .ok task) (id : String) :
    TaskSource.loadLocal loader
        { files with document := .ok ⟨[.mk "bench" [id] attributes blocks]⟩ } =
      .ok { task with id := id } := by
  have hroot : ∀ label, TaskSource.rootBlock ⟨[.mk "bench" [label] attributes blocks]⟩ =
      .ok (.mk "bench" [label] attributes blocks, label) :=
    fun _ => rootBlock_ok_iff.mpr ⟨rfl, rfl, rfl⟩
  simp only [TaskSource.loadLocal, hdocument, Result.bind_ok_iff, Result.pure_ok_iff] at h ⊢
  obtain ⟨_, hok, _, hlabel, header, hheader, seed, hseed, submission, hsubmission, rest⟩ := h
  obtain rfl := Except.ok.inj hok
  cases (hroot label).symm.trans hlabel
  refine ⟨_, rfl, _, hroot id, header, hheader, seed, hseed, submission, hsubmission, ?_⟩
  obtain ⟨work, hwork, judge, hjudge, imports, himports, legacy, hlegacy, _, hasset, name, hname,
    category, hcategory, rfl⟩ := rest
  exact ⟨work, hwork, judge, hjudge, imports, himports, legacy, hlegacy, (), hasset, name, hname,
    category, hcategory, rfl⟩

/-- Both run directories of an accepted Task lie directly in their directory
where its id stays there. -/
theorem runDirectories_direct_iff {loader : TaskSource.Loader} {files : TaskSource.TaskFiles}
    {task : TaskInfo} {secureDirectory : Bytes → Result Unit}
    {currentDir workspace submission : Bytes} {processId processId' : UInt32}
    {sequence sequence' : UInt64}
    (hload : TaskSource.loadLocal loader files = .ok task)
    (hcurrent : currentDir.head? = some separator)
    (hworkspace : runDirectory secureDirectory (stateRoot currentDir) "workspaces" task.id
      processId sequence = .ok workspace)
    (hsubmission : runDirectory secureDirectory (stateRoot currentDir) "submissions" task.id
      processId' sequence' = .ok submission) :
    (∃ attributes blocks,
        files.document = .ok ⟨[.mk "bench" [task.id] attributes blocks]⟩) ∧
      (DirectChild workspace (joinPath (stateRoot currentDir) (utf8 "workspaces")) ∧
          DirectChild submission (joinPath (stateRoot currentDir) (utf8 "submissions")) ↔
        IdStays task.id) := by
  refine ⟨loadLocal_label hload, ?_⟩
  have hstate := head?_stateRoot hcurrent
  obtain rfl := (runDirectory_ok_iff.mp hworkspace).2
  obtain rfl := (runDirectory_ok_iff.mp hsubmission).2
  by_cases hid : (utf8 task.id).head? = some separator
  · have hroots : components (joinPath (stateRoot currentDir) (utf8 "workspaces")) ≠
        components (joinPath (stateRoot currentDir) (utf8 "submissions")) := by
      obtain ⟨hworkspaces, hsubmissions⟩ := components_kind hstate
      rw [hworkspaces, hsubmissions]
      intro h
      exact absurd (List.append_cancel_left h) (by decide)
    constructor
    · rintro ⟨hchild, hchild'⟩
      exact absurd hchild' (not_directChild_of_absolute hid hroots hchild)
    · intro hstays
      exact absurd hid hstays.1
  · rw [directChild_uniqueRunDirectory_iff (head?_joinPath hstate) hid,
      directChild_uniqueRunDirectory_iff (head?_joinPath hstate) hid, and_self]
    exact ⟨fun h => ⟨hid, h⟩, fun h => h.2⟩

def sampleLoader : TaskSource.Loader :=
  { validatePolicy := fun _ => .ok (), isIpAddr := fun _ => false }

/-- A Task with no part that is not required. -/
def sampleFiles (id : String) : TaskSource.TaskFiles :=
  { document := .ok ⟨[.mk "bench" [id]
      [("schema", .string "a3s-bench/task/v1"), ("version", .string "1"), ("name", .string "T"),
        ("category", .string "c")]
      [.mk "work" [] [] [.mk "image" [] [("ref", .string "alpine")] []],
        .mk "judge" [] [("asset", .string "oci://j")] [],
        .mk "metric" ["m"]
          [("role", .string "primary"), ("min", .number "0"), ("max", .number "1")] []]]⟩
    legacyJudge := .ok none
    hasAssetAcl := fun _ => false }

theorem loadLocal_sampleFiles (id : String) :
    TaskSource.loadLocal sampleLoader (sampleFiles id) = .ok { Lock.sampleTask with id := id } := by
  have haccepted : TaskSource.loadLocal sampleLoader (sampleFiles "t") = .ok Lock.sampleTask := by
    decide +kernel
  exact loadLocal_relabel rfl haccepted id

theorem runDirectories_direct_iff_sample :
    (∃ attributes blocks,
        (sampleFiles "t").document = .ok ⟨[.mk "bench" ["t"] attributes blocks]⟩) ∧
      (DirectChild (utf8 "/a/.a3s/bench/workspaces/t-7-0")
          (joinPath (stateRoot (utf8 "/a")) (utf8 "workspaces")) ∧
        DirectChild (utf8 "/a/.a3s/bench/submissions/t-7-1")
          (joinPath (stateRoot (utf8 "/a")) (utf8 "submissions")) ↔ IdStays "t") :=
  @runDirectories_direct_iff _ _ _ (fun _ => .ok ()) (utf8 "/a") _ _ 7 7 0 1
    (loadLocal_sampleFiles "t") (by decide) (by decide) (by decide)

/-- Two `..` lead out of the state root, where the tree below is removed. -/
theorem dotDot_escapes :
    ¬∀ (loader : TaskSource.Loader) (files : TaskSource.TaskFiles) (task : TaskInfo)
        (secureDirectory : Bytes → Result Unit) (currentDir workspace submission : Bytes)
        (processId processId' : UInt32) (sequence sequence' : UInt64),
      TaskSource.loadLocal loader files = .ok task → currentDir.head? = some separator →
      runDirectory secureDirectory (stateRoot currentDir) "workspaces" task.id processId sequence =
        .ok workspace →
      runDirectory secureDirectory (stateRoot currentDir) "submissions" task.id processId'
        sequence' = .ok submission →
      DirectChild workspace (joinPath (stateRoot currentDir) (utf8 "workspaces")) ∧
        DirectChild submission (joinPath (stateRoot currentDir) (utf8 "submissions")) := by
  intro hclaim
  have hdirect := hclaim sampleLoader (sampleFiles "../../../x") _ (fun _ => .ok ()) (utf8 "/a") _ _
    7 7 0 1 (loadLocal_sampleFiles "../../../x") (by decide) rfl rfl
  have hstays := (directChild_uniqueRunDirectory_iff (by decide) (by decide) 7 0).mp hdirect.1
  exact absurd (hstays dotDot (by decide)) (by decide)

end A3sBench.Workspace
