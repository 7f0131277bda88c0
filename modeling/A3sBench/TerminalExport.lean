import A3sBench.ExportBudget
import A3sBench.StagingTree
import A3sBench.WorkspaceInventory

/-!
# A submission out of a container

`export_container_files` selects the files of a container workspace while it
copies them, in the order of their normalized names. `project` selects in the
order of the paths, where the names of two directories are compared before what
follows them.
-/

namespace A3sBench.ArchivePipeline

open Library Library.Action Submission WorkspaceInventory

/-- `format!("{}/{}", source_path.trim_end_matches('/'), normalized)`. -/
def containerPath (sourcePath : String) (normalized : Bytes) : Bytes :=
  (utf8 sourcePath).rdropWhile (fun b => b = separator) ++ separator :: normalized

section Candidates

variable {globs : Globs}

/-- The loop over the inventory. -/
def gather (matcher : TerminalMatcher globs) : List Path → Result (List (Bytes × Path))
  | [] => pure []
  | relative :: rest => do
    let normalized ← normalizeTerminalPath (pathBytes relative)
    let candidates ← gather matcher rest
    pure (if matcher.accepts normalized then (normalized, relative) :: candidates else candidates)

def exportCandidates (matcher : TerminalMatcher globs) (inventory : List Path) :
    Result (List (Bytes × Path)) := do
  let gathered ← gather matcher inventory
  let candidates := gathered.insertionSort (fun left right => left.1 ≤ right.1)
  ensure (candidates.IsChain (fun left right => left.1 ≠ right.1))
    "container workspace inventory contains a duplicate path"
  pure candidates

end Candidates

/-- What the file system answers around the destination of an export. -/
structure Destination where
  isDir : Bool
  content : Result Directory
  hasParent : Bool
  /-- `create_unique_staging_directory` of the staging directory and of the probe. -/
  staging : Result Unit
  probe : Result Unit
  /-- `remove_tree` of the probe. -/
  cleanup : Result Unit
  hardened : Result Unit
  published : Result Unit

/-- What was placed so far. -/
def placed : Export Directory := fun s => (s, .ok s.staging)

/-- `populate_empty_directory_atomically`, with what the destination holds afterwards. -/
def populateEmptyDirectoryAtomically (destination : Destination) (populate : Export Unit) :
    Export Directory := do
  told (ensure (destination.isDir = true) "container workspace export destination is unavailable")
  let content ← told destination.content
  told (ensure (content = .empty) "container workspace export destination must be empty")
  told (ensure (destination.hasParent = true) "container workspace export destination has no parent")
  told (context "could not create workspace export staging" destination.staging)
  populate
  told (context "could not harden exported container workspace" destination.hardened)
  told (context "could not publish exported container workspace" destination.published)
  placed

/-- What the loop meets at a candidate, by its path in the container. -/
def attemptOf (docker : Bytes → FileAttempt) (sourcePath : String) (file : Bytes × Path) :
    FileAttempt :=
  { docker (containerPath sourcePath file.1) with relative := file.2 }

/-- `export_container_files`. -/
def exportContainerFiles (globs : Globs) (policy : SubmissionPolicy) (docker : Bytes → FileAttempt)
    (sourcePath : String) (inventory : List Path) (destination : Destination) :
    Export Directory := do
  let matcher ← told (terminalMatcher globs policy)
  let candidates ← told (exportCandidates matcher inventory)
  populateEmptyDirectoryAtomically destination
    (exportSelectedContainerFiles policy destination.probe
      (candidates.map (attemptOf docker sourcePath)) destination.cleanup)

/-! ## What is assumed of the container -/

/-- The workspace has regular files at accepted paths and the directories above them. An empty
directory has to be one that the walk of `project` enters. -/
structure Plain (workspace : Directory) : Prop where
  distinct : workspace.Distinct
  file : ∀ path data, (path, .file data) ∈ workspace.walk →
    ∃ normalized, normalizeTerminalPath (pathBytes path) = .ok normalized
  directory : ∀ path, (path, .directory) ∈ workspace.walk → Passes path .directory ∨
    ∃ lower data, (lower, .file data) ∈ workspace.walk ∧ Directory.Above path lower
  regular : ∀ e ∈ workspace.walk, e.2 ≠ .symlink ∧ e.2 ≠ .special

/-- The inventory lists the regular files. -/
structure Lists (inventory : List Path) (workspace : Directory) : Prop where
  nodup : inventory.Nodup
  mem : ∀ path, path ∈ inventory ↔ ∃ data, (path, .file data) ∈ workspace.walk

/-- Docker copies the file. Beside its content an archive has at most the overhead that the
source grants it, so that a copy is stopped only at a smaller cap. -/
structure Delivers (attempt : FileAttempt) (content : Bytes) : Prop where
  inTime : ∃ timeLeft, attempt.timeLeft = some timeLeft ∧ timeLeft ≠ 0
  reset : attempt.reset = .ok ()
  secured : attempt.secured = .ok ()
  copied : ∀ cap, (∃ n, (attempt.extraction cap).result = .ok n) ∨
    (∃ l n, (attempt.extraction cap).result = .error (.pump (.limit l n))) ∧
      cap < content.length + containerFileTarOverhead
  onlyFile : ∃ file, attempt.onlyFile = .ok file ∧ file.content = content
  inspected : attempt.inspected = .ok ()
  parent : attempt.parent = .ok ()
  renamed : attempt.renamed = .ok ()

/-- The directories of an export can be made, and the destination is there and empty. -/
structure Destination.Ready (destination : Destination) : Prop where
  isDir : destination.isDir = true
  content : destination.content = .ok .empty
  hasParent : destination.hasParent = true
  staging : destination.staging = .ok ()
  probe : destination.probe = .ok ()
  cleanup : destination.cleanup = .ok ()
  hardened : destination.hardened = .ok ()
  published : destination.published = .ok ()

/-- The transfer budget is hit: it is used up, or the pump stops at what is left of it. -/
def OfBudget : ArchivePipeline.Failure → Prop
  | .message text => text = "workspace archive exceeded its fixed cumulative transfer limit"
  | .pump (.limit _ _) => True
  | .pump _ => False

/-! ## The candidates -/

section Candidates

variable {globs : Globs} {matcher : TerminalMatcher globs} {inventory : List Path}

/-- A path with its normalized name. -/
def named (path : Path) : Bytes × Path := (pathBytes path, path)

theorem normalizeTerminalPath_eq {path : Path} {normalized : Bytes}
    (h : normalizeTerminalPath (pathBytes path) = .ok normalized) : normalized = pathBytes path :=
  ((normalizeTerminalPath_ok_iff (nul_not_mem_pathBytes path)).mp h).2

theorem gather_of_accepted (h : ∀ path ∈ inventory,
    ∃ normalized, normalizeTerminalPath (pathBytes path) = .ok normalized) :
    gather matcher inventory =
      .ok ((inventory.filter (fun path => matcher.accepts (pathBytes path))).map named) := by
  induction inventory with
  | nil => rfl
  | cons path rest ih =>
    obtain ⟨⟨normalized, hpath⟩, hrest⟩ := List.forall_mem_cons.mp h
    obtain rfl := normalizeTerminalPath_eq hpath
    simp only [gather, Result.bind_ok_iff, Result.pure_ok_iff]
    refine ⟨_, hpath, _, ih hrest, ?_⟩
    rw [List.filter_cons]
    split_ifs <;> rfl

/-- The candidates are the matching paths in strict order of their names. -/
theorem exportCandidates_of_accepted (hnodup : inventory.Nodup) (hnil : ∀ path ∈ inventory, path ≠ [])
    (h : ∀ path ∈ inventory,
      ∃ normalized, normalizeTerminalPath (pathBytes path) = .ok normalized) :
    ∃ paths : List Path, exportCandidates matcher inventory = .ok (paths.map named) ∧
      paths.Perm (inventory.filter (fun path => matcher.accepts (pathBytes path))) ∧
      paths.Pairwise (fun left right => pathBytes left < pathBytes right) := by
  let matching := inventory.filter (fun path => matcher.accepts (pathBytes path))
  let candidates := (matching.map named).insertionSort (fun left right => left.1 ≤ right.1)
  have hperm : candidates.Perm (matching.map named) := List.perm_insertionSort _ _
  have hnamed : candidates = (candidates.map Prod.snd).map named := by
    rw [List.map_map]
    refine (List.map_id candidates).symm.trans (List.map_congr_left fun file hfile => ?_)
    obtain ⟨path, -, rfl⟩ := List.mem_map.mp (hperm.mem_iff.mp hfile)
    rfl
  have hpaths : (candidates.map Prod.snd).Perm matching := by
    refine (hperm.map Prod.snd).trans ?_
    rw [List.map_map]
    exact .of_eq (List.map_id matching)
  have hsorted : candidates.Pairwise (fun left right => left.1 ≤ right.1) := by
    have : IsTrans (Bytes × Path) (fun left right => left.1 ≤ right.1) := ⟨fun _ _ _ => le_trans⟩
    have : Std.Total (fun left right : Bytes × Path => left.1 ≤ right.1) :=
      ⟨fun left right => le_total _ _⟩
    exact List.pairwise_insertionSort _ _
  have hstrict : (candidates.map Prod.snd).Pairwise
      (fun left right => pathBytes left < pathBytes right) := by
    rw [hnamed, List.pairwise_map] at hsorted
    refine (hsorted.and (hpaths.nodup_iff.mpr (hnodup.filter _))).imp_of_mem ?_
    rintro left right hleft hright ⟨hle, hne⟩
    have hmem : ∀ path ∈ candidates.map Prod.snd, path ≠ [] := fun path hpath =>
      hnil path (List.mem_filter.mp (hpaths.mem_iff.mp hpath)).1
    exact lt_of_le_of_ne hle
      fun heq => hne (pathBytes_injective (hmem left hleft) (hmem right hright) heq)
  refine ⟨candidates.map Prod.snd, ?_, hpaths, hstrict⟩
  simp only [exportCandidates, Result.bind_ok_iff, Result.exists_unit_iff, Result.ensure_ok_iff,
    Result.pure_ok_iff]
  refine ⟨_, gather_of_accepted h, ?_, hnamed⟩
  change candidates.IsChain _
  rw [hnamed, List.isChain_map]
  exact (hstrict.imp fun hlt => hlt.ne).isChain

end Candidates

/-! ## The loop selects greedily -/

section Loop

variable {policy : SubmissionPolicy} {contents : Path → Bytes}

/-- A path as a candidate. -/
def measured (contents : Path → Bytes) (path : Path) : Candidate := (path, (contents path).length)

/-- What the loop stands for after some candidates: it has placed their greedy selection. -/
structure Represents (policy : SubmissionPolicy) (contents : Path → Bytes) (paths : List Path)
    (s : ExportState) : Prop where
  remaining : s.remaining ≤ containerTreeExportMaxBytes
  limits : s.limits = limitsOf (greedy (fits policy) (paths.map (measured contents)))
  staging : ∃ staged : List (Path × FileData), Directory.Holds staged s.staging ∧
    (staged.map Prod.fst).map (measured contents) =
      greedy (fits policy) (paths.map (measured contents)) ∧
    ∀ file ∈ staged, file.2.content = contents file.1

theorem represents_start : Represents policy contents [] .start where
  remaining := le_rfl
  limits := rfl
  staging := ⟨[], .empty, rfl, fun _ hfile => absurd hfile List.not_mem_nil⟩

theorem told_ok {α : Type} {x : Result α} {a : α} (h : x = .ok a) (s : ExportState) :
    told x s = (s, .ok a) := by
  rw [h]
  rfl

theorem told_ensure {condition : Prop} [Decidable condition] {message : String} (h : condition)
    (s : ExportState) : told (ensure condition message) s = (s, .ok ()) :=
  told_ok (Result.ensure_ok_iff.mpr h) s

theorem told_context {α : Type} {message : String} {x : Result α} {a : α} (h : x = .ok a)
    (s : ExportState) : told (context message x) s = (s, .ok a) :=
  told_ok (Result.context_ok_iff.mpr h) s

variable {attempt : FileAttempt} {content : Bytes}

theorem prepare_of_delivers (h : Delivers attempt content) : prepare attempt = .ok () := by
  obtain ⟨timeLeft, htimeLeft, hne⟩ := h.inTime
  simp only [prepare, Result.bind_ok_iff, Result.exists_unit_iff, Result.ensure_ok_iff,
    Result.okOr_ok_iff, Result.context_ok_iff]
  exact ⟨timeLeft, htimeLeft, hne, h.reset, h.secured⟩

/-- A copy gets the file, or shows that it is too large, unless the budget is hit. -/
theorem transfer_of_delivers (h : Delivers attempt content) {s : ExportState}
    (hremaining : s.remaining ≤ containerTreeExportMaxBytes) :
    (∃ remaining transferred extracted, remaining ≤ s.remaining ∧
      transfer policy attempt s =
        ({ s with remaining := remaining, transferred := transferred }, .ok extracted) ∧
      (extracted = false → policy.maxFileBytes.toNat < content.length)) ∨
    ∃ s' e, transfer policy attempt s = (s', .error e) ∧ OfBudget e := by
  let transferred := s.transferred + (attempt.extraction (copyCap policy s)).transferred
  by_cases hzero : s.remaining = 0
  · refine .inr ⟨s, .message "workspace archive exceeded its fixed cumulative transfer limit", ?_, rfl⟩
    rw [transfer, if_pos hzero]
  rcases h.copied (copyCap policy s) with ⟨n, hresult⟩ | ⟨⟨l, n, hresult⟩, hcap⟩
  · obtain ⟨-, hok, -⟩ := (attempt.extraction (copyCap policy s)).counted
    have hle : n ≤ s.remaining := (hok n hresult).2.trans (Nat.min_le_left _ _)
    refine .inl ⟨s.remaining - n, transferred, true, Nat.sub_le _ _, ?_, fun hfalse => by cases hfalse⟩
    simp only [transfer, if_neg hzero, hresult, afterExtraction, if_pos hle]
    rfl
  by_cases hpolicy : copyCap policy s = policyCap policy
  · by_cases hle : n ≤ s.remaining
    · refine .inl ⟨s.remaining - n, transferred, false, Nat.sub_le _ _, ?_, fun _ => ?_⟩
      · simp only [transfer, if_neg hzero, hresult, afterExtraction, if_pos hpolicy, if_pos hle]
        rfl
      · -- The budget is far from the end of a word, so the cap of the policy is not cut off.
        have hbound : policyCap policy ≤ containerTreeExportMaxBytes :=
          hpolicy ▸ (Nat.min_le_left _ _).trans hremaining
        have hword : containerTreeExportMaxBytes < u64Max := by decide
        rw [hpolicy] at hcap
        unfold policyCap at hbound hcap
        omega
    · refine .inr ⟨{ s with transferred := transferred },
        .message "workspace archive exceeded its fixed cumulative transfer limit", ?_, rfl⟩
      simp only [transfer, if_neg hzero, hresult, afterExtraction, if_pos hpolicy, if_neg hle]
      rfl
  · refine .inr ⟨{ s with transferred := transferred }, .pump (.limit l n), ?_, trivial⟩
    simp only [transfer, if_neg hzero, hresult, afterExtraction, if_neg hpolicy]
    rfl

/-- What becomes of a file that was copied: it is placed when it fits. -/
theorem retain_of_delivers (h : Delivers attempt content) {s : ExportState}
    {chosen : List Candidate} (hlimits : s.limits = limitsOf chosen) :
    ∃ file : FileData, file.content = content ∧ retain policy attempt s =
      (if fits policy chosen (attempt.relative, content.length) then
        { s with
          limits := limitsOf (chosen ++ [(attempt.relative, content.length)])
          staging := s.staging.insertFile file attempt.relative }
      else s, .ok ()) := by
  obtain ⟨file, honly, rfl⟩ := h.onlyFile
  refine ⟨file, rfl, ?_⟩
  unfold retain
  rw [bind_of_ok (told_context honly s), bind_of_ok (told_context h.inspected s)]
  have hselect := select_limitsOf policy chosen (attempt.relative, file.content.length)
  split_ifs with hfits
  · have hselected : select policy file.content.length s = ({ s with
        limits := limitsOf (chosen ++ [(attempt.relative, file.content.length)]) }, .ok true) := by
      rw [if_pos hfits] at hselect
      rw [select, hlimits, hselect]
    rw [bind_of_ok hselected, if_pos rfl, bind_of_ok (told_context h.parent _),
      bind_of_ok (told_context h.renamed _)]
    rfl
  · have hselected : select policy file.content.length s = (s, .ok false) := by
      rw [if_neg hfits] at hselect
      rw [select, hlimits, hselect]
    rw [bind_of_ok hselected]
    rfl

variable {paths : List Path} {path : Path} {s : ExportState}

/-- A file that does not fit changes nothing. -/
theorem Represents.skip (h : Represents policy contents paths s)
    (hfits : fits policy (greedy (fits policy) (paths.map (measured contents)))
      (measured contents path) = false) : Represents policy contents (paths ++ [path]) s := by
  have hgreedy : greedy (fits policy) ((paths ++ [path]).map (measured contents)) =
      greedy (fits policy) (paths.map (measured contents)) := by
    rw [List.map_append, List.map_singleton, greedy_concat, greedyStep, hfits,
      if_neg Bool.false_ne_true]
  exact ⟨h.remaining, hgreedy ▸ h.limits, hgreedy ▸ h.staging⟩

theorem Represents.place (h : Represents policy contents paths s)
    (hfits : fits policy (greedy (fits policy) (paths.map (measured contents)))
      (measured contents path) = true) (hnil : path ≠ [])
    (hapart : ∀ other ∈ paths, Directory.Apart other path) {file : FileData}
    (hfile : file.content = contents path) : Represents policy contents (paths ++ [path])
      { s with
        limits := limitsOf (greedy (fits policy) (paths.map (measured contents)) ++
          [measured contents path])
        staging := s.staging.insertFile file path } := by
  have hgreedy : greedy (fits policy) ((paths ++ [path]).map (measured contents)) =
      greedy (fits policy) (paths.map (measured contents)) ++ [measured contents path] := by
    rw [List.map_append, List.map_singleton, greedy_concat, greedyStep, hfits, if_pos rfl]
  obtain ⟨staged, hholds, hstaged, hcontents⟩ := h.staging
  refine ⟨h.remaining, hgreedy ▸ rfl, staged ++ [(path, file)], ?_, ?_, ?_⟩
  · refine hholds.insertFile hnil fun other hother => hapart other.1 ?_
    have hchosen : measured contents other.1 ∈
        greedy (fits policy) (paths.map (measured contents)) :=
      hstaged ▸ List.mem_map_of_mem (List.mem_map_of_mem hother)
    obtain ⟨path', hpath', heq⟩ := List.mem_map.mp (greedy_sublist.mem hchosen)
    obtain rfl : path' = other.1 := congrArg Prod.fst heq
    exact hpath'
  · rw [hgreedy, List.map_append, List.map_append, hstaged]
    rfl
  · exact List.forall_mem_append.mpr ⟨hcontents, List.forall_mem_singleton.mpr hfile⟩

/-- One candidate is one step of the selection, unless the budget is hit. -/
theorem exportFile_represents (h : Represents policy contents paths s)
    (hattempt : Delivers attempt (contents path)) (hrelative : attempt.relative = path)
    (hnil : path ≠ []) (hapart : ∀ other ∈ paths, Directory.Apart other path) :
    (∃ s', exportFile policy attempt s = (s', .ok ()) ∧
      Represents policy contents (paths ++ [path]) s') ∨
    ∃ s' e, exportFile policy attempt s = (s', .error e) ∧ OfBudget e := by
  unfold exportFile
  rw [bind_of_ok (told_ok (prepare_of_delivers hattempt) s)]
  rcases transfer_of_delivers hattempt h.remaining with
    ⟨remaining, transferred, extracted, hle, htransfer, hskipped⟩ | ⟨s', e, htransfer, hbudget⟩
  · left
    rw [bind_of_ok htransfer]
    have hnext : Represents policy contents paths
        { s with remaining := remaining, transferred := transferred } :=
      ⟨hle.trans h.remaining, h.limits, h.staging⟩
    cases extracted with
    | false =>
      refine ⟨_, rfl, hnext.skip ?_⟩
      have hsize := hskipped rfl
      rw [fits, decide_eq_false_iff_not]
      exact fun hfits => absurd hfits.2.1 (not_le.mpr hsize)
    | true =>
      obtain ⟨file, hfile, hretain⟩ := retain_of_delivers hattempt hnext.limits
      rw [if_pos rfl, hretain, hrelative]
      refine ⟨_, rfl, ?_⟩
      split_ifs with hfits
      · exact hnext.place hfits hnil hapart hfile
      · exact hnext.skip (Bool.eq_false_iff.mpr hfits)
  · exact .inr ⟨s', e, bind_of_error htransfer, hbudget⟩

/-- By induction on the candidates, over the prefix that the state represents. -/
theorem exportFiles_represents {attemptAt : Path → FileAttempt} {rest : List Path}
    (h : Represents policy contents paths s) (hattempts : ∀ path ∈ rest,
      Delivers (attemptAt path) (contents path) ∧ (attemptAt path).relative = path ∧ path ≠ [])
    (hapart : (paths ++ rest).Pairwise Directory.Apart) :
    (∃ s', exportFiles policy (rest.map attemptAt) s = (s', .ok ()) ∧
      Represents policy contents (paths ++ rest) s') ∨
    ∃ s' e, exportFiles policy (rest.map attemptAt) s = (s', .error e) ∧ OfBudget e := by
  induction rest generalizing paths s with
  | nil =>
    rw [List.append_nil]
    exact .inl ⟨s, rfl, h⟩
  | cons path rest ih =>
    obtain ⟨⟨hattempt, hrelative, hnil⟩, hrest⟩ := List.forall_mem_cons.mp hattempts
    simp only [List.map_cons, exportFiles]
    split_ifs with hfull
    · -- Nothing fits any more, so the rest of the selection is empty.
      rw [h.limits] at hfull
      have hgreedy : greedy (fits policy) ((paths ++ path :: rest).map (measured contents)) =
          greedy (fits policy) (paths.map (measured contents)) := by
        rw [List.map_append, greedy, greedyFrom_append]
        exact greedyFrom_of_full fun file _ => isFull_limitsOf policy hfull file
      exact .inl ⟨s, rfl, h.remaining, hgreedy ▸ h.limits, hgreedy ▸ h.staging⟩
    · have hbefore : ∀ other ∈ paths, Directory.Apart other path := fun other hother =>
        (List.pairwise_append.mp hapart).2.2 other hother path List.mem_cons_self
      have hsplit : paths ++ path :: rest = (paths ++ [path]) ++ rest := by
        rw [List.append_assoc, List.singleton_append]
      rcases exportFile_represents h hattempt hrelative hnil hbefore with
        ⟨s', hstep, hnext⟩ | ⟨s', e, hstep, hbudget⟩
      · rw [bind_of_ok hstep, hsplit]
        exact ih hnext hrest (hsplit ▸ hapart)
      · exact .inr ⟨s', e, bind_of_error hstep, hbudget⟩

end Loop

/-! ## The whole export -/

section Export

variable {globs : Globs} {policy : SubmissionPolicy} {matcher : TerminalMatcher globs}
  {workspace : Directory}

/-- The bytes of the file at a path. -/
def contentAt (workspace : Directory) (path : Path) : Bytes :=
  ((workspace.fileAt path).getD (false, [])).2

theorem Plain.fileAt_eq (h : Plain workspace) {path : Path} {data : FileData}
    (hdata : (path, .file data) ∈ workspace.walk) :
    workspace.fileAt path = some (data.executable, data.content) :=
  h.distinct.fileAt_eq_some_iff.mpr (Directory.mem_records.mpr ⟨data, hdata, rfl, rfl⟩)

theorem Plain.contentAt_eq (h : Plain workspace) {path : Path} {data : FileData}
    (hdata : (path, .file data) ∈ workspace.walk) : contentAt workspace path = data.content := by
  rw [contentAt, h.fileAt_eq hdata]
  rfl

/-- No file lies above another one. -/
theorem Plain.apart (h : Plain workspace) {path path' : Path} {data data' : FileData}
    (hdata : (path, .file data) ∈ workspace.walk) (hdata' : (path', .file data') ∈ workspace.walk)
    (hne : path ≠ path') : Directory.Apart path path' := by
  have hfile : ∀ {upper : Path} {data : FileData}, (upper, .file data) ∈ workspace.walk →
      (upper, .directory) ∉ workspace.walk := by
    intro upper data hupper hdirectory
    have heq := List.inj_on_of_nodup_map h.distinct hupper hdirectory rfl
    cases congrArg Prod.snd heq
  exact ⟨hne, fun habove => hfile hdata (Directory.walk_ancestor hdata' habove),
    fun habove => hfile hdata' (Directory.walk_ancestor hdata habove)⟩

/-- The export places the greedy selection of the matching files in the order of their names,
unless the budget is hit. -/
theorem export_represents (hworkspace : Plain workspace) {inventory : List Path}
    (hinventory : Lists inventory workspace) (hmatcher : terminalMatcher globs policy = .ok matcher)
    {docker : Bytes → FileAttempt} {sourcePath : String}
    (hdocker : ∀ path data, (path, .file data) ∈ workspace.walk →
      Delivers (docker (containerPath sourcePath (pathBytes path))) data.content)
    {destination : Destination} (hready : destination.Ready) :
    ∃ paths : List Path,
      paths.Perm (inventory.filter (fun path => matcher.accepts (pathBytes path))) ∧
      paths.Pairwise (fun left right => pathBytes left < pathBytes right) ∧
      ((∃ s, exportContainerFiles globs policy docker sourcePath inventory destination .start =
        (s, .ok s.staging) ∧ Represents policy (contentAt workspace) paths s) ∨
      ∃ s e, exportContainerFiles globs policy docker sourcePath inventory destination .start =
        (s, .error e) ∧ OfBudget e) := by
  have hfiles : ∀ path ∈ inventory, ∃ data, (path, .file data) ∈ workspace.walk :=
    fun path hpath => (hinventory.mem path).mp hpath
  have hnil : ∀ path ∈ inventory, path ≠ [] := by
    intro path hpath
    obtain ⟨data, hdata⟩ := hfiles path hpath
    exact workspace.walk_path_ne_nil _ hdata
  obtain ⟨paths, hcandidates, hperm, hstrict⟩ :=
    @exportCandidates_of_accepted globs matcher inventory hinventory.nodup hnil (by
      intro path hpath
      obtain ⟨data, hdata⟩ := hfiles path hpath
      exact hworkspace.file path data hdata)
  have hmem : ∀ path ∈ paths, ∃ data, (path, .file data) ∈ workspace.walk :=
    fun path hpath => hfiles path (List.mem_filter.mp (hperm.mem_iff.mp hpath)).1
  have hattempts : ∀ path ∈ paths,
      Delivers (attemptOf docker sourcePath (named path)) (contentAt workspace path) ∧
        (attemptOf docker sourcePath (named path)).relative = path ∧ path ≠ [] := by
    intro path hpath
    obtain ⟨data, hdata⟩ := hmem path hpath
    have h := hdocker path data hdata
    rw [hworkspace.contentAt_eq hdata]
    exact ⟨⟨h.inTime, h.reset, h.secured, h.copied, h.onlyFile, h.inspected, h.parent, h.renamed⟩,
      rfl, workspace.walk_path_ne_nil _ hdata⟩
  have hapart : ([] ++ paths).Pairwise Directory.Apart := by
    refine hstrict.imp_of_mem ?_
    intro left right hleft hright hlt
    obtain ⟨data, hdata⟩ := hmem left hleft
    obtain ⟨data', hdata'⟩ := hmem right hright
    exact hworkspace.apart hdata hdata' fun heq => hlt.ne (congrArg pathBytes heq)
  have hattempted : (paths.map named).map (attemptOf docker sourcePath) =
      paths.map (fun path => attemptOf docker sourcePath (named path)) := by
    rw [List.map_map]
    rfl
  refine ⟨paths, hperm, hstrict, ?_⟩
  unfold exportContainerFiles populateEmptyDirectoryAtomically exportSelectedContainerFiles
  rw [bind_of_ok (told_ok hmatcher _), bind_of_ok (told_ok hcandidates _),
    bind_of_ok (told_ensure hready.isDir _), bind_of_ok (told_ok hready.content _),
    bind_of_ok (told_ensure rfl _), bind_of_ok (told_ensure hready.hasParent _),
    bind_of_ok (told_context hready.staging _), bind_assoc,
    bind_of_ok (told_context hready.probe _), bind_assoc, hattempted]
  rcases exportFiles_represents represents_start hattempts hapart with
    ⟨s, hrun, hrepresents⟩ | ⟨s, e, hrun, hbudget⟩
  · left
    refine ⟨s, ?_, hrepresents⟩
    rw [bind_of_ok hrun, bind_of_ok (told_context hready.cleanup _),
      bind_of_ok (told_context hready.hardened _), bind_of_ok (told_context hready.published _)]
    rfl
  · exact .inr ⟨s, e, bind_of_error hrun, hbudget⟩

end Export

/-! ## What is projected -/

section Project

variable {globs : Globs} {policy : SubmissionPolicy} {matcher : TerminalMatcher globs}
  {workspace : Directory}

theorem pathBytes_append {upper lower : Path} (hupper : upper ≠ []) (hlower : lower ≠ []) :
    pathBytes (upper ++ lower) = pathBytes upper ++ separator :: pathBytes lower := by
  induction upper with
  | nil => exact absurd rfl hupper
  | cons name upper ih =>
    have hcons : ∀ {rest : Path}, rest ≠ [] →
        pathBytes (name :: rest) = name.val ++ separator :: pathBytes rest := by
      intro rest hrest
      have hmap : rest.map Subtype.val ≠ [] := fun hnil => hrest (List.map_eq_nil_iff.mp hnil)
      rw [pathBytes, List.map_cons, List.intercalate_cons_of_ne_nil hmap, List.append_assoc]
      rfl
    by_cases hnil : upper = []
    · subst hnil
      rw [List.singleton_append, hcons hlower]
      simp [pathBytes]
    · rw [List.cons_append, hcons (List.append_ne_nil_of_left_ne_nil hnil _), ih hnil, hcons hnil,
        List.append_assoc, List.cons_append]

/-- The walk enters the directories above an accepted path. -/
theorem passes_of_above {upper lower : Path} (habove : Directory.Above upper lower)
    (haccepted : ∃ normalized, normalizeTerminalPath (pathBytes lower) = .ok normalized) :
    Passes upper .directory := by
  obtain ⟨⟨rest, rfl⟩, hnil, hne⟩ := habove
  have hrest : rest ≠ [] := fun hrest => hne (by rw [hrest, List.append_nil])
  obtain ⟨normalized, hnormalized⟩ := haccepted
  obtain ⟨⟨hutf8, -, hsegments, hdepth⟩, -⟩ :=
    (normalizeTerminalPath_ok_iff (nul_not_mem_pathBytes _)).mp hnormalized
  rw [splitOn_pathBytes (List.append_ne_nil_of_left_ne_nil hnil _), List.map_append] at hsegments
  rw [splitOn_pathBytes (List.append_ne_nil_of_left_ne_nil hnil _), List.length_map,
    List.length_append] at hdepth
  rw [pathBytes_append hnil hrest] at hutf8
  have hsafe : ∀ segment ∈ (pathBytes upper).splitOn separator,
      segment ≠ [] ∧ segment ≠ dot ∧ segment ≠ dotDot := by
    rw [splitOn_pathBytes hnil]
    exact fun segment hsegment => hsegments segment (List.mem_append_left _ hsegment)
  have hlength := List.length_pos_iff.mpr hrest
  refine ⟨?_, ?_⟩
  · simp only [Safe, Submission.normalize, Result.bind_ok_iff, Result.exists_unit_iff,
      Result.ensure_ok_iff]
    obtain ⟨hempty, hhead⟩ := ne_nil_of_segments fun segment hsegment => (hsafe segment hsegment).1
    exact ⟨isUtf8_left (by decide) hutf8, ⟨hempty, hhead, hsafe⟩, rfl⟩
  · rw [splitOn_pathBytes hnil, List.length_map]
    omega

theorem passes_file {path : Path} {data : FileData}
    (haccepted : ∃ normalized, normalizeTerminalPath (pathBytes path) = .ok normalized) :
    Passes path (.file data) := by
  obtain ⟨normalized, hnormalized⟩ := haccepted
  rw [normalizeTerminalPath, Result.bind_ok_iff] at hnormalized
  obtain ⟨value, hvalue, -⟩ := hnormalized
  obtain ⟨hsafe, -⟩ := normalize_ok_iff.mp ((normalize_eq path).trans hvalue)
  exact hsafe

theorem Plain.passes (h : Plain workspace) : ∀ e ∈ workspace.walk, Passes e.1 e.2 := by
  rintro ⟨path, kind⟩ he
  cases kind with
  | file data => exact passes_file (h.file path data he)
  | directory =>
    rcases h.directory path he with hpasses | ⟨lower, data, hlower, habove⟩
    · exact hpasses
    · exact passes_of_above habove (h.file lower data hlower)
  | symlink => exact absurd rfl (h.regular _ he).1
  | special => exact absurd rfl (h.regular _ he).2

/-- A workspace without entries that stop the walk is projected. -/
theorem exists_project {source : Directory} (hsource : source.Distinct)
    (hpasses : ∀ e ∈ source.walk, Passes e.1 e.2)
    (hmatcher : terminalMatcher globs policy = .ok matcher) : ∃ copies : List (Path × Bytes),
      project globs source policy = .ok copies ∧
      copies.map sized = greedy (fits policy) (turns policy matcher source) ∧
      ∀ copy ∈ copies, ∃ executable, source.fileAt copy.1 = some (executable, copy.2) := by
  have hcopies : ∀ file ∈ greedy (fits policy) (turns policy matcher source),
      ∃ copy, copyFile source file = .ok copy := by
    intro file hfile
    obtain ⟨data, hdata, -⟩ := mem_turns.mp (greedy_sublist.mem hfile)
    have hat := hsource.fileAt_eq_some_iff.mpr (Directory.mem_records.mpr ⟨data, hdata, rfl, rfl⟩)
    exact ⟨(file.1, data.content), copyFile_ok_iff.mpr ⟨rfl, data.executable, hat⟩⟩
  obtain ⟨copies, hcopies⟩ := Result.exists_mapM hcopies
  have hproject : project globs source policy = .ok copies := by
    simp only [project, Result.bind_ok_iff]
    exact ⟨matcher, hmatcher, _, collectTerminalFiles_ok_iff.mpr ⟨hpasses, rfl⟩, hcopies⟩
  obtain ⟨matcher', hmatcher', hsized, hcontent⟩ := project_ok hsource hproject
  obtain rfl := Except.ok.inj (hmatcher.symm.trans hmatcher')
  exact ⟨copies, hproject, hsized, hcontent⟩

end Project

/-! ## The two orders -/

section Orders

variable {globs : Globs} {policy : SubmissionPolicy} {matcher : TerminalMatcher globs}
  {workspace : Directory}

/-- The order of the export. -/
def nameBefore (left right : Candidate) : Bool := decide (pathBytes left.1 < pathBytes right.1)

/-- The order of the projection. -/
def pathBefore (left right : Candidate) : Bool := decide (left.1 < right.1)

/-- The files that only the limits may leave out. -/
def matchingFiles (policy : SubmissionPolicy) (matcher : TerminalMatcher globs)
    (workspace : Directory) : List Candidate :=
  workspace.walk.filterMap (candidate policy matcher)

/-- Some of the matching files are, in the order of the names as well as in the order of the
paths, those that fit beside the ones among them that come earlier. -/
def OrdersAgree (policy : SubmissionPolicy) (matcher : TerminalMatcher globs)
    (workspace : Directory) : Prop :=
  ∃ kept, Stable (fits policy) nameBefore (matchingFiles policy matcher workspace) kept ∧
    Stable (fits policy) pathBefore (matchingFiles policy matcher workspace) kept

theorem totalSize_perm {chosen chosen' : List Candidate} (h : chosen.Perm chosen') :
    totalSize chosen = totalSize chosen' :=
  (h.map Prod.snd).sum_eq

theorem fits_perm (chosen chosen' : List Candidate) (file : Candidate)
    (h : chosen.Perm chosen') : fits policy chosen file = fits policy chosen' file := by
  rw [fits, fits, h.length_eq, totalSize_perm h]

theorem within_perm {chosen chosen' : List Candidate} (h : Within policy chosen)
    (hperm : chosen.Perm chosen') : Within policy chosen' where
  files := hperm.length_eq ▸ h.files
  fileBytes file hfile := h.fileBytes file (hperm.mem_iff.mpr hfile)
  totalBytes := totalSize_perm hperm ▸ h.totalBytes

/-- Files within the limits are all selected. -/
theorem greedy_of_within {files : List Candidate} (h : Within policy files) :
    greedy (fits policy) files = files := by
  induction files using List.reverseRecOn with
  | nil => rfl
  | append_singleton files file ih =>
    obtain ⟨hfiles, hsize, htotal⟩ := h
    rw [List.length_append, List.length_singleton] at hfiles
    rw [totalSize_concat] at htotal
    have hbefore : Within policy files := by
      refine ⟨by omega, fun other hother => hsize other (List.mem_append_left _ hother), by omega⟩
    have hfits : fits policy files file = true :=
      decide_eq_true ⟨hfiles, hsize file (List.mem_append_right _ (List.mem_singleton_self _)), htotal⟩
    rw [greedy_concat, ih hbefore, greedyStep, if_pos hfits]

/-- The walk of what was placed finds the selection again. -/
theorem turns_of_holds {contents : Path → Bytes} {staged : List (Path × FileData)} {d : Directory}
    (hholds : d.Holds staged) (hcontents : ∀ file ∈ staged, file.2.content = contents file.1)
    (hnodup : (staged.map Prod.fst).Nodup)
    (haccepts : ∀ file ∈ staged, matcher.accepts (pathBytes file.1) = true)
    (hwithin : Within policy ((staged.map Prod.fst).map (measured contents))) :
    (turns policy matcher d).Perm ((staged.map Prod.fst).map (measured contents)) := by
  have hinjective : Function.Injective (measured contents) :=
    fun left right heq => congrArg Prod.fst heq
  have hturns : (turns policy matcher d).Nodup :=
    (turns_strict hholds.distinct).imp fun hlt heq => absurd (heq ▸ hlt) (lt_irrefl _)
  refine (List.perm_ext_iff_of_nodup hturns (hnodup.map hinjective)).mpr fun file => ?_
  rw [mem_turns, List.map_map, List.mem_map]
  constructor
  · rintro ⟨data, hdata, -, hlength, -⟩
    rcases (hholds.mem _).mp hdata with ⟨other, hother, heq⟩ | ⟨hkind, -⟩
    · obtain ⟨hpath, hkind⟩ := Prod.mk.inj heq
      obtain rfl := EntryKind.file.inj hkind
      refine ⟨other, hother, Prod.ext hpath.symm ?_⟩
      rw [hlength, hcontents other hother]
      rfl
    · cases hkind
  · rintro ⟨other, hother, rfl⟩
    refine ⟨other.2, (hholds.mem _).mpr (.inl ⟨other, hother, rfl⟩), haccepts other hother, ?_, ?_⟩
    · exact congrArg List.length (hcontents other hother).symm
    · exact hwithin.fileBytes _ (List.mem_map_of_mem (List.mem_map_of_mem hother))

/-- Below an export and its workspace the copies differ only in which they are. -/
theorem copies_eq_iff {copies copies' : List (Path × Bytes)} {contents : Path → Bytes}
    (h : ∀ copy ∈ copies, copy.2 = contents copy.1)
    (h' : ∀ copy ∈ copies', copy.2 = contents copy.1) :
    copies = copies' ↔ copies.map sized = copies'.map sized := by
  have hdetermined : ∀ {copies : List (Path × Bytes)}, (∀ copy ∈ copies, copy.2 = contents copy.1) →
      copies = (copies.map sized).map (fun file => (file.1, contents file.1)) := by
    intro copies h
    rw [List.map_map]
    refine (List.map_id copies).symm.trans (List.map_congr_left fun copy hcopy => ?_)
    exact Prod.ext rfl (h copy hcopy)
  constructor
  · exact fun heq => by rw [heq]
  · intro heq
    rw [hdetermined h, hdetermined h', heq]

/-- The export and the projection select the same files exactly when the orders agree on them. -/
theorem selection_iff (hworkspace : Plain workspace) {inventory paths : List Path}
    (hinventory : Lists inventory workspace)
    (hpaths : paths.Perm (inventory.filter (fun path => matcher.accepts (pathBytes path))))
    (hstrict : paths.Pairwise (fun left right => pathBytes left < pathBytes right)) :
    (greedy (fits policy) (paths.map (measured (contentAt workspace)))).Perm
      (greedy (fits policy) (turns policy matcher workspace)) ↔
        OrdersAgree policy matcher workspace := by
  let small : Candidate → Bool := fun file => decide (file.2 ≤ policy.maxFileBytes.toNat)
  let named := (paths.map (measured (contentAt workspace))).filter small
  have hnamed : greedy (fits policy) named =
      greedy (fits policy) (paths.map (measured (contentAt workspace))) := by
    refine greedyFrom_filter fun file hlarge chosen => ?_
    rw [fits, decide_eq_false_iff_not]
    exact fun hfits => of_decide_eq_false hlarge hfits.2.1
  have hturns : (turns policy matcher workspace).Perm (matchingFiles policy matcher workspace) :=
    List.perm_insertionSort _ _
  have hordered : Ordered nameBefore named := by
    refine List.Pairwise.filter _ (List.pairwise_map.mpr (hstrict.imp fun hlt => ?_))
    exact ⟨decide_eq_true hlt, decide_eq_false hlt.asymm⟩
  have hordered' : Ordered pathBefore (turns policy matcher workspace) :=
    (turns_strict hworkspace.distinct).imp fun hlt => ⟨decide_eq_true hlt, decide_eq_false hlt.asymm⟩
  have hirrefl : ∀ file, nameBefore file file = false := fun _ => decide_eq_false (lt_irrefl _)
  have hirrefl' : ∀ file, pathBefore file file = false := fun _ => decide_eq_false (lt_irrefl _)
  have hsame : named.Perm (turns policy matcher workspace) := by
    refine (List.perm_ext_iff_of_nodup (hordered.nodup hirrefl)
      (hordered'.nodup hirrefl')).mpr fun file => ?_
    rw [List.mem_filter, List.mem_map, decide_eq_true_eq, mem_turns]
    constructor
    · rintro ⟨⟨path, hpath, rfl⟩, hsmall⟩
      obtain ⟨hlisted, haccepts⟩ := List.mem_filter.mp (hpaths.mem_iff.mp hpath)
      obtain ⟨data, hdata⟩ := (hinventory.mem path).mp hlisted
      exact ⟨data, hdata, haccepts, congrArg List.length (hworkspace.contentAt_eq hdata), hsmall⟩
    · rintro ⟨data, hdata, haccepts, hlength, hsmall⟩
      refine ⟨⟨file.1, hpaths.mem_iff.mpr (List.mem_filter.mpr ⟨?_, haccepts⟩), ?_⟩, hsmall⟩
      · exact (hinventory.mem _).mpr ⟨data, hdata⟩
      · refine Prod.ext rfl ?_
        rw [hlength, ← hworkspace.contentAt_eq hdata]
        rfl
  rw [← hnamed]
  exact greedy_perm_iff fits_perm hirrefl hirrefl' (hsame.trans hturns) hturns hordered hordered'

/-- The copies of an export that represents some candidates. -/
theorem project_represents (hworkspace : Plain workspace)
    (hmatcher : terminalMatcher globs policy = .ok matcher) {paths : List Path} {s : ExportState}
    (hnodup : paths.Nodup) (hpaths : ∀ path ∈ paths,
      (∃ data, (path, .file data) ∈ workspace.walk) ∧ matcher.accepts (pathBytes path) = true)
    (h : Represents policy (contentAt workspace) paths s) : ∃ copies : List (Path × Bytes),
      project globs s.staging policy = .ok copies ∧
      (copies.map sized).Perm (greedy (fits policy) (paths.map (measured (contentAt workspace)))) ∧
      (copies.map sized).Pairwise (fun left right => left.1 < right.1) ∧
      ∀ copy ∈ copies, copy.2 = contentAt workspace copy.1 := by
  obtain ⟨staged, hholds, hstaged, hcontents⟩ := h.staging
  have hmem : ∀ file ∈ staged, file.1 ∈ paths := by
    intro file hfile
    have hchosen : measured (contentAt workspace) file.1 ∈
        greedy (fits policy) (paths.map (measured (contentAt workspace))) :=
      hstaged ▸ List.mem_map_of_mem (List.mem_map_of_mem hfile)
    obtain ⟨path, hpath, heq⟩ := List.mem_map.mp (greedy_sublist.mem hchosen)
    obtain rfl : path = file.1 := congrArg Prod.fst heq
    exact hpath
  have hpasses : ∀ e ∈ s.staging.walk, Passes e.1 e.2 := by
    rintro ⟨path, kind⟩ he
    rcases (hholds.mem _).mp he with ⟨file, hfile, heq⟩ | ⟨hkind, file, hfile, habove⟩
    · obtain ⟨rfl, rfl⟩ := Prod.mk.inj heq
      obtain ⟨⟨data, hdata⟩, -⟩ := hpaths _ (hmem file hfile)
      exact passes_file (hworkspace.file _ data hdata)
    · obtain rfl : kind = .directory := hkind
      obtain ⟨⟨data, hdata⟩, -⟩ := hpaths _ (hmem file hfile)
      exact passes_of_above habove (hworkspace.file _ data hdata)
  have hwithin := within_greedy policy (paths.map (measured (contentAt workspace)))
  rw [← hstaged] at hwithin
  have hdistinct : (staged.map Prod.fst).Nodup := by
    have hsub : ((staged.map Prod.fst).map (measured (contentAt workspace))).Sublist
        (paths.map (measured (contentAt workspace))) := hstaged ▸ greedy_sublist
    have hinjective : Function.Injective (measured (contentAt workspace)) :=
      fun left right heq => congrArg Prod.fst heq
    exact (hsub.nodup (hnodup.map hinjective)).of_map _
  have hturns := turns_of_holds hholds hcontents hdistinct
    (fun file hfile => (hpaths _ (hmem file hfile)).2) hwithin
  obtain ⟨copies, hproject, hsized, hfileAt⟩ := exists_project hholds.distinct hpasses hmatcher
  rw [greedy_of_within (within_perm hwithin hturns.symm)] at hsized
  refine ⟨copies, hproject, ?_, ?_, fun copy hcopy => ?_⟩
  · rw [hsized, ← hstaged]
    exact hturns
  · rw [hsized]
    exact turns_strict hholds.distinct
  · obtain ⟨executable, hat⟩ := hfileAt copy hcopy
    obtain ⟨data, hdata, -, hcontent⟩ :=
      Directory.mem_records.mp (hholds.distinct.fileAt_eq_some_iff.mp hat)
    rcases (hholds.mem _).mp hdata with ⟨file, hfile, heq⟩ | ⟨hkind, -⟩
    · obtain ⟨hpath, hkind⟩ := Prod.mk.inj heq
      obtain rfl := EntryKind.file.inj hkind
      exact hcontent.trans ((hcontents file hfile).trans (congrArg _ hpath.symm))
    · cases hkind

/-- Where all matching files fit together the order does not matter. -/
theorem ordersAgree_of_within (h : Within policy (matchingFiles policy matcher workspace)) :
    OrdersAgree policy matcher workspace := by
  have hstable : ∀ {before : Candidate → Candidate → Bool}, (∀ file, before file file = false) →
      Stable (fits policy) before (matchingFiles policy matcher workspace) (fun _ => true) := by
    intro before hirrefl file hfile
    generalize matchingFiles policy matcher workspace = files at h hfile
    have hsplit := List.filter_append_perm (fun other => before other file) files
    have hrest : file ∈ files.filter (fun other => !before other file) := by
      rw [List.mem_filter, hirrefl]
      exact ⟨hfile, rfl⟩
    have hlength := hsplit.length_eq
    have htotal := totalSize_perm hsplit
    have hsize : file.2 ≤ ((files.filter (fun other => !before other file)).map Prod.snd).sum :=
      List.single_le_sum (fun _ _ => Nat.zero_le _) _ (List.mem_map_of_mem hrest)
    have hcount := List.length_pos_of_mem hrest
    rw [List.length_append] at hlength
    rw [totalSize, List.map_append, List.sum_append] at htotal
    simp only [Bool.true_and]
    refine (decide_eq_true ⟨?_, h.fileBytes file hfile, ?_⟩).symm
    · have hfiles := h.files
      omega
    · have htotals := h.totalBytes
      change ((files.filter _).map Prod.snd).sum + file.2 ≤ _
      omega
  exact ⟨fun _ => true, hstable fun _ => decide_eq_false (lt_irrefl _),
    hstable fun _ => decide_eq_false (lt_irrefl _)⟩

end Orders

/-- An archive of four blocks, read at once. -/
def blocks : List Nat := [2048]

def blocksConfig (cap : Nat) : Config :=
  { maxBytes := cap, timeout := "1800s", copySuffix := "", extractSuffix := "" }

theorem pumpArchive_blocks (cap : Nat) : pumpArchive cap false none none 0 blocks =
    if cap < 2048 then .stopped (.error (.limit cap 2048)) else .running 2048 [] := by
  simp only [pumpArchive, blocks, Nat.zero_add]
  rw [if_neg Bool.false_ne_true, if_neg (by decide)]

/-- The pipeline without a fault on these blocks. -/
def extractBlocks (cap : Nat) : Extraction cap :=
  have hstart : System.Run (pipelineSystem (blocksConfig cap) blocks) [] (start blocks) := .start rfl
  have hread (pump : Pump) (h : pumpArchive cap false none none 0 blocks = pump) :
      apply (blocksConfig cap) (start blocks) (.pump none none) =
        some { start blocks with pump := pump } := h ▸ rfl
  if h : cap < 2048 then
    have hstopped := Run.event (Run.event hstart (.pump none none)
      (hread _ ((pumpArchive_blocks cap).trans (if_pos h)))) .send rfl
    have hpolled := Run.event (Run.event (Run.event hstopped (.monitor none) rfl) (.monitor none) rfl)
      (.monitor none) rfl
    .ran (blocksConfig cap) blocks _ _ (.error (.pump (.limit cap 2048))) rfl (by decide)
      (Run.event (Run.event hpolled (.monitor none) rfl) (.monitor none) rfl) rfl
  else
    have hstopped := Run.event (Run.event hstart (.pump none none)
      (hread _ ((pumpArchive_blocks cap).trans (if_neg h)))) (.pump none none) rfl
    have hended := Run.event (Run.event (Run.event hstopped .send rfl) (.copyExit true) rfl)
      (.extractExit true) rfl
    have hpolled := Run.event (Run.event (Run.event hended (.monitor none) rfl) (.monitor none) rfl)
      (.monitor none) rfl
    .ran (blocksConfig cap) blocks _ _ (.ok 2048) rfl (by decide)
      (Run.event (Run.event (Run.event hpolled (.monitor none) rfl) (.monitor none) rfl)
        (.monitor none) rfl) rfl

theorem extractBlocks_result (cap : Nat) : (extractBlocks cap).result =
    if cap < 2048 then .error (.pump (.limit cap 2048)) else .ok 2048 := by
  unfold extractBlocks
  split_ifs <;> rfl

/-- A container in which every file has one byte. -/
def oneByteFile : FileAttempt where
  relative := []
  timeLeft := some 1800
  reset := .ok ()
  secured := .ok ()
  extraction := extractBlocks
  onlyFile := .ok (sampleFile 1)
  inspected := .ok ()
  parent := .ok ()
  renamed := .ok ()
  display := ""

theorem oneByteFile_delivers : Delivers oneByteFile (sampleFile 1).content where
  inTime := ⟨1800, rfl, by decide⟩
  reset := rfl
  secured := rfl
  copied cap := by
    have hresult : (oneByteFile.extraction cap).result = _ := extractBlocks_result cap
    rw [hresult]
    split_ifs with h
    · exact .inr ⟨⟨cap, 2048, rfl⟩, h.trans_le (by decide)⟩
    · exact .inl ⟨2048, rfl⟩
  onlyFile := ⟨_, rfl, rfl⟩
  inspected := rfl
  parent := rfl
  renamed := rfl

def freshDestination : Destination where
  isDir := true
  content := .ok .empty
  hasParent := true
  staging := .ok ()
  probe := .ok ()
  cleanup := .ok ()
  hardened := .ok ()
  published := .ok ()

theorem freshDestination_ready : freshDestination.Ready :=
  ⟨rfl, rfl, rfl, rfl, rfl, rfl, rfl, rfl⟩

def upperName : FileName := ⟨[113], by decide⟩

def lowerName : FileName := ⟨[119], by decide⟩

def hyphenName : FileName := ⟨[113, 45, 119], by decide⟩

def nested : Path := [upperName, lowerName]

def hyphenated : Path := [hyphenName]

/-- `q/w` and `q-w`. A hyphen comes before the separator. -/
def clashing : Directory :=
  .directory upperName (.file lowerName (sampleFile 1) .empty)
    (.file hyphenName (sampleFile 1) .empty)

def onePolicy : SubmissionPolicy := { samplePolicy with maxFiles := 1 }

theorem mem_clashing {path : Path} {data : FileData} (h : (path, .file data) ∈ clashing.walk) :
    (path = nested ∨ path = hyphenated) ∧ data = sampleFile 1 := by
  simp only [clashing, Directory.walk, List.map_cons, List.map_nil, List.mem_cons, List.mem_append,
    List.not_mem_nil, or_false, Prod.mk.injEq, EntryKind.file.injEq, reduceCtorEq, and_false,
    false_or] at h
  rcases h with ⟨rfl, rfl⟩ | ⟨rfl, rfl⟩
  · exact ⟨.inl rfl, rfl⟩
  · exact ⟨.inr rfl, rfl⟩

theorem clashing_plain : Plain clashing where
  distinct := by
    unfold Directory.Distinct
    decide
  file path data h := by
    obtain ⟨rfl | rfl, -⟩ := mem_clashing h
    · exact ⟨_, (rfl : normalizeTerminalPath (pathBytes nested) = .ok (pathBytes nested))⟩
    · exact ⟨_, (rfl : normalizeTerminalPath (pathBytes hyphenated) = .ok (pathBytes hyphenated))⟩
  directory path h := by
    simp [clashing, Directory.walk] at h
    refine .inr ⟨nested, sampleFile 1, by decide, ?_⟩
    subst h
    exact ⟨by decide, by decide, by decide⟩
  regular := by decide

theorem clashing_lists : Lists [nested, hyphenated] clashing where
  nodup := by decide
  mem path := by
    constructor
    · intro h
      simp only [List.mem_cons, List.not_mem_nil, or_false] at h
      rcases h with rfl | rfl
      · exact ⟨sampleFile 1, by decide⟩
      · exact ⟨sampleFile 1, by decide⟩
    · rintro ⟨data, h⟩
      obtain ⟨rfl | rfl, -⟩ := mem_clashing h
      · decide
      · decide

theorem clashing_delivers : ∀ path data, (path, .file data) ∈ clashing.walk →
    Delivers oneByteFile data.content := by
  intro path data h
  obtain ⟨-, rfl⟩ := mem_clashing h
  exact oneByteFile_delivers

/-- What the export leaves of `q/w` and `q-w`. -/
def exportedClashing : Directory := .file hyphenName (sampleFile 1) .empty

/-- The export selects `q-w`, and the projection `q/w`. -/
theorem export_clashing : (exportContainerFiles literalGlobs onePolicy (fun _ => oneByteFile) "/app"
      [nested, hyphenated] freshDestination .start).2 = .ok exportedClashing ∧
    project literalGlobs exportedClashing onePolicy = .ok [(hyphenated, [120])] ∧
    project literalGlobs clashing onePolicy = .ok [(nested, [120])] :=
  ⟨by decide +kernel, rfl, rfl⟩

theorem onePolicy_valid : validatePolicy literalGlobs onePolicy = .ok () := by decide

end A3sBench.ArchivePipeline
