import A3sBench.Library.Greedy
import A3sBench.PathComponents
import A3sBench.Platform
import A3sBench.Task

/-!
# The terminal submission

`project` copies the files of a workspace that the policy selects. The walk
meets them in whatever order the file system has; the limits are applied in
the order of the paths.
-/

namespace A3sBench.Submission

open Library

/-- `globset`: building a pattern and matching a set. -/
structure Globs where
  Glob : Type
  GlobSet : Type
  build : String → Result Glob
  compile : List Glob → Result GlobSet
  isMatch : GlobSet → Bytes → Bool

/-! ## Policies -/

def validatePattern (pattern : String) : Result String := do
  let pattern := String.ofList (pattern.toList.rdropWhile (fun c => c = '/'))
  ensure (pattern ≠ "") "submission pattern is empty"
  ensure (pattern.toList.head? ≠ some '/' ∧ '\\' ∉ pattern.toList)
    "submission pattern is not relative POSIX syntax"
  ensure (∀ segment ∈ pattern.toList.splitOn '/', segment ≠ ['.', '.'] ∧ segment ≠ [])
    "submission pattern contains an unsafe path segment"
  pure pattern

/-- The globs a pattern stands for. -/
def globsOf (pattern : String) : List String :=
  if pattern = "." ∨ pattern = "**" then ["**"]
  else if pattern.toList.any (fun c => c ∈ ['*', '?', '[', ']']) then
    if '/' ∈ pattern.toList then [pattern] else [pattern, "**/" ++ pattern]
  else [pattern, pattern ++ "/**"]

section Project

variable (globs : Globs)

def compilePatterns (patterns : List String) : Result globs.GlobSet := do
  let built ← patterns.mapM (fun pattern => do
    let pattern ← validatePattern pattern
    (globsOf pattern).mapM globs.build)
  globs.compile built.flatten

def validatePolicy (policy : SubmissionPolicy) : Result Unit := do
  let _ ← compilePatterns globs policy.includePatterns
  let _ ← compilePatterns globs policy.excludePatterns
  ensure (0 < policy.maxFiles) "submission max_files must be positive"
  ensure (0 < policy.maxFileBytes ∧ policy.maxFileBytes ≤ policy.maxTotalBytes)
    "submission byte limits are invalid"

structure TerminalMatcher where
  includeSet : globs.GlobSet
  excludeSet : globs.GlobSet

def reserved (path : Bytes) : Bool := path = utf8 ".a3s" || (utf8 ".a3s/").isPrefixOf path

def terminalMatcher (policy : SubmissionPolicy) : Result (TerminalMatcher globs) := do
  let includeSet ← compilePatterns globs policy.includePatterns
  let excludeSet ← compilePatterns globs policy.excludePatterns
  pure { includeSet := includeSet, excludeSet := excludeSet }

variable {globs}

/-- `TerminalMatcher::matches`. -/
def TerminalMatcher.accepts (matcher : TerminalMatcher globs) (normalized : Bytes) : Bool :=
  globs.isMatch matcher.includeSet normalized && !globs.isMatch matcher.excludeSet normalized &&
    !reserved normalized

/-! ## The walk -/

def normalize (path : Path) : Result Bytes := do
  let value := pathBytes path
  ensure (isUtf8 value = true) "submission path is not UTF-8"
  ensure (value ≠ [] ∧ value.head? ≠ some separator ∧
      ∀ segment ∈ value.splitOn separator, segment ≠ [] ∧ segment ≠ dot ∧ segment ≠ dotDot)
    "submission contains an unsafe path"
  pure value

/-- A candidate: a path and the size of its file. -/
abbrev Candidate := Path × Nat

section Visit

variable (policy : SubmissionPolicy) (matcher : TerminalMatcher globs)

/-- What the visit makes of one entry, before it descends. -/
def enter (relative : Path) (kind : EntryKind) (files : List Candidate) :
    Result (List Candidate) :=
  match kind with
  | .symlink => pure files
  | .directory => do
    let normalized ← normalize relative
    ensure ((normalized.splitOn separator).length ≤ 64) "terminal path is too deep"
    pure files
  | .file data => do
    let normalized ← normalize relative
    if !matcher.accepts normalized then pure files
    else if policy.maxFileBytes.toNat < data.content.length then pure files
    else pure (files ++ [(relative, data.content.length)])
  | .special => do
    let _ ← normalize relative
    pure files

def visit (relative : Path) : Directory → List Candidate → Result (List Candidate)
  | .empty, files => .ok files
  | .file name data rest, files => do
    let files ← enter policy matcher (relative ++ [name]) (.file data) files
    visit relative rest files
  | .directory name inner rest, files => do
    let files ← enter policy matcher (relative ++ [name]) .directory files
    let files ← visit (relative ++ [name]) inner files
    visit relative rest files
  | .symlink name rest, files => do
    let files ← enter policy matcher (relative ++ [name]) .symlink files
    visit relative rest files
  | .special name rest, files => do
    let files ← enter policy matcher (relative ++ [name]) .special files
    visit relative rest files

/-! ## The limits -/

structure TerminalLimits where
  selected : Nat
  total : Nat

def TerminalLimits.isFull (limits : TerminalLimits) : Bool := policy.maxFiles ≤ limits.selected

/-- `TerminalLimits::select`; nothing when the file does not fit. -/
def TerminalLimits.select (limits : TerminalLimits) (size : Nat) : Option TerminalLimits :=
  if limits.isFull policy || policy.maxFileBytes.toNat < size then none
  else if 2 ^ 64 ≤ limits.total + size then none -- `checked_add`
  else if policy.maxTotalBytes.toNat < limits.total + size then none
  else some { selected := limits.selected + 1, total := limits.total + size }

/-- The loop over the sorted candidates. -/
def selectFiles (limits : TerminalLimits) : List Candidate → List Candidate
  | [] => []
  | file :: rest =>
    if limits.isFull policy then []
    else
      match limits.select policy file.2 with
      | some limits => file :: selectFiles limits rest
      | none => selectFiles limits rest

def collectTerminalFiles (root : Directory) : Result (List Candidate) := do
  let candidates ← visit policy matcher [] root []
  pure (selectFiles policy { selected := 0, total := 0 }
    (candidates.insertionSort (fun left right => left.1 ≤ right.1)))

end Visit

/-- `std::fs::copy` out of the workspace. -/
def copyFile (source : Directory) (file : Candidate) : Result (Path × Bytes) := do
  let data ← context
    ("could not project submission file " ++ (decodeUtf8 (pathBytes file.1)).getD "")
    (okOr (source.fileAt file.1) "No such file or directory (os error 2)")
  pure (file.1, data.2)

/-- The copies `project` writes under a new directory. -/
def project (globs : Globs) (source : Directory) (policy : SubmissionPolicy) :
    Result (List (Path × Bytes)) := do
  let matcher ← terminalMatcher globs policy
  let files ← collectTerminalFiles policy matcher source
  files.mapM (copyFile source)

end Project

/-- The patterns of an accepted policy compile. -/
theorem exists_terminalMatcher {globs : Globs} {policy : SubmissionPolicy}
    (h : validatePolicy globs policy = .ok ()) :
    ∃ matcher, terminalMatcher globs policy = .ok matcher := by
  simp only [validatePolicy, Result.bind_ok_iff] at h
  obtain ⟨includeSet, hinclude, excludeSet, hexclude, -⟩ := h
  simp only [terminalMatcher, Result.bind_ok_iff]
  exact ⟨_, includeSet, hinclude, excludeSet, hexclude, rfl⟩

/-! ## What the walk finds -/

section Walk

variable {globs : Globs} {policy : SubmissionPolicy} {matcher : TerminalMatcher globs}

/-- The name of an entry can be written down and leads nowhere else. -/
def Safe (path : Path) : Prop := normalize path = .ok (pathBytes path)

/-- An entry the walk does not fail on. -/
def Passes (path : Path) : EntryKind → Prop
  | .symlink => True
  | .directory => Safe path ∧ ((pathBytes path).splitOn separator).length ≤ 64
  | .file _ | .special => Safe path

/-- The candidate an entry is. -/
def candidate (policy : SubmissionPolicy) (matcher : TerminalMatcher globs) (e : Path × EntryKind) :
    Option Candidate :=
  match e.2 with
  | .file data =>
    if matcher.accepts (pathBytes e.1) = true ∧ data.content.length ≤ policy.maxFileBytes.toNat then
      some (e.1, data.content.length)
    else none
  | _ => none

theorem normalize_ok_iff {path : Path} {value : Bytes} :
    normalize path = .ok value ↔ Safe path ∧ value = pathBytes path := by
  unfold Safe normalize
  simp only [Result.bind_ok_iff, Result.exists_unit_iff, Result.ensure_ok_iff, Result.pure_ok_iff]
  constructor
  · rintro ⟨hutf8, hsafe, rfl⟩
    exact ⟨⟨hutf8, hsafe, trivial⟩, rfl⟩
  · rintro ⟨⟨hutf8, hsafe, -⟩, rfl⟩
    exact ⟨hutf8, hsafe, rfl⟩

theorem candidate_file {path : Path} {data : FileData} :
    (candidate policy matcher (path, .file data)).toList =
      if matcher.accepts (pathBytes path) = true ∧
          data.content.length ≤ policy.maxFileBytes.toNat then [(path, data.content.length)]
      else [] := by
  unfold candidate
  dsimp only
  split_ifs <;> rfl

theorem enter_ok_iff {path : Path} {kind : EntryKind} {files out : List Candidate} :
    enter policy matcher path kind files = .ok out ↔
      Passes path kind ∧ out = files ++ (candidate policy matcher (path, kind)).toList := by
  cases kind with
  | symlink =>
    refine Result.pure_ok_iff.trans ?_
    simp [Passes, candidate, eq_comm]
  | directory =>
    simp only [enter, Passes, candidate, Result.bind_ok_iff, Result.exists_unit_iff,
      Result.ensure_ok_iff, Result.pure_ok_iff, normalize_ok_iff, Option.toList_none,
      List.append_nil]
    constructor
    · rintro ⟨_, ⟨hsafe, rfl⟩, hdepth, rfl⟩
      exact ⟨⟨hsafe, hdepth⟩, rfl⟩
    · rintro ⟨⟨hsafe, hdepth⟩, rfl⟩
      exact ⟨_, ⟨hsafe, rfl⟩, hdepth, rfl⟩
  | special =>
    simp only [enter, Passes, candidate, Result.bind_ok_iff, Result.pure_ok_iff, normalize_ok_iff,
      Option.toList_none, List.append_nil]
    constructor
    · rintro ⟨_, ⟨hsafe, rfl⟩, rfl⟩
      exact ⟨hsafe, rfl⟩
    · rintro ⟨hsafe, rfl⟩
      exact ⟨_, ⟨hsafe, rfl⟩, rfl⟩
  | file data =>
    have hfound : ∀ out, (if !matcher.accepts (pathBytes path) then pure files
        else if policy.maxFileBytes.toNat < data.content.length then pure files
        else pure (files ++ [(path, data.content.length)]) : Result _) = .ok out ↔
        out = files ++ (candidate policy matcher (path, .file data)).toList := by
      intro out
      rw [candidate_file, @eq_comm _ out]
      cases haccepts : matcher.accepts (pathBytes path) with
      | false => simp
      | true =>
        by_cases hsize : policy.maxFileBytes.toNat < data.content.length
        · simp [hsize, hsize.not_ge]
        · simp [hsize, not_lt.mp hsize]
    simp only [enter, Passes, Result.bind_ok_iff, normalize_ok_iff]
    constructor
    · rintro ⟨_, ⟨hsafe, rfl⟩, hout⟩
      exact ⟨hsafe, (hfound out).mp hout⟩
    · rintro ⟨hsafe, hout⟩
      exact ⟨_, ⟨hsafe, rfl⟩, (hfound out).mpr hout⟩

/-- An entry below a directory. -/
def below (relative : Path) (e : Path × EntryKind) : Path × EntryKind := (relative ++ e.1, e.2)

theorem visit_ok_iff {relative : Path} {d : Directory} {files out : List Candidate} :
    visit policy matcher relative d files = .ok out ↔
      (∀ e ∈ d.walk, Passes (relative ++ e.1) e.2) ∧
        out = files ++ d.walk.filterMap (fun e => candidate policy matcher (below relative e)) := by
  induction d generalizing relative files out with
  | empty => simp [visit, Directory.walk, eq_comm]
  | file name data rest ih | symlink name rest ih | special name rest ih =>
    simp only [visit, Result.bind_ok_iff, enter_ok_iff, ih, Directory.walk, List.forall_mem_cons,
      List.filterMap_cons, below]
    constructor
    · rintro ⟨_, ⟨hfirst, rfl⟩, hrest, rfl⟩
      refine ⟨⟨hfirst, hrest⟩, ?_⟩
      rw [List.append_assoc]
      cases candidate policy matcher (relative ++ [name], _) <;> rfl
    · rintro ⟨⟨hfirst, hrest⟩, rfl⟩
      refine ⟨_, ⟨hfirst, rfl⟩, hrest, ?_⟩
      rw [List.append_assoc]
      cases candidate policy matcher (relative ++ [name], _) <;> rfl
  | directory name inner rest ihInner ih =>
    simp only [visit, Result.bind_ok_iff, enter_ok_iff, ihInner, ih, Directory.walk,
      List.forall_mem_cons, List.forall_mem_append, List.forall_mem_map, List.filterMap_cons,
      List.filterMap_append, List.filterMap_map]
    have hbelow : (fun e => candidate policy matcher (below relative e)) ∘
        (fun e : Path × EntryKind => (name :: e.1, e.2)) =
        fun e => candidate policy matcher (below (relative ++ [name]) e) := by
      funext e
      simp [below]
    have hnone : candidate policy matcher (relative ++ [name], .directory) = none := rfl
    rw [hbelow]
    simp only [below, hnone, Option.toList_none, List.append_nil, List.append_assoc,
      List.singleton_append]
    constructor
    · rintro ⟨_, ⟨hfirst, rfl⟩, _, ⟨hinner, rfl⟩, hrest, rfl⟩
      exact ⟨⟨hfirst, hinner, hrest⟩, List.append_assoc ..⟩
    · rintro ⟨⟨hfirst, hinner, hrest⟩, rfl⟩
      exact ⟨_, ⟨hfirst, rfl⟩, _, ⟨hinner, rfl⟩, hrest, (List.append_assoc ..).symm⟩

end Walk

/-! ## The limiter is the greedy selection -/

section Limits

variable (policy : SubmissionPolicy)

def totalSize (files : List Candidate) : Nat := (files.map Prod.snd).sum

/-- A file fits beside the chosen ones. -/
def fits (chosen : List Candidate) (file : Candidate) : Bool :=
  decide (chosen.length < policy.maxFiles ∧ file.2 ≤ policy.maxFileBytes.toNat ∧
    totalSize chosen + file.2 ≤ policy.maxTotalBytes.toNat)

/-- The limiter after some files were chosen. -/
def limitsOf (chosen : List Candidate) : TerminalLimits :=
  { selected := chosen.length, total := totalSize chosen }

theorem totalSize_concat (chosen : List Candidate) (file : Candidate) :
    totalSize (chosen ++ [file]) = totalSize chosen + file.2 := by
  simp [totalSize]

theorem limitsOf_concat (chosen : List Candidate) (file : Candidate) :
    limitsOf (chosen ++ [file]) =
      { selected := chosen.length + 1, total := totalSize chosen + file.2 } := by
  simp [limitsOf, totalSize_concat]

/-- A turn of the limiter: the checked sum stops nothing that the total would let through. -/
theorem select_limitsOf (chosen : List Candidate) (file : Candidate) :
    (limitsOf chosen).select policy file.2 =
      if fits policy chosen file then some (limitsOf (chosen ++ [file])) else none := by
  have hguard :
      ((limitsOf chosen).isFull policy || decide (policy.maxFileBytes.toNat < file.2)) = true ↔
      policy.maxFiles ≤ chosen.length ∨ policy.maxFileBytes.toNat < file.2 := by
    rw [Bool.or_eq_true]
    exact decide_eq_true_iff.or decide_eq_true_iff
  have hword : policy.maxTotalBytes.toNat < 2 ^ 64 := policy.maxTotalBytes.toNat_lt
  have htotal : (limitsOf chosen).total = totalSize chosen := rfl
  unfold TerminalLimits.select
  rw [htotal]
  cases hfits : fits policy chosen file with
  | true =>
    obtain ⟨hfiles, hsize, htotal⟩ := of_decide_eq_true hfits
    rw [if_neg (mt hguard.mp (by omega)), if_neg (by omega), if_neg (by omega), if_pos rfl,
      limitsOf_concat]
    rfl
  | false =>
    have hnot := of_decide_eq_false hfits
    rw [if_neg Bool.false_ne_true]
    split_ifs with hfull hchecked htoo
    · rfl
    · rfl
    · rfl
    · rw [hguard] at hfull
      omega

theorem isFull_limitsOf {chosen : List Candidate} (h : (limitsOf chosen).isFull policy = true)
    (file : Candidate) : fits policy chosen file = false := by
  rw [TerminalLimits.isFull, decide_eq_true_eq] at h
  rw [fits, decide_eq_false_iff_not]
  exact fun hfits => absurd hfits.1 (not_lt.mpr h)

theorem selectFiles_eq_greedy (chosen l : List Candidate) :
    chosen ++ selectFiles policy (limitsOf chosen) l = greedyFrom (fits policy) chosen l := by
  induction l generalizing chosen with
  | nil => exact List.append_nil _
  | cons file rest ih =>
    rw [selectFiles]
    split_ifs with hfull
    · rw [greedyFrom_of_full fun file _ => isFull_limitsOf policy hfull file, List.append_nil]
    · rw [select_limitsOf, greedyFrom_cons, greedyStep]
      split_ifs with hfits
      · rw [← ih, List.append_assoc]
        rfl
      · exact ih chosen

/-- What the limits promise of the chosen files. -/
structure Within (chosen : List Candidate) : Prop where
  files : chosen.length ≤ policy.maxFiles
  fileBytes : ∀ file ∈ chosen, file.2 ≤ policy.maxFileBytes.toNat
  totalBytes : totalSize chosen ≤ policy.maxTotalBytes.toNat

theorem within_greedy (l : List Candidate) : Within policy (greedy (fits policy) l) := by
  apply greedyFrom_induction
  · exact ⟨Nat.zero_le _, fun file hfile => absurd hfile List.not_mem_nil, Nat.zero_le _⟩
  · intro chosen file hchosen hfits
    obtain ⟨hfiles, hsize, htotal⟩ := of_decide_eq_true hfits
    refine ⟨?_, ?_, ?_⟩
    · rw [List.length_append]
      exact hfiles
    · exact List.forall_mem_append.mpr ⟨hchosen.fileBytes, List.forall_mem_singleton.mpr hsize⟩
    · rw [totalSize_concat]
      exact htotal

end Limits

/-! ## The selection -/

section Selection

variable {globs : Globs} {policy : SubmissionPolicy} {matcher : TerminalMatcher globs}
  {source : Directory}

/-- The candidates in the order of their turns. -/
def turns (policy : SubmissionPolicy) (matcher : TerminalMatcher globs) (source : Directory) :
    List Candidate :=
  (source.walk.filterMap (candidate policy matcher)).insertionSort
    (fun left right => left.1 ≤ right.1)

theorem collectTerminalFiles_ok_iff {files : List Candidate} :
    collectTerminalFiles policy matcher source = .ok files ↔
      (∀ e ∈ source.walk, Passes e.1 e.2) ∧
        files = greedy (fits policy) (turns policy matcher source) := by
  have hbelow : (fun e => candidate policy matcher (below [] e)) = candidate policy matcher := rfl
  simp only [collectTerminalFiles, Result.bind_ok_iff, Result.pure_ok_iff, visit_ok_iff,
    List.nil_append, hbelow]
  rw [greedy, ← selectFiles_eq_greedy, List.nil_append, turns]
  constructor
  · rintro ⟨_, ⟨hpasses, rfl⟩, rfl⟩
    exact ⟨hpasses, rfl⟩
  · rintro ⟨hpasses, rfl⟩
    exact ⟨_, ⟨hpasses, rfl⟩, rfl⟩

theorem candidate_eq_some_iff {e : Path × EntryKind} {file : Candidate} :
    candidate policy matcher e = some file ↔ ∃ data, e = (file.1, .file data) ∧
      matcher.accepts (pathBytes file.1) = true ∧ file.2 = data.content.length ∧
      file.2 ≤ policy.maxFileBytes.toNat := by
  obtain ⟨path, kind⟩ := e
  obtain ⟨filePath, size⟩ := file
  cases kind with
  | file data =>
    simp only [candidate]
    constructor
    · intro h
      split_ifs at h with hboth
      obtain ⟨rfl, rfl⟩ := Prod.mk.inj (Option.some.inj h)
      exact ⟨data, rfl, hboth.1, rfl, hboth.2⟩
    · rintro ⟨data', heq, haccepts, rfl, hsize⟩
      obtain ⟨rfl, hdata⟩ := Prod.mk.inj heq
      obtain rfl := EntryKind.file.inj hdata
      exact if_pos ⟨haccepts, hsize⟩
  | directory | symlink | special => simp [candidate]

theorem mem_turns {file : Candidate} : file ∈ turns policy matcher source ↔
    ∃ data, (file.1, .file data) ∈ source.walk ∧ matcher.accepts (pathBytes file.1) = true ∧
      file.2 = data.content.length ∧ file.2 ≤ policy.maxFileBytes.toNat := by
  rw [turns, List.mem_insertionSort, List.mem_filterMap]
  constructor
  · rintro ⟨e, he, hfile⟩
    obtain ⟨data, rfl, hrest⟩ := candidate_eq_some_iff.mp hfile
    exact ⟨data, he, hrest⟩
  · rintro ⟨data, he, hrest⟩
    exact ⟨_, he, candidate_eq_some_iff.mpr ⟨data, rfl, hrest⟩⟩

/-- The turns are in strict order of the paths. -/
theorem turns_strict (h : source.Distinct) :
    (turns policy matcher source).Pairwise (fun left right => left.1 < right.1) := by
  have hsorted : (turns policy matcher source).Pairwise (fun left right => left.1 ≤ right.1) := by
    have : IsTrans Candidate (fun left right => left.1 ≤ right.1) := ⟨fun _ _ _ => le_trans⟩
    have : Std.Total (fun left right : Candidate => left.1 ≤ right.1) :=
      ⟨fun left right => le_total _ _⟩
    exact List.pairwise_insertionSort _ _
  have hnodup : ((turns policy matcher source).map Prod.fst).Nodup := by
    have hperm := (List.perm_insertionSort (fun left right : Candidate => left.1 ≤ right.1)
      (source.walk.filterMap (candidate policy matcher))).map Prod.fst
    refine hperm.nodup_iff.mpr (List.Sublist.nodup ?_ h)
    generalize source.walk = entries
    induction entries with
    | nil => exact .slnil
    | cons e entries ih =>
      cases hfile : candidate policy matcher e with
      | none =>
        rw [List.filterMap_cons_none hfile]
        exact ih.cons e.1
      | some file =>
        obtain ⟨data, rfl, -⟩ := candidate_eq_some_iff.mp hfile
        rw [List.filterMap_cons_some hfile]
        exact ih.cons_cons file.1
  exact (hsorted.and (List.pairwise_map.mp hnodup)).imp (fun hab => lt_of_le_of_ne hab.1 hab.2)

theorem turns_of_perm (h : source.Distinct) {source' : Directory}
    (hperm : source.walk.Perm source'.walk) :
    turns policy matcher source = turns policy matcher source' := by
  have h' : source'.Distinct := (hperm.map Prod.fst).nodup_iff.mp h
  have hturns : (turns policy matcher source).Perm (turns policy matcher source') :=
    (List.perm_insertionSort _ _).trans
      ((hperm.filterMap _).trans (List.perm_insertionSort _ _).symm)
  exact hturns.eq_of_pairwise (fun a b _ _ hab hba => absurd (hab.trans hba) (lt_irrefl _))
    (turns_strict h) (turns_strict h')

theorem collectTerminalFiles_of_perm (h : source.Distinct) {source' : Directory}
    (hperm : source.walk.Perm source'.walk) {files : List Candidate} :
    collectTerminalFiles policy matcher source = .ok files ↔
      collectTerminalFiles policy matcher source' = .ok files := by
  rw [collectTerminalFiles_ok_iff, collectTerminalFiles_ok_iff, turns_of_perm h hperm]
  exact and_congr_left' ⟨fun hpasses e he => hpasses e (hperm.mem_iff.mpr he),
    fun hpasses e he => hpasses e (hperm.mem_iff.mp he)⟩

/-- A candidate that was left out would have broken a limit at its turn. -/
theorem left_out (h : source.Distinct) {file : Candidate}
    (hfile : file ∈ turns policy matcher source)
    (hout : file ∉ greedy (fits policy) (turns policy matcher source)) :
    fits policy ((greedy (fits policy) (turns policy matcher source)).filter
      (fun chosen => chosen.1 < file.1)) file = false := by
  have hstrict := @turns_strict globs policy matcher source h
  obtain ⟨before, after, hsplit⟩ := List.append_of_mem hfile
  rw [hsplit] at hout hstrict ⊢
  obtain ⟨added, hgreedy, hsub, hfits⟩ := not_fits_of_not_mem hout
  obtain ⟨-, hafter, hbefore⟩ := List.pairwise_append.mp hstrict
  have hfirst : (greedy (fits policy) before).filter (fun chosen => chosen.1 < file.1) =
      greedy (fits policy) before := by
    rw [List.filter_eq_self]
    intro chosen hchosen
    exact decide_eq_true (hbefore chosen (greedy_sublist.mem hchosen) file List.mem_cons_self)
  have hlast : added.filter (fun chosen => chosen.1 < file.1) = [] := by
    rw [List.filter_eq_nil_iff]
    intro chosen hchosen
    have hlt := List.rel_of_pairwise_cons hafter (hsub.mem hchosen)
    simpa using hlt.le
  rw [hgreedy, List.filter_append, hfirst, hlast, List.append_nil]
  exact hfits

end Selection

/-! ## The copies -/

section Copies

variable {globs : Globs} {policy : SubmissionPolicy} {source : Directory}

theorem reserved_iff {path : Path} (hpath : path ≠ []) : reserved (pathBytes path) = true ↔
    path.head?.map Subtype.val = some (utf8 ".a3s") := by
  have hsplit : (utf8 ".a3s").splitOn separator = [utf8 ".a3s"] := by decide +kernel
  have hslash : utf8 ".a3s/" = utf8 ".a3s" ++ [separator] := by decide +kernel
  have hstands : (utf8 ".a3s/").isPrefixOf (pathBytes path) = true ↔
      ∃ rest, pathBytes path = utf8 ".a3s" ++ separator :: rest := by
    rw [List.isPrefixOf_iff_prefix, hslash]
    constructor
    · rintro ⟨rest, hrest⟩
      exact ⟨rest, by rw [← hrest, List.append_assoc, List.singleton_append]⟩
    · rintro ⟨rest, hrest⟩
      exact ⟨rest, by rw [hrest, List.append_assoc, List.singleton_append]⟩
  rw [reserved, Bool.or_eq_true, decide_eq_true_eq, hstands, ← splitOn_prefix_iff, hsplit,
    splitOn_pathBytes hpath]
  cases path with
  | nil => exact absurd rfl hpath
  | cons name rest => simp [eq_comm]

/-- A path the policy lets through. -/
def Selectable (matcher : TerminalMatcher globs) (path : Path) : Prop :=
  globs.isMatch matcher.includeSet (pathBytes path) = true ∧
    globs.isMatch matcher.excludeSet (pathBytes path) = false ∧
    path.head?.map Subtype.val ≠ some (utf8 ".a3s")

theorem accepts_iff {matcher : TerminalMatcher globs} {path : Path} (hpath : path ≠ []) :
    matcher.accepts (pathBytes path) = true ↔ Selectable matcher path := by
  simp only [TerminalMatcher.accepts, Selectable, Bool.and_eq_true, Bool.not_eq_true', and_assoc,
    ne_eq, ← reserved_iff hpath, Bool.not_eq_true]

/-- A copy as a candidate. -/
def sized (copy : Path × Bytes) : Candidate := (copy.1, copy.2.length)

theorem copyFile_ok_iff {file : Candidate} {copy : Path × Bytes} :
    copyFile source file = .ok copy ↔
      copy.1 = file.1 ∧ ∃ executable, source.fileAt file.1 = some (executable, copy.2) := by
  simp only [copyFile, Result.bind_ok_iff, Result.context_ok_iff, Result.okOr_ok_iff,
    Result.pure_ok_iff]
  constructor
  · rintro ⟨⟨executable, content⟩, hfile, rfl⟩
    exact ⟨rfl, executable, hfile⟩
  · rintro ⟨hpath, executable, hfile⟩
    exact ⟨_, hfile, Prod.ext hpath.symm rfl⟩

theorem mapM_copyFile {files : List Candidate} {copies : List (Path × Bytes)}
    (hfiles : ∀ file ∈ files, ∀ executable content,
      source.fileAt file.1 = some (executable, content) → content.length = file.2)
    (h : files.mapM (copyFile source) = .ok copies) :
    copies.map sized = files ∧
      ∀ copy ∈ copies, ∃ executable, source.fileAt copy.1 = some (executable, copy.2) := by
  have hall := Result.forall₂_of_mapM h
  clear h
  induction hall with
  | nil => exact ⟨rfl, fun copy hcopy => absurd hcopy List.not_mem_nil⟩
  | cons hcopy hrest ih =>
    obtain ⟨hfile, hfiles⟩ := List.forall_mem_cons.mp hfiles
    obtain ⟨hpath, executable, hcontent⟩ := copyFile_ok_iff.mp hcopy
    obtain ⟨hsized, hcopies⟩ := ih hfiles
    refine ⟨?_, List.forall_mem_cons.mpr ⟨⟨executable, hpath ▸ hcontent⟩, hcopies⟩⟩
    rw [List.map_cons, hsized]
    congr 1
    exact Prod.ext hpath (hfile _ _ hcontent)

theorem project_ok {copies : List (Path × Bytes)} (hsource : source.Distinct)
    (h : project globs source policy = .ok copies) : ∃ matcher,
      terminalMatcher globs policy = .ok matcher ∧
      copies.map sized = greedy (fits policy) (turns policy matcher source) ∧
      ∀ copy ∈ copies, ∃ executable, source.fileAt copy.1 = some (executable, copy.2) := by
  simp only [project, Result.bind_ok_iff] at h
  obtain ⟨matcher, hmatcher, files, hfiles, hcopies⟩ := h
  obtain ⟨-, rfl⟩ := collectTerminalFiles_ok_iff.mp hfiles
  refine ⟨matcher, hmatcher, mapM_copyFile (fun file hfile executable content hat => ?_) hcopies⟩
  obtain ⟨data, hdata, -, hsize, -⟩ := mem_turns.mp (greedy_sublist.mem hfile)
  have hrecord := hsource.fileAt_eq_some_iff.mp hat
  obtain ⟨data', hdata', -, hcontent⟩ := Directory.mem_records.mp hrecord
  have hsame : (EntryKind.file data) = .file data' :=
    congrArg Prod.snd (List.inj_on_of_nodup_map hsource hdata hdata' rfl)
  obtain rfl := EntryKind.file.inj hsame
  exact (congrArg List.length hcontent).trans hsize.symm

/-- The same entries in another order give the same copies. -/
theorem project_of_perm {copies : List (Path × Bytes)} (hsource : source.Distinct)
    {source' : Directory} (hperm : source.walk.Perm source'.walk)
    (h : project globs source policy = .ok copies) : project globs source' policy = .ok copies := by
  have hsource' : source'.Distinct := (hperm.map Prod.fst).nodup_iff.mp hsource
  have hsame : source'.fileAt = source.fileAt := by
    funext path
    refine Option.ext fun data => ?_
    obtain ⟨executable, content⟩ := data
    rw [hsource.fileAt_eq_some_iff, hsource'.fileAt_eq_some_iff]
    exact (hperm.filterMap _).mem_iff.symm
  have hcopy : copyFile source' = copyFile source := by
    funext file
    rw [copyFile, copyFile, hsame]
  simp only [project, Result.bind_ok_iff] at h ⊢
  obtain ⟨matcher, hmatcher, files, hfiles, hcopies⟩ := h
  exact ⟨matcher, hmatcher, files, (collectTerminalFiles_of_perm hsource hperm).mp hfiles,
    hcopy ▸ hcopies⟩

/-- Beside the copies of earlier paths a file breaks one of the three limits. -/
def ExceedsAtTurn (policy : SubmissionPolicy) (copies : List (Path × Bytes)) (path : Path)
    (content : Bytes) : Prop :=
  let earlier := copies.filter (fun copy => copy.1 < path)
  policy.maxFiles ≤ earlier.length ∨ policy.maxFileBytes.toNat < content.length ∨
    policy.maxTotalBytes.toNat < (earlier.map (fun copy => copy.2.length)).sum + content.length

theorem totalSize_map_sized (copies : List (Path × Bytes)) :
    totalSize (copies.map sized) = (copies.map (fun copy => copy.2.length)).sum := by
  rw [totalSize, List.map_map]
  rfl

/-- The copies are the greedy selection: they match, they stay within the limits, they do not
depend on the order of the entries, and a matching file that is missing did not fit. -/
theorem project_greedy {copies : List (Path × Bytes)} (hsource : source.Distinct)
    (h : project globs source policy = .ok copies) : ∃ matcher,
      terminalMatcher globs policy = .ok matcher ∧
      (∀ copy ∈ copies, Selectable matcher copy.1 ∧
        ∃ executable, source.fileAt copy.1 = some (executable, copy.2)) ∧
      copies.length ≤ policy.maxFiles ∧
      (∀ copy ∈ copies, copy.2.length ≤ policy.maxFileBytes.toNat) ∧
      (copies.map (fun copy => copy.2.length)).sum ≤ policy.maxTotalBytes.toNat ∧
      (∀ source' : Directory, source.walk.Perm source'.walk →
        project globs source' policy = .ok copies) ∧
      ∀ path data, (path, .file data) ∈ source.walk → Selectable matcher path →
        (∀ copy ∈ copies, copy.1 ≠ path) → ExceedsAtTurn policy copies path data.content := by
  obtain ⟨matcher, hmatcher, hsized, hcopies⟩ := project_ok hsource h
  have hwithin := within_greedy policy (turns policy matcher source)
  rw [← hsized] at hwithin
  refine ⟨matcher, hmatcher, fun copy hcopy => ⟨?_, hcopies copy hcopy⟩, ?_, fun copy hcopy => ?_,
    ?_, fun source' hperm => project_of_perm hsource hperm h,
    fun path data hdata hmatch hmissing => ?_⟩
  · have hturn : sized copy ∈ turns policy matcher source :=
      greedy_sublist.mem (hsized ▸ List.mem_map_of_mem hcopy)
    obtain ⟨data, hdata, haccepts, -⟩ := mem_turns.mp hturn
    exact (accepts_iff (source.walk_path_ne_nil _ hdata)).mp haccepts
  · simpa using hwithin.files
  · exact hwithin.fileBytes _ (List.mem_map_of_mem hcopy)
  · rw [← totalSize_map_sized]
    exact hwithin.totalBytes
  · by_cases hsize : data.content.length ≤ policy.maxFileBytes.toNat
    · have hturn : (path, data.content.length) ∈ turns policy matcher source :=
        mem_turns.mpr ⟨data, hdata, (accepts_iff (source.walk_path_ne_nil _ hdata)).mpr hmatch, rfl,
          hsize⟩
      have hout : (path, data.content.length) ∉
          greedy (fits policy) (turns policy matcher source) := by
        rw [← hsized]
        intro hmem
        obtain ⟨copy, hcopy, heq⟩ := List.mem_map.mp hmem
        exact hmissing copy hcopy (congrArg Prod.fst heq)
      have hfits := of_decide_eq_false (left_out hsource hturn hout)
      have hearlier : (copies.map sized).filter (fun chosen => chosen.1 < path) =
          (copies.filter (fun copy => copy.1 < path)).map sized := List.filter_map
      rw [← hsized, hearlier, List.length_map, totalSize_map_sized] at hfits
      unfold ExceedsAtTurn
      dsimp only at hfits ⊢
      omega
    · exact .inr (.inl (not_le.mp hsize))

end Copies

/-! ## A small workspace -/

def literalGlobs : Globs where
  Glob := String
  GlobSet := List String
  build := .ok
  compile := .ok
  isMatch := fun set path => set.any (fun pattern => pattern = "**" || utf8 pattern = path)

def samplePolicy : SubmissionPolicy where
  includePatterns := ["**"]
  excludePatterns := ["d"]
  maxFiles := 3
  maxTotalBytes := 5
  maxFileBytes := 4

def sampleFile (size : Nat) : FileData :=
  { content := List.replicate size 120, executable := false, links := 1 }

def sampleName (byte : Byte) (h : byte ≠ 0 ∧ byte ≠ separator) : FileName :=
  ⟨[byte], by simpa [eq_comm] using h⟩

def sampleWorkspace : Directory :=
  .file (sampleName 99 (by decide)) (sampleFile 2)
    (.file (sampleName 98 (by decide)) (sampleFile 3)
      (.file (sampleName 97 (by decide)) (sampleFile 3)
        (.file (sampleName 100 (by decide)) (sampleFile 0) .empty)))

def sampleCopies : List (Path × Bytes) :=
  [([sampleName 97 (by decide)], [120, 120, 120]), ([sampleName 99 (by decide)], [120, 120])]

theorem project_sampleWorkspace :
    project literalGlobs sampleWorkspace samplePolicy = .ok sampleCopies := rfl

theorem project_greedy_sample :
    (sampleCopies.map (fun copy => copy.2.length)).sum ≤ samplePolicy.maxTotalBytes.toNat ∧
      ExceedsAtTurn samplePolicy sampleCopies [sampleName 98 (by decide)] (sampleFile 3).content := by
  have hsource : sampleWorkspace.Distinct := by
    unfold Directory.Distinct
    decide
  obtain ⟨matcher, hmatcher, -, -, -, htotal, -, hleft⟩ :=
    project_greedy hsource project_sampleWorkspace
  have hknown : terminalMatcher literalGlobs samplePolicy =
      .ok { includeSet := ["**"], excludeSet := ["d", "d/**"] } := rfl
  obtain rfl := Except.ok.inj (hknown.symm.trans hmatcher)
  refine ⟨htotal, hleft _ (sampleFile 3) (by decide) ⟨by decide, by decide, by decide⟩ ?_⟩
  intro copy hcopy
  simp only [sampleCopies, List.mem_cons, List.not_mem_nil, or_false] at hcopy
  rcases hcopy with rfl | rfl <;> decide

end A3sBench.Submission
