import A3sBench.Library.SplitOn
import A3sBench.Submission

/-!
# The inventory of a container workspace

`find -print0` lists the files of a terminal workspace. Its output is not
trusted: it is decoded only when every path in it is canonical.
-/

namespace A3sBench.WorkspaceInventory

open Library Submission

/-- `WORKSPACE_INVENTORY_MAX_ENTRIES` -/
def maxEntries : Nat := 1000000

/-- `submission::normalize` on a path that is not yet known to have proper components. -/
def normalizeBytes (value : Bytes) : Result Bytes := do
  ensure (isUtf8 value = true) "submission path is not UTF-8"
  ensure (value ≠ [] ∧ value.head? ≠ some separator ∧
      ∀ segment ∈ value.splitOn separator, segment ≠ [] ∧ segment ≠ dot ∧ segment ≠ dotDot)
    "submission contains an unsafe path"
  pure value

/-- `normalize_terminal_path`. -/
def normalizeTerminalPath (path : Bytes) : Result Bytes := do
  let normalized ← normalizeBytes path
  ensure ((normalized.splitOn separator).length ≤ 65) "terminal path is too deep"
  pure normalized

/-- The loop over the frames; `seen` and `paths` are its variables. -/
def parseFrames (seen paths : List Bytes) : List Bytes → Result (List Bytes)
  | [] => .ok paths
  | raw :: rest => do
    ensure (paths.length < maxEntries) "terminal workspace inventory exceeded its fixed entry limit"
    ensure (isUtf8 raw = true) "terminal workspace inventory path is not UTF-8"
    ensure (raw ≠ []) "terminal workspace inventory contains an empty path"
    let normalized ← normalizeTerminalPath raw
    ensure (normalized = raw) "terminal workspace inventory path is not canonical POSIX syntax"
    ensure (seen.all (· ≠ normalized) = true) "terminal workspace inventory contains a duplicate path"
    parseFrames (normalized :: seen) (paths ++ [raw]) rest

def parseWorkspaceInventory (bytes : Bytes) : Result (List Bytes) :=
  if bytes = [] then .ok []
  else do
    ensure (bytes.getLast? = some 0) "terminal workspace inventory is not NUL terminated"
    parseFrames [] [] (bytes.dropLast.splitOn 0)

/-- A relative path in canonical syntax and within the depth limit. -/
structure Canonical (path : Bytes) : Prop where
  utf8 : isUtf8 path = true
  nulFree : 0 ∉ path
  segments : ∀ segment ∈ path.splitOn separator, segment ≠ [] ∧ segment ≠ dot ∧ segment ≠ dotDot
  depth : (path.splitOn separator).length ≤ 65

theorem normalize_eq (path : Path) : normalize path = normalizeBytes (pathBytes path) := rfl

theorem ne_nil_of_segments {path : Bytes} (h : ∀ segment ∈ path.splitOn separator, segment ≠ []) :
    path ≠ [] ∧ path.head? ≠ some separator := by
  cases path with
  | nil => exact absurd rfl (h [] (by simp))
  | cons first rest =>
    refine ⟨List.cons_ne_nil _ _, ?_⟩
    intro hhead
    obtain rfl := Option.some.inj hhead
    exact h [] (by rw [splitOn_cons_self]; exact List.mem_cons_self) rfl

theorem normalizeTerminalPath_ok_iff {path normalized : Bytes} (hnul : 0 ∉ path) :
    normalizeTerminalPath path = .ok normalized ↔ Canonical path ∧ normalized = path := by
  simp only [normalizeTerminalPath, normalizeBytes, Result.bind_ok_iff, Result.exists_unit_iff,
    Result.ensure_ok_iff, Result.pure_ok_iff]
  constructor
  · rintro ⟨_, ⟨hutf8, ⟨-, -, hsegments⟩, rfl⟩, hdepth, rfl⟩
    exact ⟨⟨hutf8, hnul, hsegments, hdepth⟩, rfl⟩
  · rintro ⟨⟨hutf8, -, hsegments, hdepth⟩, rfl⟩
    obtain ⟨hnil, hhead⟩ := ne_nil_of_segments fun segment hsegment => (hsegments segment hsegment).1
    exact ⟨_, ⟨hutf8, ⟨hnil, hhead, hsegments⟩, rfl⟩, hdepth, rfl⟩

theorem parseFrames_ok_iff {raws seen paths out : List Bytes} (hnul : ∀ raw ∈ raws, 0 ∉ raw)
    (hlength : paths.length ≤ maxEntries) : parseFrames seen paths raws = .ok out ↔
      out = paths ++ raws ∧ (paths ++ raws).length ≤ maxEntries ∧ (∀ raw ∈ raws, Canonical raw) ∧
        raws.Nodup ∧ ∀ raw ∈ raws, raw ∉ seen := by
  induction raws generalizing seen paths with
  | nil => simp [parseFrames, hlength, eq_comm]
  | cons raw raws ih =>
    obtain ⟨hraw, hraws⟩ := List.forall_mem_cons.mp hnul
    have hunseen : ∀ name, seen.all (· ≠ name) = true ↔ name ∉ seen := by
      intro name
      rw [List.all_eq_true]
      exact ⟨fun h hmem => of_decide_eq_true (h name hmem) rfl,
        fun h other hother => decide_eq_true fun heq => h (heq ▸ hother)⟩
    simp only [parseFrames, Result.bind_ok_iff, Result.exists_unit_iff, Result.ensure_ok_iff,
      normalizeTerminalPath_ok_iff hraw, List.forall_mem_cons, List.nodup_cons, hunseen]
    constructor
    · rintro ⟨hroom, hutf8, -, normalized, ⟨hcanonical, hnormalized⟩, -, hfresh, hrest⟩
      rw [hnormalized] at hfresh hrest
      have hroom' : (paths ++ [raw]).length ≤ maxEntries := by
        rw [List.length_append]
        exact hroom
      obtain ⟨rfl, hbound, hcanonicals, hnodup, hseen⟩ := (ih hraws hroom').mp hrest
      refine ⟨by rw [List.append_assoc]; rfl, ?_, ⟨hcanonical, hcanonicals⟩, ⟨?_, hnodup⟩, hfresh, ?_⟩
      · rwa [List.append_assoc] at hbound
      · exact fun hmem => hseen raw hmem List.mem_cons_self
      · exact fun other hother hmem => hseen other hother (List.mem_cons_of_mem _ hmem)
    · rintro ⟨rfl, hbound, ⟨hcanonical, hcanonicals⟩, ⟨hnotMem, hnodup⟩, hfresh, hseen⟩
      have hroom : paths.length < maxEntries := by
        rw [List.length_append, List.length_cons] at hbound
        omega
      have hroom' : (paths ++ [raw]).length ≤ maxEntries := by
        rw [List.length_append]
        exact hroom
      obtain ⟨hnil, -⟩ := ne_nil_of_segments fun segment hsegment =>
        (hcanonical.segments segment hsegment).1
      refine ⟨hroom, hcanonical.utf8, hnil, raw, ⟨hcanonical, rfl⟩, rfl, hfresh, ?_⟩
      refine (ih hraws hroom').mpr ⟨by rw [List.append_assoc]; rfl, ?_, hcanonicals, hnodup, ?_⟩
      · rwa [List.append_assoc]
      · intro other hother hmem
        obtain rfl | hmem := List.mem_cons.mp hmem
        · exact hnotMem hother
        · exact hseen other hother hmem

/-- A decoded inventory as `find -print0` writes it. -/
def render (paths : List Bytes) : Bytes := paths.flatMap (fun path => path ++ [0])

/-- The decoder accepts exactly the renderings of duplicate-free canonical paths within the limits,
and returns what was rendered. -/
theorem parseWorkspaceInventory_ok_iff (bytes : Bytes) (paths : List Bytes) :
    parseWorkspaceInventory bytes = .ok paths ↔
      bytes = render paths ∧ paths.Nodup ∧ paths.length ≤ maxEntries ∧
        ∀ path ∈ paths, Canonical path := by
  unfold parseWorkspaceInventory
  split_ifs with hnil
  · subst hnil
    constructor
    · intro h
      obtain rfl := Except.ok.inj h
      exact ⟨rfl, List.nodup_nil, Nat.zero_le _, fun path hpath => absurd hpath List.not_mem_nil⟩
    · rintro ⟨hrender, -⟩
      cases paths with
      | nil => rfl
      | cons path paths => simp [render] at hrender
  · have hframes : ∀ raw ∈ bytes.dropLast.splitOn 0, 0 ∉ raw :=
      fun raw hraw hmem => (mem_of_mem_splitOn hraw hmem).2 rfl
    simp only [Result.bind_ok_iff, Result.exists_unit_iff, Result.ensure_ok_iff]
    rw [parseFrames_ok_iff hframes (Nat.zero_le _), List.nil_append]
    constructor
    · rintro ⟨hlast, rfl, hbound, hcanonical, hnodup, -⟩
      refine ⟨?_, hnodup, hbound, hcanonical⟩
      rw [render, flatMap_terminated (List.splitOn_ne_nil _ _), List.intercalate_splitOn]
      exact (List.dropLast_append_getLast? 0 hlast).symm
    · rintro ⟨hrender, hnodup, hbound, hcanonical⟩
      have hpaths : paths ≠ [] := by
        rintro rfl
        exact hnil hrender
      rw [render, flatMap_terminated hpaths] at hrender
      have hsplit : bytes.dropLast.splitOn 0 = paths := by
        rw [hrender, List.dropLast_concat]
        exact List.splitOn_intercalate 0 (fun path hpath => (hcanonical path hpath).nulFree) hpaths
      rw [hsplit]
      refine ⟨by rw [hrender, List.getLast?_concat], rfl, hbound, hcanonical, hnodup, ?_⟩
      exact fun path _ => List.not_mem_nil

end A3sBench.WorkspaceInventory
