import A3sBench.FileTree
import A3sBench.Library.SplitOn

/-!
# Path components

`Path::components` and `Path::join` of the standard library on Unix, on the
bytes of a path.
-/

namespace A3sBench

/-- `std::path::Component`. -/
inductive Component where
  | rootDir
  | curDir
  | parentDir
  | normal (name : Bytes)
  deriving DecidableEq

def dot : Bytes := [46]

def dotDot : Bytes := [46, 46]

/-- An empty part and an inner `.` are skipped. -/
def component (part : Bytes) : Option Component :=
  if part = [] ∨ part = dot then none
  else if part = dotDot then some .parentDir
  else some (.normal part)

/-- `Path::components`. -/
def components (path : Bytes) : List Component :=
  let parts := path.splitOn separator
  (if path.head? = some separator then [.rootDir]
    else if parts.head? = some dot then [.curDir] else []) ++ parts.filterMap component

/-- `Path::join`: an absolute path replaces the base. -/
def joinPath (base path : Bytes) : Bytes :=
  if path.head? = some separator then path
  else if base = [] ∨ base.getLast? = some separator then base ++ path
  else base ++ separator :: path

theorem component_of_ne {part : Bytes} (hnil : part ≠ []) (hdot : part ≠ dot)
    (hdotDot : part ≠ dotDot) : component part = some (.normal part) := by
  rw [component, if_neg (not_or.mpr ⟨hnil, hdot⟩), if_neg hdotDot]

theorem component_eq_none_iff {part : Bytes} : component part = none ↔ part = [] ∨ part = dot := by
  unfold component
  split_ifs with h hdotDot
  · simp [h]
  · simp [h]
  · simp [h]

/-- The components of an absolute path. -/
theorem components_absolute {path : Bytes} (h : path.head? = some separator) :
    components path = .rootDir :: (path.splitOn separator).filterMap component := by
  rw [components, if_pos h]
  rfl

/-- Joining a relative path to an absolute one appends its components; a leading
`.` is dropped. -/
theorem components_joinPath {base path : Bytes} (hbase : base.head? = some separator)
    (hpath : path.head? ≠ some separator) : components (joinPath base path) =
      components base ++ (path.splitOn separator).filterMap component := by
  have hne : base ≠ [] := by
    rintro rfl
    cases hbase
  have happend : ∀ tail : Bytes, (base ++ tail).head? = some separator := by
    intro tail
    rw [List.head?_append, hbase]
    rfl
  rw [joinPath, if_neg hpath, components_absolute hbase]
  by_cases hlast : base.getLast? = some separator
  · rw [if_pos (.inr hlast), components_absolute (happend _)]
    obtain ⟨init, rfl⟩ := List.getLast?_eq_some_iff.mp hlast
    rw [List.append_assoc, List.singleton_append, List.splitOn_append_cons_self,
      List.splitOn_append_cons_self, List.filterMap_append, List.filterMap_append]
    simp [component]
  · rw [if_neg (not_or.mpr ⟨hne, hlast⟩), components_absolute (happend _),
      List.splitOn_append_cons_self, List.filterMap_append]
    rfl

/-- A path that ends in a plain name lies directly in the directory before it. -/
theorem filterMap_component_append {path suffix last : Bytes} {init : List Bytes}
    (hsplit : path.splitOn separator = init ++ [last]) (hsuffix : separator ∉ suffix)
    (hnormal : component (last ++ suffix) = some (.normal (last ++ suffix))) :
    ((path ++ suffix).splitOn separator).filterMap component =
      init.filterMap component ++ [.normal (last ++ suffix)] := by
  rw [Library.splitOn_append_suffix hsplit hsuffix, List.filterMap_append]
  simp [hnormal]

end A3sBench
