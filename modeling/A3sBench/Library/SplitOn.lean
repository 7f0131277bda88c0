import Mathlib

/-!
# Lists split at a separator

What `List.splitOn` keeps of the order of two lists: a list that goes on after a
separator splits into more parts, one that goes on without one into a longer
last part.
-/

namespace A3sBench.Library

variable {α : Type*} {sep : α}

theorem intercalate_append (init : List (List α)) (last suffix : List α) :
    [sep].intercalate (init ++ [last]) ++ suffix = [sep].intercalate (init ++ [last ++ suffix]) := by
  induction init with
  | nil => simp
  | cons part init ih =>
      rw [List.cons_append, List.cons_append, List.intercalate_cons_of_ne_nil (by simp),
        List.intercalate_cons_of_ne_nil (by simp), List.append_assoc, ih]

/-- Parts that each end with the separator. -/
theorem flatMap_terminated {parts : List (List α)} (h : parts ≠ []) :
    parts.flatMap (fun part => part ++ [sep]) = [sep].intercalate parts ++ [sep] := by
  induction parts with
  | nil => exact absurd rfl h
  | cons part parts ih =>
      by_cases hparts : parts = []
      · subst hparts
        simp
      · rw [List.flatMap_cons, ih hparts, List.intercalate_cons_of_ne_nil hparts, List.append_assoc,
          List.append_assoc, List.append_assoc]

variable [BEq α] [LawfulBEq α]

theorem splitOn_cons_ne {x : α} {xs init : List α} {rest : List (List α)} (hx : x ≠ sep)
    (hxs : xs.splitOn sep = init :: rest) : (x :: xs).splitOn sep = (x :: init) :: rest := by
  rw [List.splitOn_cons_eq_if_modifyHead, if_neg (by simpa using hx), hxs]
  rfl

theorem splitOn_cons_self (xs : List α) : (sep :: xs).splitOn sep = [] :: xs.splitOn sep := by
  rw [List.splitOn_cons_eq_if_modifyHead, if_pos (by simp)]

/-- A part has only elements of the list and no separator. -/
theorem mem_of_mem_splitOn {xs part : List α} {x : α} (hpart : part ∈ xs.splitOn sep)
    (hx : x ∈ part) : x ∈ xs ∧ x ≠ sep := by
  induction xs generalizing part with
  | nil =>
      obtain rfl := List.mem_singleton.mp hpart
      cases hx
  | cons y ys ih =>
      by_cases hy : y = sep
      · subst hy
        rw [splitOn_cons_self] at hpart
        rcases List.mem_cons.mp hpart with rfl | hrest
        · cases hx
        · exact ⟨List.mem_cons_of_mem _ (ih hrest hx).1, (ih hrest hx).2⟩
      · obtain ⟨init, rest, hys⟩ := List.exists_cons_of_ne_nil (List.splitOn_ne_nil sep ys)
        rw [splitOn_cons_ne hy hys] at hpart
        rw [hys] at ih
        rcases List.mem_cons.mp hpart with rfl | hrest
        · rcases List.mem_cons.mp hx with rfl | hinit
          · exact ⟨List.mem_cons_self, hy⟩
          · have hmem := ih List.mem_cons_self hinit
            exact ⟨List.mem_cons_of_mem _ hmem.1, hmem.2⟩
        · have hmem := ih (List.mem_cons_of_mem _ hrest) hx
          exact ⟨List.mem_cons_of_mem _ hmem.1, hmem.2⟩

theorem splitOn_injective (sep : α) : Function.Injective (fun xs : List α => xs.splitOn sep) := by
  intro xs ys h
  have hjoin := congrArg ([sep].intercalate ·) h
  simpa only [List.intercalate_splitOn] using hjoin

/-- The parts of a list come first where the longer list goes on after a
separator. -/
theorem splitOn_prefix_iff {xs ys : List α} :
    xs.splitOn sep <+: ys.splitOn sep ↔ ys = xs ∨ ∃ rest, ys = xs ++ sep :: rest := by
  constructor
  · rintro ⟨parts, hparts⟩
    cases parts with
    | nil =>
        rw [List.append_nil] at hparts
        exact .inl (splitOn_injective sep hparts.symm)
    | cons part parts =>
        refine .inr ⟨[sep].intercalate (part :: parts), splitOn_injective sep ?_⟩
        have hclean : ∀ p ∈ part :: parts, sep ∉ p := by
          intro p hp hmem
          have hys : p ∈ ys.splitOn sep := hparts ▸ List.mem_append_right _ hp
          exact (mem_of_mem_splitOn hys hmem).2 rfl
        simp only [List.splitOn_append_cons_self,
          List.splitOn_intercalate sep hclean (List.cons_ne_nil _ _)]
        exact hparts.symm
  · rintro (rfl | ⟨rest, rfl⟩)
    · exact List.prefix_rfl
    · rw [List.splitOn_append_cons_self]
      exact List.prefix_append _ _

/-- What is written after a list without a separator joins its last part. -/
theorem splitOn_append_suffix {xs suffix last : List α} {init : List (List α)}
    (hsplit : xs.splitOn sep = init ++ [last]) (hsuffix : sep ∉ suffix) :
    (xs ++ suffix).splitOn sep = init ++ [last ++ suffix] := by
  have hinit : ∀ part ∈ init ++ [last], sep ∉ part := by
    intro part hpart hmem
    exact (mem_of_mem_splitOn (hsplit ▸ hpart) hmem).2 rfl
  have hparts : ∀ part ∈ init ++ [last ++ suffix], sep ∉ part := by
    intro part hpart hmem
    rcases List.mem_append.mp hpart with hpart | hpart
    · exact hinit part (List.mem_append_left _ hpart) hmem
    · obtain rfl := List.mem_singleton.mp hpart
      rcases List.mem_append.mp hmem with hlast | htail
      · exact hinit last (by simp) hlast
      · exact hsuffix htail
  rw [← List.splitOn_intercalate sep hparts (by simp)]
  rw [← intercalate_append, ← hsplit, List.intercalate_splitOn]

/-- The last part of a list and the first of what is written after it are one part. -/
theorem splitOn_append {xs ys last head : List α} {init tail : List (List α)}
    (hxs : xs.splitOn sep = init ++ [last]) (hys : ys.splitOn sep = head :: tail) :
    (xs ++ ys).splitOn sep = init ++ (last ++ head) :: tail := by
  induction xs generalizing init last with
  | nil =>
      have hnil : ([[]] : List (List α)) = init ++ [last] := hxs
      cases init with
      | nil =>
          obtain rfl : [] = last := (List.cons.inj hnil).1
          exact hys
      | cons part init => simp at hnil
  | cons x xs ih =>
      rw [List.cons_append]
      by_cases hx : x = sep
      · subst hx
        rw [splitOn_cons_self] at hxs ⊢
        cases init with
        | nil => exact absurd (List.cons.inj hxs).2 (List.splitOn_ne_nil _ _)
        | cons part init =>
            obtain ⟨rfl, hrest⟩ := List.cons.inj hxs
            rw [ih hrest]
            rfl
      · obtain ⟨part, parts, hparts⟩ := List.exists_cons_of_ne_nil (List.splitOn_ne_nil sep xs)
        rw [splitOn_cons_ne hx hparts] at hxs
        cases init with
        | nil =>
            obtain ⟨rfl, rfl⟩ := List.cons.inj hxs
            exact splitOn_cons_ne hx (@ih part [] hparts)
        | cons first init =>
            obtain ⟨rfl, hrest⟩ := List.cons.inj hxs
            rw [hrest] at hparts
            exact splitOn_cons_ne hx (@ih last (part :: init) hparts)

end A3sBench.Library
