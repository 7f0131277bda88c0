import Mathlib

/-!
# Occurrences of a pattern

The first place where a pattern stands in a text. Patterns that cannot begin
inside one another are found apart.
-/

namespace A3sBench.Library

variable {α : Type*} [BEq α] [LawfulBEq α]

/-- The first place of a pattern. -/
def find (pattern text : List α) : Option Nat :=
  text.tails.findIdx? (fun tail => pattern.isPrefixOf tail)

/-- The second pattern cannot begin inside the first, after its start. -/
def StandApart (p q : List α) : Prop :=
  ∀ k, 0 < k → k < p.length → ¬ p.drop k <+: q ∧ ¬ q <+: p.drop k

theorem find_eq_some_iff {pattern text : List α} {i : Nat} :
    find pattern text = some i ↔
      i ≤ text.length ∧ pattern <+: text.drop i ∧ ∀ j < i, ¬ pattern <+: text.drop j := by
  rw [find, List.findIdx?_eq_some_iff_getElem]
  simp only [List.getElem_tails, List.length_tails, List.isPrefixOf_iff_prefix, Nat.lt_succ_iff,
    exists_prop]

theorem find_eq_none_iff {pattern text : List α} : find pattern text = none ↔ ¬ pattern <:+: text := by
  rw [find, List.findIdx?_eq_none_iff]
  simp only [List.mem_tails]
  constructor
  · rintro h ⟨front, back, rfl⟩
    have hnot := h (pattern ++ back) ⟨front, (List.append_assoc ..).symm⟩
    rw [List.isPrefixOf_iff_prefix.mpr (List.prefix_append _ _)] at hnot
    cases hnot
  · intro h tail hsuffix
    rw [Bool.eq_false_iff, ne_eq, List.isPrefixOf_iff_prefix]
    exact fun hstands => h (hstands.isInfix.trans hsuffix.isInfix)

theorem find_le {pattern text : List α} {j : Nat}
    (h : pattern <+: text.drop j) : ∃ i ≤ j, find pattern text = some i := by
  cases hfind : find pattern text with
  | none =>
    rw [find_eq_none_iff] at hfind
    exact absurd (h.isInfix.trans (List.drop_suffix j text).isInfix) hfind
  | some i =>
    refine ⟨i, not_lt.mp fun hlt => ?_, rfl⟩
    exact (find_eq_some_iff.mp hfind).2.2 j hlt h

omit [BEq α] [LawfulBEq α] in
/-- A pattern that follows another starts after its end. -/
theorem StandApart.le {p q text : List α} {i j : Nat} (h : StandApart p q) (hp : p <+: text.drop i)
    (hq : q <+: text.drop j) (hij : i < j) : i + p.length ≤ j := by
  by_contra hlt
  have hk : j - i < p.length := by omega
  have hdrop : p.drop (j - i) <+: text.drop j := by
    have := hp.drop (j - i)
    rwa [List.drop_drop, Nat.add_sub_cancel' hij.le] at this
  obtain ⟨hfirst, hsecond⟩ := h (j - i) (Nat.sub_pos_of_lt hij) hk
  rcases List.prefix_or_prefix_of_prefix hdrop hq with hstands | hstands
  · exact hfirst hstands
  · exact hsecond hstands

omit [BEq α] [LawfulBEq α] in
/-- A pattern whose last letter is nowhere else in it cannot overlap itself. -/
theorem apart_concat {init : List α} {c : α} (h : c ∉ init) :
    StandApart (init ++ [c]) (init ++ [c]) := by
  intro k hpos hlt
  rw [List.length_append, List.length_singleton] at hlt
  have hdrop : (init ++ [c]).drop k = init.drop k ++ [c] := by
    rw [List.drop_append_of_le_length (by omega)]
  constructor
  · rintro ⟨rest, hrest⟩
    have hplace : (init ++ [c])[init.length - k]? = some c := by
      rw [← hrest, hdrop, List.append_assoc, List.getElem?_append_right (by simp), List.length_drop,
        Nat.sub_self]
      rfl
    rw [List.getElem?_append_left (by omega)] at hplace
    exact h (List.mem_of_getElem? hplace)
  · intro hstands
    have hlength := hstands.length_le
    simp only [List.length_drop, List.length_append, List.length_singleton] at hlength
    omega

theorem find_append_self {pattern front rest : List α} (hself : StandApart pattern pattern)
    (h : ¬ pattern <:+: front) :
    find pattern (front ++ pattern ++ rest) = some front.length := by
  rw [find_eq_some_iff]
  have hhere : pattern <+: (front ++ pattern ++ rest).drop front.length := by simp
  refine ⟨by simp, hhere, fun j hj hstands => h ?_⟩
  have hend := hself.le hstands hhere hj
  have htake : pattern <+: (front.drop j) := by
    rw [List.append_assoc, List.drop_append_of_le_length hj.le] at hstands
    exact List.prefix_of_prefix_length_le hstands (List.prefix_append _ _)
      (by rw [List.length_drop]; omega)
  exact htake.isInfix.trans (List.drop_suffix j front).isInfix

/-- An occurrence in the front part comes first, and ends there. -/
theorem find_append_of_infix {pattern front : List α} (rest : List α) (h : pattern <:+: front) :
    ∃ i, find pattern (front ++ rest) = some i ∧ i + pattern.length ≤ front.length := by
  obtain ⟨before, after, rfl⟩ := h
  obtain ⟨i, hle, hfind⟩ := @find_le _ _ _ pattern (before ++ pattern ++ after ++ rest) before.length
    (by simp)
  refine ⟨i, hfind, ?_⟩
  simp only [List.length_append]
  omega

/-- The parts stand in the text one after the other. -/
inductive InOrder : List (List α) → List α → Prop
  | done (text : List α) : InOrder [] text
  | part (before p : List α) {parts : List (List α)} {after : List α} (rest : InOrder parts after) :
    InOrder (p :: parts) (before ++ p ++ after)

/-- The search takes the first place of every part. -/
def inOrder : List (List α) → List α → Bool
  | [], _ => true
  | part :: parts, text =>
    match find part text with
    | none => false
    | some i => inOrder parts (text.drop (i + part.length))

theorem inOrder_append {parts : List (List α)} (front : List α) {text : List α}
    (h : inOrder parts text = true) : inOrder parts (front ++ text) = true := by
  induction parts generalizing front text with
  | nil => rfl
  | cons part parts ih =>
    rw [inOrder] at h ⊢
    split at h
    · cases h
    · rename_i i hfind
      have hlater : part <+: (front ++ text).drop (front.length + i) := by
        rw [List.drop_length_add_append]
        exact (find_eq_some_iff.mp hfind).2.1
      obtain ⟨j, hle, hfirst⟩ := find_le hlater
      rw [hfirst]
      have hsplit : (front ++ text).drop (j + part.length) =
          ((front ++ text).drop (j + part.length)).take (front.length + i - j) ++
            text.drop (i + part.length) := by
        conv_lhs => rw [← List.take_append_drop (front.length + i - j)
          ((front ++ text).drop (j + part.length)), List.drop_drop]
        have hplace : j + part.length + (front.length + i - j) =
            front.length + (i + part.length) := by omega
        rw [hplace, List.drop_length_add_append]
      change inOrder parts ((front ++ text).drop (j + part.length)) = true
      rw [hsplit]
      exact ih _ h

/-- The first place of a part leaves the most text for the others. -/
theorem inOrder_iff {parts : List (List α)} {text : List α} :
    inOrder parts text = true ↔ InOrder parts text := by
  constructor
  · intro h
    induction parts generalizing text with
    | nil => exact .done text
    | cons part parts ih =>
      rw [inOrder] at h
      split at h
      · cases h
      · rename_i i hfind
        obtain ⟨hle, ⟨behind, hstands⟩, -⟩ := find_eq_some_iff.mp hfind
        rw [← List.drop_drop, ← hstands, List.drop_left] at h
        have := InOrder.part (text.take i) part (ih h)
        rwa [List.append_assoc, hstands, List.take_append_drop] at this
  · intro h
    induction h with
    | done text => rfl
    | part before p rest ih =>
      rename_i parts after
      have hplace : p <+: (before ++ p ++ after).drop before.length := by simp
      obtain ⟨i, hle, hfind⟩ := find_le hplace
      have hsplit : (before ++ p ++ after).drop (i + p.length) =
          ((before ++ p).drop (i + p.length)) ++ after :=
        List.drop_append_of_le_length (by rw [List.length_append]; omega)
      rw [inOrder, hfind]
      change inOrder parts ((before ++ p ++ after).drop (i + p.length)) = true
      rw [hsplit]
      exact inOrder_append _ ih

section Splits

omit [BEq α] [LawfulBEq α]

/-- Where the second part begins with a letter the pattern does not have, an occurrence lies in one
of the two parts. -/
theorem occurrence_split {p X Y before after : List α} (hY : ∀ c ∈ Y.head?, c ∉ p)
    (h : X ++ Y = before ++ p ++ after) :
    (∃ u, X = before ++ p ++ u ∧ after = u ++ Y) ∨ ∃ v, before = X ++ v ∧ Y = v ++ p ++ after := by
  rw [List.append_assoc] at h
  rcases List.append_eq_append_iff.mp h with ⟨v, hbefore, hsecond⟩ | ⟨u, hX, hrest⟩
  · exact .inr ⟨v, hbefore, by rw [hsecond, List.append_assoc]⟩
  · rcases List.append_eq_append_iff.mp hrest.symm with ⟨w, hp', hsplit⟩ | ⟨w, hu, hsplit⟩
    · cases w with
      | nil =>
        rw [List.append_nil] at hp'
        exact .inl ⟨[], by rw [hX, hp', List.append_nil], hsplit.symm⟩
      | cons c w =>
        rw [hsplit] at hY
        refine absurd ?_ (hY c rfl)
        rw [hp']
        exact List.mem_append_right u List.mem_cons_self
    · exact .inl ⟨w, by rw [hX, hu, List.append_assoc], hsplit⟩

/-- An occurrence does not begin within letters the pattern does not have. -/
theorem occurrence_skip {p P Y before after : List α} (hp : p ≠ []) (hP : ∀ c ∈ P, c ∉ p)
    (h : P ++ Y = before ++ p ++ after) : ∃ v, before = P ++ v ∧ Y = v ++ p ++ after := by
  rw [List.append_assoc] at h
  rcases List.append_eq_append_iff.mp h with ⟨v, hbefore, hsecond⟩ | ⟨u, hP', hrest⟩
  · exact ⟨v, hbefore, by rw [hsecond, List.append_assoc]⟩
  · cases u with
    | nil => exact ⟨[], by rw [hP', List.append_nil, List.append_nil], by simpa using hrest.symm⟩
    | cons c u =>
      obtain ⟨d, p, rfl⟩ := List.exists_cons_of_ne_nil hp
      obtain rfl : d = c := (List.cons.inj hrest).1
      refine absurd List.mem_cons_self (hP d ?_)
      rw [hP']
      exact List.mem_append_right before List.mem_cons_self

theorem not_infix_append {p X P R : List α} (hp : p ≠ []) (hne : P ≠ []) (hP : ∀ c ∈ P, c ∉ p)
    (hX : ¬ p <:+: X) (hR : ¬ p <:+: R) : ¬ p <:+: X ++ (P ++ R) := by
  rintro ⟨before, after, h⟩
  have hhead : ∀ c ∈ (P ++ R).head?, c ∉ p := by
    obtain ⟨c, P, rfl⟩ := List.exists_cons_of_ne_nil hne
    rintro _ ⟨⟩
    exact hP c List.mem_cons_self
  rcases occurrence_split hhead h.symm with ⟨u, hsplit, -⟩ | ⟨v, -, hsplit⟩
  · exact hX ⟨before, u, hsplit.symm⟩
  · obtain ⟨w, -, hrest⟩ := occurrence_skip hp hP hsplit
    exact hR ⟨w, after, hrest.symm⟩

end Splits

end A3sBench.Library
