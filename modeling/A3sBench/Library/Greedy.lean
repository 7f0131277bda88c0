import Mathlib

/-!
# Greedy selection

A pass over a list that takes an element when it fits beside the ones taken
before it.
-/

namespace A3sBench.Library

section Greedy

variable {α : Type*} (fits : List α → α → Bool)

def greedyStep (chosen : List α) (x : α) : List α := if fits chosen x then chosen ++ [x] else chosen

def greedyFrom (chosen l : List α) : List α := l.foldl (greedyStep fits) chosen

def greedy (l : List α) : List α := greedyFrom fits [] l

variable {fits} {chosen l : List α} {x : α}

theorem greedyFrom_cons :
    greedyFrom fits chosen (x :: l) = greedyFrom fits (greedyStep fits chosen x) l := rfl

theorem greedyFrom_append (m : List α) :
    greedyFrom fits chosen (l ++ m) = greedyFrom fits (greedyFrom fits chosen l) m :=
  List.foldl_append

/-- What a pass adds is a part of its list, in order. -/
theorem greedyFrom_eq_append : ∃ added, greedyFrom fits chosen l = chosen ++ added ∧ added.Sublist l := by
  induction l generalizing chosen with
  | nil => exact ⟨[], (List.append_nil _).symm, .slnil⟩
  | cons x l ih =>
    rw [greedyFrom_cons, greedyStep]
    split_ifs
    · obtain ⟨added, hadded, hsub⟩ := @ih (chosen ++ [x])
      refine ⟨x :: added, ?_, hsub.cons_cons x⟩
      rw [hadded, List.append_assoc, List.singleton_append]
    · obtain ⟨added, hadded, hsub⟩ := @ih chosen
      exact ⟨added, hadded, hsub.cons x⟩

theorem greedy_sublist : (greedy fits l).Sublist l := by
  obtain ⟨added, hadded, hsub⟩ := @greedyFrom_eq_append α fits [] l
  rw [greedy, hadded, List.nil_append]
  exact hsub

/-- A property that every step keeps holds of the selection. -/
theorem greedyFrom_induction {P : List α → Prop} (hchosen : P chosen)
    (hstep : ∀ chosen x, P chosen → fits chosen x = true → P (chosen ++ [x])) :
    P (greedyFrom fits chosen l) := by
  induction l generalizing chosen with
  | nil => exact hchosen
  | cons x l ih =>
    rw [greedyFrom_cons, greedyStep]
    split_ifs with hfits
    · exact ih (hstep chosen x hchosen hfits)
    · exact ih hchosen

/-- An element that was left out did not fit beside those taken before its turn. -/
theorem not_fits_of_not_mem {before after : List α} (h : x ∉ greedy fits (before ++ x :: after)) :
    ∃ added, greedy fits (before ++ x :: after) = greedy fits before ++ added ∧
      added.Sublist after ∧ fits (greedy fits before) x = false := by
  have hsplit : greedy fits (before ++ x :: after) =
      greedyFrom fits (greedyStep fits (greedy fits before) x) after := greedyFrom_append _
  obtain ⟨added, hadded, hsub⟩ :=
    @greedyFrom_eq_append α fits (greedyStep fits (greedy fits before) x) after
  rw [hsplit, hadded] at h ⊢
  unfold greedyStep at h ⊢
  split_ifs at h ⊢ with hfits
  · exact absurd (List.mem_append_left _ (List.mem_append_right _ (List.mem_singleton_self x))) h
  · exact ⟨added, rfl, hsub, Bool.eq_false_iff.mpr hfits⟩

/-- A pass may stop where nothing fits any more. -/
theorem greedyFrom_of_full (h : ∀ x ∈ l, fits chosen x = false) : greedyFrom fits chosen l = chosen := by
  induction l with
  | nil => rfl
  | cons x l ih =>
    obtain ⟨hx, hl⟩ := List.forall_mem_cons.mp h
    rw [greedyFrom_cons, greedyStep, if_neg (Bool.eq_false_iff.mp hx)]
    exact ih hl

theorem greedy_concat : greedy fits (l ++ [x]) = greedyStep fits (greedy fits l) x :=
  greedyFrom_append [x]

/-- Elements that fit beside nothing do not count. -/
theorem greedyFrom_filter {p : α → Bool} (h : ∀ x, p x = false → ∀ chosen, fits chosen x = false) :
    greedyFrom fits chosen (l.filter p) = greedyFrom fits chosen l := by
  induction l generalizing chosen with
  | nil => rfl
  | cons x l ih =>
    rw [List.filter_cons, greedyFrom_cons]
    cases hp : p x with
    | true => exact ih
    | false =>
      rw [greedyStep, h x hp chosen, if_neg Bool.false_ne_true, if_neg Bool.false_ne_true]
      exact ih

/-- The pass over images is the image of the pass. -/
theorem greedyFrom_map {β : Type*} (f : β → α) {chosen l : List β} :
    greedyFrom fits (chosen.map f) (l.map f) =
      (greedyFrom (fun chosen x => fits (chosen.map f) (f x)) chosen l).map f := by
  induction l generalizing chosen with
  | nil => rfl
  | cons x l ih =>
    rw [List.map_cons, greedyFrom_cons, greedyFrom_cons, ← ih]
    congr 1
    simp only [greedyStep]
    split_ifs
    · rw [List.map_append, List.map_singleton]
    · rfl

/-- Along a strict order a pass takes the elements that fit beside the taken ones before them, and
no other set of elements has this property. -/
theorem greedy_eq_filter_iff {before : α → α → Bool} (hirrefl : ∀ x, before x x = false)
    (hl : l.Pairwise (fun x y => before x y = true ∧ before y x = false)) {kept : α → Bool} :
    greedy fits l = l.filter kept ↔
      ∀ x ∈ l, kept x = fits (l.filter (fun y => kept y && before y x)) x := by
  induction l using List.reverseRecOn with
  | nil => simp [greedy, greedyFrom]
  | append_singleton l x ih =>
    obtain ⟨hl, -, hlast⟩ := List.pairwise_append.mp hl
    have hlast : ∀ y ∈ l, before y x = true ∧ before x y = false :=
      fun y hy => hlast y hy x (List.mem_singleton_self x)
    have hfresh : x ∉ l := by
      intro hx
      have hbefore := (hlast x hx).1
      rw [hirrefl] at hbefore
      cases hbefore
    have hown : (l ++ [x]).filter (fun y => kept y && before y x) = l.filter kept := by
      rw [List.filter_append, List.filter_singleton, hirrefl, Bool.and_false, cond_false,
        List.append_nil]
      exact List.filter_congr fun y hy => by rw [(hlast y hy).1, Bool.and_true]
    have hothers : ∀ y ∈ l, (l ++ [x]).filter (fun z => kept z && before z y) =
        l.filter (fun z => kept z && before z y) := by
      intro y hy
      rw [List.filter_append, List.filter_singleton, (hlast y hy).2, Bool.and_false, cond_false,
        List.append_nil]
    have hrest : (∀ y ∈ l, kept y = fits ((l ++ [x]).filter (fun z => kept z && before z y)) y) ↔
        greedy fits l = l.filter kept := by
      rw [ih hl]
      exact forall₂_congr fun y hy => by rw [hothers y hy]
    rw [List.forall_mem_append, List.forall_mem_singleton, hrest, hown, greedy_concat,
      List.filter_append, List.filter_singleton, greedyStep]
    constructor
    · intro h
      cases hkept : kept x with
      | true =>
        rw [hkept, cond_true] at h
        split_ifs at h with hfits
        · have hl := List.append_cancel_right h
          exact ⟨hl, by rw [← hl, hfits]⟩
        · have hx : x ∈ greedy fits l := h ▸ List.mem_append_right _ (List.mem_singleton_self x)
          exact absurd (greedy_sublist.mem hx) hfresh
      | false =>
        rw [hkept, cond_false, List.append_nil] at h
        split_ifs at h with hfits
        · have hx : x ∈ l.filter kept := h ▸ List.mem_append_right _ (List.mem_singleton_self x)
          exact absurd (List.mem_filter.mp hx).1 hfresh
        · exact ⟨h, by rw [← h, Bool.eq_false_iff.mpr hfits]⟩
    · rintro ⟨hl, hx⟩
      rw [hl, ← hx]
      cases kept x <;> simp

/-- The elements kept are those that fit beside the kept ones before them. -/
def Stable (fits : List α → α → Bool) (before : α → α → Bool) (l : List α) (kept : α → Bool) : Prop :=
  ∀ x ∈ l, kept x = fits (l.filter (fun y => kept y && before y x)) x

/-- A list in a strict order. -/
def Ordered (before : α → α → Bool) (l : List α) : Prop :=
  l.Pairwise (fun x y => before x y = true ∧ before y x = false)

theorem Ordered.nodup {before : α → α → Bool} (hirrefl : ∀ x, before x x = false)
    (hl : Ordered before l) : l.Nodup := by
  refine hl.imp ?_
  rintro x _ ⟨hbefore, -⟩ rfl
  rw [hirrefl] at hbefore
  cases hbefore

/-- Some elements of an ordered list, in order, are a filter of it. -/
theorem Ordered.eq_filter {before : α → α → Bool} (hirrefl : ∀ x, before x x = false)
    (hl : Ordered before l) (hsub : chosen.Sublist l) {kept : α → Bool}
    (hmem : ∀ x, x ∈ chosen ↔ x ∈ l ∧ kept x = true) : chosen = l.filter kept := by
  have hnodup := hl.nodup hirrefl
  have hperm : chosen.Perm (l.filter kept) := by
    refine (List.perm_ext_iff_of_nodup (hsub.nodup hnodup) (hnodup.filter _)).mpr fun x => ?_
    rw [hmem, List.mem_filter]
  refine hperm.eq_of_pairwise ?_ (hl.sublist hsub) (hl.filter _)
  rintro x y - - ⟨hxy, -⟩ ⟨-, hxy'⟩
  rw [hxy] at hxy'
  cases hxy'

section Orders

variable (hfits : ∀ (chosen chosen' : List α) (x : α), chosen.Perm chosen' →
  fits chosen x = fits chosen' x)

include hfits

/-- What is asked of the kept elements does not depend on the order they are listed in. -/
theorem Stable.perm {before : α → α → Bool} {l l' : List α} {kept : α → Bool} (hl : l.Perm l')
    (h : Stable fits before l kept) : Stable fits before l' kept := by
  intro x hx
  rw [h x (hl.mem_iff.mpr hx)]
  exact hfits _ _ _ (hl.filter _)

/-- Two passes over the same elements in two orders take the same ones exactly when some elements
are stable in both orders. -/
theorem greedy_perm_iff {before before' : α → α → Bool} (hirrefl : ∀ x, before x x = false)
    (hirrefl' : ∀ x, before' x x = false) {l m m' : List α} (hm : m.Perm l) (hm' : m'.Perm l)
    (hordered : Ordered before m) (hordered' : Ordered before' m') :
    (greedy fits m).Perm (greedy fits m') ↔
      ∃ kept, Stable fits before l kept ∧ Stable fits before' l kept := by
  constructor
  · intro h
    classical
    let kept : α → Bool := fun x => decide (x ∈ greedy fits m)
    have hkept : greedy fits m = m.filter kept := by
      refine hordered.eq_filter hirrefl greedy_sublist fun x => ?_
      rw [decide_eq_true_eq]
      exact ⟨fun hx => ⟨greedy_sublist.mem hx, hx⟩, And.right⟩
    have hkept' : greedy fits m' = m'.filter kept := by
      refine hordered'.eq_filter hirrefl' greedy_sublist fun x => ?_
      rw [decide_eq_true_eq, h.mem_iff]
      exact ⟨fun hx => ⟨greedy_sublist.mem hx, hx⟩, And.right⟩
    exact ⟨kept, Stable.perm hfits hm ((greedy_eq_filter_iff hirrefl hordered).mp hkept),
      Stable.perm hfits hm' ((greedy_eq_filter_iff hirrefl' hordered').mp hkept')⟩
  · rintro ⟨kept, hkept, hkept'⟩
    rw [(greedy_eq_filter_iff hirrefl hordered).mpr (Stable.perm hfits hm.symm hkept),
      (greedy_eq_filter_iff hirrefl' hordered').mpr (Stable.perm hfits hm'.symm hkept')]
    exact (hm.trans hm'.symm).filter _

end Orders

end Greedy

end A3sBench.Library
