import Mathlib

/-!
# Piecewise linear curves

The curve through a list of knots. Before the first knot and after the last one
it stays level; through knots that rise it is monotone.
-/

namespace A3sBench.Library

variable {K : Type*}

section Line

variable [Field K]

/-- The line through two knots. -/
def lerp (p q : K × K) (x : K) : K := p.2 + (x - p.1) / (q.1 - p.1) * (q.2 - p.2)

theorem lerp_left (p q : K × K) : lerp p q p.1 = p.2 := by
  rw [lerp, sub_self, zero_div, zero_mul, add_zero]

end Line

/-- Knots from left to right that do not fall. -/
def Rising [LinearOrder K] (knots : List (K × K)) : Prop :=
  knots.IsChain (fun p q => p.1 < q.1 ∧ p.2 ≤ q.2)

theorem rising_cons_cons [LinearOrder K] {p q : K × K} {rest : List (K × K)} :
    Rising (p :: q :: rest) ↔ (p.1 < q.1 ∧ p.2 ≤ q.2) ∧ Rising (q :: rest) :=
  List.isChain_cons_cons

variable [Field K] [LinearOrder K]

def polyline : List (K × K) → K → K
  | [], _ => 0
  | [p], _ => p.2
  | p :: q :: rest, x =>
    if x ≤ p.1 then p.2 else if x ≤ q.1 then lerp p q x else polyline (q :: rest) x

theorem polyline_of_le {p : K × K} {rest : List (K × K)} {x : K} (h : x ≤ p.1) :
    polyline (p :: rest) x = p.2 := by
  cases rest with
  | nil => rfl
  | cons q rest => rw [polyline, if_pos h]

section Ordered

variable [IsStrictOrderedRing K]

theorem lerp_mono {p q : K × K} (hx : p.1 < q.1) (hy : p.2 ≤ q.2) : Monotone (lerp p q) := by
  intro x y hxy
  have hwidth : 0 ≤ q.1 - p.1 := (sub_pos.mpr hx).le
  have hheight : 0 ≤ q.2 - p.2 := sub_nonneg.mpr hy
  unfold lerp
  gcongr

theorem lerp_right {p q : K × K} (hx : p.1 < q.1) : lerp p q q.1 = q.2 := by
  rw [lerp, div_self (sub_pos.mpr hx).ne', one_mul, add_sub_cancel]

theorem le_lerp {p q : K × K} (hx : p.1 < q.1) (hy : p.2 ≤ q.2) {x : K} (h : p.1 ≤ x) :
    p.2 ≤ lerp p q x :=
  (lerp_left p q).symm.trans_le (lerp_mono hx hy h)

theorem lerp_le {p q : K × K} (hx : p.1 < q.1) (hy : p.2 ≤ q.2) {x : K} (h : x ≤ q.1) :
    lerp p q x ≤ q.2 :=
  (lerp_mono hx hy h).trans_eq (lerp_right hx)

variable {p : K × K} {rest : List (K × K)} {x : K}

theorem le_polyline (h : Rising (p :: rest)) : p.2 ≤ polyline (p :: rest) x := by
  induction rest generalizing p with
  | nil => exact le_rfl
  | cons q rest ih =>
    obtain ⟨⟨hx, hy⟩, hrest⟩ := rising_cons_cons.mp h
    rw [polyline]
    split_ifs with hp hq
    · exact le_rfl
    · exact le_lerp hx hy (not_le.mp hp).le
    · exact hy.trans (ih hrest)

theorem polyline_le {bound : K} (h : Rising (p :: rest)) (hbound : ∀ k ∈ p :: rest, k.2 ≤ bound) :
    polyline (p :: rest) x ≤ bound := by
  induction rest generalizing p with
  | nil => exact hbound p (List.mem_cons_self ..)
  | cons q rest ih =>
    obtain ⟨⟨hx, hy⟩, hrest⟩ := rising_cons_cons.mp h
    obtain ⟨hp, hbound⟩ := List.forall_mem_cons.mp hbound
    rw [polyline]
    split_ifs with hpx hqx
    · exact hp
    · exact (lerp_le hx hy hqx).trans (hbound q (List.mem_cons_self ..))
    · exact ih hrest hbound

theorem polyline_mono (h : Rising (p :: rest)) : Monotone (polyline (p :: rest)) := by
  induction rest generalizing p with
  | nil => exact monotone_const
  | cons q rest ih =>
    obtain ⟨⟨hx, hy⟩, hrest⟩ := rising_cons_cons.mp h
    intro x y hxy
    by_cases hpx : x ≤ p.1
    · rw [polyline_of_le hpx]
      exact le_polyline h
    have hpy : ¬ y ≤ p.1 := fun hle => hpx (hxy.trans hle)
    rw [polyline, polyline, if_neg hpx, if_neg hpy]
    split_ifs with hqx hqy hqy
    · exact lerp_mono hx hy hxy
    · exact (lerp_le hx hy hqx).trans (le_polyline hrest)
    · exact absurd (hxy.trans hqy) hqx
    · exact ih hrest hxy

/-- The curve goes through its knots. -/
theorem polyline_knot (h : Rising (p :: rest)) {k : K × K} (hk : k ∈ p :: rest) :
    polyline (p :: rest) k.1 = k.2 := by
  induction rest generalizing p with
  | nil =>
    obtain rfl := List.mem_singleton.mp hk
    rfl
  | cons q rest ih =>
    obtain ⟨⟨hx, hy⟩, hrest⟩ := rising_cons_cons.mp h
    rcases List.mem_cons.mp hk with rfl | hk
    · exact polyline_of_le le_rfl
    have hvalue := ih hrest hk
    have hleft : q.1 ≤ k.1 := by
      have hchain := List.isChain_iff_pairwise.mp
        (List.IsChain.imp (fun _ _ h => h.1) hrest : (q :: rest).IsChain (fun a b => a.1 < b.1))
      rcases List.mem_cons.mp hk with rfl | hk
      · exact le_rfl
      · exact (List.rel_of_pairwise_cons hchain hk).le
    rw [polyline, if_neg (hx.trans_le hleft).not_ge]
    split_ifs with hq
    · have heq : k.1 = q.1 := le_antisymm hq hleft
      rw [heq, polyline_of_le le_rfl] at hvalue
      rw [heq, lerp_right hx, hvalue]
    · exact hvalue

end Ordered

end A3sBench.Library
