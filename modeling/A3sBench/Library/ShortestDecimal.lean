import A3sBench.Library.Binary64

/-!
# The shortest decimal of a double

Printing looks for the coarsest power of ten with a multiple that is read back
into the same double, and takes the multiple nearest to it.
-/

namespace A3sBench.Library.ShortestDecimal

open Binary64

/-- The multiple of `10 ^ k` next to a double that is read back into it; of two equally near ones
the greater. -/
def candidate (v : ℚ) (k : ℤ) : Option ℕ :=
  let low := ⌊v / 10 ^ k⌋₊
  let reads := fun d : ℕ => decide (Binary64.round (d * 10 ^ k) = v)
  if reads low && (!reads (low + 1) || decide (v / 10 ^ k - low < low + 1 - v / 10 ^ k)) then some low
  else if reads (low + 1) then some (low + 1)
  else none

/-- The first candidate from a power of ten downwards. -/
def search (v : ℚ) : ℕ → ℤ → ℕ × ℤ
  | 0, k => (0, k)
  | fuel + 1, k =>
    match candidate v k with
    | some d => (d, k)
    | none => search v fuel (k - 1)

/-- The digits and the exponent of a positive double. Every double is a multiple of the power of
ten at which the search ends. -/
def shortest (v : ℚ) : ℕ × ℤ := search v (Int.log 10 v + 1076).toNat (Int.log 10 v + 1)

theorem round_candidate {v : ℚ} {k : ℤ} {d : ℕ} (h : candidate v k = some d) :
    Binary64.round (d * 10 ^ k) = v := by
  unfold candidate at h
  dsimp only at h
  split_ifs at h with hlow hhigh
  · obtain rfl := Option.some.inj h
    exact of_decide_eq_true (Bool.and_eq_true_iff.mp hlow).1
  · obtain rfl := Option.some.inj h
    exact of_decide_eq_true hhigh

/-- A double that is a multiple itself is a candidate. -/
theorem exists_candidate {v : ℚ} (hv : Binary64.round v = v) {k : ℤ} {d : ℕ} (h : v = d * 10 ^ k) :
    ∃ d, candidate v k = some d := by
  have hdiv : v / 10 ^ k = d := by
    rw [h]
    exact mul_div_cancel_right₀ _ (by positivity)
  refine ⟨d, ?_⟩
  rw [candidate, hdiv, Nat.floor_natCast]
  refine if_pos ?_
  rw [Bool.and_eq_true, Bool.or_eq_true, decide_eq_true_eq, decide_eq_true_eq, ← h]
  exact ⟨hv, .inr (by norm_num)⟩

theorem round_search {v : ℚ} {fuel : ℕ} {k : ℤ}
    (h : ∃ j < fuel, ∃ d, candidate v (k - j) = some d) :
    Binary64.round ((search v fuel k).1 * 10 ^ (search v fuel k).2) = v := by
  induction fuel generalizing k with
  | zero =>
    obtain ⟨j, hj, -⟩ := h
    exact absurd hj (Nat.not_lt_zero j)
  | succ fuel ih =>
    rw [search]
    cases hfirst : candidate v k with
    | some d => exact round_candidate hfirst
    | none =>
      refine ih ?_
      obtain ⟨j, hj, d, hd⟩ := h
      cases j with
      | zero =>
        rw [Nat.cast_zero, sub_zero, hfirst] at hd
        cases hd
      | succ j =>
        refine ⟨j, Nat.lt_of_succ_lt_succ hj, d, ?_⟩
        rw [← hd]
        congr 1
        push_cast
        ring

theorem two_zpow_neg (p : ℕ) : (2 : ℚ) ^ (-p : ℤ) = 5 ^ p * 10 ^ (-p : ℤ) := by
  have hten : (10 : ℚ) ^ p = 5 ^ p * 2 ^ p := by
    rw [← mul_pow]
    norm_num
  rw [zpow_neg, zpow_neg, zpow_natCast, zpow_natCast, hten]
  field_simp

/-- A double ends after 1074 places. -/
theorem exists_multiple {v : ℚ} (hpos : 0 < v) (hv : Binary64.round v = v) :
    ∃ d : ℕ, v = d * 10 ^ (-1074 : ℤ) ∧ 0 < d := by
  have hexp : -1074 ≤ exponent v := le_max_right _ _
  obtain ⟨e, he⟩ : ∃ e : ℕ, exponent v = e + -1074 := ⟨(exponent v + 1074).toNat, by omega⟩
  generalize hp : (-1074 : ℤ) = places at he ⊢
  obtain ⟨p, rfl⟩ : ∃ p : ℕ, places = -p := ⟨1074, hp.symm⟩
  have hunit : unit v = 2 ^ e * 5 ^ p * 10 ^ (-p : ℤ) := by
    rw [unit, he, zpow_add₀ (by norm_num), zpow_natCast, two_zpow_neg, mul_assoc]
  have hn : v = roundEven (v / unit v) * unit v := hv.symm
  have hnpos : 0 < roundEven (v / unit v) := by
    have hmul : 0 < (roundEven (v / unit v) : ℚ) * unit v := hn ▸ hpos
    exact_mod_cast pos_of_mul_pos_left hmul (unit_pos v).le
  obtain ⟨n, hnat⟩ := Int.eq_ofNat_of_zero_le hnpos.le
  rw [hnat] at hn hnpos
  have hnatpos : 0 < n := by exact_mod_cast hnpos
  refine ⟨n * (2 ^ e * 5 ^ p), ?_, by positivity⟩
  calc v = n * unit v := hn
    _ = _ := by
      rw [hunit]
      push_cast
      ring

/-- What is printed is read back. -/
theorem round_shortest {v : ℚ} (hpos : 0 < v) (hv : Binary64.round v = v) :
    Binary64.round ((shortest v).1 * 10 ^ (shortest v).2) = v := by
  obtain ⟨d, hd, hdpos⟩ := exists_multiple hpos hv
  have hlog : -1074 ≤ Int.log 10 v := by
    refine (Int.zpow_le_iff_le_log (by decide) hpos).mp ?_
    rw [hd]
    have hone : (1 : ℚ) ≤ d := by exact_mod_cast hdpos
    exact le_mul_of_one_le_left (by positivity) hone
  refine round_search ⟨(Int.log 10 v + 1075).toNat, by omega, ?_⟩
  have hlast : Int.log 10 v + 1 - (Int.log 10 v + 1075).toNat = -1074 := by omega
  rw [hlast]
  exact exists_candidate hv hd

end A3sBench.Library.ShortestDecimal
