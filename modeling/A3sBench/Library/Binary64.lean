import Mathlib

/-!
# Rounding to binary64

The value of a double nearest to a rational number, ties to even. The exponent
of its last place follows from the logarithm of the number and is bounded below
where numbers become subnormal. Overflow is left to the user of `round`.
-/

namespace A3sBench.Library.Binary64

def roundEven (x : ℚ) : ℤ :=
  if Int.fract x < 1 / 2 then ⌊x⌋
  else if 1 / 2 < Int.fract x then ⌊x⌋ + 1
  else if Even ⌊x⌋ then ⌊x⌋
  else ⌊x⌋ + 1

theorem abs_roundEven_sub_le (x : ℚ) : |(roundEven x : ℚ) - x| ≤ 1 / 2 := by
  have hsplit := Int.floor_add_fract x
  have hpos := Int.fract_nonneg x
  have hlt := Int.fract_lt_one x
  unfold roundEven
  split_ifs <;> rw [abs_le] <;> push_cast <;> constructor <;> linarith

@[simp] theorem roundEven_intCast (n : ℤ) : roundEven (n : ℚ) = n := by
  unfold roundEven
  rw [Int.fract_intCast, Int.floor_intCast, if_pos (by norm_num)]

theorem roundEven_mono {x y : ℚ} (h : x ≤ y) : roundEven x ≤ roundEven y := by
  rcases h.eq_or_lt with rfl | hlt
  · exact le_refl _
  · have hx := abs_le.mp (abs_roundEven_sub_le x)
    have hy := abs_le.mp (abs_roundEven_sub_le y)
    have hsub : (roundEven x : ℚ) < roundEven y + 1 := by linarith [hx.2, hy.1]
    exact Int.lt_add_one_iff.mp (by exact_mod_cast hsub)

/-- The exponent of the last place of the doubles around `x`. -/
def exponent (x : ℚ) : ℤ := max (Int.log 2 |x| - 52) (-1074)

def unit (x : ℚ) : ℚ := 2 ^ exponent x

def round (x : ℚ) : ℚ := roundEven (x / unit x) * unit x

theorem unit_pos (x : ℚ) : 0 < unit x := by
  unfold unit
  positivity

theorem round_le_of_le {x : ℚ} {n : ℤ} (h : x ≤ n * unit x) : round x ≤ n * unit x := by
  have hdiv : x / unit x ≤ n := (div_le_iff₀ (unit_pos x)).mpr h
  have hround : roundEven (x / unit x) ≤ n := by
    rw [← roundEven_intCast n]
    exact roundEven_mono hdiv
  exact mul_le_mul_of_nonneg_right (by exact_mod_cast hround) (unit_pos x).le

theorem le_round_of_le {x : ℚ} {n : ℤ} (h : n * unit x ≤ x) : n * unit x ≤ round x := by
  have hdiv : (n : ℚ) ≤ x / unit x := (le_div_iff₀ (unit_pos x)).mpr h
  have hround : n ≤ roundEven (x / unit x) := by
    rw [← roundEven_intCast n]
    exact roundEven_mono hdiv
  exact mul_le_mul_of_nonneg_right (by exact_mod_cast hround) (unit_pos x).le

/-- A multiple of the last place is a double. -/
theorem round_of_eq {x : ℚ} {n : ℤ} (h : x = n * unit x) : round x = x :=
  le_antisymm ((round_le_of_le h.le).trans h.ge) (h.le.trans (le_round_of_le h.ge))

/-- A number nearer than half a place to a double is rounded to it. -/
theorem round_eq_of_abs_sub_lt {x : ℚ} {n : ℤ} (h : |x - n * unit x| < unit x / 2) :
    round x = n * unit x := by
  have hpos := unit_pos x
  have hdiv : |x / unit x - n| < 1 / 2 := by
    have heq : x / unit x - n = (x - n * unit x) / unit x := by field_simp
    rw [heq, abs_div, abs_of_pos hpos, div_lt_iff₀ hpos]
    linarith
  have hnear := abs_le.mp (abs_roundEven_sub_le (x / unit x))
  have hlt := abs_lt.mp hdiv
  have hround : roundEven (x / unit x) = n := by
    have hlow : (n : ℚ) < roundEven (x / unit x) + 1 := by linarith [hnear.1, hlt.2, hlt.1]
    have hhigh : (roundEven (x / unit x) : ℚ) < n + 1 := by linarith [hnear.2, hlt.2]
    have hlow' : n < roundEven (x / unit x) + 1 := by exact_mod_cast hlow
    have hhigh' : roundEven (x / unit x) < n + 1 := by exact_mod_cast hhigh
    omega
  rw [round, hround]

theorem round_nonpos {x : ℚ} (h : x ≤ 0) : round x ≤ 0 := by
  simpa using round_le_of_le (n := 0) (by simpa using h)

theorem round_nonneg {x : ℚ} (h : 0 ≤ x) : 0 ≤ round x := by
  simpa using le_round_of_le (n := 0) (by simpa using h)

/-- A power of two not below the last place is a multiple of it. -/
theorem exists_eq_mul_unit {x : ℚ} {k : ℤ} (h : exponent x ≤ k) :
    ∃ n : ℤ, (2 : ℚ) ^ k = n * unit x := by
  refine ⟨2 ^ (k - exponent x).toNat, ?_⟩
  have hk : ((k - exponent x).toNat : ℤ) = k - exponent x := Int.toNat_of_nonneg (by omega)
  calc (2 : ℚ) ^ k = 2 ^ ((k - exponent x) + exponent x) := by rw [sub_add_cancel]
    _ = 2 ^ (k - exponent x) * 2 ^ exponent x := zpow_add₀ (by norm_num) _ _
    _ = _ := by
      rw [← hk, zpow_natCast, unit]
      push_cast
      rfl

/-- Between numbers with different last places lies a power of two. -/
theorem exists_zpow_between {x y : ℚ} (hx : x ≠ 0) (hy : y ≠ 0) (h : exponent x < exponent y) :
    ∃ k : ℤ, |x| < 2 ^ k ∧ 2 ^ k ≤ |y| ∧ exponent x ≤ k ∧ exponent y ≤ k := by
  have hmin : -1074 ≤ exponent x := le_max_right _ _
  have hlogx : Int.log 2 |x| - 52 ≤ exponent x := le_max_left _ _
  have hlogy : exponent y = Int.log 2 |y| - 52 := by
    unfold exponent at h hmin ⊢
    omega
  refine ⟨Int.log 2 |y|, ?_, ?_, by omega, by omega⟩
  · exact_mod_cast (Int.lt_zpow_iff_log_lt one_lt_two (abs_pos.mpr hx)).mpr (by omega)
  · exact_mod_cast Int.zpow_log_le_self one_lt_two (abs_pos.mpr hy)

theorem round_mono_of_exponent_eq {x y : ℚ} (h : x ≤ y) (hexp : exponent x = exponent y) :
    round x ≤ round y := by
  have hunit : unit x = unit y := by rw [unit, unit, hexp]
  have hdiv : x / unit x ≤ y / unit x := div_le_div_of_nonneg_right h (unit_pos x).le
  unfold round
  rw [← hunit]
  exact mul_le_mul_of_nonneg_right (by exact_mod_cast roundEven_mono hdiv) (unit_pos x).le

theorem exponent_mono {x y : ℚ} (hx : x ≠ 0) (h : |x| ≤ |y|) : exponent x ≤ exponent y :=
  max_le_max_right _ (sub_le_sub_right (Int.log_mono_right (abs_pos.mpr hx) h) _)

theorem round_mono {x y : ℚ} (h : x ≤ y) : round x ≤ round y := by
  rcases le_or_gt x 0 with hx | hx
  · rcases le_or_gt 0 y with hy | hy
    · exact (round_nonpos hx).trans (round_nonneg hy)
    · have habs : |y| ≤ |x| := by
        rw [abs_of_neg hy, abs_of_nonpos hx]
        exact neg_le_neg h
      rcases (exponent_mono hy.ne habs).eq_or_lt with hexp | hexp
      · exact round_mono_of_exponent_eq h hexp.symm
      · obtain ⟨k, hyk, hkx, hey, hex⟩ := exists_zpow_between hy.ne (h.trans_lt hy).ne hexp
        rw [abs_of_neg hy] at hyk
        rw [abs_of_nonpos hx] at hkx
        obtain ⟨n, hn⟩ := exists_eq_mul_unit hex
        obtain ⟨m, hm⟩ := exists_eq_mul_unit hey
        have hlow : round x ≤ -2 ^ k := by
          have hle := round_le_of_le (x := x) (n := -n) (by push_cast; linarith)
          push_cast at hle
          linarith
        have hhigh : -2 ^ k ≤ round y := by
          have hle := le_round_of_le (x := y) (n := -m) (by push_cast; linarith)
          push_cast at hle
          linarith
        exact hlow.trans hhigh
  · have hy : 0 < y := hx.trans_le h
    have habs : |x| ≤ |y| := by rwa [abs_of_pos hx, abs_of_pos hy]
    rcases (exponent_mono hx.ne' habs).eq_or_lt with hexp | hexp
    · exact round_mono_of_exponent_eq h hexp
    · obtain ⟨k, hxk, hky, hex, hey⟩ := exists_zpow_between hx.ne' hy.ne' hexp
      rw [abs_of_pos hx] at hxk
      rw [abs_of_pos hy] at hky
      obtain ⟨n, hn⟩ := exists_eq_mul_unit hex
      obtain ⟨m, hm⟩ := exists_eq_mul_unit hey
      have hlow : round x ≤ 2 ^ k := hn ▸ round_le_of_le (hn ▸ hxk.le)
      have hhigh : 2 ^ k ≤ round y := hm ▸ le_round_of_le (hm ▸ hky)
      exact hlow.trans hhigh

/-- Rounding stays within a power of two. -/
theorem abs_round_le_zpow {x : ℚ} {k : ℤ} (hk : -1074 ≤ k) (h : |x| ≤ 2 ^ k) : |round x| ≤ 2 ^ k := by
  have hexp : exponent ((2 : ℚ) ^ k) ≤ k := by
    unfold exponent
    rw [abs_of_pos (by positivity)]
    have hlog : Int.log 2 ((2 : ℚ) ^ k) = k := by exact_mod_cast Int.log_zpow (R := ℚ) one_lt_two k
    omega
  have hneg : exponent (-(2 : ℚ) ^ k) ≤ k := by
    unfold exponent at hexp ⊢
    rwa [abs_neg]
  obtain ⟨n, hn⟩ := exists_eq_mul_unit hexp
  obtain ⟨m, hm⟩ := exists_eq_mul_unit hneg
  have hhigh : round (2 ^ k) = 2 ^ k := round_of_eq hn
  have hlow : round (-2 ^ k) = -2 ^ k := by
    refine round_of_eq (n := -m) ?_
    push_cast
    linarith
  obtain ⟨hleft, hright⟩ := abs_le.mp h
  exact abs_le.mpr ⟨hlow ▸ round_mono hleft, hhigh ▸ round_mono hright⟩

/-- Integers of at most 53 bits are doubles. -/
theorem round_intCast {n : ℤ} (h : |n| < 2 ^ 53) : round (n : ℚ) = n := by
  by_cases h0 : n = 0
  · subst h0
    exact le_antisymm (round_nonpos (by simp)) (round_nonneg (by simp))
  · have habs : |(n : ℚ)| < (2 : ℕ) ^ (53 : ℤ) := by
      rw [← Int.cast_abs]
      exact_mod_cast h
    have hlog : Int.log 2 |(n : ℚ)| < 53 :=
      (Int.lt_zpow_iff_log_lt one_lt_two (abs_pos.mpr (by exact_mod_cast h0))).mp habs
    have hexp : exponent (n : ℚ) ≤ 0 := by
      unfold exponent
      omega
    obtain ⟨m, hm⟩ := exists_eq_mul_unit hexp
    rw [zpow_zero] at hm
    refine round_of_eq (n := n * m) ?_
    push_cast
    rw [mul_assoc, ← hm, mul_one]

theorem exponent_eq {x : ℚ} {k : ℤ} (hk : -1022 ≤ k) (hlow : 2 ^ k ≤ |x|)
    (hhigh : |x| < 2 ^ (k + 1)) : exponent x = k - 52 := by
  have hpos : 0 < |x| := lt_of_lt_of_le (by positivity) hlow
  have hle : k ≤ Int.log 2 |x| := (Int.zpow_le_iff_le_log one_lt_two hpos).mp (by exact_mod_cast hlow)
  have hlt : Int.log 2 |x| < k + 1 :=
    (Int.lt_zpow_iff_log_lt one_lt_two hpos).mp (by exact_mod_cast hhigh)
  unfold exponent
  omega

/-- A number with a greater last place than before it was rounded is a power of two. -/
theorem exists_zpow_of_exponent_lt {x : ℚ} (hround : round x ≠ 0)
    (h : exponent x < exponent (round x)) :
    ∃ k : ℤ, |round x| = 2 ^ k ∧ exponent (round x) ≤ k := by
  have hmin : -1074 ≤ exponent x := le_max_right _ _
  have hlog : exponent (round x) = Int.log 2 |round x| - 52 := by
    unfold exponent at h hmin ⊢
    omega
  have hlogx : Int.log 2 |x| - 52 ≤ exponent x := le_max_left _ _
  have hx : |x| ≤ 2 ^ (Int.log 2 |round x|) := by
    rcases eq_or_ne x 0 with rfl | hx
    · rw [abs_zero]
      positivity
    · have hlt := (Int.lt_zpow_iff_log_lt one_lt_two (abs_pos.mpr hx)).mpr
        (show Int.log 2 |x| < Int.log 2 |round x| by omega)
      exact_mod_cast hlt.le
  refine ⟨Int.log 2 |round x|, le_antisymm (abs_round_le_zpow (by omega) hx) ?_, by omega⟩
  exact_mod_cast Int.zpow_log_le_self one_lt_two (abs_pos.mpr hround)

/-- What was rounded is a double. -/
theorem round_round (x : ℚ) : round (round x) = round x := by
  rcases eq_or_ne (round x) 0 with hzero | hround
  · rw [hzero]
    exact le_antisymm (round_nonpos le_rfl) (round_nonneg le_rfl)
  rcases le_or_gt (exponent (round x)) (exponent x) with hle | hlt
  · obtain ⟨n, hn⟩ := exists_eq_mul_unit hle
    refine round_of_eq (n := roundEven (x / unit x) * n) ?_
    rw [Int.cast_mul, mul_assoc, ← hn]
    rfl
  · obtain ⟨k, hk, hexp⟩ := exists_zpow_of_exponent_lt hround hlt
    obtain ⟨n, hn⟩ := exists_eq_mul_unit hexp
    rcases (abs_eq (by positivity : (0 : ℚ) ≤ 2 ^ k)).mp hk with hpos | hneg
    · exact round_of_eq (hpos.trans hn)
    · refine round_of_eq (n := -n) ?_
      rw [Int.cast_neg, neg_mul, ← hn]
      exact hneg

end A3sBench.Library.Binary64
