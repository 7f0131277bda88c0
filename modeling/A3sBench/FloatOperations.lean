import A3sBench.CanonicalDecimal
import A3sBench.GameHistory
import A3sBench.JudgeMetrics
import A3sBench.LegacyJudge
import A3sBench.Library.ShortestDecimal

/-!
# Arithmetic and printing of doubles

The operations of `f64` that scores are computed with, and its `Display`: the
shortest digits that are read back into the same double, never an exponent.
-/

namespace A3sBench

open Library
open ResultRecord (IsDecimal canonicalDecimal decimalValue unsignedValue)

namespace F64

/-- A number the format has. -/
def IsDouble : F64 → Prop
  | .finite value => Binary64.round value = value ∧ |value| < 2 ^ 1024
  | _ => True

theorem isDouble_ofRat (x : ℚ) : IsDouble (ofRat x) := by
  unfold ofRat
  split_ifs with h
  · exact ⟨Binary64.round_round x, h⟩
  · trivial

theorem isDouble_parse {value : String} {x : F64} (h : parse value = .ok x) : IsDouble x := by
  unfold parse at h
  dsimp only at h
  split at h
  · cases h
  · split at h
    · obtain rfl := Except.ok.inj h
      trivial
    · split at h
      · obtain rfl := Except.ok.inj h
        trivial
      · cases hnumber : parseUnsigned (splitSign value.toList).2 with
        | none =>
          rw [hnumber] at h
          cases h
        | some number =>
          rw [hnumber] at h
          obtain rfl := Except.ok.inj h
          exact isDouble_ofRat _

/-! ## Arithmetic -/

def neg : F64 → F64
  | .finite x => .finite (-x)
  | .infinity negative => .infinity !negative
  | .nan => .nan

def add : F64 → F64 → F64
  | .finite x, .finite y => ofRat (x + y)
  | .finite _, .infinity negative | .infinity negative, .finite _ => .infinity negative
  | .infinity left, .infinity right => if left = right then .infinity left else .nan
  | _, _ => .nan

def mul : F64 → F64 → F64
  | .finite x, .finite y => ofRat (x * y)
  | .finite x, .infinity negative | .infinity negative, .finite x =>
    if x = 0 then .nan else .infinity (negative ^^ (x < 0))
  | .infinity left, .infinity right => .infinity (left ^^ right)
  | _, _ => .nan

/-- A zero divisor counts as positive. Every division of a score has another divisor. -/
def div : F64 → F64 → F64
  | .finite x, .finite y =>
    if y ≠ 0 then ofRat (x / y) else if x = 0 then .nan else .infinity (x < 0)
  | .finite _, .infinity _ => .finite 0
  | .infinity negative, .finite y => .infinity (negative ^^ (y < 0))
  | _, _ => .nan

/-- `f64` as a number format, with any functions for the logarithms. -/
def numbers (ln ln1p : F64 → F64) : LegacyJudge.Numbers F64 where
  ofRat := ofRat
  parse := fun text => (parse text).toOption
  isFinite := isFinite
  lt := lt
  le := le
  eq := beq
  add := add
  sub := fun x y => add x (neg y)
  mul := mul
  div := div
  ln := ln
  ln1p := ln1p

theorem isDouble_zero : IsDouble (.finite 0) :=
  ⟨le_antisymm (Binary64.round_nonpos le_rfl) (Binary64.round_nonneg le_rfl), by norm_num⟩

theorem isDouble_div (x y : F64) : IsDouble (div x y) := by
  unfold div
  split
  · split_ifs
    · exact isDouble_ofRat _
    · trivial
    · trivial
  · exact isDouble_zero
  · trivial
  · trivial

/-! ## Printing -/

/-- The digits of `d * 10 ^ k`, on both sides of the point. -/
def decimalParts (d : ℕ) (k : ℤ) : List Char × List Char :=
  let digits := Nat.toDigits 10 d
  let places := (-k).toNat
  if 0 ≤ k then (digits ++ List.replicate k.toNat '0', [])
  else if places < digits.length then
    (digits.take (digits.length - places), digits.drop (digits.length - places))
  else (['0'], List.replicate (places - digits.length) '0' ++ digits)

def pointed (parts : List Char × List Char) : List Char :=
  parts.1 ++ (if parts.2 = [] then [] else ['.']) ++ parts.2

/-- `f64::to_string`; the sign of a zero is given. -/
def toText (negativeZero : Bool) : F64 → String
  | .nan => "NaN"
  | .infinity negative => if negative then "-inf" else "inf"
  | .finite value =>
    if value = 0 then (if negativeZero then "-0" else "0")
    else
      let (digits, exponent) := ShortestDecimal.shortest |value|
      String.ofList ((if value < 0 then ['-'] else []) ++ pointed (decimalParts digits exponent))

theorem isDigit_toDigits {d : ℕ} {c : Char} (h : c ∈ Nat.toDigits 10 d) : c.isDigit = true :=
  Nat.isDigit_of_mem_toDigits (by decide) (by decide) h

theorem digitsValue_toDigits (d : ℕ) : digitsValue (Nat.toDigits 10 d) = d :=
  Nat.ofDigitChars_ten_toDigits

theorem digitsValue_zeros_append (n : ℕ) (digits : List Char) :
    digitsValue (List.replicate n '0' ++ digits) = digitsValue digits := by
  induction n with
  | zero => rfl
  | succ n ih =>
    rw [List.replicate_succ, List.cons_append, ← ih, digitsValue, Nat.ofDigitChars_cons]
    rfl

theorem digitsValue_append_zeros (n : ℕ) (digits : List Char) :
    digitsValue (digits ++ List.replicate n '0') = digitsValue digits * 10 ^ n := by
  rw [ResultRecord.digitsValue_append, List.length_replicate]
  have hzeros := digitsValue_zeros_append n []
  rw [List.append_nil] at hzeros
  rw [hzeros, mul_comm]
  rfl

theorem isDecimal_parts (d : ℕ) (k : ℤ) : IsDecimal (decimalParts d k).1
    (if (decimalParts d k).2 = [] then [] else ['.']) (decimalParts d k).2 := by
  have hne : Nat.toDigits 10 d ≠ [] := Nat.toDigits_ne_nil
  have hzero : ∀ {n : ℕ} {c : Char}, c ∈ List.replicate n '0' → c.isDigit = true := by
    intro n c hc
    rw [List.eq_of_mem_replicate hc]
    rfl
  have hpoint : ∀ fraction : List Char, (if fraction = [] then [] else ['.']) = ['.'] ∨
      (if fraction = [] then [] else ['.']) = [] ∧ fraction = [] := by
    intro fraction
    split_ifs with h
    · exact .inr ⟨rfl, h⟩
    · exact .inl rfl
  refine ⟨?_, ?_, ?_, hpoint _⟩
  · unfold decimalParts
    dsimp only
    split_ifs with hk hplaces
    · exact List.append_ne_nil_of_left_ne_nil hne _
    · rw [← List.length_pos_iff, List.length_take]
      omega
    · exact List.cons_ne_nil _ _
  · unfold decimalParts
    dsimp only
    split_ifs with hk hplaces
    · exact List.forall_mem_append.mpr ⟨fun c => isDigit_toDigits, fun c => hzero⟩
    · exact fun c hc => isDigit_toDigits (List.mem_of_mem_take hc)
    · exact List.forall_mem_singleton.mpr rfl
  · unfold decimalParts
    dsimp only
    split_ifs with hk hplaces
    · exact fun c hc => absurd hc List.not_mem_nil
    · exact fun c hc => isDigit_toDigits (List.mem_of_mem_drop hc)
    · exact List.forall_mem_append.mpr ⟨fun c => hzero, fun c => isDigit_toDigits⟩

/-- The parts denote the number. -/
theorem unsignedValue_parts (d : ℕ) (k : ℤ) :
    unsignedValue (decimalParts d k).1 (decimalParts d k).2 = d * 10 ^ k := by
  rw [ResultRecord.IsPlain.unsignedValue_eq]
  unfold decimalParts
  dsimp only
  split_ifs with hk hplaces
  · obtain ⟨n, rfl⟩ := Int.eq_ofNat_of_zero_le hk
    rw [List.append_nil, digitsValue_append_zeros, digitsValue_toDigits, Int.toNat_natCast]
    push_cast
    rw [List.length_nil, pow_zero, div_one, zpow_natCast]
  · obtain ⟨n, rfl⟩ : ∃ n : ℕ, k = -n := ⟨(-k).toNat, by omega⟩
    rw [neg_neg, Int.toNat_natCast] at hplaces ⊢
    rw [List.take_append_drop, digitsValue_toDigits, List.length_drop, zpow_neg, zpow_natCast,
      ← div_eq_mul_inv]
    congr 2
    omega
  · obtain ⟨n, rfl⟩ : ∃ n : ℕ, k = -n := ⟨(-k).toNat, by omega⟩
    rw [neg_neg, Int.toNat_natCast] at hplaces ⊢
    have hvalue : digitsValue (['0'] ++ (List.replicate (n - (Nat.toDigits 10 d).length) '0' ++
        Nat.toDigits 10 d)) = d := by
      have h := digitsValue_zeros_append (1 + (n - (Nat.toDigits 10 d).length)) (Nat.toDigits 10 d)
      rwa [List.replicate_add, List.append_assoc, digitsValue_toDigits] at h
    rw [hvalue, List.length_append, List.length_replicate, zpow_neg, zpow_natCast, ← div_eq_mul_inv]
    congr 2
    omega

theorem ofRat_of_round {x value : ℚ} (hround : Binary64.round x = value)
    (hsmall : |value| < 2 ^ 1024) : ofRat x = .finite value := by
  rw [ofRat, hround, if_pos hsmall]

/-- A canonical text of a double that is not negative is read back. -/
theorem parse_toText {negativeZero : Bool} {value : ℚ} (hdouble : IsDouble (.finite value))
    (hnonneg : 0 ≤ value) (hcanonical : canonicalDecimal (toText negativeZero (.finite value)) = true) :
    parse (toText negativeZero (.finite value)) = .ok (.finite value) := by
  obtain ⟨hround, hsmall⟩ := hdouble
  rw [ResultRecord.parse_canonicalDecimal hcanonical]
  congr 1
  refine ofRat_of_round ?_ hsmall
  rcases hnonneg.eq_or_lt with rfl | hpos
  · have hzero : decimalValue (toText negativeZero (.finite 0)) = 0 := by
      have hdigit : Nat.ofDigitChars 10 ['0'] 0 = 0 := rfl
      cases negativeZero <;>
        simp [toText, decimalValue, unsignedValue, ResultRecord.splitDecimal, digitsValue, hdigit]
    rw [hzero, hround]
  · let parts := decimalParts (ShortestDecimal.shortest value).1 (ShortestDecimal.shortest value).2
    have htext : (toText negativeZero (.finite value)).toList = pointed parts := by
      simp only [toText, if_neg hpos.ne', if_neg hpos.not_gt, abs_of_pos hpos, List.nil_append,
        String.toList_ofList]
      rfl
    have hdecimal : IsDecimal parts.1 _ parts.2 := isDecimal_parts _ _
    obtain ⟨c, rest, hcons⟩ := List.exists_cons_of_ne_nil hdecimal.ne_nil
    have hhead : (toText negativeZero (.finite value)).toList.head? = some c := by
      rw [htext, pointed, hcons]
      rfl
    have hc : c.isDigit = true := hdecimal.integer_digits c (hcons ▸ List.mem_cons_self)
    rw [ResultRecord.decimalValue_of_isDigit hhead hc, htext, pointed,
      ResultRecord.splitDecimal_decimal hdecimal, unsignedValue_parts]
    exact ShortestDecimal.round_shortest hpos hround

end F64

end A3sBench
