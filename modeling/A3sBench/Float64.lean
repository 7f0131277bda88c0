import A3sBench.Library.Binary64
import A3sBench.Result

/-!
# `f64`

A finite double is its exact value; the sign of a zero is not kept, since no
comparison of the source sees it.
-/

namespace A3sBench

inductive F64 where
  | finite (value : ℚ)
  | infinity (negative : Bool)
  | nan
  deriving DecidableEq

namespace F64

open Library

/-- The double nearest to a number. -/
def ofRat (x : ℚ) : F64 :=
  if |Binary64.round x| < 2 ^ 1024 then .finite (Binary64.round x) else .infinity (x < 0)

def isFinite : F64 → Bool
  | .finite _ => true
  | _ => false

/-- `<` on `f64`. -/
def lt : F64 → F64 → Bool
  | .finite x, .finite y => x < y
  | .finite _, .infinity negative => !negative
  | .infinity negative, .finite _ => negative
  | .infinity left, .infinity right => left && !right
  | _, _ => false

theorem lt_asymm {x y : F64} (h : lt x y = true) : lt y x = false := by
  cases x with
  | finite x =>
      cases y with
      | finite y => exact decide_eq_false (not_lt.mpr (of_decide_eq_true h).le)
      | infinity negative => simpa [lt] using h
      | nan => cases h
  | infinity left =>
      cases y with
      | finite y => simpa [lt] using h
      | infinity right => cases left <;> cases right <;> simp_all [lt]
      | nan => cases h
  | nan => cases y <;> cases h

/-- The sign of a literal, and the rest of it. -/
def splitSign (value : List Char) : Bool × List Char :=
  match value with
  | '-' :: literal => (true, literal)
  | '+' :: literal => (false, literal)
  | literal => (false, literal)

def digitsValue (digits : List Char) : Nat := Nat.ofDigitChars 10 digits 0

/-- The exponent part of a literal. -/
def parseExponent : List Char → Option ℤ
  | [] => some 0
  | c :: rest =>
    if c = 'e' ∨ c = 'E' then
      let (negative, digits) := splitSign rest
      if digits ≠ [] ∧ digits.all Char.isDigit = true then
        some (if negative then -(digitsValue digits : ℤ) else digitsValue digits)
      else none
    else none

/-- A literal without its sign. -/
def parseUnsigned (literal : List Char) : Option ℚ :=
  let integer := literal.takeWhile Char.isDigit
  let (fraction, rest) :=
    match literal.dropWhile Char.isDigit with
    | '.' :: rest => (rest.takeWhile Char.isDigit, rest.dropWhile Char.isDigit)
    | rest => ([], rest)
  if integer = [] ∧ fraction = [] then none
  else
    (parseExponent rest).map (fun exponent : ℤ =>
      (digitsValue (integer ++ fraction) : ℚ) * 10 ^ (exponent - fraction.length))

/-- `str::parse::<f64>`. -/
def parse (value : String) : Result F64 :=
  let (negative, literal) := splitSign value.toList
  let lower := literal.map Char.toLower
  if value = "" then .error "cannot parse float from empty string"
  else if lower = "inf".toList ∨ lower = "infinity".toList then .ok (.infinity negative)
  else if lower = "nan".toList then .ok .nan
  else
    match parseUnsigned literal with
    | some number => .ok (ofRat (if negative then -number else number))
    | none => .error "invalid float literal"

theorem splitSign_of_isDigit {literal : List Char} {c : Char} (hhead : literal.head? = some c)
    (hc : c.isDigit = true) : splitSign literal = (false, literal) := by
  unfold splitSign
  split
  · obtain rfl := Option.some.inj hhead
    cases hc
  · obtain rfl := Option.some.inj hhead
    cases hc
  · rfl

theorem isFinite_ofRat {x : ℚ} (h : |x| ≤ 2 ^ 1023) : isFinite (ofRat x) = true := by
  have hround : |Binary64.round x| ≤ 2 ^ (1023 : ℤ) :=
    Binary64.abs_round_le_zpow (by decide) (by exact_mod_cast h)
  have hlt : |Binary64.round x| < 2 ^ 1024 := by
    refine hround.trans_lt ?_
    exact_mod_cast pow_lt_pow_right₀ (by norm_num : (1 : ℚ) < 2) (by decide : 1023 < 1024)
  rw [ofRat, if_pos hlt]
  rfl

theorem ofRat_finite {x : ℚ} {v : ℚ} (h : ofRat x = .finite v) : v = Binary64.round x := by
  unfold ofRat at h
  split at h
  · exact (F64.finite.inj h).symm
  · cases h

end F64

end A3sBench
