import A3sBench.DecimalScore

/-!
# The spellings of a canonical decimal

`canonical_decimal` rules out leading and trailing zeros, but not a final point
and not a minus sign before zero. These are the only numbers with two spellings.
-/

namespace A3sBench.ResultRecord

open F64 (digitsValue)

/-- The digits of a number without a zero that could be left out. -/
structure IsPlain (integer fraction : List Char) : Prop where
  integer_digits : ∀ c ∈ integer, c.isDigit = true
  fraction_digits : ∀ c ∈ fraction, c.isDigit = true
  lead : integer = ['0'] ∨ integer ≠ [] ∧ integer.head? ≠ some '0'
  trail : fraction.getLast? ≠ some '0'

def sign (negative : Bool) : List Char := if negative then ['-'] else []

def spell (negative : Bool) (integer fraction : List Char) : List Char :=
  sign negative ++ (integer ++ if fraction = [] then [] else '.' :: fraction)

def signed (negative : Bool) (x : ℚ) : ℚ := if negative then -x else x

/-- A text without its final point, and zero without a sign. -/
def plainSpelling (value : String) : List Char :=
  let text := if value.toList.getLast? = some '.' then value.toList.dropLast else value.toList
  if text = ['-', '0'] then ['0'] else text

section Digits

theorem digit_lt_ten {c : Char} (h : c.isDigit = true) : c.toNat - '0'.toNat < 10 ∧ 48 ≤ c.toNat := by
  simp only [Char.isDigit, Bool.and_eq_true, decide_eq_true_eq, ge_iff_le,
    UInt32.le_iff_toNat_le] at h
  have hlow : 48 ≤ c.toNat := h.1
  have hhigh : c.toNat ≤ 57 := h.2
  have hzero : '0'.toNat = 48 := rfl
  omega

/-- Digit strings of one length are told apart by their values. -/
theorem ofDigitChars_inj {l m : List Char} (hl : ∀ c ∈ l, c.isDigit = true)
    (hm : ∀ c ∈ m, c.isDigit = true) (hlength : l.length = m.length) {a b : Nat}
    (h : Nat.ofDigitChars 10 l a = Nat.ofDigitChars 10 m b) : a = b ∧ l = m := by
  induction l generalizing m a b with
  | nil =>
    obtain rfl := List.length_eq_zero_iff.mp hlength.symm
    exact ⟨h, rfl⟩
  | cons c l ih =>
    obtain ⟨d, m, rfl⟩ := List.exists_cons_of_length_eq_add_one hlength.symm
    rw [Nat.ofDigitChars_cons, Nat.ofDigitChars_cons] at h
    obtain ⟨hinit, rfl⟩ := ih (fun x hx => hl x (List.mem_cons_of_mem _ hx))
      (fun x hx => hm x (List.mem_cons_of_mem _ hx)) (by simpa using hlength) h
    have hc := digit_lt_ten (hl c List.mem_cons_self)
    have hd := digit_lt_ten (hm d List.mem_cons_self)
    have hzero : '0'.toNat = 48 := rfl
    have hnat : c.toNat = d.toNat := by omega
    exact ⟨by omega, by rw [Char.toNat_inj.mp hnat]⟩

theorem digitsValue_inj {l m : List Char} (hl : ∀ c ∈ l, c.isDigit = true)
    (hm : ∀ c ∈ m, c.isDigit = true) (hlength : l.length = m.length)
    (h : digitsValue l = digitsValue m) : l = m :=
  (ofDigitChars_inj hl hm hlength h).2

theorem digitsValue_lt {l : List Char} (hl : ∀ c ∈ l, c.isDigit = true) :
    digitsValue l < 10 ^ l.length := by
  induction l using List.reverseRecOn with
  | nil => exact Nat.one_pos
  | append_singleton l c ih =>
    have hc := (digit_lt_ten (hl c (by simp))).1
    have hinit := ih (fun x hx => hl x (List.mem_append_left _ hx))
    rw [digitsValue, Nat.ofDigitChars_append, Nat.ofDigitChars_cons, Nat.ofDigitChars_nil,
      List.length_append, List.length_singleton, pow_succ]
    rw [digitsValue] at hinit
    omega

theorem le_digitsValue_cons {c : Char} (l : List Char) (hc : c.isDigit = true) (hne : c ≠ '0') :
    10 ^ l.length ≤ digitsValue (c :: l) := by
  have hdigit := digit_lt_ten hc
  have hzero : '0'.toNat = 48 := rfl
  have hpos : 1 ≤ c.toNat - '0'.toNat := by
    rcases Nat.lt_or_ge 48 c.toNat with hlt | hge
    · omega
    · exact absurd (Char.toNat_inj.mp (by omega)) hne
  rw [digitsValue, Nat.ofDigitChars_cons, Nat.ofDigitChars_eq_ofDigitChars_zero, mul_zero, zero_add]
  calc 10 ^ l.length = 10 ^ l.length * 1 := (mul_one _).symm
    _ ≤ 10 ^ l.length * (c.toNat - '0'.toNat) := Nat.mul_le_mul_left _ hpos
    _ ≤ 10 ^ l.length * (c.toNat - '0'.toNat) + Nat.ofDigitChars 10 l 0 := Nat.le_add_right _ _

end Digits

namespace IsPlain

variable {integer fraction : List Char}

theorem ne_nil (h : IsPlain integer fraction) : integer ≠ [] := by
  rcases h.lead with rfl | ⟨hne, -⟩
  · exact List.cons_ne_nil _ _
  · exact hne

theorem value_bounds (h : IsPlain integer fraction) :
    digitsValue integer < 10 ^ integer.length ∧
      (integer = ['0'] ∨ 10 ^ (integer.length - 1) ≤ digitsValue integer) := by
  refine ⟨digitsValue_lt h.integer_digits, h.lead.imp_right fun ⟨hne, hhead⟩ => ?_⟩
  obtain ⟨c, rest, rfl⟩ := List.exists_cons_of_ne_nil hne
  exact le_digitsValue_cons rest (h.integer_digits c List.mem_cons_self)
    (fun hc => hhead (congrArg some hc))

theorem integer_inj {integer' fraction' : List Char} (h : IsPlain integer fraction)
    (h' : IsPlain integer' fraction') (hvalue : digitsValue integer = digitsValue integer') :
    integer = integer' := by
  have hlength : integer.length = integer'.length := by
    obtain ⟨hlt, hcases⟩ := h.value_bounds
    obtain ⟨hlt', hcases'⟩ := h'.value_bounds
    have hpos := List.length_pos_of_ne_nil h.ne_nil
    have hpos' := List.length_pos_of_ne_nil h'.ne_nil
    have hzero : digitsValue ['0'] = 0 := rfl
    rcases hcases with rfl | hge <;> rcases hcases' with rfl | hge'
    · rfl
    · have := Nat.pos_of_ne_zero (pow_ne_zero (integer'.length - 1) (by decide : 10 ≠ 0))
      omega
    · have := Nat.pos_of_ne_zero (pow_ne_zero (integer.length - 1) (by decide : 10 ≠ 0))
      omega
    · have hle := (Nat.pow_lt_pow_iff_right (by decide : 1 < 10)).mp (hge.trans_lt (hvalue ▸ hlt'))
      have hle' := (Nat.pow_lt_pow_iff_right (by decide : 1 < 10)).mp
        (hge'.trans_lt (hvalue ▸ hlt))
      omega
  exact digitsValue_inj h.integer_digits h'.integer_digits hlength hvalue

theorem not_dvd_ten (h : IsPlain integer fraction) (hne : fraction ≠ []) :
    ¬ 10 ∣ digitsValue (integer ++ fraction) := by
  obtain ⟨front, c, rfl⟩ : ∃ front c, fraction = front ++ [c] :=
    ⟨fraction.dropLast, fraction.getLast hne, (List.dropLast_append_getLast hne).symm⟩
  have hc := digit_lt_ten (h.fraction_digits c (by simp))
  have hne0 : c ≠ '0' := by
    rintro rfl
    exact h.trail (by simp)
  have hnat : c.toNat ≠ 48 := fun hnat => hne0 (Char.toNat_inj.mp hnat)
  have hzero : '0'.toNat = 48 := rfl
  rw [← List.append_assoc, digitsValue, Nat.ofDigitChars_append, Nat.ofDigitChars_cons,
    Nat.ofDigitChars_nil]
  omega

theorem unsignedValue_eq (integer fraction : List Char) :
    unsignedValue integer fraction =
      (digitsValue (integer ++ fraction) : ℚ) / 10 ^ fraction.length := by
  rw [unsignedValue, digitsValue_append]
  push_cast
  field_simp

theorem length_le_of_value_eq {integer' fraction' : List Char} (h' : IsPlain integer' fraction')
    (hvalue : unsignedValue integer fraction = unsignedValue integer' fraction') :
    fraction'.length ≤ fraction.length := by
  rw [unsignedValue_eq, unsignedValue_eq, div_eq_div_iff (by positivity) (by positivity)] at hvalue
  have hnat : digitsValue (integer ++ fraction) * 10 ^ fraction'.length =
      digitsValue (integer' ++ fraction') * 10 ^ fraction.length := by
    exact_mod_cast hvalue
  by_contra hlt
  obtain ⟨k, hk⟩ := Nat.exists_eq_add_of_lt (not_le.mp hlt)
  have hne : fraction' ≠ [] := by
    rintro rfl
    simp at hk
  rw [hk, add_assoc, pow_add, ← mul_assoc, mul_right_comm] at hnat
  have hcancel := Nat.eq_of_mul_eq_mul_right (Nat.pow_pos (by decide : 0 < 10)) hnat
  exact h'.not_dvd_ten hne ⟨digitsValue (integer ++ fraction) * 10 ^ k, by rw [← hcancel]; ring⟩

theorem unsigned_inj {integer' fraction' : List Char} (h : IsPlain integer fraction)
    (h' : IsPlain integer' fraction')
    (hvalue : unsignedValue integer fraction = unsignedValue integer' fraction') :
    integer = integer' ∧ fraction = fraction' := by
  have hlength : fraction.length = fraction'.length :=
    le_antisymm (length_le_of_value_eq h hvalue.symm) (length_le_of_value_eq h' hvalue)
  rw [unsignedValue_eq, unsignedValue_eq, hlength, div_left_inj' (by positivity)] at hvalue
  have hnat : digitsValue (integer ++ fraction) = digitsValue (integer' ++ fraction') := by
    exact_mod_cast hvalue
  rw [digitsValue_append, digitsValue_append, hlength] at hnat
  have hlt := digitsValue_lt h.fraction_digits
  have hlt' := digitsValue_lt h'.fraction_digits
  rw [hlength] at hlt
  have hinteger : digitsValue integer = digitsValue integer' := by
    have hdiv := congrArg (· / 10 ^ fraction'.length) hnat
    simpa [Nat.mul_add_div, Nat.pow_pos, Nat.div_eq_of_lt hlt, Nat.div_eq_of_lt hlt'] using hdiv
  refine ⟨h.integer_inj h' hinteger, digitsValue_inj h.fraction_digits h'.fraction_digits hlength ?_⟩
  rw [hinteger] at hnat
  exact Nat.add_left_cancel hnat

theorem unsignedValue_nonneg (integer fraction : List Char) : 0 ≤ unsignedValue integer fraction := by
  rw [unsignedValue_eq]
  positivity

theorem plain_zero : IsPlain ['0'] [] where
  integer_digits := by simp
  fraction_digits := by simp
  lead := .inl rfl
  trail := by simp

theorem eq_zero_of_value (h : IsPlain integer fraction) (hvalue : unsignedValue integer fraction = 0) :
    integer = ['0'] ∧ fraction = [] := by
  refine h.unsigned_inj plain_zero (hvalue.trans ?_)
  have hzero : digitsValue ['0'] = 0 := rfl
  have hnil : digitsValue [] = 0 := rfl
  simp [unsignedValue, hzero, hnil]

end IsPlain

/-! ## The accepted texts -/

/-- What `canonical_decimal` accepts: a plain spelling, or one with a final point. -/
structure Spells (value : String) (negative : Bool) (integer fraction : List Char) : Prop where
  plain : IsPlain integer fraction
  text : value.toList = spell negative integer fraction ∨
    fraction = [] ∧ value.toList = spell negative integer [] ++ ['.']

theorem unsigned_of_canonicalDecimal {unsigned : List Char}
    (hne : (splitDecimal unsigned).1 ≠ [])
    (hint : (splitDecimal unsigned).1.all Char.isDigit = true)
    (hlead : (splitDecimal unsigned).1 = ['0'] ∨ (splitDecimal unsigned).1.head? ≠ some '0')
    (hfrac : (splitDecimal unsigned).2 = [] ∨ (splitDecimal unsigned).2.all Char.isDigit = true ∧
      (splitDecimal unsigned).2.getLast? ≠ some '0') :
    ∃ integer fraction, IsPlain integer fraction ∧ (unsigned = spell false integer fraction ∨
      fraction = [] ∧ unsigned = spell false integer [] ++ ['.']) := by
  have hdigits : (splitDecimal unsigned).2.all Char.isDigit = true := by
    rcases hfrac with hnil | ⟨hall, -⟩
    · rw [hnil]
      rfl
    · exact hall
  have htrail : (splitDecimal unsigned).2.getLast? ≠ some '0' := by
    rcases hfrac with hnil | ⟨-, hlast⟩
    · rw [hnil]
      exact Option.some_ne_none _ ∘ Eq.symm
    · exact hlast
  obtain ⟨integer, point, fraction, rfl, hdecimal⟩ := exists_decimal hne hint hdigits
  rw [splitDecimal_decimal hdecimal] at hne hlead htrail
  refine ⟨integer, fraction, ⟨hdecimal.integer_digits, hdecimal.fraction_digits,
    hlead.imp_right (⟨hne, ·⟩), htrail⟩, ?_⟩
  rcases hdecimal.point_eq with rfl | ⟨rfl, rfl⟩
  · rcases eq_or_ne fraction [] with rfl | hfraction
    · exact .inr ⟨rfl, by simp [spell, sign]⟩
    · exact .inl (by simp [spell, sign, hfraction])
  · exact .inl (by simp [spell, sign])

theorem spells_of_canonicalDecimal {value : String} (h : canonicalDecimal value = true) :
    ∃ negative integer fraction, Spells value negative integer fraction := by
  unfold canonicalDecimal at h
  simp only [Bool.or_eq_true, decide_eq_true_eq, Bool.and_eq_true, ne_eq] at h
  rcases h with rfl | ⟨⟨⟨hne, hint⟩, hlead⟩, hfrac⟩
  · exact ⟨false, ['0'], [], IsPlain.plain_zero, .inl rfl⟩
  · obtain ⟨integer, fraction, hplain, htext⟩ := unsigned_of_canonicalDecimal hne hint hlead hfrac
    split at htext
    · rename_i unsigned heq
      refine ⟨true, integer, fraction, hplain, ?_⟩
      rw [heq]
      exact htext.imp (congrArg _) (And.imp_right (congrArg _))
    · exact ⟨false, integer, fraction, hplain, htext⟩

namespace Spells

variable {value : String} {negative : Bool} {integer fraction : List Char}

theorem splitDecimal_unsigned (h : IsPlain integer fraction) {point : List Char}
    (hpoint : point = ['.'] ∨ point = [] ∧ fraction = []) :
    splitDecimal (integer ++ point ++ fraction) = (integer, fraction) :=
  splitDecimal_decimal ⟨h.ne_nil, h.integer_digits, h.fraction_digits, hpoint⟩

/-- The text after the sign. -/
theorem text_eq (h : Spells value negative integer fraction) :
    ∃ point, (point = ['.'] ∨ point = [] ∧ fraction = []) ∧
      value.toList = sign negative ++ (integer ++ point ++ fraction) := by
  rcases h.text with htext | ⟨rfl, htext⟩
  · rcases eq_or_ne fraction [] with rfl | hne
    · exact ⟨[], .inr ⟨rfl, rfl⟩, by simpa [spell] using htext⟩
    · exact ⟨['.'], .inl rfl, by simpa [spell, hne] using htext⟩
  · exact ⟨['.'], .inl rfl, by simpa [spell] using htext⟩

theorem decimalValue_eq (h : Spells value negative integer fraction) :
    decimalValue value = signed negative (unsignedValue integer fraction) := by
  obtain ⟨point, hpoint, htext⟩ := h.text_eq
  have hsplit := splitDecimal_unsigned h.plain hpoint
  obtain ⟨c, rest, hcons⟩ := List.exists_cons_of_ne_nil h.plain.ne_nil
  cases negative with
  | true =>
    have htext : value.toList = '-' :: (integer ++ point ++ fraction) := htext
    rw [decimalValue, htext]
    simp only [hsplit, signed, if_true]
  | false =>
    have htext : value.toList = integer ++ point ++ fraction := htext
    have hhead : value.toList.head? = some c := by simp [htext, hcons]
    rw [decimalValue_of_isDigit hhead (h.plain.integer_digits c (by simp [hcons])), htext, hsplit]
    rfl

theorem getLast?_spell (h : IsPlain integer fraction) :
    (spell negative integer fraction).getLast? ≠ some '.' := by
  have hlast : ∀ {l : List Char}, l ≠ [] → (∀ c ∈ l, c.isDigit = true) →
      l.getLast? ≠ some '.' := by
    intro l _ hl hdot
    exact ne_point_of_isDigit (hl '.' (List.mem_of_getLast? hdot)) rfl
  rcases eq_or_ne fraction [] with rfl | hne
  · rw [spell, if_pos rfl, List.append_nil, List.getLast?_append_of_ne_nil _ h.ne_nil]
    exact hlast h.ne_nil h.integer_digits
  · rw [spell, if_neg hne, ← List.append_assoc, List.getLast?_append_of_ne_nil _ (by simp),
      List.getLast?_cons, List.getLast?_eq_some_getLast hne]
    have := hlast hne h.fraction_digits
    rw [List.getLast?_eq_some_getLast hne] at this
    simpa using this

theorem plainSpelling_eq (h : Spells value negative integer fraction) :
    plainSpelling value =
      if negative = true ∧ integer = ['0'] ∧ fraction = [] then ['0']
      else spell negative integer fraction := by
  have htext : (if value.toList.getLast? = some '.' then value.toList.dropLast
      else value.toList) = spell negative integer fraction := by
    rcases h.text with htext | ⟨rfl, htext⟩
    · rw [htext, if_neg (getLast?_spell h.plain)]
    · rw [htext, List.getLast?_concat, if_pos rfl, List.dropLast_concat]
  have hzero : spell negative integer fraction = ['-', '0'] ↔
      negative = true ∧ integer = ['0'] ∧ fraction = [] := by
    constructor
    · intro heq
      cases negative with
      | true =>
        refine ⟨rfl, ?_⟩
        rcases eq_or_ne fraction [] with rfl | hne
        · simpa [spell, sign] using heq
        · have hlength := congrArg List.length heq
          have := List.length_pos_of_ne_nil hne
          have := List.length_pos_of_ne_nil h.plain.ne_nil
          simp [spell, sign, hne] at hlength
          omega
      | false =>
        obtain ⟨c, rest, rfl⟩ := List.exists_cons_of_ne_nil h.plain.ne_nil
        have hc := h.plain.integer_digits c List.mem_cons_self
        obtain ⟨rfl, -⟩ := List.cons.inj heq
        cases hc
    · rintro ⟨rfl, rfl, rfl⟩
      rfl
  simp only [plainSpelling, htext, hzero]

theorem normalize (h : Spells value negative integer fraction) :
    ∃ negative', plainSpelling value = spell negative' integer fraction ∧
      decimalValue value = signed negative' (unsignedValue integer fraction) ∧
      (negative' = true → 0 < unsignedValue integer fraction) := by
  rw [h.plainSpelling_eq, h.decimalValue_eq]
  split_ifs with hzero
  · obtain ⟨rfl, rfl, rfl⟩ := hzero
    refine ⟨false, rfl, ?_, Bool.false_ne_true.elim⟩
    have hvalue : unsignedValue ['0'] [] = 0 := by
      have hzero : digitsValue ['0'] = 0 := rfl
      have hnil : digitsValue [] = 0 := rfl
      simp [unsignedValue, hzero, hnil]
    simp [signed, hvalue]
  · refine ⟨negative, rfl, rfl, fun hnegative => ?_⟩
    apply lt_of_le_of_ne (IsPlain.unsignedValue_nonneg _ _)
    intro hvalue
    exact hzero ⟨hnegative, h.plain.eq_zero_of_value hvalue.symm⟩

end Spells

/-- Two canonical decimals denote one number exactly when they are the same up to
a final point and the sign of zero. -/
theorem canonicalDecimal_value_ne_iff (a b : String) (ha : canonicalDecimal a = true)
    (hb : canonicalDecimal b = true) :
    decimalValue a ≠ decimalValue b ↔ plainSpelling a ≠ plainSpelling b := by
  obtain ⟨_, i, f, ha⟩ := spells_of_canonicalDecimal ha
  obtain ⟨_, j, g, hb⟩ := spells_of_canonicalDecimal hb
  obtain ⟨m, haText, haValue, haPos⟩ := ha.normalize
  obtain ⟨n, hbText, hbValue, hbPos⟩ := hb.normalize
  apply not_congr
  constructor
  · intro hvalue
    rw [haValue, hbValue] at hvalue
    have hsign : m = n := by
      have haNonneg := IsPlain.unsignedValue_nonneg i f
      have hbNonneg := IsPlain.unsignedValue_nonneg j g
      cases m <;> cases n <;> simp only [signed, if_true, Bool.false_eq_true, if_false] at hvalue
      · rfl
      · have := hbPos rfl
        linarith
      · have := haPos rfl
        linarith
      · rfl
    subst hsign
    have hunsigned : unsignedValue i f = unsignedValue j g := by
      cases m <;> simpa [signed] using hvalue
    obtain ⟨rfl, rfl⟩ := ha.plain.unsigned_inj hb.plain hunsigned
    rw [haText, hbText]
  · intro htext
    have hspelled : ∀ {negative integer fraction}, IsPlain integer fraction →
        decimalValue (String.ofList (spell negative integer fraction)) =
          signed negative (unsignedValue integer fraction) := fun hplain =>
      Spells.decimalValue_eq ⟨hplain, .inl String.toList_ofList⟩
    rw [haValue, hbValue, ← hspelled ha.plain, ← hspelled hb.plain, ← haText, ← hbText, htext]

theorem canonicalDecimal_value_ne_iff_sample :
    decimalValue "1.5" ≠ decimalValue "-1.5" ↔ plainSpelling "1.5" ≠ plainSpelling "-1.5" :=
  canonicalDecimal_value_ne_iff "1.5" "-1.5" (by decide) (by decide)

/-- A whole number is accepted with a final point as well. -/
theorem second_spelling_accepted :
    ¬ ∀ a b : String, canonicalDecimal a = true → canonicalDecimal b = true → a ≠ b →
      decimalValue a ≠ decimalValue b := by
  intro hall
  have hone : "1".toList = ['1'] := rfl
  have hpoint : "1.".toList = ['1', '.'] := rfl
  have hvalue : decimalValue "1" = decimalValue "1." := by
    simp only [decimalValue, hone, hpoint]
    rfl
  exact hall "1" "1." (by decide) (by decide) (by decide) hvalue

end A3sBench.ResultRecord
