import A3sBench.Float64
import A3sBench.ResultRecord

/-!
# Scores as numbers

What a canonical decimal denotes, and that it is read into the nearest double.
-/

namespace A3sBench.ResultRecord

def unsignedValue (integer fraction : List Char) : ℚ :=
  F64.digitsValue integer + F64.digitsValue fraction / 10 ^ fraction.length

/-- The number a decimal string denotes. -/
def decimalValue (value : String) : ℚ :=
  match value.toList with
  | '-' :: unsigned => -unsignedValue (splitDecimal unsigned).1 (splitDecimal unsigned).2
  | unsigned => unsignedValue (splitDecimal unsigned).1 (splitDecimal unsigned).2

theorem digitsValue_append (integer fraction : List Char) :
    F64.digitsValue (integer ++ fraction) =
      10 ^ fraction.length * F64.digitsValue integer + F64.digitsValue fraction := by
  rw [F64.digitsValue, Nat.ofDigitChars_append, Nat.ofDigitChars_eq_ofDigitChars_zero]
  rfl

/-- An unsigned canonical decimal: digits, or digits, a point and digits. -/
structure IsDecimal (integer point fraction : List Char) : Prop where
  ne_nil : integer ≠ []
  integer_digits : ∀ c ∈ integer, c.isDigit = true
  fraction_digits : ∀ c ∈ fraction, c.isDigit = true
  point_eq : point = ['.'] ∨ point = [] ∧ fraction = []

theorem ne_point_of_isDigit {c : Char} (h : c.isDigit = true) : c ≠ '.' := by
  rintro rfl
  cases h

theorem splitDecimal_decimal {integer point fraction : List Char}
    (h : IsDecimal integer point fraction) :
    splitDecimal (integer ++ point ++ fraction) = (integer, fraction) := by
  have hne : ∀ c ∈ integer, decide (c ≠ '.') = true := fun c hc =>
    decide_eq_true (ne_point_of_isDigit (h.integer_digits c hc))
  rw [splitDecimal, List.append_assoc, List.takeWhile_append_of_pos hne,
    List.dropWhile_append_of_pos hne]
  rcases h.point_eq with rfl | ⟨rfl, rfl⟩ <;> simp

theorem parseUnsigned_decimal {integer point fraction : List Char}
    (h : IsDecimal integer point fraction) :
    F64.parseUnsigned (integer ++ point ++ fraction) =
      some (unsignedValue integer fraction) := by
  have hvalue : ((F64.digitsValue (integer ++ fraction) : ℕ) : ℚ) *
      10 ^ ((0 : ℤ) - fraction.length) = unsignedValue integer fraction := by
    rw [digitsValue_append, zero_sub, zpow_neg, zpow_natCast, unsignedValue]
    push_cast
    field_simp
  have hint := h.integer_digits
  unfold F64.parseUnsigned
  rw [List.append_assoc, List.takeWhile_append_of_pos hint, List.dropWhile_append_of_pos hint]
  rcases h.point_eq with rfl | ⟨rfl, rfl⟩
  · have hfrac := h.fraction_digits
    have htake : fraction.takeWhile Char.isDigit = fraction := List.takeWhile_eq_self_iff.mpr hfrac
    have hdrop : fraction.dropWhile Char.isDigit = [] := List.dropWhile_eq_nil_iff.mpr hfrac
    have hpoint : Char.isDigit '.' = false := rfl
    simp only [List.cons_append, List.nil_append, List.takeWhile_cons, List.dropWhile_cons, hpoint,
      if_false, Bool.false_eq_true, htake, hdrop, List.append_nil, h.ne_nil, false_and,
      F64.parseExponent, Option.map_some, hvalue]
  · simp only [List.append_nil] at hvalue ⊢
    simp only [List.takeWhile_nil, List.dropWhile_nil, List.append_nil, h.ne_nil, false_and, if_false,
      F64.parseExponent, Option.map_some, hvalue]

theorem exists_decimal {unsigned : List Char}
    (hne : (splitDecimal unsigned).1 ≠ [])
    (hint : (splitDecimal unsigned).1.all Char.isDigit = true)
    (hfrac : (splitDecimal unsigned).2.all Char.isDigit = true) :
    ∃ integer point fraction, unsigned = integer ++ point ++ fraction ∧
      IsDecimal integer point fraction := by
  have hsplit : unsigned.takeWhile (· ≠ '.') ++ unsigned.dropWhile (· ≠ '.') = unsigned :=
    List.takeWhile_append_dropWhile
  cases hdrop : unsigned.dropWhile (· ≠ '.') with
  | nil =>
      have hnil : (splitDecimal unsigned).2 = [] := by rw [splitDecimal, hdrop]; rfl
      refine ⟨(splitDecimal unsigned).1, [], [], ?_, hne, by simpa using hint, by simp, .inr ⟨rfl, rfl⟩⟩
      rw [hdrop] at hsplit
      simpa [splitDecimal] using hsplit.symm
  | cons c rest =>
      have hc : c = '.' := by
        have hhead := List.head?_dropWhile_not (fun c => decide (c ≠ '.')) unsigned
        rw [hdrop] at hhead
        simpa using hhead
      have htail : (splitDecimal unsigned).2 = rest := by rw [splitDecimal, hdrop]; rfl
      rw [htail] at hfrac
      refine ⟨(splitDecimal unsigned).1, ['.'], rest, ?_, hne, by simpa using hint,
        by simpa using hfrac, .inl rfl⟩
      rw [hdrop, hc] at hsplit
      simpa [splitDecimal] using hsplit.symm

/-- What a canonical decimal is: an optional sign before an unsigned decimal. -/
theorem isDecimal_of_canonicalDecimal {value : String} (h : canonicalDecimal value = true) :
    ∃ integer point fraction, IsDecimal integer point fraction ∧
      (value.toList = integer ++ point ++ fraction ∨
        value.toList = '-' :: (integer ++ point ++ fraction)) := by
  have hunsigned : ∀ unsigned : List Char, (splitDecimal unsigned).1 ≠ [] →
      (splitDecimal unsigned).1.all Char.isDigit = true →
      ((splitDecimal unsigned).2 = [] ∨ (splitDecimal unsigned).2.all Char.isDigit = true) →
      ∃ integer point fraction, unsigned = integer ++ point ++ fraction ∧
        IsDecimal integer point fraction := by
    intro unsigned hne hint hfrac
    apply exists_decimal hne hint
    rcases hfrac with hnil | hall
    · rw [hnil]
      rfl
    · exact hall
  unfold canonicalDecimal at h
  simp only [Bool.or_eq_true, decide_eq_true_eq, Bool.and_eq_true, ne_eq] at h
  rcases h with rfl | ⟨⟨⟨hne, hint⟩, _⟩, hfrac⟩
  · exact ⟨['0'], [], [], ⟨by simp, by simp, by simp, .inr ⟨rfl, rfl⟩⟩, .inl rfl⟩
  · obtain ⟨integer, point, fraction, hvalue, hdecimal⟩ :=
      hunsigned _ hne hint (hfrac.imp_right And.left)
    refine ⟨integer, point, fraction, hdecimal, ?_⟩
    split at hvalue
    · rename_i unsigned heq
      exact .inr (heq.trans (congrArg _ hvalue))
    · exact .inl hvalue

theorem map_toLower_ne {literal name : List Char} {c d : Char} (hliteral : literal.head? = some c)
    (hc : c.isDigit = true) (hname : name.head? = some d) (hd : d.isDigit = false) :
    literal.map Char.toLower ≠ name := by
  intro heq
  have hhead : (literal.map Char.toLower).head? = some c.toLower := by
    rw [List.head?_map, hliteral]
    rfl
  have hlower : c.toLower = c := by
    simp only [Char.isDigit, Bool.and_eq_true, decide_eq_true_eq] at hc
    have hle := UInt32.le_iff_toNat_le.mp hc.2
    unfold Char.toLower
    rw [dif_neg]
    rintro ⟨hge, _⟩
    have hge := UInt32.le_iff_toNat_le.mp hge
    simp at hle hge
    omega
  rw [heq, hname, hlower] at hhead
  rw [Option.some.inj hhead, hc] at hd
  cases hd

theorem decimalValue_of_isDigit {value : String} {c : Char} (hhead : value.toList.head? = some c)
    (hc : c.isDigit = true) :
    decimalValue value =
      unsignedValue (splitDecimal value.toList).1 (splitDecimal value.toList).2 := by
  unfold decimalValue
  split
  · rename_i heq
    rw [heq] at hhead
    obtain rfl := Option.some.inj hhead
    cases hc
  · rfl

/-- A canonical decimal is read into the double nearest to the number it denotes. -/
theorem parse_canonicalDecimal {value : String} (h : canonicalDecimal value = true) :
    F64.parse value = .ok (F64.ofRat (decimalValue value)) := by
  obtain ⟨integer, point, fraction, hdecimal, hvalue⟩ := isDecimal_of_canonicalDecimal h
  obtain ⟨c, rest, hcons⟩ := List.exists_cons_of_ne_nil hdecimal.ne_nil
  have hc : c.isDigit = true := hdecimal.integer_digits c (by simp [hcons])
  have hhead : (integer ++ point ++ fraction).head? = some c := by simp [hcons]
  have hinf : _ ≠ "inf".toList := map_toLower_ne hhead hc rfl rfl
  have hinfinity : _ ≠ "infinity".toList := map_toLower_ne hhead hc rfl rfl
  have hnan : _ ≠ "nan".toList := map_toLower_ne hhead hc rfl rfl
  have hnumber := parseUnsigned_decimal hdecimal
  have hsplit := splitDecimal_decimal hdecimal
  have hne : value ≠ "" := by
    rintro rfl
    rcases hvalue with hvalue | hvalue
    · rw [← hvalue] at hhead
      cases hhead
    · cases hvalue
  rcases hvalue with hvalue | hvalue
  · have hsign := F64.splitSign_of_isDigit hhead hc
    rw [decimalValue_of_isDigit (hvalue ▸ hhead) hc, F64.parse, hvalue, hsign]
    simp only [hne, if_false, hinf, hinfinity, hnan, or_self, hnumber, hsplit, Bool.false_eq_true]
  · unfold F64.parse decimalValue
    rw [hvalue]
    simp only [F64.splitSign, hne, if_false, hinf, hinfinity, hnan, or_self, hnumber, hsplit, if_true]

end A3sBench.ResultRecord
