import A3sBench.FileTree

/-!
# What the source takes from outside

The case table of Unicode, the lossy repair of invalid UTF-8 and SHA-256 are
parameters. UTF-8 validity itself is decided here.
-/

namespace A3sBench

structure Platform where
  /-- `str::to_lowercase`, on UTF-8 bytes. -/
  toLowercase : Bytes → Bytes
  /-- `String::from_utf8_lossy` on bytes that are not UTF-8. -/
  replaceInvalid : Bytes → Bytes
  /-- The lower-case hexadecimal SHA-256 of a byte string. -/
  sha256 : Bytes → String

private def isTail (b : Byte) : Bool := 0x80 ≤ b && b ≤ 0xBF

/-- Second byte of a three-byte sequence: no overlong form, no surrogate. -/
private def isSecondOfThree (a b : Byte) : Bool :=
  (a == 0xE0 && 0xA0 ≤ b && b ≤ 0xBF) || (a == 0xED && 0x80 ≤ b && b ≤ 0x9F) ||
    (((0xE1 ≤ a && a ≤ 0xEC) || a == 0xEE || a == 0xEF) && isTail b)

/-- Second byte of a four-byte sequence: no overlong form, at most U+10FFFF. -/
private def isSecondOfFour (a b : Byte) : Bool :=
  (a == 0xF0 && 0x90 ≤ b && b ≤ 0xBF) || (a == 0xF4 && 0x80 ≤ b && b ≤ 0x8F) ||
    ((0xF1 ≤ a && a ≤ 0xF3) && isTail b)

/-- `str::from_utf8` accepts the bytes. -/
def isUtf8 : Bytes → Bool
  | [] => true
  | a :: rest =>
    if a < 0x80 then isUtf8 rest
    else
      match rest with
      | [] => false
      | b :: rest =>
        if 0xC2 ≤ a && a ≤ 0xDF then isTail b && isUtf8 rest
        else
          match rest with
          | [] => false
          | c :: rest =>
            if isSecondOfThree a b then isTail c && isUtf8 rest
            else
              match rest with
              | [] => false
              | d :: rest => isSecondOfFour a b && isTail c && isTail d && isUtf8 rest

private theorem isTail_of_lt {b : Byte} (hb : b < 0x80) : isTail b = false := by
  rw [isTail, decide_eq_false (not_le.mpr hb), Bool.false_and]

private theorem isSecond_of_lt {a b : Byte} (hb : b < 0x80) :
    isSecondOfThree a b = false ∧ isSecondOfFour a b = false := by
  have h8 := not_le.mpr hb
  have h9 : ¬ (0x90 : Byte) ≤ b := fun h => h8 (le_trans (by decide) h)
  have hA : ¬ (0xA0 : Byte) ≤ b := fun h => h8 (le_trans (by decide) h)
  simp [isSecondOfThree, isSecondOfFour, isTail_of_lt hb, h8, h9, hA]

/-- An ASCII byte ends every sequence before it. -/
theorem isUtf8_left {l r : Bytes} {b : Byte} (hb : b < 0x80) (h : isUtf8 (l ++ b :: r) = true) :
    isUtf8 l = true := by
  have htail := isTail_of_lt hb
  fun_induction isUtf8 l with
  | case1 => rfl
  | case2 a rest ha ih =>
    rw [List.cons_append, isUtf8.eq_def] at h
    simp only [if_pos ha] at h
    exact ih h
  | case3 a ha =>
    obtain ⟨hthree, hfour⟩ := @isSecond_of_lt a b hb
    rw [List.cons_append, List.nil_append, isUtf8.eq_def] at h
    simp only [if_neg ha, htail, hthree, hfour] at h
    cases r with
    | nil => simp at h
    | cons c r => cases r <;> simp at h
  | case4 a ha second rest htwo ih =>
    rw [List.cons_append, isUtf8.eq_def] at h
    simp only [if_neg ha, List.cons_append, if_pos htwo] at h
    rw [Bool.and_eq_true] at h ⊢
    exact ⟨h.1, ih h.2⟩
  | case5 a ha second htwo =>
    rw [List.cons_append, isUtf8.eq_def] at h
    simp only [if_neg ha, List.cons_append, List.nil_append, if_neg htwo, htail] at h
    cases r <;> simp at h
  | case6 a ha second htwo third rest hthree ih =>
    rw [List.cons_append, isUtf8.eq_def] at h
    simp only [if_neg ha, List.cons_append, if_neg htwo, if_pos hthree] at h
    rw [Bool.and_eq_true] at h ⊢
    exact ⟨h.1, ih h.2⟩
  | case7 a ha second htwo third hthree =>
    rw [List.cons_append, isUtf8.eq_def] at h
    simp only [if_neg ha, List.cons_append, List.nil_append, if_neg htwo, if_neg hthree, htail] at h
    simp at h
  | case8 a ha second htwo third hthree fourth rest ih =>
    rw [List.cons_append, isUtf8.eq_def] at h
    simp only [if_neg ha, List.cons_append, if_neg htwo, if_neg hthree] at h
    rw [Bool.and_eq_true] at h ⊢
    exact ⟨h.1, ih h.2⟩

/-- The UTF-8 bytes of a sequence of characters. -/
def utf8Chars (s : List Char) : Bytes :=
  s.flatMap (fun c => (String.utf8EncodeChar c).map (fun b => Fin.ofNat 256 b.toNat))

/-- `str::as_bytes`. -/
def utf8 (s : String) : Bytes := utf8Chars s.toList

/-- `String::from_utf8`. -/
def decodeUtf8 (b : Bytes) : Option String :=
  String.fromUTF8? ⟨(b.map (fun x => UInt8.ofNat x.val)).toArray⟩

/-- `Path::to_string_lossy`. -/
def Platform.toStringLossy (os : Platform) (b : Bytes) : Bytes :=
  if isUtf8 b then b else os.replaceInvalid b

theorem Platform.toStringLossy_of_isUtf8 (os : Platform) {b : Bytes} (h : isUtf8 b = true) :
    os.toStringLossy b = b := by
  simp [toStringLossy, h]

private theorem ofNat_fin_toNat (b : UInt8) :
    UInt8.ofNat (Fin.ofNat 256 b.toNat : Byte).val = b := by
  have h : (Fin.ofNat 256 b.toNat : Byte).val = b.toNat := by
    simp [Fin.ofNat, Nat.mod_eq_of_lt b.toNat_lt]
  rw [h, UInt8.ofNat_toNat]

/-- Strings are read back from their bytes. -/
theorem decodeUtf8_utf8 (s : String) : decodeUtf8 (utf8 s) = some s := by
  have hbytes : (utf8 s).map (fun x => UInt8.ofNat x.val) =
      s.toList.flatMap String.utf8EncodeChar := by
    simp only [utf8, utf8Chars, List.map_flatMap, List.map_map]
    congr 1
    funext c
    conv_rhs => rw [← List.map_id (String.utf8EncodeChar c)]
    exact List.map_congr_left (fun b _ => ofNat_fin_toNat b)
  have harray : (⟨((utf8 s).map (fun x => UInt8.ofNat x.val)).toArray⟩ : ByteArray) =
      s.toByteArray := by
    rw [hbytes, ← String.utf8Encode_toList, List.utf8Encode]
    ext1
    simp
  unfold decodeUtf8
  rw [harray]
  exact dif_pos s.isValidUTF8

theorem utf8_append (s t : String) : utf8 (s ++ t) = utf8 s ++ utf8 t := by
  simp [utf8, utf8Chars]

theorem utf8Chars_cons_ascii {c : Char} (h : c.toNat < 128) (l : List Char) :
    utf8Chars (c :: l) = Fin.ofNat 256 c.toNat :: utf8Chars l := by
  have hsize : c.utf8Size = 1 := by
    have hle : c.val ≤ 0x7f := UInt32.le_iff_toNat_le.mpr (Nat.le_of_lt_succ h)
    unfold Char.utf8Size
    exact if_pos hle
  have hmod : c.val.toUInt8.toNat = c.toNat := by
    rw [UInt32.toNat_toUInt8]
    exact Nat.mod_eq_of_lt (Nat.lt_trans h (by decide))
  rw [utf8Chars, List.flatMap_cons, String.utf8EncodeChar_eq_singleton hsize, List.map_singleton,
    List.singleton_append, hmod, utf8Chars]

theorem isUtf8_utf8Chars_of_ascii {l : List Char} (h : ∀ c ∈ l, c.toNat < 128) :
    isUtf8 (utf8Chars l) = true := by
  induction l with
  | nil => rfl
  | cons c l ih =>
    obtain ⟨hc, hl⟩ := List.forall_mem_cons.mp h
    have hbyte : (Fin.ofNat 256 c.toNat : Byte) < 0x80 := by
      rw [Fin.lt_def, Fin.val_ofNat, Nat.mod_eq_of_lt (by omega)]
      exact hc
    rw [utf8Chars_cons_ascii hc]
    unfold isUtf8
    rw [if_pos hbyte]
    exact ih hl

/-- The bytes of an ASCII text are its characters. -/
theorem mem_utf8Chars_ascii {l : List Char} (h : ∀ c ∈ l, c.toNat < 128) {b : Byte} :
    b ∈ utf8Chars l ↔ ∃ c ∈ l, b.val = c.toNat := by
  induction l with
  | nil => simp [utf8Chars]
  | cons c l ih =>
    obtain ⟨hc, hl⟩ := List.forall_mem_cons.mp h
    have hval : b = Fin.ofNat 256 c.toNat ↔ b.val = c.toNat := by
      rw [Fin.ext_iff, Fin.val_ofNat, Nat.mod_eq_of_lt (by omega)]
    rw [utf8Chars_cons_ascii hc, List.mem_cons, ih hl, hval]
    simp

/-- An ASCII string survives the lossy reading. -/
theorem Platform.decodeUtf8_toStringLossy (os : Platform) {s : String}
    (h : s.toList.all (fun c => c.toNat < 128) = true) :
    decodeUtf8 (os.toStringLossy (utf8 s)) = some s := by
  have hascii : isUtf8 (utf8 s) = true :=
    isUtf8_utf8Chars_of_ascii (by simpa [List.all_eq_true] using h)
  rw [os.toStringLossy_of_isUtf8 hascii, decodeUtf8_utf8]

/-- `u8::to_ascii_lowercase`. -/
def asciiLowercase (b : Byte) : Byte := if 65 ≤ b ∧ b ≤ 90 then b + 32 else b

/-- The platform as ASCII names see it. -/
def Platform.ascii (sha256 : Bytes → String) : Platform :=
  { toLowercase := List.map asciiLowercase, replaceInvalid := id, sha256 := sha256 }

end A3sBench
