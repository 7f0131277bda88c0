import Mathlib

/-!
# The string operations of the source

Predicates on characters follow the Unicode properties the standard library
documents, since the trimming and control-character checks of the source are
made on arbitrary JSON and ACL strings.
-/

namespace A3sBench.Text

/-- `char::is_whitespace`: the Unicode property White_Space. -/
def isWhitespace (c : Char) : Bool :=
  let n := c.toNat
  (9 ≤ n && n ≤ 13) || n == 0x20 || n == 0x85 || n == 0xA0 || n == 0x1680 ||
    (0x2000 ≤ n && n ≤ 0x200A) || n == 0x2028 || n == 0x2029 || n == 0x202F ||
    n == 0x205F || n == 0x3000

/-- `char::is_control`: the general category Cc. -/
def isControl (c : Char) : Bool :=
  let n := c.toNat
  n ≤ 0x1F || (0x7F ≤ n && n ≤ 0x9F)

/-- `u8::is_ascii_hexdigit`. -/
def isHexDigit (c : Char) : Bool :=
  c.isDigit || ('a' ≤ c && c ≤ 'f') || ('A' ≤ c && c ≤ 'F')

/-- `u8::is_ascii_alphanumeric`. -/
def isAsciiAlphanumeric (c : Char) : Bool :=
  c.isDigit || ('a' ≤ c && c ≤ 'z') || ('A' ≤ c && c ≤ 'Z')

/-- `str::trim_end` on the characters. -/
def trimEnd (s : List Char) : List Char := s.rdropWhile isWhitespace

/-- `str::trim`. -/
def trim (s : String) : String :=
  String.ofList (trimEnd (s.toList.dropWhile isWhitespace))

/-- `str::trim` leaves nothing. -/
def isBlank (s : String) : Bool := s.toList.all isWhitespace

/-- `str::strip_prefix`, on the characters. -/
def stripPrefix (pattern : String) (s : String) : Option (List Char) :=
  pattern.toList.isPrefixOf? s.toList

theorem isPrefixOf?_eq_some_iff {α : Type _} [BEq α] [LawfulBEq α] {pattern s rest : List α} :
    pattern.isPrefixOf? s = some rest ↔ s = pattern ++ rest := by
  induction pattern generalizing s with
  | nil => simp [List.isPrefixOf?]
  | cons p pattern ih =>
    cases s with
    | nil => simp [List.isPrefixOf?]
    | cons c s =>
      by_cases hc : p = c
      · subst hc
        simp [List.isPrefixOf?, ih]
      · simp [List.isPrefixOf?, hc, Ne.symm hc]

theorem stripPrefix_eq_some_iff {pattern s : String} {rest : List Char} :
    stripPrefix pattern s = some rest ↔ s = pattern ++ String.ofList rest := by
  rw [stripPrefix, isPrefixOf?_eq_some_iff, ← String.toList_inj, String.toList_append,
    String.toList_ofList]

/-- `str::starts_with`. -/
def startsWith (s pattern : String) : Bool := pattern.toList.isPrefixOf s.toList

/-- `str::len`: the number of UTF-8 bytes. -/
def byteLength (s : String) : Nat := (s.toList.map Char.utf8Size).sum

/-- One `'\r'` before a line break belongs to it; the line is read backwards. -/
def stripCarriageReturn : List Char → List Char
  | '\r' :: line => line
  | line => line

/-- `str::lines`, with the line read so far kept backwards. -/
def linesFrom (line : List Char) : List Char → List String
  | [] => if line = [] then [] else [String.ofList line.reverse]
  | c :: rest =>
    if c = '\n' then String.ofList (stripCarriageReturn line).reverse :: linesFrom [] rest
    else linesFrom (c :: line) rest

/-- `str::lines`. -/
def lines (s : String) : List String := linesFrom [] s.toList

@[simp] theorem byteLength_append (s t : String) :
    byteLength (s ++ t) = byteLength s + byteLength t := by
  simp [byteLength, String.toList_append]

theorem utf8Size_of_isDigit {c : Char} (h : c.isDigit = true) : c.utf8Size = 1 := by
  simp only [Char.isDigit, Bool.and_eq_true, decide_eq_true_eq] at h
  have hle : c.val ≤ 0x7f := by
    have := UInt32.le_iff_toNat_le.mp h.2
    exact UInt32.le_iff_toNat_le.mpr (by simp at this ⊢; omega)
  unfold Char.utf8Size
  exact if_pos hle

theorem utf8Size_of_ascii {c : Char} (h : c.toNat < 128) : c.utf8Size = 1 := by
  have hle : c.val ≤ 0x7f := UInt32.le_iff_toNat_le.mpr (Nat.le_of_lt_succ h)
  unfold Char.utf8Size
  exact if_pos hle

/-- A decimal rendering has one byte for each of its digits. -/
theorem byteLength_repr (n : Nat) : byteLength (toString n) = (Nat.toDigits 10 n).length := by
  have hdigit : ∀ c ∈ Nat.toDigits 10 n, c.utf8Size = 1 := fun c hc =>
    utf8Size_of_isDigit (Nat.isDigit_of_mem_toDigits (by decide) (by decide) hc)
  have hlist : (toString n).toList = Nat.toDigits 10 n := Nat.toList_repr
  rw [byteLength, hlist, List.map_congr_left hdigit]
  simp

theorem byteLength_repr_le {n k : Nat} (hk : 0 < k) (h : n < 10 ^ k) :
    byteLength (toString n) ≤ k := by
  rw [byteLength_repr]
  exact (Nat.length_toDigits_le_iff (by decide) hk).mpr h

theorem isAsciiAlphanumeric_of_mem_repr {n : Nat} {c : Char} (h : c ∈ (toString n).toList) :
    isAsciiAlphanumeric c = true := by
  have hc : c ∈ Nat.toDigits 10 n := by simpa using h
  simp [isAsciiAlphanumeric, Nat.isDigit_of_mem_toDigits (by decide) (by decide) hc]

theorem toNat_of_isAsciiAlphanumeric {c : Char} (h : isAsciiAlphanumeric c = true) :
    48 ≤ c.toNat ∧ c.toNat < 128 := by
  simp only [isAsciiAlphanumeric, Char.isDigit, Bool.or_eq_true, Bool.and_eq_true,
    decide_eq_true_eq, Char.le_def, ge_iff_le, UInt32.le_iff_toNat_le] at h
  rcases h with (hdigit | hlower) | hupper
  · change 48 ≤ c.toNat ∧ c.toNat ≤ 57 at hdigit
    omega
  · change 97 ≤ c.toNat ∧ c.toNat ≤ 122 at hlower
    omega
  · change 65 ≤ c.toNat ∧ c.toNat ≤ 90 at hupper
    omega

theorem startsWith_append (pattern rest : String) : startsWith (pattern ++ rest) pattern = true := by
  simp [startsWith, String.toList_append]

theorem head?_append {s : String} {c : Char} (t : String) (h : s.toList.head? = some c) :
    (s ++ t).toList.head? = some c := by
  rw [String.toList_append, List.head?_append, h]
  rfl

theorem startsWith_eq_false {s pattern : String} {c : Char} (hpattern : pattern.toList.head? = some c)
    (hs : s.toList.head? ≠ some c) : startsWith s pattern = false := by
  unfold startsWith
  cases hp : pattern.toList with
  | nil =>
    rw [hp] at hpattern
    cases hpattern
  | cons p pattern =>
    rw [hp] at hpattern
    obtain rfl := Option.some.inj hpattern
    cases hl : s.toList with
    | nil => rfl
    | cons d s =>
      rw [hl] at hs
      have hne : p ≠ d := fun h => hs (congrArg some h.symm)
      simp [List.isPrefixOf, hne]

theorem linesFrom_append {line : List Char} (l : List Char) (h : '\n' ∉ l) (rest : List Char) :
    linesFrom line (l ++ rest) = linesFrom (l.reverse ++ line) rest := by
  induction l generalizing line with
  | nil => rfl
  | cons c l ih =>
    rw [List.mem_cons, not_or] at h
    rw [List.cons_append, linesFrom, if_neg (Ne.symm h.1), ih h.2]
    simp

/-- A text that stands on a line of its own. -/
structure IsLine (s : String) : Prop where
  noBreak : '\n' ∉ s.toList
  noReturn : s.toList.getLast? ≠ some '\r'

theorem stripCarriageReturn_reverse {l : List Char} (h : l.getLast? ≠ some '\r') :
    stripCarriageReturn l.reverse = l.reverse := by
  rw [List.getLast?_eq_head?_reverse] at h
  cases hl : l.reverse with
  | nil => rfl
  | cons c r =>
    rw [hl] at h
    unfold stripCarriageReturn
    split
    · rename_i heq
      obtain ⟨rfl, _⟩ := List.cons.inj heq
      exact absurd rfl h
    · rfl

theorem lines_concat {ls : List String} (h : ∀ l ∈ ls, IsLine l) :
    lines (String.join (ls.map (· ++ "\n"))) = ls := by
  have hflat : ∀ ls : List String, (∀ l ∈ ls, IsLine l) →
      linesFrom [] (ls.flatMap (fun l => l.toList ++ ['\n'])) = ls := by
    intro ls
    induction ls with
    | nil => exact fun _ => rfl
    | cons l ls ih =>
      intro h
      obtain ⟨hl, hls⟩ := List.forall_mem_cons.mp h
      rw [List.flatMap_cons, List.append_assoc, linesFrom_append _ hl.noBreak, List.append_nil,
        List.cons_append, List.nil_append, linesFrom, if_pos rfl, ih hls,
        stripCarriageReturn_reverse hl.noReturn, List.reverse_reverse, String.ofList_toList]
  have hjoin : (String.join (ls.map (· ++ "\n"))).toList =
      ls.flatMap (fun l => l.toList ++ ['\n']) := by
    rw [String.toList_join, List.flatMap_map]
    simp only [String.toList_append]
    rfl
  rw [lines, hjoin, hflat ls h]

/-- What follows the last line break, with the line read so far kept backwards. -/
def unterminatedFrom (line : List Char) : List Char → List Char
  | [] => line.reverse
  | c :: rest => if c = '\n' then unterminatedFrom [] rest else unterminatedFrom (c :: line) rest

/-- The line of a text that is not ended yet. -/
def unterminated (s : String) : List Char := unterminatedFrom [] s.toList

/-- What is written after a text ends its last line. -/
theorem lines_append_line {s line : String} (h : IsLine line) (hne : line.toList ≠ []) :
    ∃ front, lines (s ++ line ++ "\n") = front ++ [String.ofList (unterminated s ++ line.toList)] := by
  have hfrom : ∀ (l read : List Char), ∃ front,
      linesFrom read (l ++ (line.toList ++ ['\n'])) =
        front ++ [String.ofList (unterminatedFrom read l ++ line.toList)] := by
    intro l
    induction l with
    | nil =>
      intro read
      have hreturn : (read.reverse ++ line.toList).getLast? ≠ some '\r' := by
        rw [List.getLast?_append_of_ne_nil _ hne]
        exact h.noReturn
      have hstrip := stripCarriageReturn_reverse hreturn
      rw [List.reverse_append, List.reverse_reverse] at hstrip
      refine ⟨[], ?_⟩
      rw [List.nil_append, linesFrom_append _ h.noBreak, linesFrom, if_pos rfl, hstrip,
        List.reverse_append, List.reverse_reverse]
      rfl
    | cons c l ih =>
      intro read
      rw [List.cons_append, linesFrom, unterminatedFrom]
      split
      · obtain ⟨front, hfront⟩ := ih []
        exact ⟨_ :: front, by rw [hfront]; rfl⟩
      · exact ih (c :: read)
  obtain ⟨front, hfront⟩ := hfrom s.toList []
  refine ⟨front, ?_⟩
  rw [lines, String.toList_append, String.toList_append, List.append_assoc]
  exact hfront

theorem mem_trim {s : String} {c : Char} (hc : isWhitespace c = false) :
    c ∈ (trim s).toList ↔ c ∈ s.toList := by
  have hdrop : ∀ l : List Char, c ∈ l.dropWhile isWhitespace ↔ c ∈ l := by
    intro l
    induction l with
    | nil => rfl
    | cons d l ih =>
      rw [List.dropWhile_cons]
      split
      · rename_i hd
        rw [ih, List.mem_cons, or_iff_right]
        rintro rfl
        rw [hc] at hd
        cases hd
      · rfl
  rw [trim, String.toList_ofList, trimEnd, List.rdropWhile, List.mem_reverse, hdrop,
    List.mem_reverse, hdrop]

theorem trim_eq_self {s : String} (h : ∀ c ∈ s.toList, isWhitespace c = false) : trim s = s := by
  have hdrop : ∀ l : List Char, (∀ c ∈ l, isWhitespace c = false) → l.dropWhile isWhitespace = l := by
    intro l hl
    cases l with
    | nil => rfl
    | cons c l => rw [List.dropWhile_cons_of_neg (by simp [hl c List.mem_cons_self])]
  rw [trim, hdrop _ h, trimEnd, List.rdropWhile,
    hdrop _ (fun c hc => h c (List.mem_reverse.mp hc)), List.reverse_reverse, String.ofList_toList]

end A3sBench.Text
