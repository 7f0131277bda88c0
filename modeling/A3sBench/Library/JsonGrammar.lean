import Mathlib

/-!
# The grammar of JSON texts

RFC 8259, over characters. One family of texts has the values, the values with
white space around them and the two kinds of comma lists, so that a proof about
all texts is one induction.
-/

namespace A3sBench.Library.JsonGrammar

def isSpace (c : Char) : Bool := c == ' ' || c == '\t' || c == '\n' || c == '\r'

def Blank (text : List Char) : Prop := ∀ c ∈ text, isSpace c = true

def isHex (c : Char) : Bool :=
  c.isDigit || ('a' ≤ c && c ≤ 'f') || ('A' ≤ c && c ≤ 'F')

/-- What stands between the quotes of a string. -/
inductive StringBody : List Char → Prop where
  | nil : StringBody []
  | char {c : Char} {rest : List Char} (hquote : c ≠ '"') (hescape : c ≠ '\\')
      (hcontrol : 0x20 ≤ c.toNat) (h : StringBody rest) : StringBody (c :: rest)
  | escape {c : Char} {rest : List Char}
      (hc : c ∈ ['"', '\\', '/', 'b', 'f', 'n', 'r', 't']) (h : StringBody rest) :
      StringBody ('\\' :: c :: rest)
  | unicode {a b c d : Char} {rest : List Char}
      (hhex : isHex a = true ∧ isHex b = true ∧ isHex c = true ∧ isHex d = true)
      (h : StringBody rest) : StringBody ('\\' :: 'u' :: a :: b :: c :: d :: rest)

/-- Digits without a zero in front. -/
def IsInteger (digits : List Char) : Prop :=
  digits ≠ [] ∧ (∀ c ∈ digits, c.isDigit = true) ∧ (digits = ['0'] ∨ digits.head? ≠ some '0')

def IsFraction (text : List Char) : Prop :=
  text = [] ∨ ∃ digits, text = '.' :: digits ∧ digits ≠ [] ∧ ∀ c ∈ digits, c.isDigit = true

def IsExponent (text : List Char) : Prop :=
  text = [] ∨ ∃ mark sign digits, text = mark :: (sign ++ digits) ∧ mark ∈ ['e', 'E'] ∧
    sign ∈ [[], ['+'], ['-']] ∧ digits ≠ [] ∧ ∀ c ∈ digits, c.isDigit = true

def IsNumber (text : List Char) : Prop :=
  ∃ sign integer fraction exponent, text = sign ++ (integer ++ (fraction ++ exponent)) ∧
    sign ∈ [[], ['-']] ∧ IsInteger integer ∧ IsFraction fraction ∧ IsExponent exponent

inductive Kind where
  | value
  | element
  | elements
  | members

/-- The texts of a kind. A comma list is not empty. -/
inductive Text : Kind → List Char → Prop where
  | literal {name : List Char} (h : name ∈ ["null".toList, "true".toList, "false".toList]) :
      Text .value name
  | number {text : List Char} (h : IsNumber text) : Text .value text
  | string {body : List Char} (h : StringBody body) : Text .value ('"' :: (body ++ ['"']))
  | emptyArray {space : List Char} (h : Blank space) : Text .value ('[' :: (space ++ [']']))
  | array {items : List Char} (h : Text .elements items) : Text .value ('[' :: (items ++ [']']))
  | emptyObject {space : List Char} (h : Blank space) :
      Text .value ('\x7b' :: (space ++ ['\x7d']))
  | object {items : List Char} (h : Text .members items) :
      Text .value ('\x7b' :: (items ++ ['\x7d']))
  | element {before value after : List Char} (hbefore : Blank before) (hvalue : Text .value value)
      (hafter : Blank after) : Text .element (before ++ (value ++ after))
  | one {item : List Char} (h : Text .element item) : Text .elements item
  | elements {first rest : List Char} (hfirst : Text .element first)
      (hrest : Text .elements rest) : Text .elements (first ++ ',' :: rest)
  | member {before name after value : List Char} (hbefore : Blank before) (hname : StringBody name)
      (hafter : Blank after) (hvalue : Text .element value) :
      Text .members (before ++ '"' :: (name ++ '"' :: (after ++ ':' :: value)))
  | members {first rest : List Char} (hfirst : Text .members first) (hrest : Text .members rest) :
      Text .members (first ++ ',' :: rest)

/-- A complete object. -/
def IsObject (text : List Char) : Prop := Text .value text ∧ text.head? = some '\x7b'

theorem isObject_iff {text : List Char} : IsObject text ↔
    ∃ inner, text = '\x7b' :: (inner ++ ['\x7d']) ∧ (Blank inner ∨ Text .members inner) := by
  constructor
  · rintro ⟨hvalue, hhead⟩
    cases hvalue with
    | literal h =>
      simp only [List.mem_cons, List.not_mem_nil, or_false] at h
      rcases h with rfl | rfl | rfl <;> cases hhead
    | number h =>
      obtain ⟨sign, integer, fraction, exponent, rfl, hsign, ⟨hne, hdigits, -⟩, -⟩ := h
      obtain ⟨c, rest, rfl⟩ := List.exists_cons_of_ne_nil hne
      simp only [List.mem_cons, List.not_mem_nil, or_false] at hsign
      rcases hsign with rfl | rfl
      · obtain rfl := Option.some.inj hhead
        cases hdigits _ List.mem_cons_self
      · cases hhead
    | string | emptyArray | array => cases hhead
    | emptyObject h => exact ⟨_, rfl, .inl h⟩
    | object h => exact ⟨_, rfl, .inr h⟩
  · rintro ⟨inner, rfl, hblank | hmembers⟩
    · exact ⟨.emptyObject hblank, rfl⟩
    · exact ⟨.object hmembers, rfl⟩

end A3sBench.Library.JsonGrammar
