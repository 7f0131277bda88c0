import Mathlib

/-!
# Base64

The standard alphabet with canonical padding. Three bytes are four symbols; the
last group is padded, and its unused bits are zero.
-/

namespace A3sBench.Library.Base64

def alphabet : List Char :=
  ['A', 'B', 'C', 'D', 'E', 'F', 'G', 'H', 'I', 'J', 'K', 'L', 'M', 'N', 'O', 'P', 'Q', 'R', 'S',
    'T', 'U', 'V', 'W', 'X', 'Y', 'Z', 'a', 'b', 'c', 'd', 'e', 'f', 'g', 'h', 'i', 'j', 'k', 'l',
    'm', 'n', 'o', 'p', 'q', 'r', 's', 't', 'u', 'v', 'w', 'x', 'y', 'z', '0', '1', '2', '3', '4',
    '5', '6', '7', '8', '9', '+', '/']

/-- The symbol of the low six bits. -/
def symbol (n : Nat) : Char := alphabet.getD (n % 64) '='

def value (c : Char) : Option Nat :=
  if c ∈ alphabet then some (alphabet.idxOf c) else none

theorem value_symbol_lt : ∀ s : Fin 64, value (symbol s.val) = some s.val := by decide

theorem symbol_lt_ne_pad : ∀ s : Fin 64, symbol s.val ≠ '=' := by decide

theorem symbol_mod (n : Nat) : symbol (n % 64) = symbol n := by
  simp only [symbol, Nat.mod_mod]

@[simp] theorem value_symbol (n : Nat) : value (symbol n) = some (n % 64) := by
  rw [← symbol_mod]
  exact value_symbol_lt ⟨n % 64, Nat.mod_lt _ (by decide)⟩

@[simp] theorem symbol_ne_pad (n : Nat) : symbol n ≠ '=' := by
  rw [← symbol_mod]
  exact symbol_lt_ne_pad ⟨n % 64, Nat.mod_lt _ (by decide)⟩

def encode : List (Fin 256) → List Char
  | [] => []
  | [a] => [symbol (a / 4), symbol (a % 4 * 16), '=', '=']
  | [a, b] => [symbol (a / 4), symbol (a % 4 * 16 + b / 16), symbol (b % 16 * 4), '=']
  | a :: b :: c :: rest =>
    symbol (a / 4) :: symbol (a % 4 * 16 + b / 16) :: symbol (b % 16 * 4 + c / 64) ::
      symbol c :: encode rest

theorem octet_neZero : NeZero 256 := ⟨by decide⟩

def octet (n : Nat) : Fin 256 := @Fin.ofNat 256 octet_neZero n

/-- The last group, when it ends in a pad. -/
def decodePadded (w x y : Char) : Option (List (Fin 256)) := do
  let w ← value w
  let x ← value x
  if y = '=' then
    if x % 16 = 0 then some [octet (w * 4 + x / 16)] else none
  else
    let y ← value y
    if y % 4 = 0 then some [octet (w * 4 + x / 16), octet (x % 16 * 16 + y / 4)]
    else none

def decode : List Char → Option (List (Fin 256))
  | [] => some []
  | w :: x :: y :: z :: rest =>
    if rest = [] ∧ z = '=' then decodePadded w x y
    else do
      let w ← value w
      let x ← value x
      let y ← value y
      let z ← value z
      let rest ← decode rest
      some (octet (w * 4 + x / 16) :: octet (x % 16 * 16 + y / 4) ::
        octet (y % 4 * 64 + z) :: rest)
  | _ => none

theorem octet_eq {a : Fin 256} {n : Nat} (h : n = a.val) : octet n = a := by
  subst h
  exact Fin.ext (Nat.mod_eq_of_lt a.isLt)

@[simp] theorem decode_encode (bytes : List (Fin 256)) : decode (encode bytes) = some bytes := by
  induction bytes using encode.induct with
  | case1 => rfl
  | case2 a =>
    have ha := a.isLt
    have hfirst : octet (a.val / 4 % 64 * 4 + a.val % 4 * 16 % 64 / 16) = a :=
      octet_eq (by omega)
    have hzero : a.val % 4 * 16 % 64 % 16 = 0 := by omega
    simp only [encode, decode, decodePadded, value_symbol, Option.bind_eq_bind, Option.bind_some,
      and_self, if_true, hzero, hfirst]
  | case3 a b =>
    have ha := a.isLt
    have hb := b.isLt
    have hfirst : octet (a.val / 4 % 64 * 4 + (a.val % 4 * 16 + b.val / 16) % 64 / 16) = a :=
      octet_eq (by omega)
    have hsecond : octet
        ((a.val % 4 * 16 + b.val / 16) % 64 % 16 * 16 + b.val % 16 * 4 % 64 / 4) = b :=
      octet_eq (by omega)
    have hzero : b.val % 16 * 4 % 64 % 4 = 0 := by omega
    simp only [encode, decode, decodePadded, value_symbol, Option.bind_eq_bind, Option.bind_some,
      and_self, if_true, symbol_ne_pad, if_false, hzero, hfirst, hsecond]
  | case4 a b c rest ih =>
    have ha := a.isLt
    have hb := b.isLt
    have hc := c.isLt
    have hfirst : octet (a.val / 4 % 64 * 4 + (a.val % 4 * 16 + b.val / 16) % 64 / 16) = a :=
      octet_eq (by omega)
    have hsecond : octet ((a.val % 4 * 16 + b.val / 16) % 64 % 16 * 16 +
        (b.val % 16 * 4 + c.val / 64) % 64 / 4) = b :=
      octet_eq (by omega)
    have hthird : octet ((b.val % 16 * 4 + c.val / 64) % 64 % 4 * 64 + c.val % 64) = c :=
      octet_eq (by omega)
    have hpad : ¬ (encode rest = [] ∧ symbol c.val = '=') := fun h => symbol_ne_pad _ h.2
    simp only [encode, decode, value_symbol, Option.bind_eq_bind, Option.bind_some, if_neg hpad, ih,
      hfirst, hsecond, hthird]

theorem length_encode (bytes : List (Fin 256)) :
    (encode bytes).length = (bytes.length + 2) / 3 * 4 := by
  induction bytes using encode.induct with
  | case1 => rfl
  | case2 a => simp [encode]
  | case3 a b => simp [encode]
  | case4 a b c rest ih =>
    simp only [encode, List.length_cons, ih]
    omega

theorem mem_alphabet_of_value {c : Char} {n : Nat} (h : value c = some n) : c ∈ alphabet := by
  unfold value at h
  split at h
  · assumption
  · cases h

theorem mem_of_decodePadded {w x y : Char} {bytes : List (Fin 256)}
    (h : decodePadded w x y = some bytes) {c : Char} (hc : c ∈ [w, x, y]) :
    c ∈ alphabet ∨ c = '=' := by
  simp only [decodePadded, Option.bind_eq_bind, Option.bind_eq_some_iff] at h
  obtain ⟨w', hw, x', hx, hy⟩ := h
  simp only [List.mem_cons, List.not_mem_nil, or_false] at hc
  rcases hc with rfl | rfl | rfl
  · exact .inl (mem_alphabet_of_value hw)
  · exact .inl (mem_alphabet_of_value hx)
  · split at hy
    · rename_i hpad
      exact .inr hpad
    · obtain ⟨y', hy, -⟩ := Option.bind_eq_some_iff.mp hy
      exact .inl (mem_alphabet_of_value hy)

/-- A text that is decoded has symbols and pads only. -/
theorem mem_of_decode {text : List Char} {bytes : List (Fin 256)} (h : decode text = some bytes)
    {c : Char} (hc : c ∈ text) : c ∈ alphabet ∨ c = '=' := by
  induction text using decode.induct generalizing bytes with
  | case1 => cases hc
  | case2 w x y z rest hpad =>
    obtain ⟨rfl, rfl⟩ := hpad
    simp only [decode, and_self, if_true] at h
    rw [show [w, x, y, '='] = [w, x, y] ++ ['='] from rfl, List.mem_append,
      List.mem_singleton] at hc
    exact hc.elim (mem_of_decodePadded h) .inr
  | case3 w x y z rest hpad ih =>
    simp only [decode, if_neg hpad, Option.bind_eq_bind, Option.bind_eq_some_iff] at h
    obtain ⟨_, hw, _, hx, _, hy, _, hz, decoded, hrest, -⟩ := h
    simp only [List.mem_cons] at hc
    rcases hc with rfl | rfl | rfl | rfl | hc
    · exact .inl (mem_alphabet_of_value hw)
    · exact .inl (mem_alphabet_of_value hx)
    · exact .inl (mem_alphabet_of_value hy)
    · exact .inl (mem_alphabet_of_value hz)
    · exact ih hrest hc
  | case4 text hnil hcons =>
    unfold decode at h
    split at h
    · exact absurd rfl hnil
    · exact absurd rfl (hcons _ _ _ _ _)
    · cases h

theorem mem_encode {bytes : List (Fin 256)} {c : Char} (hc : c ∈ encode bytes) :
    c ∈ alphabet ∨ c = '=' :=
  mem_of_decode (decode_encode bytes) hc

end A3sBench.Library.Base64
