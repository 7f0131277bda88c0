import Mathlib

/-!
# Length-prefixed byte strings

Vectors that start with their length in big-endian bytes, sequences of keyed
vectors, and the readers that take them off the front of a byte string.
-/

namespace A3sBench.Library

/-- A number in big-endian bytes. -/
def fromBytes (bytes : List (Fin 256)) : Nat :=
  Nat.ofDigits 256 (bytes.map Fin.val).reverse

/-- `bytes` is `content` after its length in `width` bytes. -/
def IsVector (width : Nat) (content bytes : List (Fin 256)) : Prop :=
  ∃ size, bytes = size ++ content ∧ size.length = width ∧ fromBytes size = content.length

variable {ε : Type*}

/-- The first bytes and what comes after them. -/
def takeBytes (malformed : ε) (count : Nat) (bytes : List (Fin 256)) :
    Except ε (List (Fin 256) × List (Fin 256)) :=
  if count ≤ bytes.length then .ok (bytes.take count, bytes.drop count) else .error malformed

def takeVector (malformed : ε) (width : Nat) (bytes : List (Fin 256)) :
    Except ε (List (Fin 256) × List (Fin 256)) :=
  match takeBytes malformed width bytes with
  | .ok (size, rest) => takeBytes malformed (fromBytes size) rest
  | .error e => .error e

theorem takeBytes_ok_iff {malformed : ε} {count : Nat} {bytes taken rest : List (Fin 256)} :
    takeBytes malformed count bytes = .ok (taken, rest) ↔
      bytes = taken ++ rest ∧ taken.length = count := by
  unfold takeBytes
  constructor
  · intro h
    split_ifs at h with hcount
    obtain ⟨rfl, rfl⟩ := Prod.mk.inj (Except.ok.inj h)
    exact ⟨(List.take_append_drop count bytes).symm, List.length_take_of_le hcount⟩
  · rintro ⟨rfl, rfl⟩
    rw [if_pos (by simp), List.take_left, List.drop_left]

theorem takeVector_ok_iff {malformed : ε} {width : Nat} {bytes content rest : List (Fin 256)} :
    takeVector malformed width bytes = .ok (content, rest) ↔
      ∃ vector, bytes = vector ++ rest ∧ IsVector width content vector := by
  unfold takeVector
  constructor
  · intro h
    split at h
    · rename_i size tail hsize
      obtain ⟨rfl, hwidth⟩ := takeBytes_ok_iff.mp hsize
      obtain ⟨rfl, hlength⟩ := takeBytes_ok_iff.mp h
      exact ⟨size ++ content, by rw [List.append_assoc], size, rfl, hwidth, hlength.symm⟩
    · cases h
  · rintro ⟨_, rfl, size, rfl, hwidth, hlength⟩
    have hsize : takeBytes malformed width (size ++ content ++ rest) = .ok (size, content ++ rest) :=
      takeBytes_ok_iff.mpr ⟨List.append_assoc .., hwidth⟩
    rw [hsize]
    exact takeBytes_ok_iff.mpr ⟨rfl, hlength.symm⟩

/-- A vector under a key, both with two bytes of header. -/
structure KeyedVector where
  key : List (Fin 256)
  size : List (Fin 256)
  value : List (Fin 256)
  key_length : key.length = 2
  size_length : size.length = 2
  size_eq : fromBytes size = value.length

namespace KeyedVector

def bytes (v : KeyedVector) : List (Fin 256) := v.key ++ v.size ++ v.value

theorem isVector (v : KeyedVector) : IsVector 2 v.value (v.size ++ v.value) :=
  ⟨v.size, rfl, v.size_length, v.size_eq⟩

/-- A keyed vector at the front of a byte string long enough for it. -/
theorem exists_of_le {bytes : List (Fin 256)} (hheader : 4 ≤ bytes.length)
    (hvalue : fromBytes ((bytes.drop 2).take 2) ≤ (bytes.drop 4).length) : ∃ v : KeyedVector,
      v.key = bytes.take 2 ∧ v.value = (bytes.drop 4).take (fromBytes ((bytes.drop 2).take 2)) ∧
        bytes = v.bytes ++ (bytes.drop 4).drop (fromBytes ((bytes.drop 2).take 2)) := by
  refine ⟨
    { key := bytes.take 2
      size := (bytes.drop 2).take 2
      value := (bytes.drop 4).take (fromBytes ((bytes.drop 2).take 2))
      key_length := by rw [List.length_take]; omega
      size_length := by rw [List.length_take, List.length_drop]; omega
      size_eq := (List.length_take_of_le hvalue).symm }, rfl, rfl, ?_⟩
  have hrest : bytes.drop 4 = (bytes.drop 2).drop 2 := by rw [List.drop_drop]
  simp only [KeyedVector.bytes, List.append_assoc, List.take_append_drop]
  rw [hrest, List.take_append_drop, List.take_append_drop]

end KeyedVector

end A3sBench.Library
