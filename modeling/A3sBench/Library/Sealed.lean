import Mathlib

/-!
# Records that carry a digest of themselves

A format hashes the identity of a record and stores the hash in the record. What
the identity leaves out has to be fixed by the acceptance test.
-/

namespace A3sBench.Library

/-- A record format whose accepted records carry the hash of their identity, and
are determined by the identity together with that hash. -/
structure SealedFormat (α ι δ : Type*) where
  Accepted : α → Prop
  identity : α → ι
  hash : ι → δ
  carried : α → δ
  carried_eq : ∀ {a}, Accepted a → carried a = hash (identity a)
  determined : ∀ {a b}, Accepted a → Accepted b → carried a = carried b →
    identity a = identity b → a = b

namespace SealedFormat

variable {α ι δ : Type*} (F : SealedFormat α ι δ) {a b : α}

/-- The identities of two records do not collide. -/
def Separates (a b : α) : Prop := F.hash (F.identity a) = F.hash (F.identity b) →
  F.identity a = F.identity b

/-- A carried hash stands for the whole record. -/
theorem eq_of_carried_eq (ha : F.Accepted a) (hb : F.Accepted b) (hsep : F.Separates a b)
    (h : F.carried a = F.carried b) : a = b := by
  have hhash : F.hash (F.identity a) = F.hash (F.identity b) := by
    rw [← F.carried_eq ha, ← F.carried_eq hb, h]
  exact F.determined ha hb h (hsep hhash)

end SealedFormat

end A3sBench.Library
