import Mathlib

/-!
# Items in custody

Places that each hold a list of items, no item twice. Items appear at a place
and then move from one place to another.
-/

namespace A3sBench.Library

variable {π τ : Type*} {holds holds' : π → List τ} {p q r : π} {t : τ} {moved : List τ}

/-- No item is held twice, at one place or at two. -/
structure Exclusive (holds : π → List τ) : Prop where
  nodup : ∀ p, (holds p).Nodup
  place_eq : ∀ {p q : π} {t : τ}, t ∈ holds p → t ∈ holds q → p = q

/-- Some items go from `p` to `q`. -/
structure Moves (holds holds' : π → List τ) (p q : π) (moved : List τ) : Prop where
  ne : p ≠ q
  source : (holds p).Perm (moved ++ holds' p)
  target : (holds' q).Perm (moved ++ holds q)
  other : ∀ r, r ≠ p → r ≠ q → holds' r = holds r

/-- An item appears at `q`. -/
structure Appears (holds holds' : π → List τ) (q : π) (t : τ) : Prop where
  target : (holds' q).Perm (t :: holds q)
  other : ∀ r, r ≠ q → holds' r = holds r

namespace Moves

variable (hm : Moves holds holds' p q moved)
include hm

theorem mem_source (ht : t ∈ moved) : t ∈ holds p :=
  hm.source.mem_iff.mpr (List.mem_append_left _ ht)

theorem mem_iff (hex : Exclusive holds) :
    t ∈ holds' r ↔ (r = q ∧ t ∈ moved) ∨ (t ∈ holds r ∧ ¬ (r = p ∧ t ∈ moved)) := by
  by_cases hp : r = p
  · subst hp
    have hnodup := hm.source.nodup_iff.mp (hex.nodup r)
    have hdisjoint := List.disjoint_of_nodup_append hnodup
    rw [hm.source.mem_iff, List.mem_append]
    constructor
    · intro h
      exact .inr ⟨.inr h, fun hmoved => hdisjoint hmoved.2 h⟩
    · rintro (⟨hq, -⟩ | ⟨hmem, hnot⟩)
      · exact absurd hq hm.ne
      · exact hmem.resolve_left (fun hmoved => hnot ⟨rfl, hmoved⟩)
  · by_cases hq : r = q
    · subst hq
      rw [hm.target.mem_iff, List.mem_append]
      simp [hp]
    · rw [hm.other r hp hq]
      simp [hp, hq]

/-- A move loses no item and makes none. -/
theorem exists_mem_iff (hex : Exclusive holds) : (∃ r, t ∈ holds' r) ↔ ∃ r, t ∈ holds r := by
  simp only [hm.mem_iff hex]
  constructor
  · rintro ⟨r, ⟨-, hmoved⟩ | ⟨hmem, -⟩⟩
    · exact ⟨p, hm.mem_source hmoved⟩
    · exact ⟨r, hmem⟩
  · rintro ⟨r, hmem⟩
    by_cases hmoved : r = p ∧ t ∈ moved
    · exact ⟨q, .inl ⟨rfl, hmoved.2⟩⟩
    · exact ⟨r, .inr ⟨hmem, hmoved⟩⟩

theorem exclusive (hex : Exclusive holds) : Exclusive holds' where
  nodup r := by
    by_cases hp : r = p
    · subst hp
      exact (List.nodup_append.mp (hm.source.nodup_iff.mp (hex.nodup r))).2.1
    · by_cases hq : r = q
      · subst hq
        have hmoved := (List.nodup_append.mp (hm.source.nodup_iff.mp (hex.nodup p))).1
        refine hm.target.nodup_iff.mpr (List.nodup_append'.mpr ⟨hmoved, hex.nodup r, ?_⟩)
        intro t ht htq
        exact hm.ne (hex.place_eq (hm.mem_source ht) htq)
      · exact hm.other r hp hq ▸ hex.nodup r
  place_eq {r r' t} h h' := by
    rw [hm.mem_iff hex] at h h'
    rcases h with ⟨rfl, hmoved⟩ | ⟨h, hnot⟩ <;> rcases h' with ⟨rfl, hmoved'⟩ | ⟨h', hnot'⟩
    · rfl
    · exact absurd ⟨(hex.place_eq (hm.mem_source hmoved) h').symm, hmoved⟩ hnot'
    · exact absurd ⟨(hex.place_eq (hm.mem_source hmoved') h).symm, hmoved'⟩ hnot
    · exact hex.place_eq h h'

end Moves

namespace Appears

variable (ha : Appears holds holds' q t)
include ha

theorem mem_iff {u : τ} : u ∈ holds' r ↔ (r = q ∧ u = t) ∨ u ∈ holds r := by
  by_cases hq : r = q
  · subst hq
    simp [ha.target.mem_iff]
  · simp [ha.other r hq, hq]

theorem exists_mem_iff {u : τ} : (∃ r, u ∈ holds' r) ↔ u = t ∨ ∃ r, u ∈ holds r := by
  simp only [ha.mem_iff, exists_or, exists_eq_left]

theorem exclusive (hex : Exclusive holds) (hnew : ∀ r, t ∉ holds r) : Exclusive holds' where
  nodup r := by
    by_cases hq : r = q
    · subst hq
      exact ha.target.nodup_iff.mpr (List.nodup_cons.mpr ⟨hnew r, hex.nodup r⟩)
    · exact ha.other r hq ▸ hex.nodup r
  place_eq {r r' u} h h' := by
    rw [ha.mem_iff] at h h'
    rcases h with ⟨rfl, hu⟩ | h <;> rcases h' with ⟨rfl, hu'⟩ | h'
    · rfl
    · exact absurd (hu ▸ h') (hnew r')
    · exact absurd (hu' ▸ h) (hnew r)
    · exact hex.place_eq h h'

end Appears

end A3sBench.Library
