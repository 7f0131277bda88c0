import Mathlib

/-!
# Records written as separated fields

A record is a key, one tag and a body, each closed by a separator. Keys without
the separator are read back from the stream; bodies are not, unless they are
free of the separator as well.
-/

namespace A3sBench.Library

universe u

structure FieldRecord (β : Type u) where
  key : List β
  tag : β
  body : List β
  deriving DecidableEq

namespace FieldRecord

variable {β : Type u} {z : β}

/-- `key z tag z body z`, record after record. -/
def encode (z : β) : List (FieldRecord β) → List β
  | [] => []
  | r :: rs => r.key ++ z :: r.tag :: z :: (r.body ++ z :: encode z rs)

@[simp] theorem encode_nil : encode z [] = [] := rfl

@[simp] theorem encode_cons (r : FieldRecord β) (rs : List (FieldRecord β)) :
    encode z (r :: rs) = r.key ++ z :: r.tag :: z :: (r.body ++ z :: encode z rs) := rfl

/-- Fields free of the separator end at its first occurrence. -/
theorem field_inj {a b x y : List β} (ha : z ∉ a) (hb : z ∉ b)
    (h : a ++ z :: x = b ++ z :: y) : a = b ∧ x = y := by
  induction a generalizing b with
  | nil =>
    cases b with
    | nil => exact ⟨rfl, (List.cons.inj h).2⟩
    | cons c b => exact absurd (List.mem_cons.mpr (.inl (List.cons.inj h).1)) hb
  | cons c a ih =>
    cases b with
    | nil => exact absurd (List.mem_cons.mpr (.inl (List.cons.inj h).1.symm)) ha
    | cons d b =>
      obtain ⟨hcd, htail⟩ := List.cons.inj h
      obtain ⟨hab, hxy⟩ := ih (fun hz => ha (List.mem_cons_of_mem _ hz))
        (fun hz => hb (List.mem_cons_of_mem _ hz)) htail
      exact ⟨by rw [hcd, hab], hxy⟩

/-- The first key and tag can be read off the stream. -/
theorem encode_cons_inj {r s : FieldRecord β} {rs ss : List (FieldRecord β)}
    (hr : z ∉ r.key) (hs : z ∉ s.key) (h : encode z (r :: rs) = encode z (s :: ss)) :
    r.key = s.key ∧ r.tag = s.tag ∧
      r.body ++ z :: encode z rs = s.body ++ z :: encode z ss := by
  obtain ⟨hkey, hrest⟩ := field_inj hr hs h
  obtain ⟨htag, hrest⟩ := List.cons.inj hrest
  exact ⟨hkey, htag, (List.cons.inj hrest).2⟩

theorem encode_ne_nil (r : FieldRecord β) (rs : List (FieldRecord β)) :
    encode z (r :: rs) ≠ [] := by
  simp

/-- Streams whose keys and bodies are free of the separator are read uniquely. -/
theorem encode_injective_of_free {rs ss : List (FieldRecord β)}
    (hr : ∀ r ∈ rs, z ∉ r.key ∧ z ∉ r.body) (hs : ∀ s ∈ ss, z ∉ s.key ∧ z ∉ s.body)
    (h : encode z rs = encode z ss) : rs = ss := by
  induction rs generalizing ss with
  | nil =>
    cases ss with
    | nil => rfl
    | cons s ss => exact absurd h.symm (encode_ne_nil s ss)
  | cons r rs ih =>
    cases ss with
    | nil => exact absurd h (encode_ne_nil r rs)
    | cons s ss =>
      obtain ⟨hr₀, hrs⟩ := List.forall_mem_cons.mp hr
      obtain ⟨hs₀, hss⟩ := List.forall_mem_cons.mp hs
      obtain ⟨hkey, htag, hclosed⟩ := encode_cons_inj hr₀.1 hs₀.1 h
      obtain ⟨hbody, hrest⟩ := field_inj hr₀.2 hs₀.2 hclosed
      have hrec : r = s := by
        cases r
        cases s
        simp_all
      rw [hrec, ih hrs hss hrest]

/-- A record can be swallowed by the body of the one before it. -/
def swallow (z : β) (r s : FieldRecord β) : FieldRecord β :=
  { r with body := r.body ++ z :: (s.key ++ z :: s.tag :: z :: s.body) }

theorem encode_swallow (r s : FieldRecord β) (rs : List (FieldRecord β)) :
    encode z (swallow z r s :: rs) = encode z (r :: s :: rs) := by
  simp [swallow]

/-- What follows a body ends with the separator. -/
theorem exists_closing_sep (body : List β) (rs : List (FieldRecord β)) :
    ∃ back, body ++ z :: encode z rs = back ++ [z] := by
  induction rs generalizing body with
  | nil => exact ⟨body, rfl⟩
  | cons r rs ih =>
    obtain ⟨back, hback⟩ := ih r.body
    refine ⟨body ++ z :: (r.key ++ z :: r.tag :: z :: back), ?_⟩
    simp [hback]

/-- A stream of one record that is also a stream of several has, in its body,
the separated fields of the second of them. -/
theorem exists_body_split {r s t : FieldRecord β} {rs : List (FieldRecord β)}
    (hr : z ∉ r.key) (hs : z ∉ s.key) (h : encode z [r] = encode z (s :: t :: rs)) :
    ∃ back, r.body = s.body ++ z :: (t.key ++ z :: t.tag :: z :: back) := by
  obtain ⟨_, _, hbody⟩ := encode_cons_inj hr hs h
  obtain ⟨back, hback⟩ := exists_closing_sep (z := z) t.body rs
  refine ⟨back, @List.append_cancel_right _ _ [z] _ ?_⟩
  simpa [hback] using hbody

end FieldRecord

end A3sBench.Library
