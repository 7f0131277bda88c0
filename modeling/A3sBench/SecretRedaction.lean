import A3sBench.FileTree
import A3sBench.Library.Occurrence

/-!
# Redaction of the secrets of an authentication file

`redact_bytes` writes a placeholder over the places of each secret, one secret
after the other. Every byte of the text carries whether a placeholder put it
there: a place of a secret in the result then has such a byte.
-/

namespace A3sBench.CodexAuth

open Library

/-- `b"[redacted]"` -/
def placeholder : Bytes := [91, 114, 101, 100, 97, 99, 116, 101, 100, 93]

theorem length_drop_lt {α : Type*} {secret : Bytes} {rest : List α} {i : Nat} (hsecret : secret ≠ [])
    (hi : i + secret.length ≤ rest.length) : (rest.drop (i + secret.length)).length < rest.length := by
  have := List.length_pos_of_ne_nil hsecret
  rw [List.length_drop]
  omega

theorem find_fits {secret rest : Bytes} {i : Nat} (hfind : find secret rest = some i) :
    i + secret.length ≤ rest.length := by
  obtain ⟨hle, hstands, -⟩ := find_eq_some_iff.mp hfind
  have := hstands.length_le
  rw [List.length_drop] at this
  omega

/-- The loop of `redact_bytes` over the places of one secret, on the text from the cursor on. -/
def redactFrom (secret rest : Bytes) : Bytes :=
  if _ : secret = [] then rest
  else
    match _ : find secret rest with
    | none => rest
    | some relative =>
      rest.take relative ++ placeholder ++ redactFrom secret (rest.drop (relative + secret.length))
termination_by rest.length
decreasing_by exact length_drop_lt ‹_› (find_fits ‹_›)

/-- `redact_bytes` -/
def redactBytes (bytes : Bytes) (secrets : List Bytes) : Bytes :=
  secrets.foldl (fun output secret => redactFrom secret output) bytes

theorem redactFrom_none {secret rest : Bytes} (hfind : find secret rest = none) :
    redactFrom secret rest = rest := by
  rw [redactFrom]
  split
  · rfl
  · split
    · rfl
    · rename_i hsome
      rw [hfind] at hsome
      cases hsome

theorem redactFrom_some {secret rest : Bytes} {relative : Nat} (hsecret : secret ≠ [])
    (hfind : find secret rest = some relative) :
    redactFrom secret rest = rest.take relative ++ placeholder ++
      redactFrom secret (rest.drop (relative + secret.length)) := by
  rw [redactFrom, dif_neg hsecret]
  split
  · rename_i hnone
    rw [hfind] at hnone
    cases hnone
  · rename_i hsome
    rw [hfind] at hsome
    cases hsome
    rfl

/-- A byte, and whether a placeholder put it there. -/
abbrev Marked := Byte × Bool

def original (bytes : Bytes) : List Marked := bytes.map fun b => (b, false)

def inserted (bytes : Bytes) : List Marked := bytes.map fun b => (b, true)

def bytesOf (text : List Marked) : Bytes := text.map Prod.fst

theorem bytesOf_original (bytes : Bytes) : bytesOf (original bytes) = bytes := by
  rw [bytesOf, original, List.map_map]
  exact List.map_id bytes

theorem bytesOf_inserted (bytes : Bytes) : bytesOf (inserted bytes) = bytes := by
  rw [bytesOf, inserted, List.map_map]
  exact List.map_id bytes

theorem bytesOf_append (front back : List Marked) :
    bytesOf (front ++ back) = bytesOf front ++ bytesOf back := List.map_append

theorem length_bytesOf (text : List Marked) : (bytesOf text).length = text.length :=
  List.length_map ..

/-- `redactFrom` on marked bytes. -/
def redactMarkedFrom (secret : Bytes) (rest : List Marked) : List Marked :=
  if _ : secret = [] then rest
  else
    match _ : find secret (bytesOf rest) with
    | none => rest
    | some relative =>
      rest.take relative ++ inserted placeholder ++
        redactMarkedFrom secret (rest.drop (relative + secret.length))
termination_by rest.length
decreasing_by exact length_drop_lt ‹_› (by rw [← length_bytesOf]; exact find_fits ‹_›)

/-- `redactBytes` on marked bytes. -/
def redactMarked (text : List Marked) (secrets : List Bytes) : List Marked :=
  secrets.foldl (fun output secret => redactMarkedFrom secret output) text

theorem redactMarkedFrom_none {secret : Bytes} {rest : List Marked}
    (hfind : find secret (bytesOf rest) = none) : redactMarkedFrom secret rest = rest := by
  rw [redactMarkedFrom]
  split
  · rfl
  · split
    · rfl
    · rename_i hsome
      rw [hfind] at hsome
      cases hsome

theorem redactMarkedFrom_some {secret : Bytes} {rest : List Marked} {relative : Nat}
    (hsecret : secret ≠ []) (hfind : find secret (bytesOf rest) = some relative) :
    redactMarkedFrom secret rest = rest.take relative ++ (inserted placeholder ++
      redactMarkedFrom secret (rest.drop (relative + secret.length))) := by
  rw [redactMarkedFrom, dif_neg hsecret]
  split
  · rename_i hnone
    rw [hfind] at hnone
    cases hnone
  · rename_i hsome
    rw [hfind] at hsome
    cases hsome
    exact List.append_assoc ..

/-- The marks change nothing in the text. -/
theorem bytesOf_redactMarkedFrom (secret : Bytes) (rest : List Marked) :
    bytesOf (redactMarkedFrom secret rest) = redactFrom secret (bytesOf rest) := by
  induction rest using redactMarkedFrom.induct secret with
  | case1 rest hempty => rw [redactMarkedFrom, dif_pos hempty, redactFrom, dif_pos hempty]
  | case2 rest hempty hfind => rw [redactMarkedFrom_none hfind, redactFrom_none hfind]
  | case3 rest hempty relative hfind ih =>
    have hrest : bytesOf (rest.drop (relative + secret.length)) =
        (bytesOf rest).drop (relative + secret.length) := List.map_drop
    have hfront : bytesOf (rest.take relative) = (bytesOf rest).take relative := List.map_take
    rw [redactMarkedFrom_some hempty hfind, redactFrom_some hempty hfind, bytesOf_append,
      bytesOf_append, bytesOf_inserted, ih, hrest, hfront, List.append_assoc]

theorem bytesOf_redactMarked (text : List Marked) (secrets : List Bytes) :
    bytesOf (redactMarked text secrets) = redactBytes (bytesOf text) secrets := by
  induction secrets generalizing text with
  | nil => rfl
  | cons secret secrets ih =>
    rw [redactMarked, List.foldl_cons, redactBytes, List.foldl_cons, ← bytesOf_redactMarkedFrom]
    exact ih _

/-- No place of the secret is free of placeholder bytes. -/
def Absent (secret : Bytes) (text : List Marked) : Prop := ¬ original secret <:+: text

theorem original_ne_nil {secret : Bytes} (h : secret ≠ []) : original secret ≠ [] := by
  rw [original, ne_eq, List.map_eq_nil_iff]
  exact h

theorem inserted_not_mem_original (secret : Bytes) :
    ∀ c ∈ inserted placeholder, c ∉ original secret := by
  intro c hc hmem
  obtain ⟨b, -, rfl⟩ := List.mem_map.mp hc
  obtain ⟨d, -, hd⟩ := List.mem_map.mp hmem
  cases hd

theorem absent_of_find_none {secret : Bytes} {text : List Marked}
    (hfind : find secret (bytesOf text) = none) : Absent secret text := by
  intro hplace
  refine find_eq_none_iff.mp hfind ?_
  have := hplace.map Prod.fst
  rwa [← bytesOf, bytesOf_original] at this

theorem Absent.join {secret : Bytes} {front back : List Marked} (hsecret : secret ≠ [])
    (hfront : Absent secret front) (hback : Absent secret back) :
    Absent secret (front ++ (inserted placeholder ++ back)) :=
  not_infix_append (original_ne_nil hsecret) (by decide) (inserted_not_mem_original secret)
    hfront hback

theorem absent_take {secret : Bytes} {text : List Marked} {i : Nat} (hsecret : secret ≠ [])
    (hfind : find secret (bytesOf text) = some i) : Absent secret (text.take i) := by
  rintro ⟨before, after, hplace⟩
  obtain ⟨hle, -, hfirst⟩ := find_eq_some_iff.mp hfind
  have hlength := congrArg List.length hplace
  rw [length_bytesOf] at hle
  simp only [List.length_append, List.length_take, original, List.length_map, min_eq_left hle]
    at hlength
  have hpos := List.length_pos_of_ne_nil hsecret
  refine hfirst before.length (by omega) ?_
  have htext : text = before ++ (original secret ++ (after ++ text.drop i)) := by
    conv_lhs => rw [← List.take_append_drop i text, ← hplace]
    simp only [List.append_assoc]
  rw [htext, bytesOf_append, List.drop_left' (length_bytesOf before), bytesOf_append,
    bytesOf_original]
  exact List.prefix_append ..

theorem absent_redactMarkedFrom {secret : Bytes} (hsecret : secret ≠ []) (rest : List Marked) :
    Absent secret (redactMarkedFrom secret rest) := by
  induction rest using redactMarkedFrom.induct secret with
  | case1 rest hempty => exact absurd hempty hsecret
  | case2 rest hempty hfind =>
    rw [redactMarkedFrom_none hfind]
    exact absent_of_find_none hfind
  | case3 rest hempty relative hfind ih =>
    rw [redactMarkedFrom_some hempty hfind]
    exact Absent.join hsecret (absent_take hsecret hfind) ih

theorem Absent.redactMarkedFrom {kept : Bytes} (hkept : kept ≠ []) (secret : Bytes)
    {rest : List Marked} (h : Absent kept rest) : Absent kept (redactMarkedFrom secret rest) := by
  induction rest using redactMarkedFrom.induct secret with
  | case1 rest hempty => rwa [CodexAuth.redactMarkedFrom, dif_pos hempty]
  | case2 rest hempty hfind => rwa [redactMarkedFrom_none hfind]
  | case3 rest hempty relative hfind ih =>
    rw [redactMarkedFrom_some hempty hfind]
    refine Absent.join hkept (fun hplace => h ?_) (ih fun hplace => h ?_)
    · exact hplace.trans (List.take_prefix ..).isInfix
    · exact hplace.trans (List.drop_suffix ..).isInfix

theorem Absent.redactMarked {kept : Bytes} (hkept : kept ≠ []) (secrets : List Bytes)
    {text : List Marked} (h : Absent kept text) : Absent kept (redactMarked text secrets) := by
  induction secrets generalizing text with
  | nil => exact h
  | cons secret secrets ih => exact ih (h.redactMarkedFrom hkept secret)

theorem absent_redactMarked {secret : Bytes} (hsecret : secret ≠ []) {secrets : List Bytes}
    (hmem : secret ∈ secrets) (text : List Marked) : Absent secret (redactMarked text secrets) := by
  induction secrets generalizing text with
  | nil => cases hmem
  | cons first secrets ih =>
    obtain rfl | hmem := List.mem_cons.mp hmem
    · exact (absent_redactMarkedFrom hsecret text).redactMarked hsecret secrets
    · exact ih hmem _

/-- A stretch without a placeholder byte is made of original bytes. -/
theorem eq_original_of_unmarked {text : List Marked} (h : ∀ c ∈ text, c.2 = false) :
    text = original (bytesOf text) := by
  rw [original, bytesOf, List.map_map]
  refine (List.map_id text).symm.trans (List.map_congr_left fun c hc => ?_)
  exact Prod.ext rfl (h c hc)

/-- Every place of a secret in the redacted text has a byte that a placeholder put there. -/
theorem redacted_place_has_placeholder (bytes : Bytes) (secrets : List Bytes) :
    bytesOf (redactMarked (original bytes) secrets) = redactBytes bytes secrets ∧
      ∀ secret ∈ secrets, secret ≠ [] → ∀ before place after,
        redactMarked (original bytes) secrets = before ++ place ++ after → bytesOf place = secret →
          ∃ c ∈ place, c.2 = true := by
  refine ⟨by rw [bytesOf_redactMarked, bytesOf_original], ?_⟩
  intro secret hmem hsecret before place after htext hplace
  by_contra hunmarked
  have hfalse : ∀ c ∈ place, c.2 = false := by
    intro c hc
    exact Bool.eq_false_iff.mpr fun htrue => hunmarked ⟨c, hc, htrue⟩
  refine absent_redactMarked hsecret hmem (original bytes) ⟨before, after, ?_⟩
  rw [htext, ← hplace, ← eq_original_of_unmarked hfalse]

end A3sBench.CodexAuth
