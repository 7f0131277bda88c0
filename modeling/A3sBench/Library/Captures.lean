import A3sBench.Library.Matcher

/-!
# Captures

A search tries the ways a pattern can match from left to right and in the order
of its preferences. A pattern is a list of parts here, and what each part read
is kept.
-/

namespace A3sBench.Library.Matcher

def plus (m : Matcher) : Matcher := seq m (star m)

/-- As few rounds as possible. -/
def lazyStarFuel (m : Matcher) : Nat → Matcher
  | 0 => fun at_ => [at_]
  | fuel + 1 => fun at_ =>
    at_ :: ((m at_).filter (fun next => at_.before < next.before)).flatMap (lazyStarFuel m fuel)

/-- `+?`. -/
def lazyPlus (m : Matcher) : Matcher :=
  seq m (fun at_ => lazyStarFuel m at_.ahead.length at_)

def alt (ms : List Matcher) : Matcher := fun at_ => ms.flatMap (fun m => m at_)

def word (text : String) : Matcher :=
  text.toList.foldr (fun c m => seq (char (fun d => d = c)) m) (fun at_ => [at_])

/-- What the parts of a pattern read from a position on, the preferred way first. -/
def readings : List Matcher → Position → List (List (List Char))
  | [], _ => [[]]
  | m :: ms, at_ =>
    (m at_).flatMap (fun next =>
      (readings ms next).map (at_.ahead.take (next.before - at_.before) :: ·))

/-- `captures_iter` of a pattern that reads something: each match starts after the one before
it, so the characters the last one read are skipped. -/
def capturesIter (ms : List Matcher) : Nat → Nat → List Char → List (List (List Char))
  | _, _, [] => []
  | skip + 1, before, _ :: rest => capturesIter ms skip (before + 1) rest
  | 0, before, c :: rest =>
    match (readings ms ⟨before, c :: rest⟩).head? with
    | some texts => texts :: capturesIter ms (texts.flatten.length - 1) (before + 1) rest
    | none => capturesIter ms 0 (before + 1) rest

def allCaptures (ms : List Matcher) (text : List Char) : List (List (List Char)) :=
  capturesIter ms 0 0 text

theorem mem_capturesIter {ms : List Matcher} {skip before : Nat} {text : List Char}
    {texts : List (List Char)} (h : texts ∈ capturesIter ms skip before text) :
    ∃ at_, texts ∈ readings ms at_ := by
  induction text generalizing skip before with
  | nil =>
    rw [capturesIter] at h
    cases h
  | cons c rest ih =>
    cases skip with
    | succ skip =>
      rw [capturesIter] at h
      exact ih h
    | zero =>
      rw [capturesIter] at h
      split at h
      · rename_i found hfound
        rcases List.mem_cons.mp h with rfl | h
        · exact ⟨_, List.mem_of_mem_head? hfound⟩
        · exact ih h
      · exact ih h

/-- The first part read a word of its language. -/
theorem readings_cons {m : Matcher} {ms : List Matcher} {L : Language Char} {at_ : Position}
    {texts : List (List Char)} (hm : Reads m L) (h : texts ∈ readings (m :: ms) at_) :
    ∃ w ∈ L, ∃ rest, texts = w :: rest := by
  rw [readings] at h
  obtain ⟨next, hnext, h⟩ := List.mem_flatMap.mp h
  obtain ⟨rest, -, rfl⟩ := List.mem_map.mp h
  obtain ⟨w, hw, hahead, hbefore⟩ := (hm at_ next).mp hnext
  refine ⟨w, hw, rest, ?_⟩
  rw [hahead, hbefore, Nat.add_sub_cancel_left, List.take_left]

theorem Reads.plus {m : Matcher} {L : Language Char} (hm : Reads m L) :
    Reads (plus m) (L * KStar.kstar L) :=
  hm.seq hm.star

theorem mem_plus_charLanguage {p : Char → Bool} {w : List Char}
    (h : w ∈ charLanguage p * KStar.kstar (charLanguage p)) :
    w ≠ [] ∧ ∀ c ∈ w, p c = true := by
  obtain ⟨_, ⟨c, hc, rfl⟩, rest, hrest, rfl⟩ := Language.mem_mul.mp h
  refine ⟨List.cons_ne_nil _ _, ?_⟩
  obtain ⟨words, rfl, hwords⟩ := Language.mem_kstar.mp hrest
  intro d hd
  rcases List.mem_cons.mp hd with rfl | hd
  · exact hc
  · obtain ⟨v, hv, hdv⟩ := List.mem_flatten.mp hd
    obtain ⟨e, he, rfl⟩ := hwords v hv
    rw [List.mem_singleton] at hdv
    exact hdv ▸ he

end A3sBench.Library.Matcher
