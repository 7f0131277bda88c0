import Mathlib

/-!
# Backtracking matchers

A matcher maps a position of a text to the positions where a match from there
may end. The combinators are the constructs of a regular expression; a matcher
that only reads has a language, and the languages compose as expected.
-/

namespace A3sBench.Library

/-- How many characters lie before, and those that lie ahead. -/
structure Position where
  before : Nat
  ahead : List Char
  deriving DecidableEq

abbrev Matcher := Position → List Position

namespace Matcher

def char (p : Char → Bool) : Matcher := fun at_ =>
  match at_.ahead with
  | c :: rest => if p c then [⟨at_.before + 1, rest⟩] else []
  | [] => []

def seq (m n : Matcher) : Matcher := fun at_ => (m at_).flatMap n

def opt (m : Matcher) : Matcher := fun at_ => m at_ ++ [at_]

/-- At least `min` and at most `max` times. -/
def times (m : Matcher) : Nat → Nat → Matcher
  | 0, 0 => fun at_ => [at_]
  | _ + 1, 0 => fun _ => []
  | 0, max + 1 => fun at_ => (m at_).flatMap (times m 0 max) ++ [at_]
  | min + 1, max + 1 => fun at_ => (m at_).flatMap (times m min max)

/-- Any number of times; a round that reads nothing ends the repetition. -/
def starFuel (m : Matcher) : Nat → Matcher
  | 0 => fun at_ => [at_]
  | fuel + 1 => fun at_ =>
    ((m at_).filter (fun next => at_.before < next.before)).flatMap (starFuel m fuel) ++ [at_]

def star (m : Matcher) : Matcher := fun at_ => starFuel m at_.ahead.length at_

/-- `^`. -/
def start : Matcher := fun at_ => if at_.before = 0 then [at_] else []

/-- `$`: the end, or before a line break that is the last character. -/
def finish : Matcher := fun at_ => if at_.ahead = [] ∨ at_.ahead = ['\n'] then [at_] else []

/-- `(?=...)`. -/
def lookahead (m : Matcher) : Matcher := fun at_ => if m at_ = [] then [] else [at_]

/-- `re.Pattern.fullmatch`. -/
def fullmatch (m : Matcher) (text : List Char) : Bool :=
  (m ⟨0, text⟩).any (fun last => last.ahead = [])

/-- A matcher that reads exactly the words of a language, wherever it starts. -/
def Reads (m : Matcher) (L : Language Char) : Prop :=
  ∀ at_ last, last ∈ m at_ ↔
    ∃ w ∈ L, at_.ahead = w ++ last.ahead ∧ last.before = at_.before + w.length

theorem mem_char {p : Char → Bool} {at_ last : Position} : last ∈ char p at_ ↔
    ∃ c rest, at_.ahead = c :: rest ∧ p c = true ∧ last = ⟨at_.before + 1, rest⟩ := by
  obtain ⟨before, ahead⟩ := at_
  cases ahead with
  | nil => simp [char]
  | cons d rest =>
      cases hd : p d with
      | true => simp [char, hd]
      | false => simp [char, hd]

def charLanguage (p : Char → Bool) : Language Char := {w | ∃ c, p c = true ∧ w = [c]}

theorem reads_char (p : Char → Bool) : Reads (char p) (charLanguage p) := by
  rintro at_ ⟨before, ahead⟩
  rw [mem_char]
  constructor
  · rintro ⟨c, rest, hahead, hc, hlast⟩
    obtain ⟨rfl, rfl⟩ := Position.mk.inj hlast
    exact ⟨[c], ⟨c, hc, rfl⟩, hahead, rfl⟩
  · rintro ⟨_, ⟨c, hc, rfl⟩, hahead, rfl⟩
    exact ⟨c, ahead, hahead, hc, rfl⟩

theorem Reads.seq {m n : Matcher} {L K : Language Char} (hm : Reads m L) (hn : Reads n K) :
    Reads (seq m n) (L * K) := by
  intro at_ last
  simp only [Matcher.seq, List.mem_flatMap, hm at_ _, hn _ last, Language.mem_mul]
  constructor
  · rintro ⟨middle, ⟨u, hu, hahead, hbefore⟩, v, hv, hahead', hbefore'⟩
    refine ⟨u ++ v, ⟨u, hu, v, hv, rfl⟩, ?_, ?_⟩
    · rw [hahead, hahead', List.append_assoc]
    · rw [hbefore', hbefore, List.length_append]
      omega
  · rintro ⟨_, ⟨u, hu, v, hv, rfl⟩, hahead, hbefore⟩
    rw [List.length_append] at hbefore
    refine ⟨⟨at_.before + u.length, v ++ last.ahead⟩, ⟨u, hu, ?_, rfl⟩, v, hv, rfl, ?_⟩
    · rw [hahead, List.append_assoc]
    · rw [hbefore, Nat.add_assoc]

theorem reads_one (at_ last : Position) : last = at_ ↔ ∃ w ∈ (1 : Language Char),
    at_.ahead = w ++ last.ahead ∧ last.before = at_.before + w.length := by
  simp only [Language.mem_one, exists_eq_left, List.nil_append, List.length_nil, Nat.add_zero]
  constructor
  · rintro rfl
    exact ⟨rfl, rfl⟩
  · rintro ⟨hahead, hbefore⟩
    cases at_
    cases last
    simp_all

theorem Reads.union {m n : Matcher} {L K : Language Char} (hm : Reads m L) (hn : Reads n K) :
    Reads (fun at_ => m at_ ++ n at_) (L + K) := by
  intro at_ last
  simp only [List.mem_append, hm at_ last, hn at_ last, Language.mem_add]
  constructor
  · rintro (⟨w, hw, h⟩ | ⟨w, hw, h⟩)
    · exact ⟨w, .inl hw, h⟩
    · exact ⟨w, .inr hw, h⟩
  · rintro ⟨w, hw | hw, h⟩
    · exact .inl ⟨w, hw, h⟩
    · exact .inr ⟨w, hw, h⟩

theorem reads_here : Reads (fun at_ => [at_]) 1 := by
  intro at_ last
  rw [List.mem_singleton, reads_one]

theorem Reads.opt {m : Matcher} {L : Language Char} (hm : Reads m L) : Reads (opt m) (L + 1) :=
  hm.union reads_here

def timesLanguage (L : Language Char) : Nat → Nat → Language Char
  | 0, 0 => 1
  | _ + 1, 0 => 0
  | 0, max + 1 => L * timesLanguage L 0 max + 1
  | min + 1, max + 1 => L * timesLanguage L min max

theorem Reads.times {m : Matcher} {L : Language Char} (hm : Reads m L) (min max : Nat) :
    Reads (times m min max) (timesLanguage L min max) := by
  induction max generalizing min with
  | zero =>
      cases min with
      | zero => exact reads_here
      | succ min =>
          intro at_ last
          constructor
          · intro h
            cases h
          · rintro ⟨w, hw, _⟩
            cases hw
  | succ max ih =>
      cases min with
      | zero => exact (hm.seq (ih 0)).opt
      | succ min => exact hm.seq (ih min)

/-- A bounded repetition of one character class. -/
theorem mem_timesLanguage_char {p : Char → Bool} {min max : Nat} {w : List Char} :
    w ∈ timesLanguage (charLanguage p) min max ↔
      (∀ c ∈ w, p c = true) ∧ min ≤ w.length ∧ w.length ≤ max := by
  have hcons : ∀ {K : Language Char} {w : List Char}, w ∈ charLanguage p * K ↔
      ∃ c rest, w = c :: rest ∧ p c = true ∧ rest ∈ K := by
    intro K w
    rw [Language.mem_mul]
    constructor
    · rintro ⟨_, ⟨c, hc, rfl⟩, rest, hrest, rfl⟩
      exact ⟨c, rest, rfl, hc, hrest⟩
    · rintro ⟨c, rest, rfl, hc, hrest⟩
      exact ⟨[c], ⟨c, hc, rfl⟩, rest, hrest, rfl⟩
  induction max generalizing min w with
  | zero =>
      cases min with
      | zero =>
          rw [timesLanguage, Language.mem_one]
          constructor
          · rintro rfl
            simp
          · rintro ⟨_, _, hlen⟩
            exact List.eq_nil_of_length_eq_zero (Nat.le_zero.mp hlen)
      | succ min =>
          constructor
          · intro h
            cases h
          · rintro ⟨_, hmin, hmax⟩
            omega
  | succ max ih =>
      cases min with
      | zero =>
          rw [timesLanguage, Language.mem_add, hcons, Language.mem_one]
          simp only [ih]
          cases w with
          | nil => simp
          | cons c rest => simp [and_assoc]
      | succ min =>
          rw [timesLanguage, hcons]
          simp only [ih]
          cases w with
          | nil => simp
          | cons c rest => simp [and_assoc]

theorem Reads.starFuel {m : Matcher} {L : Language Char} (hm : Reads m L)
    {fuel : Nat} {at_ last : Position} (hfuel : at_.ahead.length ≤ fuel) :
    last ∈ starFuel m fuel at_ ↔ ∃ w ∈ KStar.kstar L,
      at_.ahead = w ++ last.ahead ∧ last.before = at_.before + w.length := by
  have hhere : ∀ {at_ last : Position}, last = at_ → ∃ w ∈ KStar.kstar L,
      at_.ahead = w ++ last.ahead ∧ last.before = at_.before + w.length := by
    rintro at_ _ rfl
    exact ⟨[], Language.nil_mem_kstar L, rfl, rfl⟩
  induction fuel generalizing at_ with
  | zero =>
      rw [Matcher.starFuel, List.mem_singleton]
      constructor
      · exact hhere
      · rintro ⟨w, _, hahead, hbefore⟩
        have hnil : at_.ahead = [] := List.eq_nil_of_length_eq_zero (Nat.le_zero.mp hfuel)
        obtain ⟨hw, hlast⟩ := List.append_eq_nil_iff.mp (hahead.symm.trans hnil)
        rw [reads_one]
        exact ⟨[], rfl, hnil.trans hlast.symm, by rw [hbefore, hw]⟩
  | succ fuel ih =>
      simp only [Matcher.starFuel, List.mem_append, List.mem_flatMap, List.mem_filter,
        decide_eq_true_eq, List.mem_singleton]
      constructor
      · rintro (⟨middle, ⟨hmiddle, hlt⟩, hlast⟩ | hlast)
        · obtain ⟨u, hu, hahead, hbefore⟩ := (hm at_ middle).mp hmiddle
          have hshort : middle.ahead.length ≤ fuel := by
            rw [hahead, List.length_append] at hfuel
            omega
          obtain ⟨v, hv, hahead', hbefore'⟩ := (ih hshort).mp hlast
          refine ⟨u ++ v, ?_, ?_, ?_⟩
          · rw [← Language.one_add_self_mul_kstar_eq_kstar]
            exact .inr (Language.append_mem_mul hu hv)
          · rw [hahead, hahead', List.append_assoc]
          · rw [hbefore', hbefore, List.length_append, Nat.add_assoc]
        · exact hhere hlast
      · rintro ⟨w, hw, hahead, hbefore⟩
        obtain ⟨words, rfl, hwords⟩ := Language.mem_kstar_iff_exists_nonempty.mp hw
        cases words with
        | nil =>
            right
            rw [reads_one]
            exact ⟨[], rfl, hahead, hbefore⟩
        | cons u words =>
            left
            obtain ⟨hu, hwords⟩ := List.forall_mem_cons.mp hwords
            have hpos : 0 < u.length := List.length_pos_of_ne_nil hu.2
            rw [List.flatten_cons, List.append_assoc] at hahead
            rw [List.flatten_cons, List.length_append] at hbefore
            refine ⟨⟨at_.before + u.length, words.flatten ++ last.ahead⟩, ⟨?_, ?_⟩, ?_⟩
            · exact (hm _ _).mpr ⟨u, hu.1, hahead, rfl⟩
            · change at_.before < at_.before + u.length
              omega
            · refine (ih ?_).mpr ⟨words.flatten, ⟨words, rfl, fun v hv => (hwords v hv).1⟩, rfl, ?_⟩
              · change (words.flatten ++ last.ahead).length ≤ fuel
                rw [hahead, List.length_append] at hfuel
                omega
              · rw [hbefore, Nat.add_assoc]

theorem Reads.star {m : Matcher} {L : Language Char} (hm : Reads m L) :
    Reads (star m) (KStar.kstar L) :=
  fun _ _ => hm.starFuel le_rfl

/-- A matcher of a language accepts its words in full. -/
theorem Reads.fullmatch_iff {m : Matcher} {L : Language Char} (hm : Reads m L)
    {text : List Char} : fullmatch m text = true ↔ text ∈ L := by
  simp only [fullmatch, List.any_eq_true, decide_eq_true_eq]
  constructor
  · rintro ⟨last, hlast, hnil⟩
    obtain ⟨w, hw, hahead, _⟩ := (hm _ _).mp hlast
    change text = w ++ last.ahead at hahead
    rw [hahead, hnil, List.append_nil]
    exact hw
  · intro htext
    exact ⟨⟨text.length, []⟩, (hm _ _).mpr ⟨text, htext, (List.append_nil _).symm, by simp⟩, rfl⟩

/-- A full match ends the text anyway. -/
theorem fullmatch_seq_finish (m : Matcher) (text : List Char) :
    fullmatch (seq m finish) text = fullmatch m text := by
  simp only [fullmatch, seq, List.any_flatMap]
  congr 1
  funext last
  by_cases hnil : last.ahead = []
  · simp [finish, hnil]
  · by_cases hbreak : last.ahead = ['\n']
    · simp [finish, hbreak]
    · simp [finish, hnil, hbreak]

/-- Between `min` and `max` characters of a class lie before the end. -/
theorem times_seq_finish_ne_nil_iff {p : Char → Bool} {min max : Nat} {text : List Char}
    (h : ∀ c ∈ text, p c = true) (hbreak : p '\n' = false) :
    seq (times (char p) min max) finish ⟨0, text⟩ ≠ [] ↔
      min ≤ text.length ∧ text.length ≤ max := by
  have hreads := (reads_char p).times min max
  constructor
  · intro hne
    obtain ⟨last, hlast⟩ := List.exists_mem_of_ne_nil _ hne
    obtain ⟨middle, hmiddle, hfinish⟩ := List.mem_flatMap.mp hlast
    obtain ⟨w, hw, hahead, _⟩ := (hreads _ _).mp hmiddle
    change text = w ++ middle.ahead at hahead
    have hnil : middle.ahead = [] := by
      unfold finish at hfinish
      split at hfinish
      · rename_i hend
        rcases hend with hnil | hend
        · exact hnil
        · have hp := h '\n' (by simp [hahead, hend])
          rw [hbreak] at hp
          cases hp
      · cases hfinish
    rw [hnil, List.append_nil] at hahead
    rw [hahead]
    exact (mem_timesLanguage_char.mp hw).2
  · rintro ⟨hmin, hmax⟩
    apply List.ne_nil_of_mem (a := ⟨text.length, []⟩)
    refine List.mem_flatMap.mpr ⟨⟨text.length, []⟩, (hreads _ _).mpr ⟨text,
      mem_timesLanguage_char.mpr ⟨h, hmin, hmax⟩, (List.append_nil _).symm, by simp⟩, ?_⟩
    simp [finish]

/-- A lookahead at the start stands in front of a match. -/
theorem fullmatch_start_seq_lookahead {check m : Matcher} {text : List Char} :
    fullmatch (seq (seq start (lookahead check)) m) text = true ↔
      check ⟨0, text⟩ ≠ [] ∧ fullmatch m text = true := by
  by_cases hcheck : check ⟨0, text⟩ = []
  · simp [fullmatch, seq, start, lookahead, hcheck]
  · simp [fullmatch, seq, start, lookahead, hcheck]

end Matcher

end A3sBench.Library
