import A3sBench.Library.SplitOn
import A3sBench.Submission

/-!
# Literal submission patterns

A pattern without `*`, `?`, `[` and `]` is compiled as the path of a file or of a
directory. `globset` has braces besides, and a `.` segment is in no normalized
path; the patterns with neither select what they spell.
-/

namespace A3sBench.Submission

open Library

/-- What `normalize` asks of a path. -/
def Normalized (value : String) : Prop :=
  value ≠ "" ∧ value.toList.head? ≠ some '/' ∧
    ∀ segment ∈ value.toList.splitOn '/', segment ≠ [] ∧ segment ≠ ['.'] ∧ segment ≠ ['.', '.']

/-- The segments of a pattern as a clean path. -/
def cleanSegments (pattern : String) : List (List Char) :=
  ((pattern.toList.rdropWhile (fun c => c = '/')).splitOn '/').filter (fun s => s ≠ ['.'])

def isBrace (c : Char) : Bool := c = '{' || c = '}'

/-- None of the characters that make a pattern a glob for `compile_patterns`. -/
def Literal (pattern : String) : Prop :=
  pattern.toList.any (fun c => c ∈ ['*', '?', '[', ']']) = false

/-- A literal pattern without braces and backslashes. -/
structure Plain (pattern : String) : Prop where
  literal : Literal pattern
  slashes : '\\' ∉ pattern.toList
  braces : pattern.toList.any isBrace = false

/-- What a pattern with alternatives stands for, at most: `{a,b}` is `a` or `b`. -/
inductive Expands : List Char → List Char → Prop
  | nil : Expands [] []
  | char {c : Char} {pattern text : List Char} (hc : isBrace c = false) (rest : Expands pattern text) :
    Expands (c :: pattern) (c :: text)
  | alternatives {options : List (List Char)} {option inner pattern text : List Char}
    (mem : option ∈ options) (chosen : Expands option inner) (rest : Expands pattern text) :
    Expands ('{' :: ([','].intercalate options ++ '}' :: pattern)) (inner ++ text)

/-- The syntax that `globset` documents, with literal separators and no escapes, on literal patterns
and on the paths it is given. -/
structure Documented (globs : Globs) (covers : globs.Glob → String → Prop) : Prop where
  /-- A set matches what one of its globs matches. -/
  union {gs : List globs.Glob} {set : globs.GlobSet} (h : globs.compile gs = .ok set)
    (path : String) : globs.isMatch set (utf8 path) = true ↔ ∃ g ∈ gs, covers g path
  everything : ∃ g, globs.build "**" = .ok g ∧ ∀ path, Normalized path → covers g path
  exact {pattern : String} (h : Plain pattern) : ∃ g, globs.build pattern = .ok g ∧
    ∀ path, Normalized path → (covers g path ↔ path = pattern)
  beneath {pattern : String} (h : Plain pattern) : ∃ g, globs.build (pattern ++ "/**") = .ok g ∧
    ∀ path, Normalized path →
      (covers g path ↔ ∃ rest, path.toList = pattern.toList ++ '/' :: rest)
  /-- Sets of these globs compile. -/
  compiles {gs : List globs.Glob} (h : ∀ g ∈ gs, ∃ pattern, globs.build pattern = .ok g ∧
    (pattern = "**" ∨ Plain pattern ∨ ∃ p, Plain p ∧ pattern = p ++ "/**")) :
    ∃ set, globs.compile gs = .ok set
  alternatives {pattern path : String} {g : globs.Glob} (h : Literal pattern)
    (hbuild : globs.build pattern = .ok g) (hpath : Normalized path) (hcovers : covers g path) :
    Expands pattern.toList path.toList
  alternativesBeneath {pattern path : String} {g : globs.Glob} (h : Literal pattern)
    (hbuild : globs.build (pattern ++ "/**") = .ok g) (hpath : Normalized path)
    (hcovers : covers g path) :
    ∃ text rest, Expands pattern.toList text ∧ path.toList = text ++ '/' :: rest

/-- The pattern compiles to the normalized paths that equal it or lie beneath it. -/
def SelectsItself (globs : Globs) (pattern : String) : Prop :=
  ∃ set, compilePatterns globs [pattern] = .ok set ∧
    ∀ path, Normalized path → (globs.isMatch set (utf8 path) = true ↔
      cleanSegments pattern <+: path.toList.splitOn '/')

/-! ## The paths of the walk -/

theorem encode_ge {c : Char} (h : 128 ≤ c.toNat) :
    ∀ b ∈ String.utf8EncodeChar c, 128 ≤ b.toNat := by
  intro b hb
  have hv : c.val.toNat = c.toNat := rfl
  rw [String.utf8EncodeChar] at hb
  rw [if_neg (by omega)] at hb
  split at hb
  · simp only [List.mem_cons, List.not_mem_nil, or_false] at hb
    obtain rfl | rfl := hb <;> rw [UInt8.toNat_ofNat'] <;> omega
  · split at hb
    · simp only [List.mem_cons, List.not_mem_nil, or_false] at hb
      obtain rfl | rfl | rfl := hb <;> rw [UInt8.toNat_ofNat'] <;> omega
    · simp only [List.mem_cons, List.not_mem_nil, or_false] at hb
      obtain rfl | rfl | rfl | rfl := hb <;> rw [UInt8.toNat_ofNat'] <;> omega

theorem separator_not_mem {c : Char} (h : c ≠ '/') : separator ∉ utf8Chars [c] := by
  intro hmem
  by_cases hascii : c.toNat < 128
  · obtain ⟨d, hd, hval⟩ := (mem_utf8Chars_ascii (fun d hd => by
      rw [List.mem_singleton.mp hd]
      exact hascii)).mp hmem
    rw [List.mem_singleton.mp hd] at hval
    exact h (Char.toNat_inj.mp hval.symm)
  · rw [utf8Chars, List.flatMap_singleton, List.mem_map] at hmem
    obtain ⟨b, hb, hsep⟩ := hmem
    have hge := encode_ge (not_lt.mp hascii) b hb
    have hval := congrArg Fin.val hsep
    rw [Fin.val_ofNat, Nat.mod_eq_of_lt b.toNat_lt] at hval
    have : (separator : Byte).val = 47 := rfl
    omega

theorem splitOn_utf8Chars (l : List Char) :
    (utf8Chars l).splitOn separator = (l.splitOn '/').map utf8Chars := by
  induction l with
  | nil => rfl
  | cons c l ih =>
    have hcons : utf8Chars (c :: l) = utf8Chars [c] ++ utf8Chars l := by
      rw [utf8Chars, utf8Chars, utf8Chars, ← List.flatMap_append, List.singleton_append]
    by_cases hc : c = '/'
    · subst hc
      have hslash : utf8Chars ['/'] = [separator] := by decide +kernel
      rw [hcons, hslash, splitOn_cons_self, List.singleton_append, splitOn_cons_self, ih]
      rfl
    · obtain ⟨part, parts, hparts⟩ := List.exists_cons_of_ne_nil (List.splitOn_ne_nil '/' l)
      have hclean : ∀ p ∈ [utf8Chars [c]], separator ∉ p := by
        intro p hp
        rw [List.mem_singleton.mp hp]
        exact separator_not_mem hc
      have hfirst : (utf8Chars [c]).splitOn separator = [] ++ [utf8Chars [c]] := by
        simpa using List.splitOn_intercalate separator hclean (List.cons_ne_nil _ _)
      rw [hparts] at ih
      rw [hcons, splitOn_append hfirst ih, splitOn_cons_ne hc hparts, List.map_cons, List.nil_append,
        utf8Chars, utf8Chars, utf8Chars, ← List.flatMap_append, List.singleton_append]

theorem normalized_of_normalize {path : Path} {value : String}
    (h : normalize path = .ok (utf8 value)) : Normalized value := by
  rw [normalize_ok_iff] at h
  obtain ⟨hsafe, hvalue⟩ := h
  simp only [Safe, normalize, Result.bind_ok_iff, Result.exists_unit_iff, Result.ensure_ok_iff] at hsafe
  rw [← hvalue] at hsafe
  obtain ⟨-, ⟨hne, hhead, hsegments⟩, -⟩ := hsafe
  have hsplit := splitOn_utf8Chars value.toList
  refine ⟨?_, ?_, fun segment hsegment => ?_⟩
  · rintro rfl
    exact hne rfl
  · intro hslash
    cases hlist : value.toList with
    | nil =>
      rw [hlist] at hslash
      cases hslash
    | cons c rest =>
      rw [hlist] at hslash hsplit
      obtain rfl := Option.some.inj hslash
      rw [splitOn_cons_self] at hsplit
      refine (hsegments [] ?_).1 rfl
      rw [utf8, hlist, hsplit]
      exact List.mem_cons_self
  · have hmem : utf8Chars segment ∈ (utf8 value).splitOn separator := by
      rw [utf8, hsplit]
      exact List.mem_map_of_mem hsegment
    obtain ⟨hnil, hdot, hdots⟩ := hsegments _ hmem
    refine ⟨?_, ?_, ?_⟩
    · rintro rfl
      exact hnil rfl
    · rintro rfl
      exact hdot (by decide +kernel)
    · rintro rfl
      exact hdots (by decide +kernel)
/-! ## What braces stand for -/

theorem Expands.braceless {pattern text : List Char} (h : Expands pattern text) :
    ∀ c ∈ text, isBrace c = false := by
  induction h with
  | nil => exact fun c hc => absurd hc List.not_mem_nil
  | char hc _ ih =>
    intro d hd
    obtain rfl | hd := List.mem_cons.mp hd
    · exact hc
    · exact ih d hd
  | alternatives _ _ _ ihchosen ihrest =>
    intro d hd
    obtain hd | hd := List.mem_append.mp hd
    · exact ihchosen d hd
    · exact ihrest d hd

theorem Expands.prefix {front back text : List Char} (h : Expands (front ++ back) text)
    (hfront : ∀ c ∈ front, isBrace c = false) : front <+: text := by
  induction front generalizing text with
  | nil => exact List.nil_prefix
  | cons c front ih =>
    have hc := hfront c List.mem_cons_self
    rw [List.cons_append] at h
    generalize hpattern : c :: (front ++ back) = pattern at h
    cases h with
    | nil => cases hpattern
    | char _ rest =>
      obtain ⟨rfl, rfl⟩ := List.cons.inj hpattern
      exact List.cons_prefix_cons.mpr
        ⟨rfl, ih rest fun d hd => hfront d (List.mem_cons_of_mem _ hd)⟩
    | alternatives _ _ _ =>
      obtain ⟨rfl, -⟩ := List.cons.inj hpattern
      cases hc

theorem Expands.eq_of_braceless {pattern text : List Char} (h : Expands pattern text)
    (hpattern : ∀ c ∈ pattern, isBrace c = false) : text = pattern := by
  induction h with
  | nil => rfl
  | char _ _ ih => rw [ih fun d hd => hpattern d (List.mem_cons_of_mem _ hd)]
  | alternatives _ _ _ _ _ => cases hpattern '{' List.mem_cons_self

/-! ## Accepted patterns -/

theorem validatePattern_ok_iff {pattern trimmed : String} :
    validatePattern pattern = .ok trimmed ↔
      trimmed = String.ofList (pattern.toList.rdropWhile (fun c => c = '/')) ∧ trimmed ≠ "" ∧
        (trimmed.toList.head? ≠ some '/' ∧ '\\' ∉ trimmed.toList) ∧
          ∀ segment ∈ trimmed.toList.splitOn '/', segment ≠ ['.', '.'] ∧ segment ≠ [] := by
  simp only [validatePattern, Result.bind_ok_iff, Result.exists_unit_iff, Result.ensure_ok_iff,
    Result.pure_ok_iff]
  constructor
  · rintro ⟨hne, hrelative, hsegments, rfl⟩
    exact ⟨rfl, hne, hrelative, hsegments⟩
  · rintro ⟨rfl, hne, hrelative, hsegments⟩
    exact ⟨hne, hrelative, hsegments, rfl⟩

theorem cleanSegments_eq {pattern trimmed : String} (h : validatePattern pattern = .ok trimmed) :
    cleanSegments pattern = (trimmed.toList.splitOn '/').filter (fun s => s ≠ ['.']) := by
  rw [cleanSegments, (validatePattern_ok_iff.mp h).1, String.toList_ofList]

theorem compilePatterns_singleton {globs : Globs} {pattern trimmed : String} {set : globs.GlobSet}
    (h : validatePattern pattern = .ok trimmed) :
    compilePatterns globs [pattern] = .ok set ↔
      ∃ gs, (globsOf trimmed).mapM globs.build = .ok gs ∧ globs.compile gs = .ok set := by
  simp only [compilePatterns, List.mapM_cons, List.mapM_nil, Result.bind_ok_iff, Result.pure_ok_iff]
  constructor
  · rintro ⟨_, ⟨gs, ⟨t, ht, hgs⟩, _, rfl, rfl⟩, hcompile⟩
    obtain rfl := Except.ok.inj (ht.symm.trans h)
    exact ⟨gs, hgs, by simpa using hcompile⟩
  · rintro ⟨gs, hgs, hcompile⟩
    exact ⟨_, ⟨gs, ⟨trimmed, h, hgs⟩, _, rfl, rfl⟩, by simpa using hcompile⟩

theorem globsOf_literal {trimmed : String} (hdot : trimmed ≠ ".") (hliteral : Literal trimmed) :
    globsOf trimmed = [trimmed, trimmed ++ "/**"] := by
  have hstars : trimmed ≠ "**" := by
    rintro rfl
    exact absurd hliteral (by unfold Literal; decide)
  rw [globsOf, if_neg (fun h => h.elim hdot hstars), if_neg (by rw [hliteral]; exact Bool.false_ne_true)]

theorem exists_build_pair {globs : Globs} {p q : String} {gs : List globs.Glob} :
    [p, q].mapM globs.build = .ok gs ↔
      ∃ a b, globs.build p = .ok a ∧ globs.build q = .ok b ∧ gs = [a, b] := by
  simp only [List.mapM_cons, List.mapM_nil, Result.bind_ok_iff, Result.pure_ok_iff]
  constructor
  · rintro ⟨a, ha, _, ⟨b, hb, _, rfl, rfl⟩, rfl⟩
    exact ⟨a, b, ha, hb, rfl⟩
  · rintro ⟨a, b, ha, hb, rfl⟩
    exact ⟨a, ha, _, ⟨b, hb, _, rfl, rfl⟩, rfl⟩

theorem normalized_of_segments {segments : List (List Char)} (hne : segments ≠ [])
    (h : ∀ s ∈ segments, '/' ∉ s ∧ s ≠ [] ∧ s ≠ ['.'] ∧ s ≠ ['.', '.']) :
    ∃ path : String, Normalized path ∧ path.toList.splitOn '/' = segments := by
  have hsplit := List.splitOn_intercalate '/' (fun s hs => (h s hs).1) hne
  refine ⟨String.ofList (['/'].intercalate segments), ⟨?_, ?_, ?_⟩, ?_⟩
  · intro hempty
    have hnil : ['/'].intercalate segments = [] := by
      rw [← String.toList_ofList (l := ['/'].intercalate segments), hempty]
      rfl
    rw [hnil] at hsplit
    exact (h [] (hsplit ▸ List.mem_singleton_self [])).2.1 rfl
  · rw [String.toList_ofList]
    intro hhead
    cases hlist : ['/'].intercalate segments with
    | nil =>
      rw [hlist] at hhead
      cases hhead
    | cons c rest =>
      rw [hlist] at hhead hsplit
      obtain rfl := Option.some.inj hhead
      rw [splitOn_cons_self] at hsplit
      exact (h [] (hsplit ▸ List.mem_cons_self)).2.1 rfl
  · rw [String.toList_ofList, hsplit]
    exact fun s hs => (h s hs).2
  · rw [String.toList_ofList, hsplit]

/-- What a literal pattern matches begins with the segments of something it stands for. -/
theorem expansion_of_match {globs : Globs} {covers : globs.Glob → String → Prop}
    (d : Documented globs covers) {trimmed path : String} {gs : List globs.Glob}
    {set : globs.GlobSet} (hdot : trimmed ≠ ".") (hliteral : Literal trimmed)
    (hgs : (globsOf trimmed).mapM globs.build = .ok gs) (hset : globs.compile gs = .ok set)
    (hpath : Normalized path) (hmatch : globs.isMatch set (utf8 path) = true) :
    ∃ text, Expands trimmed.toList text ∧ text.splitOn '/' <+: path.toList.splitOn '/' := by
  rw [globsOf_literal hdot hliteral, exists_build_pair] at hgs
  obtain ⟨a, b, ha, hb, rfl⟩ := hgs
  obtain ⟨g, hg, hcovers⟩ := (d.union hset path).mp hmatch
  simp only [List.mem_cons, List.not_mem_nil, or_false] at hg
  obtain rfl | rfl := hg
  · exact ⟨path.toList, d.alternatives hliteral ha hpath hcovers, List.prefix_rfl⟩
  · obtain ⟨text, rest, htext, hrest⟩ := d.alternativesBeneath hliteral hb hpath hcovers
    exact ⟨text, htext, splitOn_prefix_iff.mpr (.inr ⟨rest, hrest⟩)⟩

theorem exists_first_brace {pattern : List Char} (h : ¬ ∀ c ∈ pattern, isBrace c = false) :
    ∃ front b back, pattern = front ++ b :: back ∧ (∀ c ∈ front, isBrace c = false) ∧
      isBrace b = true := by
  have hsome : (pattern.find? isBrace).isSome = true := by
    rw [List.find?_isSome]
    by_contra hnone
    exact h fun c hc => Bool.eq_false_iff.mpr fun hbrace => hnone ⟨c, hc, hbrace⟩
  obtain ⟨b, hb⟩ := Option.isSome_iff_exists.mp hsome
  obtain ⟨hbrace, front, back, hsplit, hfront⟩ := List.find?_eq_some_iff_append.mp hb
  exact ⟨front, b, back, hsplit, fun c hc => by simpa using hfront c hc, hbrace⟩

/-- A pattern with a brace or a `.` segment stands for nothing above its own clean path. -/
theorem no_expansion {pattern text extra : List Char}
    (hexpands : Expands pattern text) (hextra : extra ≠ ['.'])
    (hinitial : text.splitOn '/' <+: (pattern.splitOn '/').filter (fun s => s ≠ ['.']) ++ [extra]) :
    (∀ c ∈ pattern, isBrace c = false) ∧ ['.'] ∉ pattern.splitOn '/' := by
  have hclean : ∀ s ∈ text.splitOn '/', s ≠ ['.'] := by
    intro s hs
    obtain hs | hs := List.mem_append.mp (hinitial.subset hs)
    · exact of_decide_eq_true (List.mem_filter.mp hs).2
    · rw [List.mem_singleton.mp hs]
      exact hextra
  by_cases hbraceless : ∀ c ∈ pattern, isBrace c = false
  · refine ⟨hbraceless, fun hdot => ?_⟩
    rw [hexpands.eq_of_braceless hbraceless] at hclean
    exact hclean _ hdot rfl
  · obtain ⟨front, b, back, rfl, hfront, hb⟩ := exists_first_brace hbraceless
    obtain ⟨rest, rfl⟩ := hexpands.prefix hfront
    obtain ⟨init, last, hlast⟩ : ∃ init last, front.splitOn '/' = init ++ [last] :=
      ⟨_, _, (List.dropLast_append_getLast (List.splitOn_ne_nil '/' front)).symm⟩
    obtain ⟨segment, segments, hback⟩ := List.exists_cons_of_ne_nil (List.splitOn_ne_nil '/' back)
    obtain ⟨part, parts, hrest⟩ := List.exists_cons_of_ne_nil (List.splitOn_ne_nil '/' rest)
    have hne : b ≠ '/' := by
      rintro rfl
      cases hb
    -- both begin with the segments in front of the brace, which are kept
    have htext := splitOn_append hlast hrest
    have hpattern := splitOn_append hlast (splitOn_cons_ne hne hback)
    have hinit : init.filter (fun s => s ≠ ['.']) = init :=
      List.filter_eq_self.mpr fun s hs =>
        decide_eq_true (hclean s (htext ▸ List.mem_append_left _ hs))
    have hkept : last ++ b :: segment ≠ ['.'] := by
      intro hdot
      have hmem : b ∈ ['.'] := hdot ▸ List.mem_append_right last List.mem_cons_self
      rw [List.mem_singleton.mp hmem] at hb
      cases hb
    have hhead : ((last ++ b :: segment) :: segments).filter (fun s => s ≠ ['.']) =
        (last ++ b :: segment) :: segments.filter (fun s => s ≠ ['.']) :=
      List.filter_cons_of_pos (p := fun s => decide (s ≠ ['.'])) (decide_eq_true hkept)
    rw [htext, hpattern, List.filter_append, hinit, hhead, List.append_assoc, List.prefix_append_right_inj, List.cons_append,
      List.cons_prefix_cons] at hinitial
    have hmem : b ∈ front ++ rest := by
      refine (@mem_of_mem_splitOn _ '/' _ _ _ (last ++ part) b ?_ ?_).1
      · rw [htext]
        exact List.mem_append_right init List.mem_cons_self
      · rw [hinitial.1]
        exact List.mem_append_right last List.mem_cons_self
    rw [hexpands.braceless b hmem] at hb
    cases hb

theorem literal_trimmed {pattern trimmed : String} (h : validatePattern pattern = .ok trimmed)
    (hliteral : Literal pattern) : Literal trimmed := by
  rw [Literal, List.any_eq_false] at hliteral ⊢
  intro c hc
  rw [(validatePattern_ok_iff.mp h).1, String.toList_ofList] at hc
  exact hliteral c ((List.rdropWhile_prefix _ _).subset hc)

theorem selectsItself_dot {globs : Globs} {covers : globs.Glob → String → Prop}
    (d : Documented globs covers) {pattern : String} (h : validatePattern pattern = .ok ".") :
    SelectsItself globs pattern := by
  obtain ⟨g, hg, hcovers⟩ := d.everything
  obtain ⟨set, hset⟩ := @Documented.compiles _ _ d [g] (by
    intro a ha
    obtain rfl := List.mem_singleton.mp ha
    exact ⟨"**", hg, .inl rfl⟩)
  refine ⟨set, (compilePatterns_singleton h).mpr ⟨[g], ?_, hset⟩, fun path hpath => ?_⟩
  · simp only [globsOf, true_or, if_true, List.mapM_cons, List.mapM_nil, Result.bind_ok_iff,
      Result.pure_ok_iff]
    exact ⟨g, hg, [], rfl, rfl⟩
  · have hclean : cleanSegments pattern = [] := by
      rw [cleanSegments_eq h]
      decide
    rw [hclean, d.union hset]
    exact ⟨fun _ => List.nil_prefix, fun _ => ⟨g, List.mem_singleton_self g, hcovers path hpath⟩⟩

theorem selectsItself_plain {globs : Globs} {covers : globs.Glob → String → Prop}
    (d : Documented globs covers) {pattern trimmed : String}
    (h : validatePattern pattern = .ok trimmed) (hne : trimmed ≠ ".") (hplain : Plain trimmed)
    (hdot : ['.'] ∉ trimmed.toList.splitOn '/') : SelectsItself globs pattern := by
  obtain ⟨a, ha, hexact⟩ := d.exact hplain
  obtain ⟨b, hb, hbeneath⟩ := d.beneath hplain
  obtain ⟨set, hset⟩ := @Documented.compiles _ _ d [a, b] (by
    intro g hg
    simp only [List.mem_cons, List.not_mem_nil, or_false] at hg
    obtain rfl | rfl := hg
    · exact ⟨trimmed, ha, .inr (.inl hplain)⟩
    · exact ⟨_, hb, .inr (.inr ⟨trimmed, hplain, rfl⟩)⟩)
  refine ⟨set, (compilePatterns_singleton h).mpr ⟨[a, b], ?_, hset⟩, fun path hpath => ?_⟩
  · rw [globsOf_literal hne hplain.literal, exists_build_pair]
    exact ⟨a, b, ha, hb, rfl⟩
  · have hclean : cleanSegments pattern = trimmed.toList.splitOn '/' := by
      rw [cleanSegments_eq h, List.filter_eq_self]
      exact fun s hs => decide_eq_true fun heq => hdot (heq ▸ hs)
    rw [hclean, d.union hset, splitOn_prefix_iff]
    simp only [List.mem_cons, List.not_mem_nil, or_false, exists_eq_or_imp, exists_eq_left,
      hexact path hpath, hbeneath path hpath, String.toList_inj]

/-- What selects its own clean path is `.` or has neither braces nor a `.` segment. -/
theorem plain_of_selectsItself {globs : Globs} {covers : globs.Glob → String → Prop}
    (d : Documented globs covers) {pattern trimmed : String}
    (h : validatePattern pattern = .ok trimmed) (hliteral : Literal pattern)
    (hselects : SelectsItself globs pattern) (hne : trimmed ≠ ".") :
    trimmed.toList.any isBrace = false ∧ ['.'] ∉ trimmed.toList.splitOn '/' := by
  have hvalid := (validatePattern_ok_iff.mp h).2
  obtain ⟨set, hcompile, hmatch⟩ := hselects
  obtain ⟨gs, hgs, hset⟩ := (compilePatterns_singleton h).mp hcompile
  -- a path beneath the clean pattern
  obtain ⟨path, hpath, hsegments⟩ :=
    @normalized_of_segments (cleanSegments pattern ++ [['a']]) (by simp) (by
      intro s hs
      obtain hs | hs := List.mem_append.mp hs
      · rw [cleanSegments_eq h, List.mem_filter] at hs
        obtain ⟨hdots, hnil⟩ := hvalid.2.2 s hs.1
        exact ⟨fun hslash => (mem_of_mem_splitOn hs.1 hslash).2 rfl, hnil, of_decide_eq_true hs.2,
          hdots⟩
      · rw [List.mem_singleton.mp hs]
        decide)
  have hmatched := (hmatch path hpath).mpr (hsegments ▸ List.prefix_append ..)
  obtain ⟨text, htext, hinitial⟩ :=
    expansion_of_match d hne (literal_trimmed h hliteral) hgs hset hpath hmatched
  rw [hsegments, cleanSegments_eq h] at hinitial
  obtain ⟨hbraceless, hdot⟩ := no_expansion htext (by decide) hinitial
  exact ⟨List.any_eq_false.mpr fun c hc => by rw [hbraceless c hc]; exact Bool.false_ne_true, hdot⟩

/-- A literal pattern selects its clean path exactly when it is `.` or has neither braces nor a `.`
segment. -/
theorem selectsItself_iff {globs : Globs} {covers : globs.Glob → String → Prop}
    (d : Documented globs covers) {pattern trimmed : String}
    (h : validatePattern pattern = .ok trimmed) (hliteral : Literal pattern) :
    SelectsItself globs pattern ↔
      trimmed = "." ∨
        trimmed.toList.any isBrace = false ∧ ['.'] ∉ trimmed.toList.splitOn '/' := by
  constructor
  · intro hselects
    exact or_iff_not_imp_left.mpr fun hne => plain_of_selectsItself d h hliteral hselects hne
  · rintro (rfl | ⟨hbraces, hdot⟩)
    · exact selectsItself_dot d h
    · by_cases hne : trimmed = "."
      · subst hne
        exact selectsItself_dot d h
      · exact selectsItself_plain d h hne
          ⟨literal_trimmed h hliteral, (validatePattern_ok_iff.mp h).2.2.1.2, hbraces⟩ hdot

/-! ## Globs with one pair of braces -/

inductive SampleGlob where
  | everything
  | names (names : List (List Char))
  | beneath (names : List (List Char))

/-- What a pattern with at most one pair of braces stands for. -/
def braceNames (pattern : List Char) : Option (List (List Char)) :=
  if pattern.any isBrace = false then some [pattern]
  else
    match pattern.splitOn '{' with
    | [front, rest] =>
      match rest.splitOn '}' with
      | [body, back] =>
        if '}' ∈ front then none else some ((body.splitOn ',').map fun o => front ++ (o ++ back))
      | _ => none
    | _ => none

def buildSample (pattern : String) : Result SampleGlob :=
  if pattern = "**" then .ok .everything
  else if "/**".toList.isSuffixOf pattern.toList then
    (okOr (braceNames (pattern.toList.take (pattern.toList.length - 3))) "unclosed alternate").map
      .beneath
  else (okOr (braceNames pattern.toList) "unclosed alternate").map .names

def coversSample : SampleGlob → String → Bool
  | .everything, _ => true
  | .names names, path => names.any fun n => n = path.toList
  | .beneath names, path => names.any fun n => (n ++ ['/']).isPrefixOf path.toList

def sampleGlobs : Globs where
  Glob := SampleGlob
  GlobSet := List SampleGlob
  build := buildSample
  compile := .ok
  isMatch set path :=
    match decodeUtf8 path with
    | none => false
    | some path => set.any (coversSample · path)

theorem Expands.of_braceless {pattern : List Char} (h : ∀ c ∈ pattern, isBrace c = false) :
    Expands pattern pattern := by
  induction pattern with
  | nil => exact .nil
  | cons c pattern ih =>
    exact .char (h c List.mem_cons_self) (ih fun d hd => h d (List.mem_cons_of_mem c hd))

theorem Expands.after {front pattern text : List Char} (hfront : ∀ c ∈ front, isBrace c = false)
    (h : Expands pattern text) : Expands (front ++ pattern) (front ++ text) := by
  induction front with
  | nil => exact h
  | cons c front ih =>
    exact .char (hfront c List.mem_cons_self)
      (ih fun d hd => hfront d (List.mem_cons_of_mem c hd))

theorem isBrace_eq_false_iff {c : Char} : isBrace c = false ↔ c ≠ '{' ∧ c ≠ '}' := by
  rw [isBrace, Bool.or_eq_false_iff, decide_eq_false_iff_not, decide_eq_false_iff_not]

theorem eq_of_splitOn_pair {c : Char} {text front back : List Char}
    (h : text.splitOn c = [front, back]) :
    text = front ++ c :: back ∧ c ∉ front ∧ c ∉ back := by
  refine ⟨?_, fun hc => ?_, fun hc => ?_⟩
  · calc
      text = [c].intercalate (text.splitOn c) := (List.intercalate_splitOn c).symm
      _ = front ++ c :: back := by rw [h]; simp
  · exact (@mem_of_mem_splitOn _ c _ _ text front c (by rw [h]; simp) hc).2 rfl
  · exact (@mem_of_mem_splitOn _ c _ _ text back c (by rw [h]; simp) hc).2 rfl

theorem expands_of_braceNames {pattern text : List Char} {names : List (List Char)}
    (h : braceNames pattern = some names) (htext : text ∈ names) : Expands pattern text := by
  rw [braceNames] at h
  split at h
  · rename_i hbraceless
    obtain rfl := Option.some.inj h
    obtain rfl := List.mem_singleton.mp htext
    exact .of_braceless fun c hc => Bool.eq_false_iff.mpr (List.any_eq_false.mp hbraceless c hc)
  · split at h
    · rename_i front rest hopen
      split at h
      · rename_i body back hclose
        split at h
        · cases h
        · rename_i hfront
          obtain rfl := Option.some.inj h
          obtain ⟨option, hoption, rfl⟩ := List.mem_map.mp htext
          obtain ⟨rfl, hopenFront, hopenRest⟩ := eq_of_splitOn_pair hopen
          obtain ⟨rfl, hcloseBody, hcloseBack⟩ := eq_of_splitOn_pair hclose
          have hbraceless : ∀ c ∈ option, isBrace c = false := by
            intro c hc
            have hbody := (mem_of_mem_splitOn hoption hc).1
            refine isBrace_eq_false_iff.mpr ⟨?_, ?_⟩
            · rintro rfl
              exact hopenRest (List.mem_append_left _ hbody)
            · rintro rfl
              exact hcloseBody hbody
          have hback : ∀ c ∈ back, isBrace c = false := by
            intro c hc
            refine isBrace_eq_false_iff.mpr ⟨?_, ?_⟩
            · rintro rfl
              exact hopenRest (List.mem_append_right _ (List.mem_cons_of_mem _ hc))
            · rintro rfl
              exact hcloseBack hc
          refine .after (fun c hc => isBrace_eq_false_iff.mpr ⟨?_, ?_⟩) ?_
          · rintro rfl
            exact hopenFront hc
          · rintro rfl
            exact hfront hc
          · have := Expands.alternatives hoption (.of_braceless hbraceless) (.of_braceless hback)
            rwa [List.intercalate_splitOn] at this
      · cases h
    · cases h

theorem star_not_mem {pattern : String} (h : Literal pattern) : '*' ∉ pattern.toList := by
  intro hstar
  have := List.any_eq_false.mp h '*' hstar
  exact this (by decide)

theorem buildSample_literal {pattern : String} (h : Literal pattern) :
    buildSample pattern = (okOr (braceNames pattern.toList) "unclosed alternate").map .names := by
  have hstar := star_not_mem h
  have hstars : pattern ≠ "**" := by
    rintro rfl
    exact hstar (by decide)
  have hsuffix : ¬ "/**".toList.isSuffixOf pattern.toList = true := by
    rw [List.isSuffixOf_iff_suffix]
    exact fun hsuffix => hstar (hsuffix.subset (by decide))
  rw [buildSample, if_neg hstars, if_neg hsuffix]

theorem buildSample_beneath (pattern : String) :
    buildSample (pattern ++ "/**") =
      (okOr (braceNames pattern.toList) "unclosed alternate").map .beneath := by
  have hlist : (pattern ++ "/**").toList = pattern.toList ++ ['/', '*', '*'] := String.toList_append
  have hstars : pattern ++ "/**" ≠ "**" := by
    intro heq
    have := congrArg (fun s : String => s.toList.length) heq
    simp [hlist] at this
  have hsuffix : "/**".toList.isSuffixOf (pattern ++ "/**").toList = true := by
    rw [List.isSuffixOf_iff_suffix, hlist]
    exact List.suffix_append ..
  rw [buildSample, if_neg hstars, if_pos hsuffix, hlist, List.length_append]
  exact congrArg (fun l => (okOr (braceNames l) "unclosed alternate").map SampleGlob.beneath)
    (List.take_left' (by simp))

theorem braceNames_plain {pattern : String} (h : Plain pattern) :
    braceNames pattern.toList = some [pattern.toList] := if_pos h.braces

theorem documented_sample : Documented sampleGlobs (fun g path => coversSample g path = true) where
  union := by
    intro gs set h path
    obtain rfl := Except.ok.inj h
    change (match decodeUtf8 (utf8 path) with
      | none => false
      | some path => gs.any (coversSample · path)) = true ↔ _
    rw [decodeUtf8_utf8]
    exact List.any_eq_true
  everything := ⟨.everything, rfl, fun _ _ => rfl⟩
  exact := by
    intro pattern h
    refine ⟨.names [pattern.toList], ?_, fun path _ => ?_⟩
    · exact (buildSample_literal h.literal).trans (by rw [braceNames_plain h]; rfl)
    · rw [coversSample, List.any_cons, List.any_nil, Bool.or_false, decide_eq_true_eq,
        String.toList_inj, eq_comm]
  beneath := by
    intro pattern h
    refine ⟨.beneath [pattern.toList], ?_, fun path _ => ?_⟩
    · exact (buildSample_beneath pattern).trans (by rw [braceNames_plain h]; rfl)
    · rw [coversSample, List.any_cons, List.any_nil, Bool.or_false, List.isPrefixOf_iff_prefix]
      constructor
      · rintro ⟨rest, hrest⟩
        exact ⟨rest, by rw [← hrest, List.append_assoc]; rfl⟩
      · rintro ⟨rest, hrest⟩
        exact ⟨rest, by rw [hrest, List.append_assoc]; rfl⟩
  compiles := fun {gs} _ => ⟨gs, rfl⟩
  alternatives := by
    intro pattern path g h hbuild _ hcovers
    obtain ⟨names, hnames, rfl⟩ :=
      Result.map_ok_iff.mp ((buildSample_literal h).symm.trans hbuild)
    obtain ⟨text, htext, hsame⟩ := List.any_eq_true.mp hcovers
    obtain rfl := of_decide_eq_true hsame
    exact expands_of_braceNames (Result.okOr_ok_iff.mp hnames) htext
  alternativesBeneath := by
    intro pattern path g h hbuild _ hcovers
    obtain ⟨names, hnames, rfl⟩ :=
      Result.map_ok_iff.mp ((buildSample_beneath pattern).symm.trans hbuild)
    obtain ⟨text, htext, hstands⟩ := List.any_eq_true.mp hcovers
    obtain ⟨rest, hrest⟩ := List.isPrefixOf_iff_prefix.mp hstands
    exact ⟨text, rest, expands_of_braceNames (Result.okOr_ok_iff.mp hnames) htext,
      by rw [← hrest, List.append_assoc]; rfl⟩

theorem selectsItself_iff_sample :
    SelectsItself sampleGlobs "src/" ↔
      "src" = "." ∨ "src".toList.any isBrace = false ∧ ['.'] ∉ "src".toList.splitOn '/' :=
  selectsItself_iff documented_sample (by decide) (by unfold Literal; decide)

/-- `{a,b}` stands for `a` and `b`, and nothing lies in `./src`. -/
theorem braces_and_dots_select_others :
    Documented sampleGlobs (fun g path => coversSample g path = true) ∧
    (validatePattern "\x7ba,b\x7d" = .ok "\x7ba,b\x7d" ∧ Literal "\x7ba,b\x7d" ∧ ¬ SelectsItself sampleGlobs "\x7ba,b\x7d") ∧
      validatePattern "./src" = .ok "./src" ∧ Literal "./src" ∧
        ¬ SelectsItself sampleGlobs "./src" := by
  have hbraces : validatePattern "\x7ba,b\x7d" = .ok "\x7ba,b\x7d" := by decide
  have hdots : validatePattern "./src" = .ok "./src" := by decide
  have hliteralBraces : Literal "\x7ba,b\x7d" := by unfold Literal; decide
  have hliteralDots : Literal "./src" := by unfold Literal; decide
  refine ⟨documented_sample, ⟨hbraces, hliteralBraces, fun hselects => ?_⟩, hdots, hliteralDots, fun hselects => ?_⟩
  · exact absurd (plain_of_selectsItself documented_sample hbraces hliteralBraces hselects
      (by decide)).1 (by decide)
  · exact absurd (by decide) (plain_of_selectsItself documented_sample hdots hliteralDots hselects
      (by decide)).2

end A3sBench.Submission
