import A3sBench.Asset
import A3sBench.Library.Captures
import A3sBench.ScoreNormalization
import A3sBench.StructuredResult

/-!
# The score in a legacy Judge's output

`parse_score`, with the two patterns of `pytest_ratio` and the one of
`extract_total_score`. A `u64` sum panics or wraps, as the build has it.
-/

namespace A3sBench.LegacyJudge

open Library Library.Matcher

/-! ## The patterns -/

def space : Matcher := plus (char Text.isWhitespace)

def digits : Matcher := plus (char Char.isDigit)

/-- `=+\s+([^\n]+?)\s+in\s+[0-9.]+s?\s+=*` -/
def summaryPattern : List Matcher :=
  [plus (char (fun c => c = '=')), space, lazyPlus (char (fun c => c ≠ '\n')), space, word "in",
    space, plus (char (fun c => c.isDigit || c = '.')), opt (char (fun c => c = 's')), space,
    star (char (fun c => c = '='))]

/-- `([0-9]+)\s+(passed|xfailed|xpassed|failed|errors?|skipped)` -/
def countsPattern : List Matcher :=
  [digits, space, alt [word "passed", word "xfailed", word "xpassed", word "failed",
    seq (word "error") (opt (char (fun c => c = 's'))), word "skipped"]]

/-- `[0-9]+(?:\.[0-9]+)?(?:[eE][+-]?[0-9]+)?` -/
def numberPattern : Matcher :=
  seq digits (seq (opt (seq (char (fun c => c = '.')) digits))
    (opt (seq (char (fun c => c = 'e' || c = 'E'))
      (seq (opt (char (fun c => c = '+' || c = '-'))) digits))))

/-- `TOTAL_SCORE\s+(inf|...)` -/
def totalPattern : List Matcher := [word "TOTAL_SCORE", space, alt [word "inf", numberPattern]]

/-- What a part of a pattern read. -/
def group (found : List (List Char)) (part : Nat) : String := String.ofList (found.getD part [])

/-! ## The parsers -/

/-- `+` on `u64`; `checks` says whether the build checks overflows. -/
def addU64 (checks : Bool) (x y : Nat) : Outcome Nat :=
  if x + y < 2 ^ 64 then .ok (x + y)
  else if checks then .error (.panic "attempt to add with overflow")
  else .ok ((x + y) % 2 ^ 64)

def parseU64 : String → Result Nat := Asset.parseUsize -- both have 64 bits

/-- One turn of the loop of `pytest_ratio`, on the passed and the failed so far. -/
def countItem (checks : Bool) (tally : Nat × Nat) (item : List (List Char)) :
    Outcome (Nat × Nat) := do
  let count ← Outcome.ofResult (parseU64 (group item 0))
  if group item 2 ∈ ["passed", "xfailed", "xpassed"] then do
    let passed ← addU64 checks tally.1 count
    pure (passed, tally.2)
  else if group item 2 ∈ ["failed", "error", "errors"] then do
    let failed ← addU64 checks tally.2 count
    pure (tally.1, failed)
  else pure tally

/-- The text of the last summary line. -/
def lastSummary (output : String) : Option (List Char) :=
  (allCaptures summaryPattern output.toList).getLast?.map (fun found => found.getD 2 [])

/-- The counts of the last summary line. -/
def items (output : String) : List (List (List Char)) :=
  ((lastSummary output).map (allCaptures countsPattern)).getD []

section Score

variable {F : Type} (N : Numbers F) (checks : Bool) (debug : String → String)
  (fromStr : String → Result Json)

def pytestRatio (output : String) : Outcome F :=
  match lastSummary output with
  | none => .ok (N.ofRat 0)
  | some summary => do
    let tally ← (allCaptures countsPattern summary).foldlM (countItem checks) (0, 0)
    let total ← addU64 checks tally.1 tally.2
    pure (if total = 0 then N.ofRat 0 else N.div (N.ofRat tally.1) (N.ofRat total))

def extractTotalScore (output : String) : Option F :=
  (allCaptures totalPattern output.toList).head?.bind (fun found => N.parse (group found 2))

/-- The fields of a `LegacyJudgeSource` that decide a score. -/
structure ScoreSource where
  parser : String
  rescale : Option Json
  selectionHint : String
  requiresModelGateway : Bool

/-- The score of a structured result. -/
def structuredScore (source : ScoreSource) : Option Json → Result F
  | none => do
    ensure (source.requiresModelGateway = false)
      "model-backed structured Judge produced no structured result"
    pure (N.ofRat 0)
  | some value => do
    ensure (((value.get "valid").bind Json.asBool).getD true = true)
      "structured Judge marked result invalid"
    match (value.get "score").bind N.asF64 with
    | some score => N.normalizeRaw debug source.rescale score
    | none => pure (N.clamp (((value.get "pass_rate").bind N.asF64).getD (N.ofRat 0))
        (N.ofRat 0) (N.ofRat 1))

/-- The score when an output has no total. -/
def missingScore (selectionHint output : String) : Outcome F :=
  match selectionHint with
  | "pass_rate_first" => pytestRatio N checks output
  | "score_first" | "valid_then_score" => .ok (N.ofRat 0)
  | value => .error (.error ("unsupported Judge selection policy " ++ debug value))

def parseScore (source : ScoreSource) (output : String) : Outcome F :=
  match source.parser with
  | "structured_json" => do
    let value ← extractStructured checks fromStr output
    Outcome.ofResult (structuredScore N debug source value)
  | "score_sum" =>
    Outcome.ofResult (N.normalizeRaw debug source.rescale
      ((extractTotalScore N output).getD (N.ofRat 0)))
  | "pytest_v" => do
    let missing ← missingScore N checks debug source.selectionHint output
    match extractTotalScore N output with
    | some raw => Outcome.ofResult (N.normalizeRaw debug source.rescale raw)
    | none => .ok missing
  | value => .error (.error ("unsupported legacy Judge parser " ++ debug value))

end Score

/-! ## Kinds of failures -/

section Failures

variable {ε α β : Type} {P : ε → Prop}

/-- When a computation fails, its failure is of a kind. -/
def OnlyFails (P : ε → Prop) (x : Except ε α) : Prop := ∀ e, x = .error e → P e

theorem onlyFails_ok (a : α) : OnlyFails P (.ok a) := by
  intro e h
  cases h

theorem onlyFails_error {e : ε} (h : P e) : OnlyFails P (.error e : Except ε α) := by
  rintro _ ⟨⟩
  exact h

theorem onlyFails_bind {x : Except ε α} {f : α → Except ε β} (hx : OnlyFails P x)
    (hf : ∀ a, OnlyFails P (f a)) : OnlyFails P (x >>= f) := by
  cases x with
  | ok a => exact hf a
  | error e => exact onlyFails_error (hx e rfl)

theorem onlyFails_foldlM {f : β → α → Except ε β} {l : List α}
    (hf : ∀ a ∈ l, ∀ b, OnlyFails P (f b a)) (b : β) : OnlyFails P (l.foldlM f b) := by
  induction l generalizing b with
  | nil => exact onlyFails_ok b
  | cons a l ih =>
    obtain ⟨ha, hl⟩ := List.forall_mem_cons.mp hf
    rw [List.foldlM_cons]
    exact onlyFails_bind (ha b) fun b' => ih hl b'

end Failures

/-! ## The counts -/

def tooLarge : String := "number too large to fit in target type"

def overflow : String := "attempt to add with overflow"

/-- The number in a text of digits. -/
def digitsValue (text : List Char) : Nat := text.foldl (fun n c => 10 * n + (c.toNat - 48)) 0

def countOf (item : List (List Char)) : Nat := digitsValue (item.getD 0 [])

/-- What an item adds to the passed and to the failed. -/
def share (item : List (List Char)) : Nat × Nat :=
  if group item 2 ∈ ["passed", "xfailed", "xpassed"] then (countOf item, 0)
  else if group item 2 ∈ ["failed", "error", "errors"] then (0, countOf item)
  else (0, 0)

def shares (items : List (List (List Char))) : Nat × Nat := (items.map share).sum

def CountsFit (items : List (List (List Char))) : Prop := ∀ item ∈ items, countOf item < 2 ^ 64

/-- The sum of the shares fits. -/
def SumFits (items : List (List (List Char))) : Prop := (shares items).1 + (shares items).2 < 2 ^ 64

/-- The items of a count: its text is made of digits. -/
def IsCount (item : List (List Char)) : Prop :=
  ∃ w rest, item = w :: rest ∧ w ≠ [] ∧ ∀ c ∈ w, c.isDigit = true

theorem isCount_of_mem_items {output : String} {item : List (List Char)} (h : item ∈ items output) :
    IsCount item := by
  unfold items at h
  cases hsummary : lastSummary output with
  | none =>
    rw [hsummary] at h
    cases h
  | some summary =>
    rw [hsummary] at h
    obtain ⟨at_, hreading⟩ := mem_capturesIter h
    obtain ⟨w, hw, rest, rfl⟩ := readings_cons (reads_char Char.isDigit).plus hreading
    obtain ⟨hne, hdigits⟩ := mem_plus_charLanguage hw
    exact ⟨w, rest, rfl, hne, hdigits⟩

theorem parseU64_of_isCount {item : List (List Char)} (h : IsCount item) :
    parseU64 (group item 0) =
      if countOf item < 2 ^ 64 then .ok (countOf item) else .error tooLarge := by
  obtain ⟨w, rest, rfl, hne, hdigits⟩ := h
  have hall : w.all Char.isDigit = true := List.all_eq_true.mpr hdigits
  have hnonempty : String.ofList w ≠ "" := by
    rw [ne_eq, ← String.toList_inj, String.toList_ofList]
    exact hne
  change Asset.parseUsize (String.ofList w) = if digitsValue w < 2 ^ 64 then _ else _
  unfold Asset.parseUsize
  rw [String.toList_ofList]
  split
  · exact absurd (hdigits '+' (List.mem_cons_self ..)) (by decide)
  · simp only [ensure, hnonempty, hne, hall, ne_eq, not_false_eq_true, and_self, if_true, bind,
      Except.bind]
    rw [show w.foldl (fun n c => 10 * n + (c.toNat - 48)) 0 = digitsValue w from rfl]
    split_ifs <;> rfl

/-! ## The sums -/

section Sums

variable {checks : Bool}

theorem shares_cons (item : List (List Char)) (rest : List (List (List Char))) :
    shares (item :: rest) = share item + shares rest := by
  rw [shares, List.map_cons, List.sum_cons]
  rfl

theorem addU64_of_lt {x y : Nat} (h : x + y < 2 ^ 64) : addU64 checks x y = .ok (x + y) := if_pos h

theorem addU64_wraps (x y : Nat) : addU64 false x y = .ok ((x + y) % 2 ^ 64) := by
  by_cases h : x + y < 2 ^ 64
  · rw [addU64_of_lt h, Nat.mod_eq_of_lt h]
  · exact if_neg h

theorem addU64_panics {x y : Nat} (h : ¬ x + y < 2 ^ 64) :
    addU64 true x y = .error (.panic overflow) := if_neg h

/-- The failures of the counting. -/
def CountFailure (failure : Failure) : Prop := failure = .error tooLarge ∨ failure = .panic overflow

theorem addU64_failure (x y : Nat) : OnlyFails CountFailure (addU64 checks x y) := by
  intro failure h
  unfold addU64 at h
  split_ifs at h
  exact .inr (Except.error.inj h).symm

def addShare (checks : Bool) (tally share : Nat × Nat) : Outcome (Nat × Nat) := do
  let passed ← addU64 checks tally.1 share.1
  let failed ← addU64 checks tally.2 share.2
  pure (passed, failed)

/-- One turn, when the count can be read. -/
theorem countItem_eq {tally : Nat × Nat} {item : List (List Char)} (hitem : IsCount item)
    (hcount : countOf item < 2 ^ 64) (htally : tally.1 < 2 ^ 64 ∧ tally.2 < 2 ^ 64) :
    countItem checks tally item = addShare checks tally (share item) := by
  have hfirst : addU64 checks tally.1 0 = .ok tally.1 := addU64_of_lt htally.1
  have hsecond : addU64 checks tally.2 0 = .ok tally.2 := addU64_of_lt htally.2
  rw [countItem, parseU64_of_isCount hitem, if_pos hcount, share, addShare]
  simp only [Outcome.ofResult, bind, Except.bind]
  split_ifs
  · simp only [hsecond]
  · simp only [hfirst]
  · simp only [hfirst, hsecond]

theorem countItem_tooLarge {tally : Nat × Nat} {item : List (List Char)} (hitem : IsCount item)
    (hcount : ¬ countOf item < 2 ^ 64) : countItem checks tally item = .error (.error tooLarge) := by
  rw [countItem, parseU64_of_isCount hitem, if_neg hcount]
  rfl

theorem countItem_failure {tally : Nat × Nat} {item : List (List Char)} (hitem : IsCount item) :
    OnlyFails CountFailure (countItem checks tally item) := by
  refine onlyFails_bind ?_ fun count => ?_
  · rw [parseU64_of_isCount hitem]
    split_ifs
    · exact onlyFails_ok _
    · exact onlyFails_error (.inl rfl)
  · split_ifs
    · exact onlyFails_bind (addU64_failure _ _) fun _ => onlyFails_ok _
    · exact onlyFails_bind (addU64_failure _ _) fun _ => onlyFails_ok _
    · exact onlyFails_ok _

theorem addU64_ok {x y z : Nat} (h : addU64 checks x y = .ok z) :
    z < 2 ^ 64 ∧ (checks = true → z = x + y) := by
  unfold addU64 at h
  split_ifs at h with hlt hchecks
  · obtain rfl := Except.ok.inj h
    exact ⟨hlt, fun _ => rfl⟩
  · obtain rfl := Except.ok.inj h
    exact ⟨Nat.mod_lt _ (by decide), fun htrue => absurd htrue hchecks⟩

theorem addShare_ok {tally share next : Nat × Nat} (h : addShare checks tally share = .ok next) :
    (next.1 < 2 ^ 64 ∧ next.2 < 2 ^ 64) ∧ (checks = true → next = tally + share) := by
  unfold addShare at h
  cases hpassed : addU64 checks tally.1 share.1 with
  | error e =>
    rw [hpassed] at h
    cases h
  | ok passed =>
    cases hfailed : addU64 checks tally.2 share.2 with
    | error e =>
      rw [hpassed, hfailed] at h
      cases h
    | ok failed =>
      rw [hpassed, hfailed] at h
      obtain rfl := Except.ok.inj h
      obtain ⟨hlt, hpassed⟩ := addU64_ok hpassed
      obtain ⟨hlt', hfailed⟩ := addU64_ok hfailed
      exact ⟨⟨hlt, hlt'⟩, fun hchecks => Prod.ext (hpassed hchecks) (hfailed hchecks)⟩

theorem addShare_of_lt {tally share : Nat × Nat} (hpassed : tally.1 + share.1 < 2 ^ 64)
    (hfailed : tally.2 + share.2 < 2 ^ 64) : addShare checks tally share = .ok (tally + share) := by
  rw [addShare, addU64_of_lt hpassed, addU64_of_lt hfailed]
  rfl

theorem countItems_exact {l : List (List (List Char))} {tally : Nat × Nat}
    (hitems : ∀ item ∈ l, IsCount item) (hfit : CountsFit l)
    (hpassed : tally.1 + (shares l).1 < 2 ^ 64) (hfailed : tally.2 + (shares l).2 < 2 ^ 64) :
    l.foldlM (countItem checks) tally = .ok (tally + shares l) := by
  induction l generalizing tally with
  | nil => rfl
  | cons item l ih =>
    obtain ⟨hitem, hitems⟩ := List.forall_mem_cons.mp hitems
    obtain ⟨hcount, hfit⟩ := List.forall_mem_cons.mp hfit
    rw [shares_cons, Prod.fst_add, ← Nat.add_assoc] at hpassed
    rw [shares_cons, Prod.snd_add, ← Nat.add_assoc] at hfailed
    have hfirst : tally.1 + (share item).1 < 2 ^ 64 := by omega
    have hsecond : tally.2 + (share item).2 < 2 ^ 64 := by omega
    rw [List.foldlM_cons, countItem_eq hitem hcount ⟨by omega, by omega⟩,
      addShare_of_lt hfirst hsecond, shares_cons, ← add_assoc]
    exact ih hitems hfit hpassed hfailed

theorem countItems_wraps {l : List (List (List Char))} {tally : Nat × Nat}
    (hitems : ∀ item ∈ l, IsCount item) (hfit : CountsFit l)
    (htally : tally.1 < 2 ^ 64 ∧ tally.2 < 2 ^ 64) :
    ∃ last, l.foldlM (countItem false) tally = .ok last := by
  induction l generalizing tally with
  | nil => exact ⟨tally, rfl⟩
  | cons item l ih =>
    obtain ⟨hitem, hitems⟩ := List.forall_mem_cons.mp hitems
    obtain ⟨hcount, hfit⟩ := List.forall_mem_cons.mp hfit
    rw [List.foldlM_cons, countItem_eq hitem hcount htally, addShare, addU64_wraps, addU64_wraps]
    exact ih hitems hfit ⟨Nat.mod_lt _ (by decide), Nat.mod_lt _ (by decide)⟩

/-- A run over the items that returns has read every count, and with checks its sums fit. -/
theorem countItems_ok {l : List (List (List Char))} {tally last : Nat × Nat}
    (hitems : ∀ item ∈ l, IsCount item) (htally : tally.1 < 2 ^ 64 ∧ tally.2 < 2 ^ 64)
    (h : l.foldlM (countItem checks) tally = .ok last) :
    CountsFit l ∧ (checks = true → last = tally + shares l ∧ last.1 < 2 ^ 64 ∧ last.2 < 2 ^ 64) := by
  induction l generalizing tally with
  | nil =>
    obtain rfl := Except.ok.inj h
    exact ⟨fun item hitem => absurd hitem List.not_mem_nil, fun _ => ⟨rfl, htally⟩⟩
  | cons item l ih =>
    obtain ⟨hitem, hitems⟩ := List.forall_mem_cons.mp hitems
    rw [List.foldlM_cons] at h
    by_cases hcount : countOf item < 2 ^ 64
    · rw [countItem_eq hitem hcount htally] at h
      cases hnext : addShare checks tally (share item) with
      | error e =>
        rw [hnext] at h
        cases h
      | ok next =>
        rw [hnext] at h
        obtain ⟨hbounds, hsum⟩ := addShare_ok hnext
        obtain ⟨hfit, hlast⟩ := ih hitems hbounds h
        refine ⟨List.forall_mem_cons.mpr ⟨hcount, hfit⟩, fun hchecks => ?_⟩
        rw [shares_cons, ← add_assoc, ← hsum hchecks]
        exact hlast hchecks
    · rw [countItem_tooLarge hitem hcount] at h
      cases h

end Sums

/-! ## The pass ratio -/

section Ratio

variable {F : Type} {N : Numbers F} {checks : Bool} {output : String}

theorem pytestRatio_eq : pytestRatio N checks output = (do
    let tally ← (items output).foldlM (countItem checks) (0, 0)
    let total ← addU64 checks tally.1 tally.2
    pure (if total = 0 then N.ofRat 0 else N.div (N.ofRat tally.1) (N.ofRat total))) := by
  rw [pytestRatio, items]
  cases lastSummary output with
  | none => rfl
  | some summary => rfl

theorem pytestRatio_failure : OnlyFails CountFailure (pytestRatio N checks output) := by
  rw [pytestRatio_eq]
  refine onlyFails_bind (onlyFails_foldlM (fun item hitem tally => ?_) _) fun tally => ?_
  · exact countItem_failure (isCount_of_mem_items hitem)
  · exact onlyFails_bind (addU64_failure _ _) fun total => onlyFails_ok _

theorem pytestRatio_exact (hfit : CountsFit (items output)) (hsum : SumFits (items output)) :
    pytestRatio N checks output = .ok (
      if (shares (items output)).1 + (shares (items output)).2 = 0 then N.ofRat 0
      else N.div (N.ofRat (shares (items output)).1)
        (N.ofRat ((shares (items output)).1 + (shares (items output)).2 : Nat))) := by
  unfold SumFits at hsum
  rw [pytestRatio_eq, countItems_exact (fun item hitem => isCount_of_mem_items hitem) hfit
    (by rw [Nat.zero_add]; omega) (by rw [Nat.zero_add]; omega)]
  rw [show ((0, 0) : Nat × Nat) + shares (items output) = shares (items output) from zero_add _]
  simp only [bind, Except.bind, addU64_of_lt hsum]
  rfl

/-- The ratio is computed exactly when every count can be read and, with checks, the sums fit. -/
theorem pytestRatio_ok_iff : (∃ ratio, pytestRatio N checks output = .ok ratio) ↔
    CountsFit (items output) ∧ (checks = true → SumFits (items output)) := by
  have hitems : ∀ item ∈ items output, IsCount item := fun item hitem => isCount_of_mem_items hitem
  constructor
  · rintro ⟨ratio, h⟩
    rw [pytestRatio_eq] at h
    cases hrun : (items output).foldlM (countItem checks) (0, 0) with
    | error e =>
      rw [hrun] at h
      cases h
    | ok tally =>
      rw [hrun] at h
      obtain ⟨hfit, hlast⟩ := countItems_ok hitems (by decide) hrun
      refine ⟨hfit, fun hchecks => ?_⟩
      obtain ⟨htally, -, -⟩ := hlast hchecks
      cases htotal : addU64 checks tally.1 tally.2 with
      | error e =>
        simp only [bind, Except.bind, htotal] at h
        cases h
      | ok total =>
        obtain ⟨hlt, heq⟩ := addU64_ok htotal
        rw [show ((0, 0) : Nat × Nat) + shares (items output) = shares (items output)
          from zero_add _] at htally
        rw [heq hchecks, htally] at hlt
        exact hlt
  · rintro ⟨hfit, hsum⟩
    cases checks with
    | true => exact ⟨_, pytestRatio_exact hfit (hsum rfl)⟩
    | false =>
      obtain ⟨tally, htally⟩ := countItems_wraps hitems hfit
        (show ((0, 0) : Nat × Nat).1 < 2 ^ 64 ∧ ((0, 0) : Nat × Nat).2 < 2 ^ 64 by decide)
      rw [pytestRatio_eq, htally]
      simp only [bind, Except.bind, addU64_wraps]
      exact ⟨_, rfl⟩

/-- With counts that can be read, the sums stay in their range and the ratio is the exact one
precisely when passed and failed together fit. -/
theorem pytestRatio_ratio_iff (ln ln1p : ℚ → ℚ) {output : String}
    (hfit : CountsFit (items output)) :
    (∀ checks, ∃ ratio : ℚ, pytestRatio (Numbers.exact ln ln1p) checks output = .ok ratio ∧
      ratio = (shares (items output)).1 / ((shares (items output)).1 + (shares (items output)).2) ∧
      0 ≤ ratio ∧ ratio ≤ 1 ∧ (ratio = 0 → (shares (items output)).1 = 0)) ↔
    SumFits (items output) := by
  constructor
  · intro h
    obtain ⟨ratio, hratio, -⟩ := h true
    exact (pytestRatio_ok_iff.mp ⟨ratio, hratio⟩).2 rfl
  · intro hsum checks
    have hratio : pytestRatio (Numbers.exact ln ln1p) checks output = _ :=
      pytestRatio_exact hfit hsum
    set passed := (shares (items output)).1
    set failed := (shares (items output)).2
    have hpassed : (0 : ℚ) ≤ passed := Nat.cast_nonneg passed
    have hfailed : (0 : ℚ) ≤ failed := Nat.cast_nonneg failed
    refine ⟨passed / (passed + failed), ?_, rfl, by positivity, ?_, ?_⟩
    · rw [hratio]
      simp only [Numbers.exact_ofRat, Numbers.exact_div, id_eq, Nat.cast_add]
      split_ifs with hzero
      · obtain ⟨hp, hf⟩ := Nat.add_eq_zero_iff.mp hzero
        rw [hp, hf, Nat.cast_zero, zero_div]
      · rfl
    · exact div_le_one_of_le₀ (by linarith) (by linarith)
    · intro hzero
      rcases div_eq_zero_iff.mp hzero with hp | htotal
      · exact_mod_cast hp
      · have hp : (passed : ℚ) = 0 := by linarith
        exact_mod_cast hp

end Ratio

/-! ## The selection hints -/

section Hints

variable {F : Type} {N : Numbers F} {checks : Bool} {debug : String → String}
  {fromStr : String → Result Json} {spec : Json} {raw : F}

theorem ne_tooLarge {message : String} {c : Char} (hhead : message.toList.head? = some c)
    (hc : c ≠ 'n') : message ≠ tooLarge := by
  rintro rfl
  exact hc (Option.some.inj hhead).symm

theorem okOr_failure {α : Type} {x : Option α} {front back : String}
    (hhead : front.toList.head? = some 'r') :
    OnlyFails (fun message => message ≠ tooLarge) (okOr x (front ++ back)) := by
  cases x with
  | some a => exact onlyFails_ok a
  | none =>
    refine onlyFails_error (ne_tooLarge (c := 'r') ?_ (by decide))
    rw [String.toList_append, List.head?_append, hhead]
    rfl

theorem field_failure (name : String) :
    OnlyFails (fun message => message ≠ tooLarge) (N.field spec name) := by
  refine onlyFails_bind (okOr_failure rfl) fun value => onlyFails_bind ?_ fun _ => onlyFails_ok _
  unfold ensure
  split_ifs
  · exact onlyFails_ok _
  · refine onlyFails_error (ne_tooLarge (c := 'r') ?_ (by decide))
    rw [String.toList_append, String.toList_append]
    rfl

theorem fallingLine_failure :
    OnlyFails (fun message => message ≠ tooLarge) (N.fallingLine spec raw) :=
  onlyFails_bind (field_failure _) fun _ => onlyFails_bind (field_failure _) fun _ => onlyFails_ok _

theorem piecewise_failure (minimize logarithmic : Bool) :
    OnlyFails (fun message => message ≠ tooLarge) (N.piecewise raw spec minimize logarithmic) := by
  refine onlyFails_bind (okOr_failure rfl) fun baseline => onlyFails_bind (okOr_failure rfl)
    fun rank30 => onlyFails_bind (okOr_failure rfl) fun rank1 => onlyFails_bind (okOr_failure rfl)
    fun superAnchor => ?_
  dsimp only
  split_ifs <;> exact onlyFails_ok _

theorem percent_failure :
    OnlyFails (fun message => message ≠ tooLarge) (N.percent debug spec raw) := by
  have hfield := @field_failure F N spec
  unfold Numbers.percent
  dsimp only
  split
  · exact onlyFails_bind (hfield _) fun _ => onlyFails_bind (hfield _) fun _ => onlyFails_ok _
  · exact fallingLine_failure
  · split_ifs
    · exact onlyFails_ok _
    · exact fallingLine_failure
  · refine onlyFails_bind (hfield _) fun anchorRaw => ?_
    split_ifs
    · exact onlyFails_ok _
    · exact onlyFails_bind (hfield _) fun _ => onlyFails_ok _
  · split_ifs
    · exact onlyFails_ok _
    · exact fallingLine_failure
  · refine onlyFails_bind (hfield _) fun anchorRaw => ?_
    split_ifs
    · exact onlyFails_ok _
    · exact onlyFails_bind (hfield _) fun _ => onlyFails_ok _
  · refine onlyFails_bind (hfield _) fun baseline => onlyFails_bind (hfield _) fun expert => ?_
    split_ifs <;> exact onlyFails_ok _
  · refine onlyFails_bind (hfield _) fun baseline => onlyFails_bind (hfield _) fun expert => ?_
    split_ifs <;> exact onlyFails_ok _
  · refine onlyFails_bind (hfield _) fun baseline => onlyFails_bind (hfield _) fun upper => ?_
    split_ifs <;> exact onlyFails_ok _
  · exact piecewise_failure _ _
  · exact piecewise_failure _ _
  · exact piecewise_failure _ _
  · refine onlyFails_error (ne_tooLarge (c := 'u') ?_ (by decide))
    rw [String.toList_append]
    rfl

theorem normalizeRaw_failure (spec : Option Json) :
    OnlyFails (fun message => message ≠ tooLarge) (N.normalizeRaw debug spec raw) := by
  unfold Numbers.normalizeRaw
  split_ifs
  · exact onlyFails_ok _
  · cases spec with
    | none => exact onlyFails_ok _
    | some spec => exact onlyFails_bind percent_failure fun percent => onlyFails_ok _

/-- The hints a descriptor may hold. -/
def selectionHints : List String := ["score_first", "pass_rate_first", "valid_then_score"]

variable {output : String}

theorem parseScore_total (source : ScoreSource) (hparser : source.parser = "pytest_v")
    (htotal : extractTotalScore N output = some raw) {missing : F}
    (hmissing : missingScore N checks debug source.selectionHint output = .ok missing) :
    parseScore N checks debug fromStr source output =
      Outcome.ofResult (N.normalizeRaw debug source.rescale raw) := by
  simp only [parseScore, hparser, hmissing, bind, Except.bind, htotal]

theorem parseScore_missing (source : ScoreSource) (hparser : source.parser = "pytest_v")
    {failure : Failure}
    (hmissing : missingScore N checks debug source.selectionHint output = .error failure) :
    parseScore N checks debug fromStr source output = .error failure := by
  simp only [parseScore, hparser, hmissing, bind, Except.bind]

/-- Where an output has a total, the hints agree exactly when the pass ratio can be computed:
one of them computes it before it looks at the total. -/
theorem parseScore_hints_iff {source : ScoreSource} (hparser : source.parser = "pytest_v")
    (htotal : extractTotalScore N output = some raw) :
    (∀ hint ∈ selectionHints, ∀ hint' ∈ selectionHints,
      parseScore N checks debug fromStr { source with selectionHint := hint } output =
        parseScore N checks debug fromStr { source with selectionHint := hint' } output) ↔
    CountsFit (items output) ∧ (checks = true → SumFits (items output)) := by
  have hzero : ∀ hint ∈ ["score_first", "valid_then_score"],
      parseScore N checks debug fromStr { source with selectionHint := hint } output =
        Outcome.ofResult (N.normalizeRaw debug source.rescale raw) := by
    intro hint hmem
    simp only [List.mem_cons, List.not_mem_nil, or_false] at hmem
    rcases hmem with rfl | rfl
    · exact parseScore_total { source with selectionHint := "score_first" } hparser htotal rfl
    · exact parseScore_total { source with selectionHint := "valid_then_score" } hparser htotal rfl
  rw [← pytestRatio_ok_iff (N := N)]
  constructor
  · intro h
    cases hratio : pytestRatio N checks output with
    | ok ratio => exact ⟨ratio, rfl⟩
    | error failure =>
      have hfirst := h "pass_rate_first" (by simp [selectionHints]) "score_first"
        (by simp [selectionHints])
      have hfails : parseScore N checks debug fromStr
          { source with selectionHint := "pass_rate_first" } output = .error failure :=
        parseScore_missing { source with selectionHint := "pass_rate_first" } hparser hratio
      rw [hzero "score_first" (by simp), hfails] at hfirst
      -- the failures of the two runs have nothing in common
      cases hscore : N.normalizeRaw debug source.rescale raw with
      | ok score =>
        rw [hscore] at hfirst
        cases hfirst
      | error message =>
        rw [hscore] at hfirst
        obtain rfl := Except.error.inj hfirst
        rcases pytestRatio_failure _ hratio with hlarge | hpanic
        · exact absurd (Failure.error.inj hlarge) (normalizeRaw_failure _ _ hscore)
        · cases hpanic
  · rintro ⟨ratio, hratio⟩
    have hsame : ∀ hint ∈ selectionHints,
        parseScore N checks debug fromStr { source with selectionHint := hint } output =
          Outcome.ofResult (N.normalizeRaw debug source.rescale raw) := by
      intro hint hmem
      simp only [selectionHints, List.mem_cons, List.not_mem_nil, or_false] at hmem
      rcases hmem with rfl | rfl | rfl
      · exact hzero "score_first" (by simp)
      · exact parseScore_total { source with selectionHint := "pass_rate_first" } hparser htotal
          hratio
      · exact hzero "valid_then_score" (by simp)
    intro hint hhint hint' hhint'
    rw [hsame hint hhint, hsame hint' hhint']

end Hints

def sampleSource : ScoreSource where
  parser := "pytest_v"
  rescale := none
  selectionHint := "pass_rate_first"
  requiresModelGateway := false

def sampleOutput : String := "=== 4 passed, 1 failed in 0.28s ===\nTOTAL_SCORE 50.0\n"

theorem items_sampleOutput : items sampleOutput =
    [["4".toList, " ".toList, "passed".toList], ["1".toList, " ".toList, "failed".toList]] := by
  decide +kernel

theorem total_sampleOutput : extractTotalScore (Numbers.exact id id) sampleOutput = some 50 := by
  decide +kernel

theorem fits_sampleOutput : CountsFit (items sampleOutput) ∧ SumFits (items sampleOutput) := by
  rw [items_sampleOutput]
  constructor
  · intro item hitem
    simp only [List.mem_cons, List.not_mem_nil, or_false] at hitem
    rcases hitem with rfl | rfl <;> decide
  · unfold SumFits
    decide

theorem pytestRatio_ratio_sample : ∃ ratio : ℚ,
    pytestRatio (Numbers.exact id id) true sampleOutput = .ok ratio ∧ 0 ≤ ratio ∧ ratio ≤ 1 := by
  obtain ⟨ratio, hratio, -, hlow, hhigh, -⟩ :=
    (pytestRatio_ratio_iff id id fits_sampleOutput.1).mpr fits_sampleOutput.2 true
  exact ⟨ratio, hratio, hlow, hhigh⟩

theorem parseScore_hints_sample :
    parseScore (Numbers.exact id id) true id (fun _ => .error "")
        { sampleSource with selectionHint := "pass_rate_first" } sampleOutput =
      parseScore (Numbers.exact id id) true id (fun _ => .error "")
        { sampleSource with selectionHint := "score_first" } sampleOutput :=
  (parseScore_hints_iff (show sampleSource.parser = "pytest_v" from rfl) total_sampleOutput).mpr
    ⟨fits_sampleOutput.1, fun _ => fits_sampleOutput.2⟩ _ (by simp [selectionHints]) _
    (by simp [selectionHints])

/-! ## Outputs that break the count -/

def largeCount : String := "=== 99999999999999999999 passed in 1s ===\nTOTAL_SCORE 50"

theorem items_largeCount : items largeCount =
    [["99999999999999999999".toList, " ".toList, "passed".toList]] := by decide +kernel

theorem total_largeCount : extractTotalScore (Numbers.exact id id) largeCount = some 50 := by
  decide +kernel

/-- A count that no `u64` holds fails the run for one of the hints, though there is a total. -/
theorem largeCount_splits_hints : extractTotalScore (Numbers.exact id id) largeCount = some 50 ∧
    parseScore (Numbers.exact id id) true id (fun _ => .error "")
      { sampleSource with selectionHint := "pass_rate_first" } largeCount =
        .error (.error tooLarge) ∧
    parseScore (Numbers.exact id id) true id (fun _ => .error "")
      { sampleSource with selectionHint := "score_first" } largeCount = .ok (1 / 2) := by
  have hratio : pytestRatio (Numbers.exact id id) true largeCount = .error (.error tooLarge) := by
    rw [pytestRatio_eq, items_largeCount]
    have hitem : IsCount ["99999999999999999999".toList, " ".toList, "passed".toList] :=
      isCount_of_mem_items (items_largeCount ▸ List.mem_singleton_self _)
    rw [List.foldlM_cons, countItem_tooLarge hitem (by decide)]
    rfl
  have hcurve : (Numbers.exact id id).normalizeRaw id none 50 = .ok (curve none 50 / 100) :=
    normalizeRaw_eq .none trivial trivial
  refine ⟨total_largeCount, parseScore_missing _ rfl hratio, ?_⟩
  rw [parseScore_total _ rfl total_largeCount rfl]
  exact (congrArg Outcome.ofResult hcurve).trans
    (by norm_num [curve, polyline, lerp, Outcome.ofResult])

def largeSum : String := "=== 18446744073709551615 passed, 1 failed in 1s ==="

theorem items_largeSum : items largeSum =
    [["18446744073709551615".toList, " ".toList, "passed".toList],
      ["1".toList, " ".toList, "failed".toList]] := by decide +kernel

/-- Two counts that fit, whose sum does not: a build with checks panics, and one without counts
nothing as passed. -/
theorem largeSum_overflows : CountsFit (items largeSum) ∧
    (shares (items largeSum)).1 = 18446744073709551615 ∧
    pytestRatio (Numbers.exact id id) true largeSum = .error (.panic overflow) ∧
    pytestRatio (Numbers.exact id id) false largeSum = .ok 0 := by
  rw [pytestRatio_eq, pytestRatio_eq, items_largeSum]
  refine ⟨?_, by decide +kernel, rfl, ?_⟩
  · intro item hitem
    simp only [List.mem_cons, List.not_mem_nil, or_false] at hitem
    rcases hitem with rfl | rfl <;> decide
  · rfl

end A3sBench.LegacyJudge
