import A3sBench.Json
import A3sBench.Library.JsonGrammar
import A3sBench.Library.Occurrence

/-!
# The structured result in a Judge's output

`extract_structured` takes the text between two markers, or the first object
with a score. The brace scanner that finds the end of an object counts braces
outside strings; on an object of the JSON grammar it stops at its last brace.
-/

namespace A3sBench.LegacyJudge

open Library

/-! ## The brace scanner -/

/-- `+ 1` and `- 1` on `u32`; `checks` says whether the build checks overflows. -/
def increment (checks : Bool) (depth : Nat) : Outcome Nat :=
  if depth + 1 < 2 ^ 32 then .ok (depth + 1)
  else if checks then .error (.panic "attempt to add with overflow")
  else .ok 0

def decrement (checks : Bool) (depth : Nat) : Outcome Nat :=
  if 0 < depth then .ok (depth - 1)
  else if checks then .error (.panic "attempt to subtract with overflow")
  else .ok (2 ^ 32 - 1)

structure Scanner where
  depth : Nat
  string : Bool
  escape : Bool
  deriving DecidableEq

/-- The loop of `json_object_end`, at a byte index. -/
def jsonObjectEndFrom (checks : Bool) (s : Scanner) (index : Nat) :
    List Char → Outcome (Option Nat)
  | [] => .ok none
  | c :: rest =>
    let next := index + c.utf8Size
    if s.escape then jsonObjectEndFrom checks { s with escape := false } next rest
    else if s.string && c == '\\' then jsonObjectEndFrom checks { s with escape := true } next rest
    else if c == '"' then jsonObjectEndFrom checks { s with string := !s.string } next rest
    else if !s.string && c == '\x7b' then
      match increment checks s.depth with
      | .error failure => .error failure
      | .ok depth => jsonObjectEndFrom checks { s with depth := depth } next rest
    else if !s.string && c == '\x7d' then
      match decrement checks s.depth with
      | .error failure => .error failure
      | .ok depth =>
        if depth = 0 then .ok (some (index + 1))
        else jsonObjectEndFrom checks { s with depth := depth } next rest
    else jsonObjectEndFrom checks s next rest

def jsonObjectEnd (checks : Bool) (value : List Char) : Outcome (Option Nat) :=
  jsonObjectEndFrom checks { depth := 0, string := false, escape := false } 0 value

/-! ## The extraction -/

def startMarker : String := ">>>>> Start Structured Result"

def endMarker : String := ">>>>> End Structured Result"

/-- The characters of the first bytes of a text. -/
def takeBytes : Nat → List Char → List Char
  | 0, _ => []
  | _ + 1, [] => []
  | n + 1, c :: rest => c :: takeBytes (n + 1 - c.utf8Size) rest

def isScored (value : Json) : Bool := (value.get "score").isSome || (value.get "pass_rate").isSome

section Extract

variable (checks : Bool) (fromStr : String → Result Json)

/-- The loop over the positions of a brace. -/
def firstScored : List Char → Outcome (Option Json)
  | [] => .ok none
  | c :: rest =>
    if c = '\x7b' then
      match jsonObjectEnd checks (c :: rest) with
      | .error failure => .error failure
      | .ok none => firstScored rest
      | .ok (some length) =>
        match fromStr (String.ofList (takeBytes length (c :: rest))) with
        | .error _ => firstScored rest
        | .ok value => if isScored value then .ok (some value) else firstScored rest
    else firstScored rest

/-- The slice between the markers, when it is one. -/
def markedBody (output : List Char) (first last : Nat) : Outcome String :=
  if first + startMarker.toList.length ≤ last then
    .ok (Text.trim (String.ofList
      ((output.take last).drop (first + startMarker.toList.length))))
  else .error (.panic "begin <= end")

def extractStructured (output : String) : Outcome (Option Json) :=
  match find startMarker.toList output.toList, find endMarker.toList output.toList with
  | some first, some last => do
    let body ← markedBody output.toList first last
    Outcome.ofResult (some <$> context "invalid structured Judge JSON" (fromStr body))
  | _, _ => firstScored checks fromStr output.toList

end Extract

/-! ## The counter -/

section Counter

variable {checks : Bool} {s : Scanner} {index : Nat} {text : List Char}

theorem increment_ok {depth : Nat} (h : depth + 1 < 2 ^ 32) :
    increment checks depth = .ok (depth + 1) := if_pos h

theorem decrement_ok {depth : Nat} (h : 0 < depth) : decrement checks depth = .ok (depth - 1) :=
  if_pos h

/-- Inside an object of a text that is not too long the counter stays in its range. -/
theorem jsonObjectEndFrom_not_panics (hpos : 0 < s.depth) (hsize : s.depth + text.length < 2 ^ 32) :
    ¬ (jsonObjectEndFrom checks s index text).Panics ∧
      jsonObjectEndFrom checks s index text = jsonObjectEndFrom true s index text := by
  induction text generalizing s index with
  | nil => exact ⟨Outcome.not_panics_ok _, rfl⟩
  | cons c rest ih =>
    rw [List.length_cons] at hsize
    unfold jsonObjectEndFrom
    rw [increment_ok (by omega), increment_ok (by omega), decrement_ok hpos, decrement_ok hpos]
    dsimp only
    split_ifs
    · exact ih hpos (by dsimp only; omega)
    · exact ih hpos (by dsimp only; omega)
    · exact ih hpos (by dsimp only; omega)
    · exact ih (Nat.succ_pos _) (by dsimp only; omega)
    · exact ⟨Outcome.not_panics_ok _, rfl⟩
    · exact ih (Nat.pos_of_ne_zero ‹_›) (by dsimp only; omega)
    · exact ih hpos (by omega)

/-- A build with checks never subtracts from zero. -/
theorem jsonObjectEndFrom_no_underflow (hpos : 0 < s.depth) :
    jsonObjectEndFrom true s index text ≠ .error (.panic "attempt to subtract with overflow") := by
  induction text generalizing s index with
  | nil => exact fun h => by cases h
  | cons c rest ih =>
    unfold jsonObjectEndFrom
    rw [decrement_ok hpos]
    dsimp only
    split_ifs
    · exact ih hpos
    · exact ih hpos
    · exact ih hpos
    · unfold increment
      split_ifs
      · exact ih (Nat.succ_pos _)
      · exact fun h => by simp at h
      · rename_i hchecks
        exact absurd rfl hchecks
    · exact fun h => by cases h
    · exact ih (Nat.pos_of_ne_zero ‹_›)
    · exact ih hpos

theorem jsonObjectEnd_brace (checks : Bool) (rest : List Char) :
    jsonObjectEnd checks ('\x7b' :: rest) =
      jsonObjectEndFrom checks { depth := 1, string := false, escape := false } 1 rest := rfl

theorem panics_of_error {failure : Failure}
    (h : jsonObjectEndFrom checks s index text = .error failure) :
    Outcome.Panics (.error failure : Outcome (Option Nat)) := by
  induction text generalizing s index with
  | nil => cases h
  | cons c rest ih =>
    unfold jsonObjectEndFrom at h
    dsimp only at h
    split_ifs at h
    · exact ih h
    · exact ih h
    · exact ih h
    · unfold increment at h
      split_ifs at h
      · exact ih h
      · exact ⟨_, h.symm⟩
      · exact ih h
    · unfold decrement at h
      split_ifs at h
      · dsimp only at h
        split_ifs at h
        exact ih h
      · exact ⟨_, h.symm⟩
      · rw [show (2 : Nat) ^ 32 - 1 = 4294967295 from rfl] at h
        exact ih h
    · exact ih h

theorem jsonObjectEnd_not_panics {rest : List Char} (hsize : rest.length + 1 < 2 ^ 32) :
    ¬ (jsonObjectEnd checks ('\x7b' :: rest)).Panics := by
  rw [jsonObjectEnd_brace]
  exact (jsonObjectEndFrom_not_panics Nat.one_pos (by dsimp only; omega)).1

end Counter

/-! ## Panics -/

section Panics

variable {checks : Bool} {fromStr : String → Result Json}

theorem firstScored_not_panics {text : List Char} (hsize : text.length < 2 ^ 32) :
    ¬ (firstScored checks fromStr text).Panics := by
  induction text with
  | nil => exact Outcome.not_panics_ok _
  | cons c rest ih =>
    rw [List.length_cons] at hsize
    have hrest := ih (by omega)
    rw [firstScored]
    split
    · rename_i hbrace
      subst hbrace
      have hend := @jsonObjectEnd_not_panics checks rest (by omega)
      split
      · rename_i failure hfailure
        rw [hfailure] at hend
        rintro ⟨message, hpanic⟩
        exact hend ⟨message, by rw [Except.error.inj hpanic]⟩
      · exact hrest
      · split
        · exact hrest
        · split
          · exact Outcome.not_panics_ok _
          · exact hrest
    · exact hrest

theorem markedBody_of_le {output : List Char} {first last : Nat}
    (h : first + startMarker.toList.length ≤ last) :
    markedBody output first last = .ok (Text.trim (String.ofList
      ((output.take last).drop (first + startMarker.toList.length)))) := if_pos h

/-- Neither marker can begin inside the first one. -/
theorem apart_markers : StandApart startMarker.toList endMarker.toList := by
  have hall : ∀ k < startMarker.toList.length, 0 < k →
      (startMarker.toList.drop k).isPrefixOf endMarker.toList = false ∧
        endMarker.toList.isPrefixOf (startMarker.toList.drop k) = false := by
    decide +kernel
  intro k hpos hlt
  have hk := hall k hlt hpos
  rw [← List.isPrefixOf_iff_prefix, ← List.isPrefixOf_iff_prefix, hk.1, hk.2]
  exact ⟨Bool.false_ne_true, Bool.false_ne_true⟩

theorem markers_ne {text : List Char} {i : Nat} (hfirst : startMarker.toList <+: text.drop i)
    (hlast : endMarker.toList <+: text.drop i) : False := by
  have hne : startMarker.toList.isPrefixOf endMarker.toList = false ∧
      endMarker.toList.isPrefixOf startMarker.toList = false := by decide +kernel
  rcases List.prefix_or_prefix_of_prefix hfirst hlast with h | h
  · rw [List.isPrefixOf_iff_prefix.mpr h] at hne
    cases hne.1
  · rw [List.isPrefixOf_iff_prefix.mpr h] at hne
    cases hne.2

/-- The first end marker stands before the first start marker. -/
def EndsFirst (output : String) : Prop :=
  ∃ first last, find startMarker.toList output.toList = some first ∧
    find endMarker.toList output.toList = some last ∧ last < first

/-- Markers in order do not overlap. -/
theorem le_of_not_endsFirst {output : String} {first last : Nat}
    (hfirst : find startMarker.toList output.toList = some first)
    (hlast : find endMarker.toList output.toList = some last) (h : ¬ EndsFirst output) :
    first + startMarker.toList.length ≤ last := by
  obtain ⟨-, hstart, -⟩ := find_eq_some_iff.mp hfirst
  obtain ⟨-, hend, -⟩ := find_eq_some_iff.mp hlast
  apply apart_markers.le hstart hend
  rcases Nat.lt_trichotomy first last with hlt | rfl | hgt
  · exact hlt
  · exact (markers_ne hstart hend).elim
  · exact absurd ⟨first, last, hfirst, hlast, hgt⟩ h

/-- The limit `execute` puts on the output before it is parsed. -/
def maxOutputBytes : Nat := 16 * 1024 * 1024

theorem length_le_utf8 (text : List Char) : text.length ≤ (text.map Char.utf8Size).sum := by
  induction text with
  | nil => exact Nat.zero_le _
  | cons c rest ih =>
    have hpos := Char.utf8Size_pos c
    simp only [List.length_cons, List.map_cons, List.sum_cons]
    omega

theorem length_lt_of_output {output : String} (hsize : Text.byteLength output ≤ maxOutputBytes) :
    output.toList.length < 2 ^ 32 := by
  have hlength := length_le_utf8 output.toList
  rw [Text.byteLength, maxOutputBytes] at hsize
  omega

/-- The outcome is the value of a text between a start marker and an end marker
behind it. -/
def ParsesBetween (fromStr : String → Result Json) (output : String)
    (outcome : Outcome (Option Json)) : Prop :=
  ∃ first last, startMarker.toList <+: output.toList.drop first ∧
    endMarker.toList <+: output.toList.drop last ∧ first + startMarker.toList.length ≤ last ∧
    outcome = Outcome.ofResult (some <$> context "invalid structured Judge JSON"
      (fromStr (Text.trim (String.ofList
        ((output.toList.take last).drop (first + startMarker.toList.length))))))

theorem extractStructured_of_markers {output : String} {first last : Nat}
    (hfirst : find startMarker.toList output.toList = some first)
    (hlast : find endMarker.toList output.toList = some last) :
    extractStructured checks fromStr output =
      (markedBody output.toList first last >>= fun body =>
        Outcome.ofResult (some <$> context "invalid structured Judge JSON" (fromStr body))) := by
  unfold extractStructured
  rw [hfirst, hlast]

theorem panics_of_endsFirst {output : String} (h : EndsFirst output) :
    (extractStructured checks fromStr output).Panics := by
  obtain ⟨first, last, hfirst, hlast, hlt⟩ := h
  refine ⟨"begin <= end", ?_⟩
  rw [extractStructured_of_markers hfirst hlast, markedBody, if_neg (by omega)]
  rfl

theorem parsesBetween_of_markers {output : String} {first last : Nat}
    (hfirst : find startMarker.toList output.toList = some first)
    (hlast : find endMarker.toList output.toList = some last) (h : ¬ EndsFirst output) :
    ParsesBetween fromStr output (extractStructured checks fromStr output) := by
  have hle := le_of_not_endsFirst hfirst hlast h
  refine ⟨first, last, (find_eq_some_iff.mp hfirst).2.1, (find_eq_some_iff.mp hlast).2.1, hle, ?_⟩
  rw [extractStructured_of_markers hfirst hlast, markedBody_of_le hle]
  rfl

theorem extractStructured_not_panics {output : String}
    (hsize : Text.byteLength output ≤ maxOutputBytes) (h : ¬ EndsFirst output) :
    ¬ (extractStructured checks fromStr output).Panics := by
  cases hfirst : find startMarker.toList output.toList with
  | some first =>
    cases hlast : find endMarker.toList output.toList with
    | some last =>
      obtain ⟨_, _, -, -, -, houtcome⟩ :=
        @parsesBetween_of_markers checks fromStr output first last hfirst hlast h
      rw [houtcome]
      exact Outcome.not_panics_ofResult _
    | none =>
      unfold extractStructured
      rw [hfirst, hlast]
      exact firstScored_not_panics (length_lt_of_output hsize)
  | none =>
    unfold extractStructured
    rw [hfirst]
    exact firstScored_not_panics (length_lt_of_output hsize)

end Panics

/-- `extract_structured` keeps its promises exactly when the first end marker is
not before the first start marker. -/
theorem extractStructured_total_iff (checks : Bool) (fromStr : String → Result Json)
    (output : String) (hsize : Text.byteLength output ≤ maxOutputBytes) :
    (¬ (extractStructured checks fromStr output).Panics ∧
        ∀ first last, startMarker.toList <+: output.toList.drop first →
          endMarker.toList <+: output.toList.drop last → first < last →
          ParsesBetween fromStr output (extractStructured checks fromStr output)) ↔
      ¬ EndsFirst output := by
  constructor
  · exact fun h hends => h.1 (panics_of_endsFirst hends)
  · intro h
    refine ⟨extractStructured_not_panics hsize h, fun first last hstart hend _ => ?_⟩
    obtain ⟨_, -, hfirst⟩ := find_le hstart
    obtain ⟨_, -, hlast⟩ := find_le hend
    exact parsesBetween_of_markers hfirst hlast h

theorem extractStructured_total_iff_sample :
    (¬ (extractStructured true (fun _ => .ok .null) "compiler error").Panics ∧
        ∀ first last, startMarker.toList <+: "compiler error".toList.drop first →
          endMarker.toList <+: "compiler error".toList.drop last → first < last →
          ParsesBetween (fun _ => .ok .null) "compiler error"
            (extractStructured true (fun _ => .ok .null) "compiler error")) ↔
      ¬ EndsFirst "compiler error" :=
  extractStructured_total_iff true (fun _ => .ok .null) "compiler error" (by decide)

/-- A Judge that prints an end marker first makes the slice end before it begins. -/
theorem end_before_start_panics :
    ¬ ∀ (checks : Bool) (fromStr : String → Result Json) (output : String),
      Text.byteLength output ≤ maxOutputBytes →
        ¬ (extractStructured checks fromStr output).Panics := by
  intro hall
  have hends : EndsFirst ">>>>> End Structured Result>>>>> Start Structured Result" :=
    ⟨27, 0, by decide +kernel, by decide +kernel, by decide⟩
  exact hall false (fun _ => .error "") _ (by decide +kernel) (panics_of_endsFirst hends)

/-! ## The scanner on the grammar -/

open JsonGrammar (Blank IsObject IsNumber StringBody)

def utf8Length (text : List Char) : Nat := (text.map Char.utf8Size).sum

@[simp] theorem utf8Length_nil : utf8Length [] = 0 := rfl

@[simp] theorem utf8Length_cons (c : Char) (rest : List Char) :
    utf8Length (c :: rest) = c.utf8Size + utf8Length rest := rfl

@[simp] theorem utf8Length_append (a b : List Char) :
    utf8Length (a ++ b) = utf8Length a + utf8Length b := by
  simp [utf8Length]

/-- The scanner reads the text outside of strings and forgets it. -/
def Passes (checks : Bool) (depth : Nat) (text : List Char) : Prop :=
  ∀ index rest,
    jsonObjectEndFrom checks { depth := depth, string := false, escape := false } index
        (text ++ rest) =
      jsonObjectEndFrom checks { depth := depth, string := false, escape := false }
        (index + utf8Length text) rest

section Passes

variable {checks : Bool} {depth : Nat} {a b text : List Char}

theorem Passes.append (ha : Passes checks depth a) (hb : Passes checks depth b) :
    Passes checks depth (a ++ b) := by
  intro index rest
  rw [List.append_assoc, ha, hb, utf8Length_append, Nat.add_assoc]

/-- No quote and no brace. -/
def IsQuiet (c : Char) : Prop := c ≠ '"' ∧ c ≠ '\x7b' ∧ c ≠ '\x7d'

theorem passes_of_quiet (h : ∀ c ∈ text, IsQuiet c) : Passes checks depth text := by
  induction text with
  | nil => exact fun index rest => rfl
  | cons c text ih =>
    obtain ⟨⟨hquote, hopen, hclose⟩, htext⟩ := List.forall_mem_cons.mp h
    intro index rest
    rw [List.cons_append, jsonObjectEndFrom]
    simp only [Bool.false_eq_true, if_false, Bool.false_and, Bool.not_false, Bool.true_and,
      beq_iff_eq, hquote, hopen, hclose]
    rw [ih htext, utf8Length_cons, Nat.add_assoc]

theorem Passes.cons_quiet {c : Char} (hc : IsQuiet c) (h : Passes checks depth text) :
    Passes checks depth (c :: text) := by
  have hone : Passes checks depth [c] := passes_of_quiet (by simpa using hc)
  exact hone.append h

theorem utf8Size_ascii (c : Char) (h : c.toNat < 128) : c.utf8Size = 1 := Text.utf8Size_of_ascii h

/-- Inside a string nothing but an unescaped quote changes the state. -/
theorem scan_stringBody (h : StringBody text) (index : Nat) (rest : List Char) :
    jsonObjectEndFrom checks { depth := depth, string := true, escape := false } index
        (text ++ rest) =
      jsonObjectEndFrom checks { depth := depth, string := true, escape := false }
        (index + utf8Length text) rest := by
  have hplain : ∀ (c : Char) (index : Nat) (rest : List Char), c ≠ '"' → c ≠ '\\' →
      jsonObjectEndFrom checks { depth := depth, string := true, escape := false } index
          (c :: rest) =
        jsonObjectEndFrom checks { depth := depth, string := true, escape := false }
          (index + c.utf8Size) rest := by
    intro c index rest hquote hescape
    rw [jsonObjectEndFrom]
    simp [hquote, hescape]
  have hescaped : ∀ (c : Char) (index : Nat) (rest : List Char),
      jsonObjectEndFrom checks { depth := depth, string := true, escape := false } index
          ('\\' :: c :: rest) =
        jsonObjectEndFrom checks { depth := depth, string := true, escape := false }
          (index + ('\\'.utf8Size + c.utf8Size)) rest := by
    intro c index rest
    rw [jsonObjectEndFrom]
    simp only [Bool.false_eq_true, if_false, Bool.true_and, beq_self_eq_true, if_true]
    rw [jsonObjectEndFrom]
    simp only [if_true, Nat.add_assoc]
  induction h generalizing index with
  | nil => rfl
  | char hquote hescape hcontrol _ ih =>
    rw [List.cons_append, hplain _ _ _ hquote hescape, ih, utf8Length_cons, Nat.add_assoc]
  | escape hc _ ih =>
    rw [List.cons_append, List.cons_append, hescaped, ih]
    simp only [utf8Length_cons, Nat.add_assoc]
  | unicode hhex _ ih =>
    obtain ⟨ha, hb, hc, hd⟩ := hhex
    have hne : ∀ {x : Char}, JsonGrammar.isHex x = true → x ≠ '"' ∧ x ≠ '\\' := by
      rintro x hx
      constructor <;> rintro rfl <;> cases hx
    simp only [List.cons_append]
    rw [hescaped, hplain _ _ _ (hne ha).1 (hne ha).2, hplain _ _ _ (hne hb).1 (hne hb).2,
      hplain _ _ _ (hne hc).1 (hne hc).2, hplain _ _ _ (hne hd).1 (hne hd).2, ih]
    simp only [utf8Length_cons, Nat.add_assoc]

theorem passes_string (h : StringBody text) : Passes checks depth ('"' :: (text ++ ['"'])) := by
  intro index rest
  rw [List.cons_append, List.append_assoc, jsonObjectEndFrom]
  simp only [Bool.false_eq_true, if_false, Bool.false_and, beq_self_eq_true, if_true,
    Bool.not_false]
  rw [scan_stringBody h, List.singleton_append, jsonObjectEndFrom]
  simp only [Bool.false_eq_true, if_false, beq_self_eq_true, if_true, Bool.not_true,
    utf8Length_cons, utf8Length_append, utf8Length_nil, Nat.add_assoc, Nat.add_zero]
  rfl

theorem passes_braces (hpos : 0 < depth) (hsize : depth + 1 < 2 ^ 32)
    (h : Passes checks (depth + 1) text) :
    Passes checks depth ('\x7b' :: (text ++ ['\x7d'])) := by
  intro index rest
  rw [List.cons_append, List.append_assoc, jsonObjectEndFrom, increment_ok hsize]
  simp only [Bool.false_eq_true, if_false, Bool.false_and, Bool.not_false, Bool.true_and,
    beq_iff_eq, if_true, Char.reduceEq]
  rw [h, List.singleton_append, jsonObjectEndFrom, decrement_ok (Nat.succ_pos _)]
  simp only [Bool.false_eq_true, if_false, Bool.false_and, Bool.not_false, Bool.true_and,
    beq_iff_eq, if_true, Char.reduceEq, Nat.succ_sub_one, hpos.ne', utf8Length_cons,
    utf8Length_append, utf8Length_nil, Nat.add_assoc, Nat.add_zero]

theorem quiet_of_blank (h : Blank text) : ∀ c ∈ text, IsQuiet c := by
  intro c hc
  have hspace := h c hc
  refine ⟨?_, ?_, ?_⟩ <;> rintro rfl <;> cases hspace

theorem quiet_of_isDigit {c : Char} (h : c.isDigit = true) : IsQuiet c := by
  refine ⟨?_, ?_, ?_⟩ <;> rintro rfl <;> cases h

theorem quiet_of_number (h : IsNumber text) : ∀ c ∈ text, IsQuiet c := by
  obtain ⟨sign, integer, fraction, exponent, rfl, hsign, ⟨-, hinteger, -⟩, hfraction, hexponent⟩ := h
  have hmark : ∀ c ∈ ['-', '+', '.', 'e', 'E'], IsQuiet c := by
    simp [IsQuiet]
  simp only [List.mem_append]
  rintro c (hc | hc | hc | hc)
  · simp only [List.mem_cons, List.not_mem_nil, or_false] at hsign
    rcases hsign with rfl | rfl
    · cases hc
    · exact hmark c (by simp_all)
  · exact quiet_of_isDigit (hinteger c hc)
  · rcases hfraction with rfl | ⟨digits, rfl, -, hdigits⟩
    · cases hc
    · rcases List.mem_cons.mp hc with rfl | hc
      · exact hmark _ (by simp)
      · exact quiet_of_isDigit (hdigits c hc)
  · rcases hexponent with rfl | ⟨mark, sign, digits, rfl, hmarked, hsign, -, hdigits⟩
    · cases hc
    · rcases List.mem_cons.mp hc with rfl | hc
      · exact hmark _ (by simp_all)
      · rcases List.mem_append.mp hc with hc | hc
        · simp only [List.mem_cons, List.not_mem_nil, or_false] at hsign
          rcases hsign with rfl | rfl | rfl
          · cases hc
          · exact hmark c (by simp_all)
          · exact hmark c (by simp_all)
        · exact quiet_of_isDigit (hdigits c hc)

theorem quiet_of_literal {name : List Char}
    (h : name ∈ ["null".toList, "true".toList, "false".toList]) : ∀ c ∈ name, IsQuiet c := by
  have hall : ∀ name ∈ ["null".toList, "true".toList, "false".toList], ∀ c ∈ name, IsQuiet c := by
    simp [IsQuiet]
  exact hall name h

theorem passes_brackets (h : Passes checks depth text) :
    Passes checks depth ('[' :: (text ++ [']'])) := by
  have hopen : IsQuiet '[' := by simp [IsQuiet]
  have hclose : ∀ c ∈ [']'], IsQuiet c := by simp [IsQuiet]
  exact .cons_quiet hopen (h.append (passes_of_quiet hclose))

/-- Every text of the grammar is passed inside an object. -/
theorem passes_of_text {kind : JsonGrammar.Kind} (h : JsonGrammar.Text kind text) (hpos : 0 < depth)
    (hsize : depth + text.length < 2 ^ 32) : Passes checks depth text := by
  have hcomma : IsQuiet ',' := by simp [IsQuiet]
  have hcolon : IsQuiet ':' := by simp [IsQuiet]
  induction h generalizing depth with
  | literal h => exact passes_of_quiet (quiet_of_literal h)
  | number h => exact passes_of_quiet (quiet_of_number h)
  | string h => exact passes_string h
  | emptyArray h => exact passes_brackets (passes_of_quiet (quiet_of_blank h))
  | array h ih =>
    simp only [List.length_cons, List.length_append] at hsize
    exact passes_brackets (ih hpos (by omega))
  | emptyObject h =>
    simp only [List.length_cons, List.length_append] at hsize
    exact passes_braces hpos (by omega) (passes_of_quiet (quiet_of_blank h))
  | object h ih =>
    simp only [List.length_cons, List.length_append] at hsize
    exact passes_braces hpos (by omega) (ih (Nat.succ_pos _) (by omega))
  | element hbefore _ hafter ih =>
    simp only [List.length_append] at hsize
    exact (passes_of_quiet (quiet_of_blank hbefore)).append
      ((ih hpos (by omega)).append (passes_of_quiet (quiet_of_blank hafter)))
  | one _ ih => exact ih hpos hsize
  | elements _ _ ihFirst ihRest =>
    simp only [List.length_cons, List.length_append] at hsize
    exact (ihFirst hpos (by omega)).append (.cons_quiet hcomma (ihRest hpos (by omega)))
  | @member before name after value hbefore hname hafter _ ih =>
    simp only [List.length_cons, List.length_append] at hsize
    have hvalue := ih hpos (by omega)
    have hrest := (passes_of_quiet (quiet_of_blank hafter)).append (.cons_quiet hcolon hvalue)
    have hmember := (passes_of_quiet (quiet_of_blank hbefore)).append
      ((passes_string hname).append hrest)
    simpa using hmember
  | members _ _ ihFirst ihRest =>
    simp only [List.length_cons, List.length_append] at hsize
    exact (ihFirst hpos (by omega)).append (.cons_quiet hcomma (ihRest hpos (by omega)))

/-- The end of an object is its last brace, whatever follows. -/
theorem jsonObjectEnd_of_isObject (h : IsObject text) (hsize : text.length < 2 ^ 32)
    (rest : List Char) :
    jsonObjectEnd checks (text ++ rest) = .ok (some (utf8Length text)) := by
  obtain ⟨inner, rfl, hinner⟩ := JsonGrammar.isObject_iff.mp h
  simp only [List.length_cons, List.length_append, List.length_nil] at hsize
  have hpasses : Passes checks 1 inner := by
    rcases hinner with hblank | hmembers
    · exact passes_of_quiet (quiet_of_blank hblank)
    · exact passes_of_text hmembers Nat.one_pos (by omega)
  rw [List.cons_append, List.append_assoc, jsonObjectEnd_brace, hpasses, List.singleton_append,
    jsonObjectEndFrom, decrement_ok Nat.one_pos]
  have hopen : '\x7b'.utf8Size = 1 := rfl
  have hclose : '\x7d'.utf8Size = 1 := rfl
  simp [hopen, hclose, Nat.add_assoc]

theorem exists_cut {s : Scanner} {index last : Nat}
    (h : jsonObjectEndFrom checks s index text = .ok (some last)) :
    ∃ cut rest, text = cut ++ '\x7d' :: rest ∧ last = index + utf8Length (cut ++ ['\x7d']) := by
  induction text generalizing s index with
  | nil => cases h
  | cons c text ih =>
    have hrest : ∀ {s : Scanner}, jsonObjectEndFrom checks s (index + c.utf8Size) text =
        .ok (some last) → ∃ cut rest, c :: text = cut ++ '\x7d' :: rest ∧
          last = index + utf8Length (cut ++ ['\x7d']) := by
      intro s hs
      obtain ⟨cut, rest, rfl, rfl⟩ := ih hs
      exact ⟨c :: cut, rest, rfl, by simp [Nat.add_assoc]⟩
    unfold jsonObjectEndFrom at h
    dsimp only at h
    split_ifs at h with _ _ _ _ hclose
    · exact hrest h
    · exact hrest h
    · exact hrest h
    · split at h
      · cases h
      · exact hrest h
    · split at h
      · cases h
      · split_ifs at h
        · simp only [Bool.and_eq_true, beq_iff_eq] at hclose
          obtain rfl := hclose.2
          obtain rfl := Option.some.inj (Except.ok.inj h)
          exact ⟨[], text, rfl, rfl⟩
        · exact hrest h
    · exact hrest h

theorem takeBytes_utf8Length (text rest : List Char) :
    takeBytes (utf8Length text) (text ++ rest) = text := by
  induction text with
  | nil => cases rest <;> rfl
  | cons c text ih =>
    obtain ⟨n, hn⟩ := Nat.exists_eq_add_of_lt (Char.utf8Size_pos c)
    have hsucc : utf8Length (c :: text) = (n + utf8Length text) + 1 := by
      rw [utf8Length_cons]
      omega
    rw [hsucc, List.cons_append, takeBytes]
    have hleft : n + utf8Length text + 1 - c.utf8Size = utf8Length text := by omega
    rw [hleft, ih]

end Passes

/-! ## The first scored object -/

/-- An object that is parsed and has a score starts at this place. -/
def ScoredAt (fromStr : String → Result Json) (text : List Char) (i : Nat) (value : Json) : Prop :=
  ∃ object, IsObject object ∧ object <+: text.drop i ∧
    fromStr (String.ofList object) = .ok value ∧ isScored value = true

def FirstScored (fromStr : String → Result Json) (text : List Char) (value : Json) : Prop :=
  ∃ i, ScoredAt fromStr text i value ∧ ∀ j < i, ∀ other, ¬ ScoredAt fromStr text j other

/-- `serde_json::from_str` accepts texts of the grammar only. -/
def AcceptsJson (fromStr : String → Result Json) : Prop :=
  ∀ text value, fromStr text = .ok value → JsonGrammar.Text .element text.toList

section First

variable {checks : Bool} {fromStr : String → Result Json} {c : Char} {text : List Char}
  {value : Json}

/-- An accepted text between braces is an object. -/
theorem isObject_of_element {inner : List Char}
    (h : JsonGrammar.Text .element ('\x7b' :: inner))
    (hlast : ('\x7b' :: inner).getLast? = some '\x7d') : IsObject ('\x7b' :: inner) := by
  generalize htext : '\x7b' :: inner = text at h hlast
  cases h with
  | @element before value after hbefore hvalue hafter =>
    have hnil : before = [] := by
      cases before with
      | nil => rfl
      | cons c before =>
        obtain ⟨rfl, -⟩ := List.cons.inj htext
        cases hbefore _ List.mem_cons_self
    subst hnil
    have hend : after = [] := by
      rcases eq_or_ne after [] with hafterNil | hne
      · exact hafterNil
      · rw [List.nil_append, List.getLast?_append_of_ne_nil _ hne] at hlast
        cases hafter _ (List.mem_of_getLast? hlast)
    subst hend
    rw [List.nil_append, List.append_nil] at htext ⊢
    exact ⟨hvalue, by rw [← htext]; rfl⟩

theorem scoredAt_succ {i : Nat} :
    ScoredAt fromStr (c :: text) (i + 1) value ↔ ScoredAt fromStr text i value := Iff.rfl

theorem not_scoredAt_zero (hc : c ≠ '\x7b') : ¬ ScoredAt fromStr (c :: text) 0 value := by
  rintro ⟨object, ⟨-, hhead⟩, ⟨rest, hrest⟩, -⟩
  cases object with
  | nil => cases hhead
  | cons d object =>
    obtain ⟨rfl, -⟩ := List.cons.inj hrest
    exact hc (Option.some.inj hhead)

/-- At a brace the loop finds the object that starts there. -/
theorem scoredAt_zero_iff (haccepts : AcceptsJson fromStr)
    (hsize : ('\x7b' :: text).length < 2 ^ 32) :
    ScoredAt fromStr ('\x7b' :: text) 0 value ↔
      ∃ length, jsonObjectEnd checks ('\x7b' :: text) = .ok (some length) ∧
        fromStr (String.ofList (takeBytes length ('\x7b' :: text))) = .ok value ∧
        isScored value = true := by
  constructor
  · rintro ⟨object, hobject, ⟨rest, hrest⟩, hparse, hscored⟩
    have hrest : '\x7b' :: text = object ++ rest := hrest.symm
    rw [hrest, List.length_append] at hsize
    refine ⟨utf8Length object, ?_, ?_, hscored⟩
    · rw [hrest, jsonObjectEnd_of_isObject hobject (by omega)]
    · rw [hrest, takeBytes_utf8Length, hparse]
  · rintro ⟨length, hend, hparse, hscored⟩
    rw [jsonObjectEnd_brace] at hend
    obtain ⟨cut, rest, rfl, rfl⟩ := exists_cut hend
    have hcut : '\x7b' :: (cut ++ '\x7d' :: rest) = '\x7b' :: (cut ++ ['\x7d']) ++ rest := by simp
    have hopen : '\x7b'.utf8Size = 1 := rfl
    rw [hcut, ← hopen, ← utf8Length_cons, takeBytes_utf8Length] at hparse
    refine ⟨'\x7b' :: (cut ++ ['\x7d']), ?_, ⟨rest, hcut.symm⟩, hparse, hscored⟩
    have helement := haccepts _ _ hparse
    rw [String.toList_ofList] at helement
    exact isObject_of_element helement (by rw [← List.cons_append, List.getLast?_concat])

theorem scoredAt_zero_unique (haccepts : AcceptsJson fromStr)
    (hsize : ('\x7b' :: text).length < 2 ^ 32) {other : Json}
    (h : ScoredAt fromStr ('\x7b' :: text) 0 value)
    (h' : ScoredAt fromStr ('\x7b' :: text) 0 other) : value = other := by
  obtain ⟨length, hend, hparse, -⟩ := (@scoredAt_zero_iff true _ _ _ haccepts hsize).mp h
  obtain ⟨length', hend', hparse', -⟩ := (@scoredAt_zero_iff true _ _ _ haccepts hsize).mp h'
  obtain rfl := Option.some.inj (Except.ok.inj (hend.symm.trans hend'))
  exact Except.ok.inj (hparse.symm.trans hparse')

theorem firstScored_cons_of_not (hzero : ∀ other, ¬ ScoredAt fromStr (c :: text) 0 other) :
    FirstScored fromStr (c :: text) value ↔ FirstScored fromStr text value := by
  constructor
  · rintro ⟨i, hi, hbefore⟩
    cases i with
    | zero => exact absurd hi (hzero value)
    | succ i => exact ⟨i, hi, fun j hj other => hbefore (j + 1) (Nat.succ_lt_succ hj) other⟩
  · rintro ⟨i, hi, hbefore⟩
    refine ⟨i + 1, hi, fun j hj other => ?_⟩
    cases j with
    | zero => exact hzero other
    | succ j => exact hbefore j (Nat.lt_of_succ_lt_succ hj) other

/-- What one round of the loop does. -/
theorem firstScored_cons (haccepts : AcceptsJson fromStr) (hsize : (c :: text).length < 2 ^ 32) :
    (∃ value, ScoredAt fromStr (c :: text) 0 value ∧
        firstScored checks fromStr (c :: text) = .ok (some value)) ∨
      (∀ other, ¬ ScoredAt fromStr (c :: text) 0 other) ∧
        firstScored checks fromStr (c :: text) = firstScored checks fromStr text := by
  by_cases hc : c = '\x7b'
  · subst hc
    have hiff := fun value => @scoredAt_zero_iff checks fromStr text value haccepts hsize
    have hpanics := @jsonObjectEnd_not_panics checks text (by simpa using hsize)
    rw [firstScored, if_pos rfl]
    cases hend : jsonObjectEnd checks ('\x7b' :: text) with
    | error failure =>
      exfalso
      rw [hend] at hpanics
      rw [jsonObjectEnd_brace] at hend
      exact hpanics (panics_of_error hend)
    | ok found =>
      cases found with
      | none =>
        refine .inr ⟨fun other hother => ?_, rfl⟩
        obtain ⟨_, hsome, -⟩ := (hiff other).mp hother
        rw [hend] at hsome
        cases hsome
      | some length =>
        dsimp only
        cases hparse : fromStr (String.ofList (takeBytes length ('\x7b' :: text))) with
        | error e =>
          refine .inr ⟨fun other hother => ?_, rfl⟩
          obtain ⟨_, hsome, hother, -⟩ := (hiff other).mp hother
          obtain rfl := Option.some.inj (Except.ok.inj (hend.symm.trans hsome))
          rw [hparse] at hother
          cases hother
        | ok value =>
          dsimp only
          split_ifs with hscored
          · exact .inl ⟨value, (hiff value).mpr ⟨length, hend, hparse, hscored⟩, rfl⟩
          · refine .inr ⟨fun other hother => hscored ?_, rfl⟩
            obtain ⟨_, hsome, hother, hscored⟩ := (hiff other).mp hother
            obtain rfl := Option.some.inj (Except.ok.inj (hend.symm.trans hsome))
            obtain rfl := Except.ok.inj (hparse.symm.trans hother)
            exact hscored
  · exact .inr ⟨fun other => not_scoredAt_zero hc, by rw [firstScored, if_neg hc]⟩

/-- The loop returns the first object that counts. -/
theorem firstScored_iff (haccepts : AcceptsJson fromStr) (hsize : text.length < 2 ^ 32) :
    (∀ value, firstScored checks fromStr text = .ok (some value) ↔
        FirstScored fromStr text value) ∧
      (firstScored checks fromStr text = .ok none ↔ ∀ i value, ¬ ScoredAt fromStr text i value) := by
  induction text with
  | nil =>
    have hnone : ∀ i value, ¬ ScoredAt fromStr [] i value := by
      rintro i value ⟨object, ⟨-, hhead⟩, hstands, -⟩
      rw [List.drop_nil, List.prefix_nil] at hstands
      subst hstands
      cases hhead
    refine ⟨fun value => ⟨fun h => ?_, fun ⟨i, hi, _⟩ => absurd hi (hnone i value)⟩,
      fun _ => hnone, fun _ => rfl⟩
    cases h
  | cons c text ih =>
    have hshort : text.length < 2 ^ 32 := by
      rw [List.length_cons] at hsize
      omega
    obtain ⟨hsome, hnone⟩ := ih hshort
    rcases @firstScored_cons checks fromStr c text haccepts hsize with ⟨found, hfound, hresult⟩ |
      ⟨hzero, hresult⟩
    · have hc : c = '\x7b' := by
        by_contra hc
        exact not_scoredAt_zero hc hfound
      subst hc
      rw [hresult]
      refine ⟨fun value => ⟨fun h => ?_, ?_⟩, fun h => (by cases h), fun h => absurd hfound (h 0 _)⟩
      · obtain rfl := Option.some.inj (Except.ok.inj h)
        exact ⟨0, hfound, fun j hj => absurd hj (Nat.not_lt_zero j)⟩
      · rintro ⟨i, hi, hbefore⟩
        cases i with
        | zero => rw [scoredAt_zero_unique haccepts hsize hfound hi]
        | succ i => exact absurd hfound (hbefore 0 (Nat.succ_pos i) found)
    · rw [hresult]
      refine ⟨fun value => (hsome value).trans (firstScored_cons_of_not hzero).symm,
        hnone.trans ⟨fun h i value => ?_, fun h i value => h (i + 1) value⟩⟩
      cases i with
      | zero => exact hzero value
      | succ i => exact h i value

end First

/-- The scanner finds the end of every object, never subtracts from zero, and what
is extracted without markers is the first scored object. -/
theorem brace_scanner_agrees (checks : Bool) :
    (∀ text rest, IsObject text → text.length < 2 ^ 32 →
        jsonObjectEnd checks (text ++ rest) = .ok (some (utf8Length text))) ∧
      (∀ rest, jsonObjectEnd true ('\x7b' :: rest) ≠
          .error (.panic "attempt to subtract with overflow")) ∧
      (∀ rest : List Char, rest.length + 1 < 2 ^ 32 →
        ¬ (jsonObjectEnd checks ('\x7b' :: rest)).Panics ∧
          jsonObjectEnd checks ('\x7b' :: rest) = jsonObjectEnd true ('\x7b' :: rest)) ∧
      ∀ (fromStr : String → Result Json) (output : String), AcceptsJson fromStr →
        Text.byteLength output ≤ maxOutputBytes →
        ¬ startMarker.toList <:+: output.toList → ¬ endMarker.toList <:+: output.toList →
        (∀ value, extractStructured checks fromStr output = .ok (some value) ↔
            FirstScored fromStr output.toList value) ∧
          (extractStructured checks fromStr output = .ok none ↔
            ∀ i value, ¬ ScoredAt fromStr output.toList i value) := by
  refine ⟨fun text rest hobject hsize => jsonObjectEnd_of_isObject hobject hsize rest,
    fun rest => ?_, fun rest hsize => ?_, fun fromStr output haccepts hsize hstart _ => ?_⟩
  · rw [jsonObjectEnd_brace]
    exact jsonObjectEndFrom_no_underflow Nat.one_pos
  · rw [jsonObjectEnd_brace, jsonObjectEnd_brace]
    exact jsonObjectEndFrom_not_panics Nat.one_pos (by dsimp only; omega)
  · have hextract : extractStructured checks fromStr output =
        firstScored checks fromStr output.toList := by
      unfold extractStructured
      rw [find_eq_none_iff.mpr hstart]
    rw [hextract]
    exact firstScored_iff haccepts (length_lt_of_output hsize)

/-- The output of a Judge that prints one object. -/
def sampleObject : String := "\x7b\"score\":1\x7d"

def sampleScore : Json := .object [("score", .number (.posInt 1))]

/-- A parser that knows one text. -/
def sampleFromStr (text : String) : Result Json :=
  if text = sampleObject then .ok sampleScore else .error "expected value"

theorem isObject_sample : IsObject sampleObject.toList := by
  have hname : StringBody "score".toList := by
    repeat refine .char (by decide) (by decide) (by decide) ?_
    exact .nil
  have hnumber : JsonGrammar.Text .value ['1'] :=
    .number ⟨[], ['1'], [], [], rfl, by simp, ⟨by simp, by simp, by simp⟩, .inl rfl, .inl rfl⟩
  have hblank : Blank [] := fun c hc => by cases hc
  exact ⟨.object (.member hblank hname hblank (.element hblank hnumber hblank)), rfl⟩

theorem acceptsJson_sample : AcceptsJson sampleFromStr := by
  intro text value h
  unfold sampleFromStr at h
  split_ifs at h with htext
  subst htext
  have hblank : Blank [] := fun c hc => by cases hc
  have helement := JsonGrammar.Text.element hblank isObject_sample.1 hblank
  rwa [List.nil_append, List.append_nil] at helement

theorem brace_scanner_agrees_sample :
    jsonObjectEnd true (sampleObject.toList ++ ['x']) = .ok (some 11) ∧
      extractStructured true sampleFromStr sampleObject = .ok (some sampleScore) := by
  obtain ⟨hend, -, -, hextract⟩ := brace_scanner_agrees true
  have hstands : ∀ marker : List Char, marker.length = 27 ∨ marker.length = 29 →
      ¬ marker <:+: sampleObject.toList := by
    intro marker hlength hinfix
    have hle := hinfix.length_le
    have hobject : sampleObject.toList.length = 11 := rfl
    omega
  refine ⟨hend _ ['x'] isObject_sample (by decide), ?_⟩
  apply ((hextract sampleFromStr sampleObject acceptsJson_sample (by decide)
    (hstands _ (.inr rfl)) (hstands _ (.inl rfl))).1 sampleScore).mpr
  refine ⟨0, ⟨_, isObject_sample, List.prefix_refl _, ?_, rfl⟩,
    fun j hj => absurd hj (Nat.not_lt_zero j)⟩
  rw [String.ofList_toList, sampleFromStr, if_pos rfl]

end A3sBench.LegacyJudge
