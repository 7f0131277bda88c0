import A3sBench.Text
import A3sBench.Library.Occurrence

/-!
# Redaction of token-shaped values

`redact_token_shaped_values` writes a placeholder over what follows each watched
`KEY=` and `KEY:`. A text in which every marker is settled is left alone, and
the pass of one marker keeps the others settled.
-/

namespace A3sBench.TokenRedaction

open Library

def keys : List String :=
  ["OPENAI_API_KEY", "CODEX_API_KEY", "OPENAI_API_TOKEN", "ACCESS_TOKEN", "REFRESH_TOKEN"]

def separators : List String := ["=", ":"]

/-- `format!("{key}{separator}")`, in the order of the two loops. -/
def markers : List (List Char) :=
  keys.flatMap fun key => separators.map fun separator => (key ++ separator).toList

def placeholder : List Char := "[redacted]".toList

/-- The characters a value ends before. -/
def isDelimiter (c : Char) : Bool :=
  Text.isWhitespace c || c == ',' || c == '}' || c == '"'

/-- The characters up to the first delimiter. -/
def valueOf (rest : List Char) : List Char := rest.takeWhile fun c => !isDelimiter c

def afterValue (rest : List Char) : List Char := rest.dropWhile fun c => !isDelimiter c

/-- What stands for a value: nothing where there is none. -/
def replacement (value : List Char) : List Char := if value ≠ [] then placeholder else []

/-- The loop over the places of one marker, on the text from `search_from` on. Nothing if the rounds
run out. -/
def redactMarker (marker : List Char) : Nat → List Char → Option (List Char)
  | 0, _ => none
  | rounds + 1, rest =>
    match find marker rest with
    | none => some rest
    | some start =>
      let valueStart := rest.drop (start + marker.length)
      (redactMarker marker rounds (afterValue valueStart)).map fun output =>
        rest.take (start + marker.length) ++ (replacement (valueOf valueStart) ++ output)

/-- `redact_token_shaped_values` -/
def redactTokenShapedValues (rounds : Nat) (value : List Char) : Option (List Char) :=
  markers.foldlM (fun output marker => redactMarker marker rounds output) value

/-- Every place of the marker has no value after it, or exactly the placeholder. -/
def Settled (marker text : List Char) : Prop :=
  ∀ before after, text = before ++ marker ++ after →
    valueOf after = [] ∨ valueOf after = placeholder

/-- The text is empty or begins with a delimiter. -/
def Halted (text : List Char) : Prop := ∀ c ∈ text.head?, isDelimiter c = true

/-- What the proofs need of a marker. -/
structure Watched (marker : List Char) : Prop where
  nonempty : marker ≠ []
  undelimited : ∀ c ∈ marker, isDelimiter c = false
  bare : ∀ c ∈ marker, c ∉ placeholder

set_option maxRecDepth 4000 in
theorem watched_of_mem {marker : List Char} (h : marker ∈ markers) : Watched marker := by
  have hall : ∀ m ∈ markers, m ≠ [] ∧ (m.all fun c => !isDelimiter c && !placeholder.contains c) := by
    decide
  obtain ⟨hne, hchars⟩ := hall marker h
  rw [List.all_eq_true] at hchars
  refine ⟨hne, fun c hc => ?_, fun c hc => ?_⟩
  · have := hchars c hc
    simp only [Bool.and_eq_true, Bool.not_eq_true'] at this
    exact this.1
  · have := hchars c hc
    simp only [Bool.and_eq_true, Bool.not_eq_true', List.contains_eq_mem, decide_eq_false_iff_not]
      at this
    exact this.2

theorem valueOf_append_afterValue (rest : List Char) : valueOf rest ++ afterValue rest = rest :=
  List.takeWhile_append_dropWhile

theorem halted_afterValue (rest : List Char) : Halted (afterValue rest) := by
  intro c hc
  have := List.head?_dropWhile_not (fun c => !isDelimiter c) rest
  rw [← afterValue, Option.mem_def.mp hc] at this
  simpa using this

theorem valueOf_undelimited {u : List Char} (t : List Char) (hu : ∀ c ∈ u, isDelimiter c = false) :
    valueOf (u ++ t) = u ++ valueOf t :=
  List.takeWhile_append_of_pos fun c hc => by rw [hu c hc]; rfl

theorem valueOf_delimited {u : List Char} (s t : List Char) (hu : ∃ c ∈ u, isDelimiter c = true) :
    valueOf (u ++ s) = valueOf (u ++ t) := by
  obtain ⟨c, hc, hdelimiter⟩ := hu
  have hshort : ¬ (u.takeWhile fun c => !isDelimiter c).length = u.length := by
    intro hlength
    have hall := List.takeWhile_eq_self_iff.mp (List.takeWhile_prefix _ |>.eq_of_length hlength)
    have := hall c hc
    rw [hdelimiter] at this
    cases this
  rw [valueOf, valueOf, List.takeWhile_append, List.takeWhile_append, if_neg hshort, if_neg hshort]

theorem Halted.valueOf_eq_nil {text : List Char} (h : Halted text) : valueOf text = [] := by
  cases text with
  | nil => rfl
  | cons c text => simp [valueOf, h c rfl]

theorem placeholder_undelimited : ∀ c ∈ placeholder, isDelimiter c = false := by
  have hall : (placeholder.all fun c => !isDelimiter c) = true := by decide
  intro c hc
  simpa using List.all_eq_true.mp hall c hc

theorem replacement_eq (value : List Char) :
    replacement value = [] ∨ replacement value = placeholder := by
  rw [replacement]
  split
  · exact .inr rfl
  · exact .inl rfl

theorem Halted.valueOf_replacement {output : List Char} (h : Halted output) (value : List Char) :
    valueOf (replacement value ++ output) = replacement value := by
  have hbare : ∀ c ∈ replacement value, isDelimiter c = false := by
    obtain hempty | hplaceholder := replacement_eq value
    · rw [hempty]
      exact fun c hc => absurd hc List.not_mem_nil
    · rw [hplaceholder]
      exact placeholder_undelimited
  rw [valueOf_undelimited output hbare, h.valueOf_eq_nil, List.append_nil]

/-- A marker in the rewritten text stands before the replacement or after it. -/
theorem Watched.occurrence {marker front output value before after : List Char}
    (hmarker : Watched marker) (houtput : Halted output)
    (h : front ++ (replacement value ++ output) = before ++ marker ++ after) :
    (∃ u, front = before ++ marker ++ u ∧ after = u ++ (replacement value ++ output)) ∨
      ∃ v, output = v ++ marker ++ after := by
  have hbare : ∀ c ∈ replacement value, c ∉ marker := by
    intro c hc hmem
    obtain hempty | hplaceholder := replacement_eq value
    · rw [hempty] at hc
      cases hc
    · rw [hplaceholder] at hc
      exact hmarker.bare c hmem hc
  have hhead : ∀ c ∈ (replacement value ++ output).head?, c ∉ marker := by
    intro c hc hmem
    rw [List.head?_append, Option.mem_def, Option.or_eq_some_iff] at hc
    obtain hc | ⟨-, hc⟩ := hc
    · exact hbare c (List.mem_of_mem_head? hc) hmem
    · have hdelimiter := houtput c hc
      rw [hmarker.undelimited c hmem] at hdelimiter
      cases hdelimiter
  obtain hfront | ⟨v, -, hrest⟩ := occurrence_split hhead h
  · exact .inl hfront
  · obtain ⟨w, -, hsplit⟩ := occurrence_skip hmarker.nonempty hbare hrest
    exact .inr ⟨w, hsplit⟩

/-- What one round does: the marker is nowhere in the text, or the text is rewritten after its first
place. -/
theorem redactMarker_step {marker rest output : List Char} {rounds : Nat}
    (h : redactMarker marker rounds rest = some output) :
    (¬ marker <:+: rest ∧ output = rest) ∨
      ∃ earlier front value after tail, rounds = earlier + 1 ∧ rest = front ++ (value ++ after) ∧
        marker <:+ front ∧ (∀ before u, front = before ++ marker ++ u → u = []) ∧
        valueOf (value ++ after) = value ∧ Halted after ∧
        redactMarker marker earlier after = some tail ∧
        output = front ++ (replacement value ++ tail) := by
  cases rounds with
  | zero => cases h
  | succ earlier =>
    rw [redactMarker] at h
    split at h
    · rename_i hfind
      cases h
      exact .inl ⟨find_eq_none_iff.mp hfind, rfl⟩
    · rename_i start hfind
      obtain ⟨hle, ⟨behind, hstands⟩, hfirst⟩ := find_eq_some_iff.mp hfind
      obtain ⟨tail, htail, houtput⟩ := Option.map_eq_some_iff.mp h
      have hfront : rest.take (start + marker.length) = rest.take start ++ marker := by
        rw [List.take_add, ← hstands, List.take_left' rfl]
      refine .inr ⟨earlier, _, _, _, tail, rfl, ?_, ?_, ?_, ?_, halted_afterValue _, htail,
        houtput.symm⟩
      · rw [valueOf_append_afterValue, List.take_append_drop]
      · rw [hfront]
        exact List.suffix_append ..
      · intro before u hplace
        have hlength : before.length + marker.length + u.length = start + marker.length := by
          have := congrArg List.length (hplace.symm.trans hfront)
          rwa [List.length_append, List.length_append, List.length_append,
            List.length_take_of_le hle] at this
        have hbefore : ¬ before.length < start := by
          refine fun hlt => hfirst before.length hlt ?_
          rw [← List.take_append_drop (start + marker.length) rest, hplace]
          simp
        exact List.length_eq_zero_iff.mp (by omega)
      · rw [valueOf_append_afterValue]

theorem Settled.of_suffix {marker front text : List Char} (h : Settled marker (front ++ text)) :
    Settled marker text := by
  intro before after htext
  exact h (front ++ before) after (by rw [htext]; simp only [List.append_assoc])

theorem Halted.redactMarker {marker rest output : List Char} {rounds : Nat} (hmarker : marker ≠ [])
    (hrest : Halted rest) (h : redactMarker marker rounds rest = some output) : Halted output := by
  rcases redactMarker_step h with
    ⟨-, rfl⟩ | ⟨_, front, value, after, tail, -, rfl, hsuffix, -, -, -, -, rfl⟩
  · exact hrest
  · have hfront : front ≠ [] := by
      rintro rfl
      exact hmarker (List.suffix_nil.mp hsuffix)
    intro c hc
    rw [List.head?_append_of_ne_nil _ hfront] at hc
    exact hrest c (by rw [List.head?_append_of_ne_nil _ hfront]; exact hc)

theorem settled_redactMarker {marker rest output : List Char} {rounds : Nat}
    (hmarker : Watched marker) (h : redactMarker marker rounds rest = some output) :
    Settled marker output := by
  induction rounds generalizing rest output with
  | zero => cases h
  | succ rounds ih =>
    rcases redactMarker_step h with
      ⟨hnone, rfl⟩ | ⟨_, front, value, after, tail, hrounds, -, -, hlast, -, hafter, htail, rfl⟩
    · exact fun before after htext => absurd ⟨before, after, htext.symm⟩ hnone
    · obtain rfl := Nat.succ.inj hrounds
      have hhalted := hafter.redactMarker hmarker.nonempty htail
      intro before behind htext
      obtain ⟨u, hfront, rfl⟩ | ⟨v, hbehind⟩ := hmarker.occurrence hhalted htext
      · obtain rfl := hlast before u hfront
        rw [List.nil_append, hhalted.valueOf_replacement]
        exact replacement_eq value
      · exact ih htail v behind hbehind

theorem settled_replacement {u value after tail : List Char}
    (hvalue : valueOf (value ++ after) = value) (htail : Halted tail)
    (hu : u ≠ [] → ∃ c ∈ u, c ∉ placeholder)
    (hold : valueOf (u ++ (value ++ after)) = [] ∨ valueOf (u ++ (value ++ after)) = placeholder) :
    valueOf (u ++ (replacement value ++ tail)) = [] ∨
      valueOf (u ++ (replacement value ++ tail)) = placeholder := by
  by_cases hdelimiter : ∃ c ∈ u, isDelimiter c = true
  · rwa [valueOf_delimited _ (value ++ after) hdelimiter]
  · have hundelimited : ∀ c ∈ u, isDelimiter c = false := by
      intro c hc
      exact Bool.eq_false_iff.mpr fun hcut => hdelimiter ⟨c, hc, hcut⟩
    rw [valueOf_undelimited _ hundelimited, hvalue] at hold
    rw [valueOf_undelimited _ hundelimited, htail.valueOf_replacement]
    obtain hempty | hplaceholder := hold
    · obtain ⟨rfl, rfl⟩ := List.append_eq_nil_iff.mp hempty
      exact .inl rfl
    · have hnil : u = [] := by
        by_contra hne
        obtain ⟨c, hc, hbare⟩ := hu hne
        exact hbare (hplaceholder ▸ List.mem_append_left value hc)
      rw [hnil, List.nil_append] at hplaceholder
      rw [hnil, hplaceholder]
      exact .inr rfl

theorem Settled.redactMarker {kept marker rest output : List Char} {rounds : Nat}
    (hkept : Watched kept) (hmarker : Watched marker) (hsettled : Settled kept rest)
    (h : redactMarker marker rounds rest = some output) : Settled kept output := by
  induction rounds generalizing rest output with
  | zero => cases h
  | succ rounds ih =>
    rcases redactMarker_step h with
      ⟨-, rfl⟩ | ⟨_, front, value, after, tail, hrounds, rfl, hsuffix, -, hvalue, hafter, htail, rfl⟩
    · exact hsettled
    · obtain rfl := Nat.succ.inj hrounds
      have hhalted := hafter.redactMarker hmarker.nonempty htail
      intro before behind htext
      obtain ⟨u, hfront, rfl⟩ | ⟨v, hbehind⟩ := hkept.occurrence hhalted htext
      · have hold := hsettled before (u ++ (value ++ after)) (by rw [hfront]; simp)
        refine settled_replacement hvalue hhalted (fun hne => ?_) hold
        -- the text before the value ends with the other marker
        refine ⟨u.getLast hne, List.getLast_mem hne, hmarker.bare _ ?_⟩
        obtain ⟨begin, rfl⟩ := hsuffix
        have hlast := congrArg List.getLast? hfront
        rw [List.getLast?_append_of_ne_nil _ hmarker.nonempty, List.getLast?_append_of_ne_nil _ hne,
          List.getLast?_eq_some_getLast hne] at hlast
        exact List.mem_of_getLast? hlast
      · refine ih ?_ htail v behind hbehind
        rw [← List.append_assoc] at hsettled
        exact hsettled.of_suffix

theorem redactMarker_of_settled {marker rest output : List Char} {rounds : Nat}
    (hsettled : Settled marker rest) (h : redactMarker marker rounds rest = some output) :
    output = rest := by
  induction rounds generalizing rest output with
  | zero => cases h
  | succ rounds ih =>
    rcases redactMarker_step h with
      ⟨-, rfl⟩ | ⟨_, front, value, after, tail, hrounds, rfl, ⟨before, rfl⟩, -, hvalue, -, htail, rfl⟩
    · rfl
    · obtain rfl := Nat.succ.inj hrounds
      have hreplacement : replacement value = value := by
        obtain hempty | hplaceholder := hvalue ▸ hsettled before (value ++ after) (by simp)
        · rw [hempty]
          rfl
        · rw [hplaceholder]
          rfl
      have hrest : Settled marker after := by
        rw [← List.append_assoc] at hsettled
        exact hsettled.of_suffix
      rw [hreplacement, ih hrest htail]

theorem exists_redactMarker {marker : List Char} (hmarker : marker ≠ []) {rounds : Nat}
    {rest : List Char} (h : rest.length < rounds) :
    ∃ output, redactMarker marker rounds rest = some output := by
  induction rounds generalizing rest with
  | zero => cases h
  | succ rounds ih =>
    rw [redactMarker]
    split
    · exact ⟨rest, rfl⟩
    · rename_i start hfind
      have hfits : start + marker.length ≤ rest.length := by
        have := (find_eq_some_iff.mp hfind).2.1.length_le
        have hle := (find_eq_some_iff.mp hfind).1
        rw [List.length_drop] at this
        omega
      have hafter : (afterValue (rest.drop (start + marker.length))).length < rounds := by
        have hdrop := (List.dropWhile_suffix (l := rest.drop (start + marker.length))
          fun c => !isDelimiter c).length_le
        have hpos := List.length_pos_of_ne_nil hmarker
        rw [List.length_drop] at hdrop
        rw [afterValue]
        omega
      obtain ⟨output, houtput⟩ := ih hafter
      exact ⟨_, Option.map_eq_some_iff.mpr ⟨output, houtput, rfl⟩⟩

theorem redactMarker_mono {marker rest output : List Char} {rounds more : Nat}
    (hle : rounds ≤ more) (h : redactMarker marker rounds rest = some output) :
    redactMarker marker more rest = some output := by
  induction rounds generalizing more rest output with
  | zero => cases h
  | succ rounds ih =>
    obtain ⟨more, rfl⟩ := Nat.exists_eq_succ_of_ne_zero (Nat.ne_zero_of_lt hle)
    rw [redactMarker] at h ⊢
    split at h
    · exact h
    · obtain ⟨tail, htail, houtput⟩ := Option.map_eq_some_iff.mp h
      exact Option.map_eq_some_iff.mpr ⟨tail, ih (Nat.le_of_succ_le_succ hle) htail, houtput⟩

/-- The passes of a list of markers. -/
def redactAll (markers : List (List Char)) (rounds : Nat) (value : List Char) : Option (List Char) :=
  markers.foldlM (fun output marker => redactMarker marker rounds output) value

theorem redactAll_cons (marker : List Char) (markers : List (List Char)) (rounds : Nat)
    (value : List Char) :
    redactAll (marker :: markers) rounds value =
      (redactMarker marker rounds value).bind (redactAll markers rounds) := rfl

/-- Every marker is settled by its own pass and kept by the later ones. -/
theorem exists_redactAll {markers : List (List Char)} (hmarkers : ∀ m ∈ markers, Watched m)
    (value : List Char) :
    ∃ bound output, (∀ rounds, bound ≤ rounds → redactAll markers rounds value = some output) ∧
      (∀ m ∈ markers, Settled m output) ∧
      ∀ kept, Watched kept → Settled kept value → Settled kept output := by
  induction markers generalizing value with
  | nil => exact ⟨0, value, fun _ _ => rfl, fun m hm => absurd hm List.not_mem_nil, fun _ _ h => h⟩
  | cons marker markers ih =>
    have hmarker := hmarkers marker List.mem_cons_self
    obtain ⟨first, hfirst⟩ := exists_redactMarker hmarker.nonempty (Nat.lt_succ_self value.length)
    obtain ⟨bound, output, hrun, hsettled, hkeep⟩ :=
      ih (fun m hm => hmarkers m (List.mem_cons_of_mem marker hm)) first
    refine ⟨max (value.length + 1) bound, output, fun rounds hrounds => ?_, fun m hm => ?_,
      fun kept hkept h => hkeep kept hkept (h.redactMarker hkept hmarker hfirst)⟩
    · rw [redactAll_cons, redactMarker_mono (le_of_max_le_left hrounds) hfirst]
      exact hrun rounds (le_of_max_le_right hrounds)
    · obtain rfl | hm := List.mem_cons.mp hm
      · exact hkeep m hmarker (settled_redactMarker hmarker hfirst)
      · exact hsettled m hm

theorem redactAll_of_settled {markers : List (List Char)} {rounds : Nat} {value output : List Char}
    (hsettled : ∀ m ∈ markers, Settled m value) (h : redactAll markers rounds value = some output) :
    output = value := by
  induction markers with
  | nil => exact (Option.some.inj h).symm
  | cons marker markers ih =>
    rw [redactAll_cons] at h
    obtain ⟨first, hfirst, hrest⟩ := Option.bind_eq_some_iff.mp h
    obtain rfl := redactMarker_of_settled (hsettled marker List.mem_cons_self) hfirst
    exact ih (fun m hm => hsettled m (List.mem_cons_of_mem marker hm)) hrest

/-- With enough rounds the redaction returns, every marker in its output is settled, and redacting
the output returns it. -/
theorem redactTokenShapedValues_settles (value : List Char) :
    ∃ bound output, (∀ rounds, bound ≤ rounds →
        redactTokenShapedValues rounds value = some output ∧
          redactTokenShapedValues rounds output = some output) ∧
      ∀ marker ∈ markers, Settled marker output := by
  have hwatched : ∀ m ∈ markers, Watched m := fun m hm => watched_of_mem hm
  obtain ⟨bound, output, hrun, hsettled, -⟩ := exists_redactAll hwatched value
  obtain ⟨again, final, hagain, -, -⟩ := exists_redactAll hwatched output
  obtain rfl := redactAll_of_settled hsettled (hagain again le_rfl)
  exact ⟨max bound again, final, fun rounds hrounds =>
    ⟨hrun rounds (le_of_max_le_left hrounds), hagain rounds (le_of_max_le_right hrounds)⟩, hsettled⟩

example : redactTokenShapedValues 40 "ACCESS_TOKEN:abc, CODEX_API_KEY=".toList =
    some "ACCESS_TOKEN:[redacted], CODEX_API_KEY=".toList := by decide +kernel

end A3sBench.TokenRedaction
