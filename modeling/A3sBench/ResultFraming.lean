import A3sBench.Library.Base64
import A3sBench.Library.Occurrence
import A3sBench.Platform
import A3sBench.Result
import A3sBench.Text

/-!
# The result line of an os-runtime step

The runner prints its result after whatever the Candidate or the Judge printed,
on the line that is not ended yet. `parse_marked_result` takes the first marker
of the last line that has one.
-/

namespace A3sBench.OsRuntime

open Library

def resultMarker : String := "A3S_BENCH_RESULT_V1:"

def maxEnvelopeBytes : Nat := 64 * 1024

def maxEncodedResultBytes : Nat := (maxEnvelopeBytes + 2) / 3 * 4

/-- What stands after the first marker of a line. -/
def afterMarker (line : String) : Option String :=
  (find resultMarker.toList line.toList).map (fun index =>
    String.ofList (line.toList.drop (index + resultMarker.toList.length)))

/-- `parse_marked_result`. The JSON parser at the result type and the text of a
Base64 error are parameters. -/
def parseMarkedResult {α : Type} (decodeError : String → String) (fromSlice : Bytes → Result α)
    (logs : String) : Result α := do
  let encoded ← okOr ((Text.lines logs).reverse.findSome? afterMarker)
    "A3S OS logs do not contain a Bench result marker"
  let encoded := Text.trim encoded
  ensure (Text.byteLength encoded ≤ maxEncodedResultBytes)
    "A3S OS Bench result exceeds the 64 KiB envelope"
  let decoded ← context "A3S OS Bench result marker is not base64"
    (okOr (Base64.decode encoded.toList) (decodeError encoded))
  ensure (decoded.length ≤ maxEnvelopeBytes) "A3S OS Bench result exceeds the 64 KiB envelope"
  context "A3S OS Bench result marker contains invalid JSON" (fromSlice decoded)

/-- What the runner prints; the line break is `console.log`'s or `print`'s. -/
def markedLine (json : Bytes) : String := resultMarker ++ String.ofList (Base64.encode json)

theorem apart_resultMarker : StandApart resultMarker.toList resultMarker.toList := by
  have hsplit : resultMarker.toList = "A3S_BENCH_RESULT_V1".toList ++ [':'] := rfl
  rw [hsplit]
  exact apart_concat (by decide)

section Encoded

variable {json : Bytes} {c : Char}

/-- No symbol is white space, a colon or a line break. -/
theorem symbol_cases (hc : c ∈ Base64.alphabet ∨ c = '=') :
    Text.isWhitespace c = false ∧ c ≠ ':' ∧ c ≠ '\n' ∧ c ≠ '\r' ∧ c.utf8Size = 1 := by
  have hall : ('=' :: Base64.alphabet).all (fun c => !Text.isWhitespace c && c != ':' &&
      c != '\n' && c != '\r' && c.utf8Size == 1) = true := rfl
  have hsymbol := List.all_eq_true.mp hall c (List.mem_cons.mpr hc.symm)
  simpa [and_assoc] using hsymbol

theorem trim_encode : Text.trim (String.ofList (Base64.encode json)) =
    String.ofList (Base64.encode json) := by
  apply Text.trim_eq_self
  intro c hc
  rw [String.toList_ofList] at hc
  exact (symbol_cases (Base64.mem_encode hc)).1

theorem byteLength_encode : Text.byteLength (String.ofList (Base64.encode json)) =
    (json.length + 2) / 3 * 4 := by
  have hone : ∀ c ∈ Base64.encode json, c.utf8Size = 1 := fun c hc =>
    (symbol_cases (Base64.mem_encode hc)).2.2.2.2
  rw [Text.byteLength, String.toList_ofList, List.map_congr_left hone, ← Base64.length_encode]
  simp

theorem isLine_markedLine : Text.IsLine (markedLine json) := by
  have hbool : resultMarker.toList.all (fun c => c != '\n' && c != '\r') = true := rfl
  have hmarker : ∀ c ∈ resultMarker.toList, c ≠ '\n' ∧ c ≠ '\r' := fun c hc => by
    simpa using List.all_eq_true.mp hbool c hc
  have hall : ∀ c ∈ (markedLine json).toList, c ≠ '\n' ∧ c ≠ '\r' := by
    intro c hc
    rw [markedLine, String.toList_append, String.toList_ofList, List.mem_append] at hc
    rcases hc with hc | hc
    · exact hmarker c hc
    · obtain ⟨-, -, hbreak, hreturn, -⟩ := symbol_cases (Base64.mem_encode hc)
      exact ⟨hbreak, hreturn⟩
  exact ⟨fun hmem => (hall _ hmem).1 rfl, fun hlast => (hall _ (List.mem_of_getLast? hlast)).2 rfl⟩

end Encoded

/-- The marker that counts is looked for in the line the result was printed on. -/
theorem findSome?_lines (printed : String) (json : Bytes) {found : String}
    (hfound : afterMarker (String.ofList (Text.unterminated printed ++ (markedLine json).toList)) =
      some found) :
    (Text.lines (printed ++ markedLine json ++ "\n")).reverse.findSome? afterMarker =
      some found := by
  have hne : (markedLine json).toList ≠ [] := by
    rw [markedLine, String.toList_append]
    exact List.append_ne_nil_of_left_ne_nil (by decide) _
  obtain ⟨front, hlines⟩ := @Text.lines_append_line printed _ isLine_markedLine hne
  rw [hlines, List.reverse_append, List.reverse_singleton, List.singleton_append,
    List.findSome?_cons, hfound]

theorem afterMarker_line (line : List Char) {json : Bytes} (h : ¬ resultMarker.toList <:+: line) :
    afterMarker (String.ofList (line ++ (markedLine json).toList)) =
      some (String.ofList (Base64.encode json)) := by
  have hfind := @find_append_self _ _ _ _ line (Base64.encode json) apart_resultMarker h
  rw [afterMarker, String.toList_ofList, markedLine, String.toList_append, String.toList_ofList,
    ← List.append_assoc, hfind, Option.map_some, ← List.length_append, List.drop_left]

/-- With a marker before it, the result's own marker is read as part of the result. -/
theorem afterMarker_line_of_infix {line : List Char} (json : Bytes)
    (h : resultMarker.toList <:+: line) :
    ∃ found, afterMarker (String.ofList (line ++ (markedLine json).toList)) = some found ∧
      ':' ∈ found.toList := by
  obtain ⟨i, hfind, hend⟩ := find_append_of_infix (markedLine json).toList h
  refine ⟨_, by rw [afterMarker, String.toList_ofList, hfind, Option.map_some], ?_⟩
  rw [String.toList_ofList, List.drop_append_of_le_length hend, markedLine, String.toList_append]
  have hcolon : ':' ∈ resultMarker.toList := by decide
  exact List.mem_append_right _ (List.mem_append_left _ hcolon)

/-- A result comes back exactly when the line it is printed on has no marker yet. -/
theorem parseMarkedResult_eq_iff {α : Type} (decodeError : String → String)
    (fromSlice : Bytes → Result α) (printed : String) {json : Bytes} {value : α}
    (hvalue : fromSlice json = .ok value) (hsize : json.length ≤ maxEnvelopeBytes) :
    parseMarkedResult decodeError fromSlice (printed ++ markedLine json ++ "\n") = .ok value ↔
      ¬ resultMarker.toList <:+: Text.unterminated printed := by
  simp only [parseMarkedResult, Result.bind_ok_iff, Result.okOr_ok_iff, Result.exists_unit_iff,
    Result.ensure_ok_iff, Result.context_ok_iff]
  constructor
  · rintro ⟨encoded, hencoded, -, decoded, hdecoded, -⟩ hinfix
    obtain ⟨found, hfound, hcolon⟩ := afterMarker_line_of_infix json hinfix
    obtain rfl := Option.some.inj ((findSome?_lines printed json hfound).symm.trans hencoded)
    have hmem := (Text.mem_trim (by decide)).mpr hcolon
    exact (symbol_cases (Base64.mem_of_decode hdecoded hmem)).2.1 rfl
  · intro hinfix
    have hfound := findSome?_lines printed json (afterMarker_line _ hinfix)
    refine ⟨_, hfound, ?_, json, ?_, hsize, hvalue⟩
    · rw [trim_encode, byteLength_encode]
      simp only [maxEncodedResultBytes]
      omega
    · rw [trim_encode, String.toList_ofList, Base64.decode_encode]

theorem parseMarkedResult_eq_iff_pod :
    parseMarkedResult (fun _ => "Invalid byte") (fun bytes => .ok bytes)
        ("noise\npod: " ++ markedLine [123, 125] ++ "\n") = .ok [123, 125] ↔
      ¬ resultMarker.toList <:+: Text.unterminated "noise\npod: " :=
  parseMarkedResult_eq_iff _ (fun bytes => .ok bytes) "noise\npod: " rfl (by decide)

/-- A Candidate that ends with a marker and no line break spoils the result. -/
theorem printed_marker_spoils_result :
    ¬ ∀ (printed : String) (json : Bytes), json.length ≤ maxEnvelopeBytes →
      parseMarkedResult (fun _ => "Invalid byte") (fun bytes => .ok bytes)
        (printed ++ markedLine json ++ "\n") = .ok json := by
  intro hall
  have hresult := hall "A3S_BENCH_RESULT_V1:" [] (Nat.zero_le _)
  simp only [parseMarkedResult, Result.bind_ok_iff, Result.okOr_ok_iff, Result.exists_unit_iff,
    Result.ensure_ok_iff, Result.context_ok_iff] at hresult
  obtain ⟨encoded, hencoded, -, decoded, hdecoded, -⟩ := hresult
  obtain ⟨found, hfound, hcolon⟩ := afterMarker_line_of_infix [] (List.infix_refl _)
  obtain rfl := Option.some.inj ((findSome?_lines "A3S_BENCH_RESULT_V1:" [] hfound).symm.trans
    hencoded)
  have hmem := (Text.mem_trim (by decide)).mpr hcolon
  exact (symbol_cases (Base64.mem_of_decode hdecoded hmem)).2.1 rfl

end A3sBench.OsRuntime
