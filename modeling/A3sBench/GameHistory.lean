import A3sBench.Float64
import A3sBench.GameServer

/-!
# The history as the harness reads it

`parse_game_history` of `game_judge.rs`, on what `/history` sends.
-/

namespace A3sBench

namespace Json

def asArray : Json → Option (List Json)
  | .array items => some items
  | _ => none

/-- `Value::as_f64`. -/
def asF64 : Json → Option F64
  | .number (.posInt value) => some (.ofRat value.toNat)
  | .number (.negInt value) => some (.ofRat value)
  | .number (.float text) => (F64.parse text).toOption
  | _ => none

end Json

namespace F64

/-- `==` on `f64`. -/
def beq : F64 → F64 → Bool
  | .nan, _ => false
  | x, y => x = y

@[simp] theorem beq_finite (x y : ℚ) : beq (.finite x) (.finite y) = decide (x = y) := by
  simp [beq]

end F64

namespace GameJudge

structure GameHistoryScore where
  raw : F64
  bestMoves : Json
  bestPeakScore : Json

def requiredFiniteNumber (value : Json) (field : String) : Result F64 := do
  let number ← okOr ((value.get field).bind Json.asF64)
    ("game history field `" ++ field ++ "` is missing or not numeric")
  ensure (number.isFinite = true) ("game history field `" ++ field ++ "` is not finite")
  pure number

/-- One turn of the loop over the entries. -/
def parseEntry (best : Option (F64 × Json)) (entry : Json) : Result (Option (F64 × Json)) := do
  let score ← requiredFiniteNumber entry "score"
  let finalScore ← requiredFiniteNumber entry "final_score"
  ensure (score.beq finalScore = true) "game history score does not match final_score"
  match best with
  | some current => pure (some (if current.1.lt score then (score, entry) else current))
  | none => pure (some (score, entry))

/-- `entry.get(name).cloned().unwrap_or_else(|| Value::from(0))`. -/
def getOrZero (entry : Json) (name : String) : Json :=
  (entry.get name).getD (.number (.posInt 0))

def parseGameHistory (value : Json) : Result GameHistoryScore := do
  let reportedBest ← requiredFiniteNumber value "best_score"
  let entries ← okOr ((value.get "entries").bind Json.asArray)
    "game history `entries` is missing or not an array"
  if entries = [] then do
    ensure (reportedBest.beq (.finite 0) = true)
      "empty game history reported a non-zero best score"
    pure
      { raw := .finite 0
        bestMoves := .number (.posInt 0)
        bestPeakScore := .number (.posInt 0) }
  else do
    let best ← entries.foldlM parseEntry none
    let best ← okOr best "non-empty history has a best score"
    ensure (reportedBest.beq best.1 = true)
      "game history best_score does not match archived entries"
    pure
      { raw := best.1
        bestMoves := getOrZero best.2 "moves"
        bestPeakScore := getOrZero best.2 "peak_score" }

end GameJudge

namespace GameServer

open GameJudge Library

variable {c : Config}

theorem ofRat_intCast {n : ℤ} (h : |n| < 2 ^ 53) : F64.ofRat (n : ℚ) = .finite n := by
  have hround : Binary64.round (n : ℚ) = n := Binary64.round_intCast h
  have hsmall : |(n : ℚ)| < 2 ^ 1024 := by
    rw [← Int.cast_abs]
    calc ((|n| : ℤ) : ℚ) < ((2 ^ 53 : ℤ) : ℚ) := Int.cast_lt.mpr h
      _ = 2 ^ 53 := by push_cast; rfl
      _ ≤ 2 ^ 1024 := pow_le_pow_right₀ one_le_two (by omega)
  rw [F64.ofRat, hround, if_pos hsmall]

/-- Scores are read back as they are. -/
theorem asF64_integer (c : Config) (n : CInt) :
    (integer c n.val).asF64 = some (.finite (n.val : ℚ)) := by
  obtain ⟨n, hlow, hhigh⟩ := n
  have hsmall : |n| < 2 ^ 53 := abs_lt.mpr (by constructor <;> omega)
  rw [← ofRat_intCast hsmall]
  by_cases hn : 0 ≤ n
  · have hfits : n.toNat < 2 ^ 64 := by omega
    have hvalue : (n.toNat : ℚ) = n := by exact_mod_cast Int.toNat_of_nonneg hn
    simp only [integer, if_pos (show 0 ≤ n ∧ n < 2 ^ 64 from ⟨hn, by omega⟩), Json.asF64,
      UInt64.toNat_ofNat', Nat.mod_eq_of_lt hfits, hvalue]
  · simp only [integer, if_neg (show ¬ (0 ≤ n ∧ n < 2 ^ 64) from fun h => hn h.1),
      if_pos (show n < 0 ∧ -2 ^ 63 ≤ n from ⟨by omega, by omega⟩), Json.asF64]

theorem requiredFiniteNumber_integer {value : Json} {field : String} {n : CInt}
    (h : value.get field = some (integer c n.val)) :
    requiredFiniteNumber value field = .ok (.finite (n.val : ℚ)) := by
  simp only [requiredFiniteNumber, Result.bind_ok_iff, Result.okOr_ok_iff, Result.ensure_ok_iff,
    Result.exists_unit_iff, Result.pure_ok_iff]
  exact ⟨_, by rw [h]; exact asF64_integer c n, rfl, rfl⟩

theorem best_concat (entries : List Entry) (entry : Entry) :
    best (entries ++ [entry]) = some
      (match best entries with
      | none => entry
      | some current => if current.score.val < entry.score.val then entry else current) := by
  unfold best
  rw [List.argmax_concat]
  cases h : @List.argmax Entry ℤ Int.instLinearOrder.toPreorder Int.decLt
      (fun entry => entry.score.val) entries with
  | none => rfl
  | some current => exact (apply_ite some ..).symm

/-- The loop keeps the entry that Python's `max` returns. -/
theorem foldlM_parseEntry {entries : List Entry}
    (h : ∀ entry ∈ entries, entry.finalScore = entry.score) :
    (entries.map (Entry.toJson c)).foldlM parseEntry none =
      .ok ((best entries).map (fun entry => (.finite (entry.score.val : ℚ), entry.toJson c))) := by
  induction entries using List.reverseRecOn with
  | nil => rfl
  | append_singleton entries entry ih =>
      have hscore : requiredFiniteNumber (entry.toJson c) "score" =
          .ok (.finite (entry.score.val : ℚ)) :=
        requiredFiniteNumber_integer (c := c) (by simp [Entry.toJson, Json.get, List.lookup])
      have hfinal : requiredFiniteNumber (entry.toJson c) "final_score" =
          .ok (.finite (entry.score.val : ℚ)) := by
        rw [← h entry (by simp)]
        exact requiredFiniteNumber_integer (c := c)
          (by simp [Entry.toJson, Json.get, List.lookup])
      rw [List.map_append, List.foldlM_append, ih (fun e he => h e (List.mem_append_left _ he)),
        best_concat]
      have hentry : ∀ previous, parseEntry previous (entry.toJson c) = .ok (some
          (match previous with
          | some current =>
            if current.1.lt (.finite (entry.score.val : ℚ)) then
              (.finite (entry.score.val : ℚ), entry.toJson c)
            else current
          | none => (.finite (entry.score.val : ℚ), entry.toJson c))) := by
        intro previous
        simp only [parseEntry, Result.bind_ok_iff, Result.ensure_ok_iff, Result.exists_unit_iff]
        refine ⟨_, hscore, _, hfinal, by simp, ?_⟩
        cases previous <;> rfl
      change ([entry].map (Entry.toJson c)).foldlM parseEntry _ = _
      rw [List.map_singleton, List.foldlM_cons, hentry]
      cases best entries with
      | none => rfl
      | some current =>
        simp only [F64.lt, Int.cast_lt, decide_eq_true_eq, Option.map_some]
        split_ifs <;> rfl

/-- The greatest score of the entries, and zero without entries. -/
def MaxScore (entries : List Entry) (top : ℤ) : Prop :=
  (entries = [] ∧ top = 0) ∨
    ((∃ entry ∈ entries, entry.score.val = top) ∧ ∀ entry ∈ entries, entry.score.val ≤ top)

theorem parseGameHistory_historyResponse {entries : List Entry}
    (h : ∀ entry ∈ entries, entry.finalScore = entry.score) :
    ∃ score top, parseGameHistory (historyResponse c entries) = .ok score ∧
      score.raw = .finite ((top : ℤ) : ℚ) ∧ MaxScore entries top := by
  cases hbest : best entries with
  | none =>
    obtain rfl : entries = [] := List.argmax_eq_none.mp hbest
    have hreported : requiredFiniteNumber (historyResponse c []) "best_score" =
        .ok (.finite (((0 : CInt).val : ℤ) : ℚ)) := requiredFiniteNumber_integer rfl
    have hentries : ((historyResponse c []).get "entries").bind Json.asArray = some [] := rfl
    refine ⟨⟨.finite 0, .number (.posInt 0), .number (.posInt 0)⟩, 0, ?_, by simp,
      .inl ⟨rfl, rfl⟩⟩
    simp only [parseGameHistory, Result.bind_ok_iff, Result.okOr_ok_iff]
    refine ⟨_, hreported, _, hentries, ?_⟩
    rw [if_pos rfl]
    simp only [Result.bind_ok_iff, Result.ensure_ok_iff, Result.exists_unit_iff, Result.pure_ok_iff]
    exact ⟨by decide, trivial⟩
  | some top =>
    have hmem : top ∈ entries := List.argmax_mem hbest
    have hne : entries.map (Entry.toJson c) ≠ [] := by
      simpa using List.ne_nil_of_mem hmem
    have hreported : requiredFiniteNumber (historyResponse c entries) "best_score" =
        .ok (.finite (top.score.val : ℚ)) := by
      refine requiredFiniteNumber_integer (c := c) ?_
      rw [historyResponse, hbest]
      rfl
    have hentries : ((historyResponse c entries).get "entries").bind Json.asArray =
        some (entries.map (Entry.toJson c)) := by
      rw [historyResponse, hbest]
      rfl
    have hfold := foldlM_parseEntry (c := c) h
    rw [hbest] at hfold
    refine ⟨⟨.finite top.score.val, getOrZero (top.toJson c) "moves",
      getOrZero (top.toJson c) "peak_score"⟩, top.score.val, ?_, rfl,
      .inr ⟨⟨top, hmem, rfl⟩, fun entry hentry => ?_⟩⟩
    · simp only [parseGameHistory, Result.bind_ok_iff, Result.okOr_ok_iff]
      refine ⟨_, hreported, _, hentries, ?_⟩
      rw [if_neg hne]
      simp only [Result.bind_ok_iff, Result.okOr_ok_iff, Result.ensure_ok_iff,
        Result.exists_unit_iff, Result.pure_ok_iff]
      exact ⟨_, hfold, _, rfl, by simp, rfl⟩
    · exact List.le_of_mem_argmax (f := fun entry : Entry => entry.score.val) hentry hbest

end GameServer

end A3sBench
