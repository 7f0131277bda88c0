import A3sBench.BenchRun
import A3sBench.FloatOperations

/-!
# The ways a Judge is executed

`execute_judge` chooses among the Docker Judge, the os-runtime Judge, the legacy
batch Judge and the game Judge. The first two validate what they were answered;
the other two make a result of one ratio and validate nothing.
-/

namespace A3sBench

open BenchRun (primaryMetric)

theorem Outcome.bind_ok_iff {α β : Type} {x : Outcome α} {f : α → Outcome β} {b : β} :
    (x >>= f) = .ok b ↔ ∃ a, x = .ok a ∧ f a = .ok b := by
  cases x <;> simp [bind, Except.bind]

namespace F64

/-- `clamp(0.0, 1.0)`. -/
def clampUnit (x : F64) : F64 :=
  if lt x (.finite 0) then .finite 0 else if lt (.finite 1) x then .finite 1 else x

theorem isDouble_one : IsDouble (.finite 1) := by
  have hround : Library.Binary64.round ((1 : ℤ) : ℚ) = (1 : ℤ) :=
    Library.Binary64.round_intCast (by norm_num)
  rw [Int.cast_one] at hround
  refine ⟨hround, ?_⟩
  rw [abs_one]
  exact one_lt_pow₀ one_lt_two (by decide)

theorem isDouble_clampUnit {x : F64} (h : IsDouble x) : IsDouble x.clampUnit := by
  unfold clampUnit
  split_ifs
  · exact isDouble_zero
  · exact isDouble_one
  · exact h

/-- What is clamped lies between zero and one, unless it is no number. -/
theorem clampUnit_cases (x : F64) :
    x.clampUnit = .nan ∨ ∃ value, x.clampUnit = .finite value ∧ 0 ≤ value ∧ value ≤ 1 := by
  unfold clampUnit
  cases x with
  | nan => exact .inl rfl
  | infinity negative =>
    cases negative
    · exact .inr ⟨1, rfl, zero_le_one, le_rfl⟩
    · exact .inr ⟨0, rfl, le_rfl, zero_le_one⟩
  | finite value =>
    refine .inr ?_
    simp only [lt, decide_eq_true_eq]
    split_ifs with hlow hhigh
    · exact ⟨0, rfl, le_rfl, zero_le_one⟩
    · exact ⟨1, rfl, zero_le_one, le_rfl⟩
    · exact ⟨value, rfl, not_lt.mp hlow, not_lt.mp hhigh⟩

end F64

namespace LegacyJudge

/-- `canonical_ratio`. -/
def canonicalRatio (negativeZero : Bool) (value : F64) : String :=
  value.clampUnit.toText negativeZero

/-- The fields of a descriptor that only the execution of the Judge reads. -/
structure Descriptor where
  parser : String
  rescale : Option Json
  selectionHint : String
  timeoutSec : UInt64

/-- What the Judge paths take from the toolchain and from `serde_json`. -/
structure JudgeHost where
  ln : F64 → F64
  ln1p : F64 → F64
  /-- The build checks overflows. -/
  checks : Bool
  /-- How `{:?}` prints a string. -/
  debug : String → String
  /-- How `{}` prints a number. -/
  display : F64 → String
  fromStr : String → Result Json

inductive JudgeExitClass where
  | completed
  | candidateTimeout
  | modelGatewayTimeout
  | abnormal
  deriving DecidableEq

def classifyJudgeExit (source : LegacyJudgeSource) (exitCode : Option ℤ) : JudgeExitClass :=
  match exitCode with
  | none => .abnormal
  | some code =>
    if (125 ≤ code ∧ code ≤ 127) ∨ code = 137 ∨ code = 143 then .abnormal
    else if code = 124 then
      if source.requiresModelGateway then .modelGatewayTimeout else .candidateTimeout
    else .completed

/-- What the container of a batch Judge meets and leaves. -/
structure BatchRun where
  /-- `configure_model_gateway`. -/
  gateway : Result Unit
  /-- The container was run. -/
  started : Result Unit
  exitCode : Option ℤ
  /-- The output of both streams, repaired. -/
  output : String

def outputHead (value : String) (maxChars : Nat) : String :=
  String.ofList (value.toList.take maxChars)

def outputTail (value : String) (maxChars : Nat) : String :=
  String.ofList (value.toList.drop (value.toList.length - maxChars))

/-- `Option<i32>` as JSON. -/
def exitCodeJson : Option ℤ → Json
  | none => .null
  | some code =>
    if 0 ≤ code then .number (.posInt (UInt64.ofNat code.toNat)) else .number (.negInt code)

/-- `Option<i32>` as `{:?}` prints it. -/
def exitCodeText : Option ℤ → String
  | none => "None"
  | some code => "Some(" ++ toString code ++ ")"

/-- The result of the legacy paths, of one ratio. -/
def ratioResult (primary : MetricInfo) (negativeZero : Bool) (ratio : F64) (diagnostics : Json) :
    JudgeResult :=
  { schema := "bench.judge.result.v1"
    solutionVerdict := "valid"
    metrics := [(primary.name, .string (canonicalRatio negativeZero ratio))]
    diagnostics := diagnostics }

section Paths

variable (host : JudgeHost)

/-- The numbers the scores are computed with. -/
def JudgeHost.numbers : Numbers F64 := F64.numbers host.ln host.ln1p

def Descriptor.scoreSource (descriptor : Descriptor) (source : LegacyJudgeSource) : ScoreSource :=
  { parser := descriptor.parser
    rescale := descriptor.rescale
    selectionHint := descriptor.selectionHint
    requiresModelGateway := source.requiresModelGateway }

/-- The ratio that a batch Judge has by how it ended. -/
def batchRatio (source : LegacyJudgeSource) (descriptor : Descriptor) (run : BatchRun) :
    Outcome F64 :=
  match classifyJudgeExit source run.exitCode with
  | .completed =>
    parseScore host.numbers host.checks host.debug host.fromStr (descriptor.scoreSource source)
      run.output
  | .candidateTimeout => .ok (.finite 0)
  | .modelGatewayTimeout => .error (.error "model-backed Judge exceeded descriptor timeout")
  | .abnormal =>
    .error (.error ("Judge process terminated abnormally (exit_code: " ++
      exitCodeText run.exitCode ++ "): " ++ outputHead run.output 4096))

/-- `legacy_judge::execute`; the sign of a zero ratio is given. -/
def execute (task : TaskInfo) (source : LegacyJudgeSource) (descriptor : Descriptor)
    (run : BatchRun) (negativeZero : Bool) : Outcome JudgeResult := do
  Outcome.ofResult (ensure (source.mode = "batch") "interactive Judge mode is not implemented yet")
  Outcome.ofResult run.gateway
  Outcome.ofResult (ensure
    (descriptor.timeoutSec.toNat + (if source.requiresModelGateway then 30 else 0) < 2 ^ 64)
    "Judge timeout plus gateway cleanup grace overflowed")
  Outcome.ofResult run.started
  Outcome.ofResult (ensure (run.output.utf8ByteSize ≤ 16 * 1024 * 1024)
    "Judge output exceeds 16 MiB")
  let ratio ← batchRatio host source descriptor run
  let primary ← Outcome.ofResult (primaryMetric task)
  pure (ratioResult primary negativeZero ratio (.object
    [("adapter", .string "edgebench-v1"), ("exit_code", exitCodeJson run.exitCode),
      ("output_head", .string (outputHead run.output 4096)),
      ("output_tail", .string (outputTail run.output 4096)),
      ("parser", .string descriptor.parser)]))

end Paths

/-! ## The ratios are doubles -/

section Doubles

open F64 (IsDouble)

variable {host : JudgeHost} {x : F64}

theorem isDouble_asF64 {value : Json} (h : host.numbers.asF64 value = some x) : IsDouble x := by
  unfold Numbers.asF64 at h
  split at h
  · obtain rfl := Option.some.inj h
    exact F64.isDouble_ofRat _
  · obtain rfl := Option.some.inj h
    exact F64.isDouble_ofRat _
  · rename_i text
    have hparse : (F64.parse text).toOption = some x := h
    cases hnumber : F64.parse text with
    | error e =>
      rw [hnumber] at hparse
      cases hparse
    | ok y =>
      rw [hnumber] at hparse
      obtain rfl := Option.some.inj hparse
      exact F64.isDouble_parse hnumber
  · cases h

theorem isDouble_clamp {low high : F64} (hx : IsDouble x) (hlow : IsDouble low)
    (hhigh : IsDouble high) : IsDouble (host.numbers.clamp x low high) := by
  unfold Numbers.clamp
  split_ifs
  · exact hlow
  · exact hhigh
  · exact hx

theorem isDouble_normalizeRaw {spec : Option Json} {raw : F64}
    (h : host.numbers.normalizeRaw host.debug spec raw = .ok x) : IsDouble x := by
  unfold Numbers.normalizeRaw at h
  split_ifs at h
  · obtain rfl := Except.ok.inj h
    exact F64.isDouble_ofRat _
  · split at h
    · obtain rfl := Except.ok.inj h
      exact F64.isDouble_div _ _
    · obtain ⟨percent, -, hpercent⟩ := Result.bind_ok_iff.mp h
      obtain rfl := Result.pure_ok_iff.mp hpercent
      split_ifs
      · exact F64.isDouble_div _ _
      · exact F64.isDouble_ofRat _

theorem isDouble_pytestRatio {output : String}
    (h : pytestRatio host.numbers host.checks output = .ok x) : IsDouble x := by
  rw [pytestRatio_eq] at h
  cases hrun : (items output).foldlM (countItem host.checks) (0, 0) with
  | error e =>
    rw [hrun] at h
    cases h
  | ok tally =>
    rw [hrun] at h
    cases htotal : addU64 host.checks tally.1 tally.2 with
    | error e =>
      simp only [bind, Except.bind, htotal] at h
      cases h
    | ok total =>
      simp only [bind, Except.bind, htotal] at h
      obtain rfl := Except.ok.inj h
      split_ifs
      · exact F64.isDouble_ofRat _
      · exact F64.isDouble_div _ _

theorem isDouble_getD {found : Option F64} (h : ∀ y, found = some y → IsDouble y) :
    IsDouble (found.getD (host.numbers.ofRat 0)) := by
  cases found with
  | none => exact F64.isDouble_ofRat _
  | some y => exact h y rfl

theorem isDouble_structuredScore {source : ScoreSource} {value : Option Json}
    (h : structuredScore host.numbers host.debug source value = .ok x) : IsDouble x := by
  unfold structuredScore at h
  split at h
  · simp only [Result.bind_ok_iff, Result.pure_ok_iff] at h
    obtain ⟨_, _, rfl⟩ := h
    exact F64.isDouble_ofRat _
  · obtain ⟨_, _, h⟩ := Result.bind_ok_iff.mp h
    split at h
    · exact isDouble_normalizeRaw h
    · obtain rfl := Result.pure_ok_iff.mp h
      refine isDouble_clamp ?_ (F64.isDouble_ofRat _) (F64.isDouble_ofRat _)
      exact isDouble_getD (fun rate hrate => by
        obtain ⟨_, _, hrate⟩ := Option.bind_eq_some_iff.mp hrate
        exact isDouble_asF64 hrate)

theorem isDouble_missingScore {hint output : String}
    (h : missingScore host.numbers host.checks host.debug hint output = .ok x) : IsDouble x := by
  unfold missingScore at h
  split at h
  · exact isDouble_pytestRatio h
  · obtain rfl := Except.ok.inj h
    exact F64.isDouble_ofRat _
  · obtain rfl := Except.ok.inj h
    exact F64.isDouble_ofRat _
  · cases h

theorem isDouble_parseScore {source : ScoreSource} {output : String}
    (h : parseScore host.numbers host.checks host.debug host.fromStr source output = .ok x) :
    IsDouble x := by
  unfold parseScore at h
  split at h
  · obtain ⟨value, -, h⟩ := Outcome.bind_ok_iff.mp h
    exact isDouble_structuredScore (Outcome.ofResult_ok_iff.mp h)
  · exact isDouble_normalizeRaw (Outcome.ofResult_ok_iff.mp h)
  · obtain ⟨missing, hmissing, h⟩ := Outcome.bind_ok_iff.mp h
    split at h
    · exact isDouble_normalizeRaw (Outcome.ofResult_ok_iff.mp h)
    · obtain rfl := Except.ok.inj h
      exact isDouble_missingScore hmissing
  · cases h

theorem isDouble_batchRatio {source : LegacyJudgeSource} {descriptor : Descriptor}
    {run : BatchRun} (h : batchRatio host source descriptor run = .ok x) : IsDouble x := by
  unfold batchRatio at h
  split at h
  · exact isDouble_parseScore h
  · obtain rfl := Except.ok.inj h
    exact F64.isDouble_zero
  · cases h
  · cases h

/-- A canonical ratio is the text of a number between zero and one, and is read back. -/
theorem parse_canonicalRatio {negativeZero : Bool} (hdouble : IsDouble x)
    (hcanonical : ResultRecord.canonicalDecimal (canonicalRatio negativeZero x) = true) :
    x.clampUnit.isFinite = true ∧ F64.parse (canonicalRatio negativeZero x) = .ok x.clampUnit := by
  have hclamped := F64.isDouble_clampUnit hdouble
  unfold canonicalRatio at hcanonical ⊢
  rcases x.clampUnit_cases with hnan | ⟨value, hvalue, hnonneg, -⟩
  · have hword : ResultRecord.canonicalDecimal (F64.toText negativeZero .nan) = false := by
      cases negativeZero <;> decide
    rw [hnan, hword] at hcanonical
    cases hcanonical
  · rw [hvalue] at hclamped hcanonical ⊢
    exact ⟨rfl, F64.parse_toText hclamped hnonneg hcanonical⟩

end Doubles

end LegacyJudge

namespace GameJudge

open LegacyJudge (Descriptor JudgeHost ratioResult)

/-- `parse_game_history` of what the container prints. -/
def readHistory (host : JudgeHost) (history : Result String) : Result GameHistoryScore := do
  let output ← history
  let value ← context "could not parse game Judge history" (host.fromStr output)
  parseGameHistory value

/-- The ratio that a game has by its history. -/
def gameRatio (host : JudgeHost) (descriptor : Descriptor) (history : GameHistoryScore) :
    Result F64 :=
  host.numbers.normalizeRaw host.debug descriptor.rescale history.raw

/-- `GameSession::finish`. -/
def finish (host : JudgeHost) (task : TaskInfo) (descriptor : Descriptor)
    (history : Result String) (negativeZero : Bool) : Result JudgeResult := do
  let history ← readHistory host history
  let ratio ← gameRatio host descriptor history
  let primary ← primaryMetric task
  pure (ratioResult primary negativeZero ratio (.object
    [("adapter", .string "edgebench-game-v1"), ("moves", history.bestMoves),
      ("peak_score", history.bestPeakScore)]))

end GameJudge

namespace Runtime

open LegacyJudge (BatchRun Descriptor JudgeHost)

/-- What the Judge of a run meets on each path. -/
structure JudgeWorld where
  /-- What the descriptor of a legacy Judge holds besides. -/
  descriptor : Descriptor
  /-- What the container of the game prints, when there is a session. -/
  game : Option (Result String)
  batch : BatchRun
  negativeZero : Bool
  /-- What the Docker Judge returned, parsed. -/
  docker : Result JudgeResult
  /-- What the os-runtime Judge returned, parsed. -/
  osRuntime : Result JudgeResult

/-- The end of `execute_docker_judge` and of `os_runtime::execute_judge`. -/
def acceptAnswer (host : JudgeHost) (task : TaskInfo) (answer : Result JudgeResult) :
    Result JudgeResult := do
  let result ← answer
  ensure (result.schema = "bench.judge.result.v1")
    ("Judge returned unsupported schema " ++ result.schema)
  validateJudgeResult host.display task result
  pure result

def executeJudge (host : JudgeHost) (world : JudgeWorld) (provider : String) (task : TaskInfo) :
    Outcome JudgeResult :=
  match world.game, task.legacyJudge with
  | some history, some _ =>
    Outcome.ofResult (GameJudge.finish host task world.descriptor history world.negativeZero)
  | none, some source =>
    LegacyJudge.execute host task source world.descriptor world.batch world.negativeZero
  | _, none =>
    if provider = "docker" then Outcome.ofResult (acceptAnswer host task world.docker)
    else if provider = Lock.osRuntimeProvider then
      Outcome.ofResult (acceptAnswer host task world.osRuntime)
    else .error (.error ("Judge Runtime " ++ host.debug provider ++ " is not implemented"))


/-! ## The ratio of the legacy paths -/

/-- The ratio of the path that a legacy Judge is executed on. -/
def judgeRatio (host : JudgeHost) (world : JudgeWorld) (source : LegacyJudgeSource) :
    Outcome F64 :=
  match world.game with
  | some history => Outcome.ofResult (do
      let history ← GameJudge.readHistory host history
      GameJudge.gameRatio host world.descriptor history)
  | none => LegacyJudge.batchRatio host source world.descriptor world.batch

/-- The ratio is for the only metric of the Task, and in its range. -/
def TakesRatio (task : TaskInfo) (ratio : F64) : Prop :=
  ∃ metric, task.metrics = [metric] ∧ F64.le metric.min ratio.clampUnit = true ∧
    F64.le ratio.clampUnit metric.max = true

/-- A Task with a legacy Judge takes the ratio its Judge is given. -/
def TakesJudge (host : JudgeHost) (world : JudgeWorld) (task : TaskInfo) : Prop :=
  ∀ source ∈ task.legacyJudge, ∀ ratio, judgeRatio host world source = .ok ratio →
    TakesRatio task ratio

section Judge

variable {host : JudgeHost} {world : JudgeWorld} {provider : String} {task : TaskInfo}
  {result : JudgeResult}

theorem acceptAnswer_ok {answer : Result JudgeResult}
    (h : acceptAnswer host task answer = .ok result) :
    validateJudgeResult host.display task result = .ok () := by
  simp only [acceptAnswer, Result.bind_ok_iff, Result.exists_unit_iff, Result.pure_ok_iff] at h
  obtain ⟨_, _, _, hvalid, rfl⟩ := h
  exact hvalid

theorem finish_ok {history : Result String} {negativeZero : Bool}
    (h : GameJudge.finish host task world.descriptor history negativeZero = .ok result) :
    ∃ primary read ratio diagnostics, primaryMetric task = .ok primary ∧
      GameJudge.readHistory host history = .ok read ∧
      GameJudge.gameRatio host world.descriptor read = .ok ratio ∧
      result = LegacyJudge.ratioResult primary negativeZero ratio diagnostics := by
  simp only [GameJudge.finish, Result.bind_ok_iff, Result.pure_ok_iff] at h
  obtain ⟨read, hread, ratio, hratio, primary, hprimary, rfl⟩ := h
  exact ⟨primary, read, ratio, _, hprimary, hread, hratio, rfl⟩

theorem execute_ok {source : LegacyJudgeSource} {descriptor : Descriptor} {run : BatchRun}
    {negativeZero : Bool}
    (h : LegacyJudge.execute host task source descriptor run negativeZero = .ok result) :
    ∃ primary ratio diagnostics, primaryMetric task = .ok primary ∧
      LegacyJudge.batchRatio host source descriptor run = .ok ratio ∧
      result = LegacyJudge.ratioResult primary negativeZero ratio diagnostics := by
  simp only [LegacyJudge.execute, Outcome.bind_ok_iff, Outcome.ofResult_ok_iff] at h
  obtain ⟨_, _, _, _, _, _, _, _, _, _, ratio, hratio, primary, hprimary, hresult⟩ := h
  obtain rfl := Except.ok.inj hresult
  exact ⟨primary, ratio, _, hprimary, hratio, rfl⟩

/-- What a Judge path returns: an answer it has validated, or a ratio. -/
theorem executeJudge_ok (h : executeJudge host world provider task = .ok result) :
    task.legacyJudge = none ∧ validateJudgeResult host.display task result = .ok () ∨
      ∃ source primary ratio diagnostics, task.legacyJudge = some source ∧
        primaryMetric task = .ok primary ∧ judgeRatio host world source = .ok ratio ∧
        result = LegacyJudge.ratioResult primary world.negativeZero ratio diagnostics := by
  unfold executeJudge at h
  split at h
  · rename_i history source hgame hsource
    obtain ⟨primary, read, ratio, diagnostics, hprimary, hread, hratio, hresult⟩ :=
      finish_ok (Outcome.ofResult_ok_iff.mp h)
    refine .inr ⟨source, primary, ratio, diagnostics, hsource, hprimary, ?_, hresult⟩
    simp only [judgeRatio, hgame, Outcome.ofResult_ok_iff, Result.bind_ok_iff]
    exact ⟨read, hread, hratio⟩
  · rename_i source hgame hsource
    obtain ⟨primary, ratio, diagnostics, hprimary, hratio, hresult⟩ := execute_ok h
    refine .inr ⟨source, primary, ratio, diagnostics, hsource, hprimary, ?_, hresult⟩
    simp only [judgeRatio, hgame]
    exact hratio
  · rename_i hsource
    refine .inl ⟨hsource, ?_⟩
    split_ifs at h
    · exact acceptAnswer_ok (Outcome.ofResult_ok_iff.mp h)
    · exact acceptAnswer_ok (Outcome.ofResult_ok_iff.mp h)

theorem isDouble_judgeRatio {source : LegacyJudgeSource} {ratio : F64}
    (h : judgeRatio host world source = .ok ratio) : F64.IsDouble ratio := by
  unfold judgeRatio at h
  split at h
  · simp only [Outcome.ofResult_ok_iff, Result.bind_ok_iff] at h
    obtain ⟨_, _, h⟩ := h
    exact LegacyJudge.isDouble_normalizeRaw h
  · exact LegacyJudge.isDouble_batchRatio h

/-- The result of a ratio is valid when the Task takes the ratio. -/
theorem validate_ratioResult_iff {primary : MetricInfo} {negativeZero : Bool} {ratio : F64}
    {diagnostics : Json} (hprimary : primaryMetric task = .ok primary)
    (hdouble : F64.IsDouble ratio)
    (hcanonical : ResultRecord.canonicalDecimal
      (LegacyJudge.canonicalRatio negativeZero ratio) = true) :
    validateJudgeResult host.display task
        (LegacyJudge.ratioResult primary negativeZero ratio diagnostics) = .ok () ↔
      TakesRatio task ratio := by
  obtain ⟨hfinite, hparse⟩ := LegacyJudge.parse_canonicalRatio hdouble hcanonical
  have hfind := Result.okOr_ok_iff.mp hprimary
  have hlookup : (LegacyJudge.ratioResult primary negativeZero ratio diagnostics).metrics.lookup
      primary.name = some (.string (LegacyJudge.canonicalRatio negativeZero ratio)) := by
    rw [LegacyJudge.ratioResult, List.lookup_cons, beq_self_eq_true]
  rw [validateJudgeResult_ok_iff]
  constructor
  · rintro ⟨-, hlength, hall⟩
    obtain ⟨metric, hmetrics⟩ := List.length_eq_one_iff.mp hlength.symm
    obtain ⟨text, htext, -, number, hnumber, hrange⟩ := hall metric (by rw [hmetrics]; simp)
    have hmem := List.mem_of_find?_eq_some hfind
    rw [hmetrics, List.mem_singleton] at hmem
    subst hmem
    obtain rfl := Json.string.inj (Option.some.inj (hlookup.symm.trans htext))
    obtain rfl := Except.ok.inj (hparse.symm.trans hnumber)
    simp only [inRange, Bool.and_eq_true] at hrange
    exact ⟨primary, hmetrics, hrange.1.2, hrange.2⟩
  · rintro ⟨metric, hmetrics, hmin, hmax⟩
    have hmem := List.mem_of_find?_eq_some hfind
    rw [hmetrics, List.mem_singleton] at hmem
    subst hmem
    refine ⟨rfl, by rw [hmetrics]; rfl, fun other hother => ?_⟩
    rw [hmetrics, List.mem_singleton] at hother
    subst hother
    refine ⟨_, hlookup, hcanonical, _, hparse, ?_⟩
    simp only [inRange, hfinite, hmin, hmax, Bool.and_self]

/-- A result with a canonical primary metric is valid exactly when it is no ratio
that the Task does not take. -/
theorem validate_executeJudge_iff {primary : MetricInfo} {text : String}
    (h : executeJudge host world provider task = .ok result)
    (hprimary : primaryMetric task = .ok primary)
    (hlookup : result.metrics.lookup primary.name = some (.string text))
    (hcanonical : ResultRecord.canonicalDecimal text = true) :
    validateJudgeResult host.display task result = .ok () ↔ TakesJudge host world task := by
  rcases executeJudge_ok h with ⟨hnone, hvalid⟩ | ⟨source, found, ratio, diagnostics, hsource, hfound,
    hratio, rfl⟩
  · refine iff_of_true hvalid fun source hsource => ?_
    rw [hnone] at hsource
    cases hsource
  · obtain rfl := Except.ok.inj (hprimary.symm.trans hfound)
    rw [LegacyJudge.ratioResult, List.lookup_cons, beq_self_eq_true] at hlookup
    obtain rfl := Json.string.inj (Option.some.inj hlookup)
    rw [validate_ratioResult_iff hprimary (isDouble_judgeRatio hratio) hcanonical]
    constructor
    · rintro htakes other hother ratio' hratio'
      obtain rfl := Option.some.inj (hsource.symm.trans hother)
      obtain rfl := Except.ok.inj (hratio.symm.trans hratio')
      exact htakes
    · exact fun htakes => htakes source hsource ratio hratio

/-- A metric that ranges over the ratios takes each of them. -/
theorem takesRatio_of_range {metric : MetricInfo} {ratio : F64} (hmetrics : task.metrics = [metric])
    (hmin : F64.le metric.min (.finite 0) = true) (hmax : F64.le (.finite 1) metric.max = true)
    (hfinite : ratio.clampUnit.isFinite = true) : TakesRatio task ratio := by
  rcases ratio.clampUnit_cases with hnan | ⟨value, hvalue, hnonneg, hle⟩
  · rw [hnan] at hfinite
    cases hfinite
  · refine ⟨metric, hmetrics, ?_, ?_⟩
    · rw [hvalue]
      cases hlow : metric.min with
      | finite low =>
        rw [hlow] at hmin
        exact decide_eq_true ((of_decide_eq_true hmin).trans hnonneg)
      | infinity negative =>
        rw [hlow] at hmin
        exact hmin
      | nan =>
        rw [hlow] at hmin
        cases hmin
    · rw [hvalue]
      cases hhigh : metric.max with
      | finite high =>
        rw [hhigh] at hmax
        exact decide_eq_true (hle.trans (of_decide_eq_true hmax))
      | infinity negative =>
        rw [hhigh] at hmax
        exact hmax
      | nan =>
        rw [hhigh] at hmax
        cases hmax

/-- Such a Task takes every Judge that returns a canonical ratio. -/
theorem takesJudge_of_range {primary metric : MetricInfo} {text : String}
    (h : executeJudge host world provider task = .ok result)
    (hprimary : primaryMetric task = .ok primary)
    (hlookup : result.metrics.lookup primary.name = some (.string text))
    (hcanonical : ResultRecord.canonicalDecimal text = true) (hmetrics : task.metrics = [metric])
    (hmin : F64.le metric.min (.finite 0) = true)
    (hmax : F64.le (.finite 1) metric.max = true) : TakesJudge host world task := by
  intro source hsource ratio hratio
  rcases executeJudge_ok h with ⟨hnone, -⟩ | ⟨other, found, ratio', diagnostics, hother, hfound,
    hratio', rfl⟩
  · rw [hnone] at hsource
    cases hsource
  · obtain rfl := Except.ok.inj (hprimary.symm.trans hfound)
    obtain rfl := Option.some.inj (hother.symm.trans hsource)
    obtain rfl := Except.ok.inj (hratio'.symm.trans hratio)
    rw [LegacyJudge.ratioResult, List.lookup_cons, beq_self_eq_true] at hlookup
    obtain rfl := Json.string.inj (Option.some.inj hlookup)
    have hparsed := LegacyJudge.parse_canonicalRatio (isDouble_judgeRatio hratio) hcanonical
    exact takesRatio_of_range hmetrics hmin hmax hparsed.1

end Judge

end Runtime

end A3sBench
