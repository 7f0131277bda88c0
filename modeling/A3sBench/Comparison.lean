import A3sBench.ResultRecord

/-!
# Comparison of result pairs

`compare_pairs` walks the pairs once, checks that each side is one Candidate and
that a pair is about one Task, and counts outcomes, timeouts and tokens.
-/

namespace A3sBench.Comparison

inductive PairOutcome where
  | baselineWin
  | tie
  | candidateWin
  deriving DecidableEq

structure CandidateDescriptor where
  identity : String
  model : Option String
  deriving DecidableEq

structure PairComparison where
  taskId : String
  taskLockDigest : String
  baselineRunId : String
  candidateRunId : String
  primaryMetric : String
  baselineScore : String
  candidateScore : String
  outcome : PairOutcome
  baselineTimedOut : Bool
  candidateTimedOut : Bool
  deriving DecidableEq

structure ComparisonSummary where
  schema : String
  governanceStatus : String
  baseline : CandidateDescriptor
  candidate : CandidateDescriptor
  pairCount : Nat
  baselineWins : Nat
  ties : Nat
  candidateWins : Nat
  baselineTimeouts : Nat
  candidateTimeouts : Nat
  baselineTotalTokens : Option Nat
  candidateTotalTokens : Option Nat
  pairs : List PairComparison
  deriving DecidableEq

/-- The `f64` scores: how they are read and how finite ones compare. -/
structure Scores where
  Score : Type
  parse : String → Result Score
  isFinite : Score → Bool
  lt : Score → Score → Bool

def parseScore (scores : Scores) (value : String) : Result scores.Score := do
  let score ← scores.parse value
  ensure (scores.isFinite score = true) "result score is not finite"
  pure score

def descriptor (record : LocalResultRecord) : CandidateDescriptor :=
  { identity := record.agentIdentity, model := record.model }

def timedOut (record : LocalResultRecord) : Bool :=
  record.candidateExecution.any ResultRecord.isTimedOut

structure TokenAggregate where
  sawModel : Bool
  complete : Bool
  total : Option Nat
  deriving DecidableEq

namespace TokenAggregate

def default : TokenAggregate := { sawModel := false, complete := false, total := none }

/-- `u64::checked_add`. -/
def checkedAdd (a b : Nat) : Option Nat := if a + b < 2 ^ 64 then some (a + b) else none

/-- What `observe` does with a record that has a model. -/
def add (complete : Bool) (tokens : TokenAggregate) (usage : Option ModelUsage) :
    TokenAggregate :=
  match usage, complete with
  | some usage, true =>
    let total := checkedAdd (tokens.total.getD 0) usage.1.totalTokens
    { sawModel := true, complete := total.isSome, total := total }
  | _, _ => { sawModel := true, complete := false, total := none }

def observe (tokens : TokenAggregate) (record : LocalResultRecord) : TokenAggregate :=
  if record.model = none then tokens
  else add (!tokens.sawModel || tokens.complete) tokens record.modelUsage

def finish (tokens : TokenAggregate) : Option Nat :=
  if tokens.sawModel && tokens.complete then tokens.total else none

end TokenAggregate

/-- The accumulators of the loop. -/
structure Tally where
  baselineWins : Nat
  ties : Nat
  candidateWins : Nat
  baselineTimeouts : Nat
  candidateTimeouts : Nat
  baselineTokens : TokenAggregate
  candidateTokens : TokenAggregate
  comparisons : List PairComparison

def Tally.empty : Tally :=
  { baselineWins := 0, ties := 0, candidateWins := 0, baselineTimeouts := 0
    candidateTimeouts := 0, baselineTokens := .default, candidateTokens := .default
    comparisons := [] }

def pairOutcome (scores : Scores) (baseline candidate : scores.Score) : PairOutcome :=
  if scores.lt candidate baseline then .baselineWin
  else if scores.lt baseline candidate then .candidateWin
  else .tie

def count (p : Bool) : Nat := if p then 1 else 0

/-- The row of a pair with the given outcome. -/
def pairComparison (pair : LocalResultRecord × LocalResultRecord) (outcome : PairOutcome) :
    PairComparison :=
  { taskId := pair.1.taskId
    taskLockDigest := pair.1.taskLockDigest
    baselineRunId := pair.1.runId
    candidateRunId := pair.2.runId
    primaryMetric := pair.1.primaryMetric
    baselineScore := pair.1.score
    candidateScore := pair.2.score
    outcome := outcome
    baselineTimedOut := timedOut pair.1
    candidateTimedOut := timedOut pair.2 }

def Tally.add (tally : Tally) (pair : LocalResultRecord × LocalResultRecord)
    (outcome : PairOutcome) : Tally :=
  { baselineWins := tally.baselineWins + count (outcome = .baselineWin)
    ties := tally.ties + count (outcome = .tie)
    candidateWins := tally.candidateWins + count (outcome = .candidateWin)
    baselineTimeouts := tally.baselineTimeouts + count (timedOut pair.1)
    candidateTimeouts := tally.candidateTimeouts + count (timedOut pair.2)
    baselineTokens := tally.baselineTokens.observe pair.1
    candidateTokens := tally.candidateTokens.observe pair.2
    comparisons := tally.comparisons ++ [pairComparison pair outcome] }

/-- What the loop checks of a pair. -/
def checkPair (baseline candidate : CandidateDescriptor)
    (pair : LocalResultRecord × LocalResultRecord) : Result Unit := do
  ensure (descriptor pair.1 = baseline)
    "baseline results do not identify one Candidate and model"
  ensure (descriptor pair.2 = candidate)
    "candidate results do not identify one Candidate and model"
  ensure (pair.1.taskLockDigest = pair.2.taskLockDigest)
    ("result pair " ++ pair.1.runId ++ " / " ++ pair.2.runId ++
      " does not bind the same Task lock")
  ensure (pair.1.taskId = pair.2.taskId ∧ pair.1.primaryMetric = pair.2.primaryMetric)
    ("result pair " ++ pair.1.runId ++ " / " ++ pair.2.runId ++
      " has inconsistent Task metadata")

/-- The body of the loop. -/
def comparePair (scores : Scores) (baseline candidate : CandidateDescriptor) (tally : Tally)
    (pair : LocalResultRecord × LocalResultRecord) : Result Tally := do
  checkPair baseline candidate pair
  let baselineScore ← parseScore scores pair.1.score
  let candidateScore ← parseScore scores pair.2.score
  pure (tally.add pair (pairOutcome scores baselineScore candidateScore))

/-- The summary of a complete tally. -/
def summarize (baseline candidate : CandidateDescriptor) (tally : Tally) : ComparisonSummary :=
  { schema := "a3s.bench.comparison.v1"
    governanceStatus := "local_unofficial"
    baseline := baseline
    candidate := candidate
    pairCount := tally.comparisons.length
    baselineWins := tally.baselineWins
    ties := tally.ties
    candidateWins := tally.candidateWins
    baselineTimeouts := tally.baselineTimeouts
    candidateTimeouts := tally.candidateTimeouts
    baselineTotalTokens := tally.baselineTokens.finish
    candidateTotalTokens := tally.candidateTokens.finish
    pairs := tally.comparisons }

def comparePairs (scores : Scores) (pairs : List (LocalResultRecord × LocalResultRecord)) :
    Result ComparisonSummary :=
  match pairs with
  | [] => .error "comparison requires at least one result pair"
  | first :: _ => do
    let tally ← pairs.foldlM (comparePair scores (descriptor first.1) (descriptor first.2)) .empty
    pure (summarize (descriptor first.1) (descriptor first.2) tally)

/-- What a reported row says of its pair. -/
structure Reports (pair : LocalResultRecord × LocalResultRecord) (row : PairComparison) : Prop where
  row_eq : row = pairComparison pair row.outcome
  taskLockDigest : pair.1.taskLockDigest = pair.2.taskLockDigest

variable {scores : Scores}

theorem comparePair_ok {baseline candidate : CandidateDescriptor} {tally next : Tally}
    {pair : LocalResultRecord × LocalResultRecord}
    (h : comparePair scores baseline candidate tally pair = .ok next) :
    ∃ outcome, next = tally.add pair outcome ∧ Reports pair (pairComparison pair outcome) := by
  simp only [comparePair, checkPair, Result.bind_ok_iff, Result.exists_unit_iff,
    Result.ensure_ok_iff, Result.pure_ok_iff] at h
  obtain ⟨⟨_, _, htask, _⟩, _, _, _, _, rfl⟩ := h
  exact ⟨_, rfl, rfl, htask⟩

theorem comparisons_of_foldlM {baseline candidate : CandidateDescriptor}
    {pairs : List (LocalResultRecord × LocalResultRecord)} {tally final : Tally}
    (h : pairs.foldlM (comparePair scores baseline candidate) tally = .ok final) :
    ∃ rows, final.comparisons = tally.comparisons ++ rows ∧ List.Forall₂ Reports pairs rows := by
  induction pairs generalizing tally with
  | nil =>
    obtain rfl : tally = final := Result.pure_ok_iff.mp h
    exact ⟨[], (List.append_nil _).symm, .nil⟩
  | cons pair pairs ih =>
    rw [List.foldlM_cons, Result.bind_ok_iff] at h
    obtain ⟨next, hpair, hrest⟩ := h
    obtain ⟨outcome, rfl, hreports⟩ := comparePair_ok hpair
    obtain ⟨rows, hrows, hforall⟩ := ih hrest
    refine ⟨pairComparison pair outcome :: rows, ?_, .cons hreports hforall⟩
    rw [hrows, Tally.add, List.append_assoc, List.singleton_append]

theorem reports_of_comparePairs {pairs : List (LocalResultRecord × LocalResultRecord)}
    {summary : ComparisonSummary} (h : comparePairs scores pairs = .ok summary) :
    List.Forall₂ Reports pairs summary.pairs := by
  cases pairs with
  | nil => cases h
  | cons first rest =>
    simp only [comparePairs, Result.bind_ok_iff, Result.pure_ok_iff] at h
    obtain ⟨tally, htally, rfl⟩ := h
    obtain ⟨rows, hrows, hforall⟩ := comparisons_of_foldlM htally
    have hpairs : tally.comparisons = rows := hrows
    change List.Forall₂ Reports (first :: rest) tally.comparisons
    rwa [hpairs]

end A3sBench.Comparison
