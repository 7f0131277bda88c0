import A3sBench.Comparison
import A3sBench.DecimalScore

/-!
# What a comparison reports

An accepted list passes the same checks pair by pair, and its summary counts
over the pairs. The counts do not see the order of the list; the checks treat
the two sides alike.
-/

namespace A3sBench.Comparison

/-- The scores as `parse_score` reads and compares them. -/
def f64Scores : Scores :=
  { Score := F64, parse := F64.parse, isFinite := F64.isFinite, lt := F64.lt }

abbrev Pair := LocalResultRecord × LocalResultRecord

section Loop

variable (scores : Scores)

/-- The outcome of a pair whose scores are read. -/
def outcome (pair : Pair) : PairOutcome :=
  match parseScore scores pair.1.score, parseScore scores pair.2.score with
  | .ok baseline, .ok candidate => pairOutcome scores baseline candidate
  | _, _ => .tie

structure Accepted (baseline candidate : CandidateDescriptor) (pair : Pair) : Prop where
  baseline_eq : descriptor pair.1 = baseline
  candidate_eq : descriptor pair.2 = candidate
  taskLockDigest : pair.1.taskLockDigest = pair.2.taskLockDigest
  taskId : pair.1.taskId = pair.2.taskId
  primaryMetric : pair.1.primaryMetric = pair.2.primaryMetric
  baselineScore : ∃ score, parseScore scores pair.1.score = .ok score
  candidateScore : ∃ score, parseScore scores pair.2.score = .ok score

def addPair (tally : Tally) (pair : Pair) : Tally := tally.add pair (outcome scores pair)

variable {scores}

theorem comparePair_ok_iff {baseline candidate : CandidateDescriptor} {tally next : Tally}
    {pair : Pair} : comparePair scores baseline candidate tally pair = .ok next ↔
      Accepted scores baseline candidate pair ∧ addPair scores tally pair = next := by
  simp only [comparePair, checkPair, Result.bind_ok_iff, Result.exists_unit_iff,
    Result.ensure_ok_iff, Result.pure_ok_iff]
  constructor
  · rintro ⟨⟨hbaseline, hcandidate, hlock, htask, hmetric⟩, b, hb, c, hc, rfl⟩
    refine ⟨⟨hbaseline, hcandidate, hlock, htask, hmetric, ⟨b, hb⟩, ⟨c, hc⟩⟩, ?_⟩
    rw [addPair, outcome, hb, hc]
  · rintro ⟨h, rfl⟩
    obtain ⟨b, hb⟩ := h.baselineScore
    obtain ⟨c, hc⟩ := h.candidateScore
    refine ⟨⟨h.baseline_eq, h.candidate_eq, h.taskLockDigest, h.taskId, h.primaryMetric⟩,
      b, hb, c, hc, ?_⟩
    rw [addPair, outcome, hb, hc]

theorem foldlM_ok_iff {baseline candidate : CandidateDescriptor} {pairs : List Pair}
    {tally final : Tally} :
    pairs.foldlM (comparePair scores baseline candidate) tally = .ok final ↔
      (∀ pair ∈ pairs, Accepted scores baseline candidate pair) ∧
        pairs.foldl (addPair scores) tally = final := by
  induction pairs generalizing tally with
  | nil => simp
  | cons pair pairs ih =>
      rw [List.foldlM_cons, Result.bind_ok_iff]
      simp only [comparePair_ok_iff, ih, List.forall_mem_cons, List.foldl_cons]
      constructor
      · rintro ⟨_, ⟨hpair, rfl⟩, hpairs, rfl⟩
        exact ⟨⟨hpair, hpairs⟩, rfl⟩
      · rintro ⟨⟨hpair, hpairs⟩, rfl⟩
        exact ⟨_, ⟨hpair, rfl⟩, hpairs, rfl⟩

/-- Acceptance is acceptance of every pair against the first one. -/
theorem comparePairs_ok_iff {pairs : List Pair} {summary : ComparisonSummary} :
    comparePairs scores pairs = .ok summary ↔ ∃ first, pairs.head? = some first ∧
      (∀ pair ∈ pairs, Accepted scores (descriptor first.1) (descriptor first.2) pair) ∧
      summarize (descriptor first.1) (descriptor first.2)
        (pairs.foldl (addPair scores) .empty) = summary := by
  cases pairs with
  | nil => simp [comparePairs]
  | cons first rest =>
      simp only [comparePairs, Result.bind_ok_iff, Result.pure_ok_iff, foldlM_ok_iff,
        List.head?_cons, Option.some.injEq, exists_eq_left']
      constructor
      · rintro ⟨_, ⟨hall, rfl⟩, rfl⟩
        exact ⟨hall, rfl⟩
      · rintro ⟨hall, rfl⟩
        exact ⟨_, ⟨hall, rfl⟩, rfl⟩

/-- How often an outcome occurs. -/
def wins (scores : Scores) (o : PairOutcome) (pairs : List Pair) : Nat :=
  pairs.countP (fun pair => outcome scores pair = o)

def baselineTimeouts (pairs : List Pair) : Nat := pairs.countP (fun pair => timedOut pair.1)

def candidateTimeouts (pairs : List Pair) : Nat := pairs.countP (fun pair => timedOut pair.2)

theorem countP_cons_eq (p : Pair → Bool) (pair : Pair) (pairs : List Pair) :
    (pair :: pairs).countP p = count (p pair) + pairs.countP p := by
  rw [List.countP_cons]
  unfold count
  omega

/-- The accumulators after a list of pairs. -/
theorem foldl_addPair (pairs : List Pair) (tally : Tally) :
    pairs.foldl (addPair scores) tally =
      { baselineWins := tally.baselineWins + wins scores .baselineWin pairs
        ties := tally.ties + wins scores .tie pairs
        candidateWins := tally.candidateWins + wins scores .candidateWin pairs
        baselineTimeouts := tally.baselineTimeouts + baselineTimeouts pairs
        candidateTimeouts := tally.candidateTimeouts + candidateTimeouts pairs
        baselineTokens := (pairs.map Prod.fst).foldl TokenAggregate.observe tally.baselineTokens
        candidateTokens := (pairs.map Prod.snd).foldl TokenAggregate.observe tally.candidateTokens
        comparisons := tally.comparisons ++
          pairs.map (fun pair => pairComparison pair (outcome scores pair)) } := by
  induction pairs generalizing tally with
  | nil => simp [wins, baselineTimeouts, candidateTimeouts]
  | cons pair pairs ih =>
      rw [List.foldl_cons, ih]
      simp only [addPair, Tally.add, wins, baselineTimeouts, candidateTimeouts, countP_cons_eq,
        List.map_cons, List.foldl_cons, List.append_assoc, List.singleton_append, Nat.add_assoc]

end Loop

/-! ## Token totals -/

def hasModel (record : LocalResultRecord) : Bool := record.model.isSome

/-- The tokens a record reports. -/
def totalTokens (record : LocalResultRecord) : Nat :=
  match record.modelUsage with
  | some usage => usage.1.totalTokens
  | none => 0

/-- The records of a side that ran a model. -/
def modelRecords (records : List LocalResultRecord) : List LocalResultRecord :=
  records.filter hasModel

/-- When a side has a token total, and which. -/
structure TokenTotal (records : List LocalResultRecord) (total : Nat) : Prop where
  some_model : ∃ record ∈ records, record.model ≠ none
  all_used : ∀ record ∈ records, record.model ≠ none → record.modelUsage ≠ none
  total_eq : total = ((modelRecords records).map totalTokens).sum
  fits : total < 2 ^ 64

def complete (models : List LocalResultRecord) : Prop :=
  (∀ record ∈ models, record.modelUsage ≠ none) ∧ (models.map totalTokens).sum < 2 ^ 64

instance decidableComplete (models : List LocalResultRecord) : Decidable (complete models) :=
  inferInstanceAs (Decidable (_ ∧ _))

/-- The accumulator after the models of a side. -/
def tokensOf (models : List LocalResultRecord) : TokenAggregate :=
  if models = [] then .default
  else if complete models then
    { sawModel := true, complete := true, total := some (models.map totalTokens).sum }
  else { sawModel := true, complete := false, total := none }

theorem complete_append {models : List LocalResultRecord} {record : LocalResultRecord} :
    complete (models ++ [record]) ↔ complete models ∧ record.modelUsage ≠ none ∧
      (models.map totalTokens).sum + totalTokens record < 2 ^ 64 := by
  simp only [complete, List.forall_mem_append, List.forall_mem_singleton, List.map_append,
    List.sum_append, List.map_cons, List.map_nil, List.sum_cons, List.sum_nil, Nat.add_zero]
  constructor
  · rintro ⟨⟨hall, hused⟩, hsum⟩
    exact ⟨⟨hall, by omega⟩, hused, hsum⟩
  · rintro ⟨⟨hall, _⟩, hused, hsum⟩
    exact ⟨⟨hall, hused⟩, hsum⟩

theorem complete_nil : complete [] := ⟨by simp, by simp⟩

/-- What a record with usage adds to a total. -/
theorem add_some {tokens : TokenAggregate} {record : LocalResultRecord} {usage : ModelUsage}
    (hused : record.modelUsage = some usage) :
    TokenAggregate.add true tokens record.modelUsage =
      if tokens.total.getD 0 + totalTokens record < 2 ^ 64 then
        { sawModel := true, complete := true,
          total := some (tokens.total.getD 0 + totalTokens record) }
      else { sawModel := true, complete := false, total := none } := by
  rw [totalTokens, hused]
  simp only [TokenAggregate.add, TokenAggregate.checkedAdd]
  split <;> rfl

theorem add_none {complete : Bool} {tokens : TokenAggregate} {usage : Option ModelUsage}
    (h : complete = false ∨ usage = none) : TokenAggregate.add complete tokens usage =
      { sawModel := true, complete := false, total := none } := by
  rcases h with rfl | rfl
  · cases usage <;> rfl
  · cases complete <;> rfl

theorem observe_tokensOf {models : List LocalResultRecord} {record : LocalResultRecord}
    (h : record.model ≠ none) :
    (tokensOf models).observe record = tokensOf (models ++ [record]) := by
  have hne : models ++ [record] ≠ [] := by simp
  have hflag : (!(tokensOf models).sawModel || (tokensOf models).complete) =
      decide (complete models) := by
    unfold tokensOf
    split_ifs with hnil hcomplete
    · subst hnil
      simp [TokenAggregate.default, complete_nil]
    · simp [hcomplete]
    · simp [hcomplete]
  rw [TokenAggregate.observe, if_neg h, hflag]
  have hlast : tokensOf (models ++ [record]) =
      if complete (models ++ [record]) then
        { sawModel := true, complete := true, total := some ((models ++ [record]).map totalTokens).sum }
      else { sawModel := true, complete := false, total := none } := by
    rw [tokensOf, if_neg hne]
  rw [hlast]
  by_cases hcomplete : complete models
  · have htotal : (tokensOf models).total.getD 0 = (models.map totalTokens).sum := by
      unfold tokensOf
      split_ifs with hnil
      · subst hnil
        rfl
      · rfl
    rw [decide_eq_true hcomplete]
    cases hused : record.modelUsage with
    | none =>
        rw [add_none (.inr rfl), if_neg]
        exact fun hall => (complete_append.mp hall).2.1 hused
    | some usage =>
        have hsum : ((models ++ [record]).map totalTokens).sum =
            (models.map totalTokens).sum + totalTokens record := by simp
        rw [← hused, add_some hused, htotal]
        by_cases hfits : (models.map totalTokens).sum + totalTokens record < 2 ^ 64
        · have hall : complete (models ++ [record]) :=
            complete_append.mpr ⟨hcomplete, by simp [hused], hfits⟩
          rw [if_pos hfits, if_pos hall, hsum]
        · rw [if_neg hfits, if_neg]
          exact fun hall => hfits (complete_append.mp hall).2.2
  · rw [decide_eq_false hcomplete, add_none (.inl rfl), if_neg]
    exact fun hall => hcomplete (complete_append.mp hall).1

/-- The accumulator of a side depends on its model records alone. -/
theorem foldl_observe (records : List LocalResultRecord) :
    records.foldl TokenAggregate.observe .default = tokensOf (modelRecords records) := by
  induction records using List.reverseRecOn with
  | nil => rfl
  | append_singleton records record ih =>
      rw [List.foldl_append, ih, List.foldl_cons, List.foldl_nil, modelRecords, modelRecords,
        List.filter_append]
      by_cases h : record.model = none
      · have hfilter : [record].filter hasModel = [] := by simp [hasModel, h]
        rw [hfilter, List.append_nil, TokenAggregate.observe, if_pos h]
      · have hfilter : [record].filter hasModel = [record] := by
          simpa [hasModel] using Option.isSome_iff_ne_none.mpr h
        rw [hfilter, observe_tokensOf h]

theorem finish_eq_some_iff {records : List LocalResultRecord} {total : Nat} :
    (records.foldl TokenAggregate.observe .default).finish = some total ↔
      TokenTotal records total := by
  have hmem : ∀ record, record ∈ modelRecords records ↔ record ∈ records ∧ record.model ≠ none := by
    intro record
    rw [modelRecords, List.mem_filter, hasModel, Option.isSome_iff_ne_none]
  have hcomplete : complete (modelRecords records) ↔
      (∀ record ∈ records, record.model ≠ none → record.modelUsage ≠ none) ∧
        ((modelRecords records).map totalTokens).sum < 2 ^ 64 := by
    simp only [complete, hmem, and_imp]
  rw [foldl_observe, tokensOf]
  constructor
  · intro h
    split_ifs at h with hnil hall
    · cases h
    · obtain rfl := Option.some.inj h
      obtain ⟨record, hrecord⟩ := List.exists_mem_of_ne_nil _ hnil
      obtain ⟨hused, hfits⟩ := hcomplete.mp hall
      exact ⟨⟨record, (hmem record).mp hrecord⟩, hused, rfl, hfits⟩
    · cases h
  · rintro ⟨⟨record, hrecord⟩, hused, rfl, hfits⟩
    have hnil : modelRecords records ≠ [] := List.ne_nil_of_mem ((hmem record).mpr hrecord)
    rw [if_neg hnil, if_pos (hcomplete.mpr ⟨hused, hfits⟩)]
    rfl

/-! ## Order and roles -/

theorem TokenTotal.perm {records records' : List LocalResultRecord} {total : Nat}
    (h : TokenTotal records total) (hperm : records.Perm records') : TokenTotal records' total := by
  obtain ⟨record, hrecord, hmodel⟩ := h.some_model
  refine ⟨⟨record, hperm.mem_iff.mp hrecord, hmodel⟩,
    fun r hr => h.all_used r (hperm.mem_iff.mpr hr), ?_, h.fits⟩
  rw [h.total_eq]
  exact ((hperm.filter hasModel).map totalTokens).sum_eq

theorem finish_perm {records records' : List LocalResultRecord} (h : records.Perm records') :
    (records.foldl TokenAggregate.observe .default).finish =
      (records'.foldl TokenAggregate.observe .default).finish := by
  apply Option.ext
  intro total
  rw [finish_eq_some_iff, finish_eq_some_iff]
  exact ⟨fun ht => ht.perm h, fun ht => ht.perm h.symm⟩

def swapOutcome : PairOutcome → PairOutcome
  | .baselineWin => .candidateWin
  | .tie => .tie
  | .candidateWin => .baselineWin

theorem pairOutcome_swap (baseline candidate : F64) :
    pairOutcome f64Scores candidate baseline =
      swapOutcome (pairOutcome f64Scores baseline candidate) := by
  have hasymm : f64Scores.lt candidate baseline = true → f64Scores.lt baseline candidate = false :=
    F64.lt_asymm
  unfold pairOutcome
  cases hlt : f64Scores.lt candidate baseline with
  | true => simp [hasymm hlt, swapOutcome]
  | false => cases f64Scores.lt baseline candidate <;> rfl

theorem outcome_swap (pair : Pair) :
    outcome f64Scores pair.swap = swapOutcome (outcome f64Scores pair) := by
  obtain ⟨left, right⟩ := pair
  simp only [outcome, Prod.swap_prod_mk]
  cases parseScore f64Scores left.score with
  | error e => cases parseScore f64Scores right.score <;> rfl
  | ok baseline =>
      cases parseScore f64Scores right.score with
      | error e => rfl
      | ok candidate => exact pairOutcome_swap baseline candidate

theorem wins_swap (o : PairOutcome) (pairs : List Pair) :
    wins f64Scores (swapOutcome o) (pairs.map Prod.swap) = wins f64Scores o pairs := by
  have hinj : ∀ o o', swapOutcome o = swapOutcome o' ↔ o = o' := by
    intro o o'
    cases o <;> cases o' <;> decide
  rw [wins, wins, List.countP_map]
  congr 1
  funext pair
  simp only [Function.comp_apply, outcome_swap, hinj]

/-- Everything in a summary but its rows. -/
def aggregates (summary : ComparisonSummary) : ComparisonSummary := { summary with pairs := [] }

/-- The aggregates with the roles exchanged. -/
def exchange (summary : ComparisonSummary) : ComparisonSummary :=
  { summary with
    baseline := summary.candidate
    candidate := summary.baseline
    baselineWins := summary.candidateWins
    candidateWins := summary.baselineWins
    baselineTimeouts := summary.candidateTimeouts
    candidateTimeouts := summary.baselineTimeouts
    baselineTotalTokens := summary.candidateTotalTokens
    candidateTotalTokens := summary.baselineTotalTokens
    pairs := [] }

/-- The summary of a list, in closed form. -/
def summaryOf (scores : Scores) (baseline candidate : CandidateDescriptor) (pairs : List Pair) :
    ComparisonSummary :=
  { schema := "a3s.bench.comparison.v1"
    governanceStatus := "local_unofficial"
    baseline := baseline
    candidate := candidate
    pairCount := pairs.length
    baselineWins := wins scores .baselineWin pairs
    ties := wins scores .tie pairs
    candidateWins := wins scores .candidateWin pairs
    baselineTimeouts := baselineTimeouts pairs
    candidateTimeouts := candidateTimeouts pairs
    baselineTotalTokens := ((pairs.map Prod.fst).foldl TokenAggregate.observe .default).finish
    candidateTotalTokens := ((pairs.map Prod.snd).foldl TokenAggregate.observe .default).finish
    pairs := pairs.map (fun pair => pairComparison pair (outcome scores pair)) }

theorem summarize_foldl (scores : Scores) (baseline candidate : CandidateDescriptor)
    (pairs : List Pair) :
    summarize baseline candidate (pairs.foldl (addPair scores) .empty) =
      summaryOf scores baseline candidate pairs := by
  rw [foldl_addPair]
  simp [summarize, summaryOf, Tally.empty]

theorem Accepted.swap {baseline candidate : CandidateDescriptor} {pair : Pair}
    (h : Accepted f64Scores baseline candidate pair) :
    Accepted f64Scores candidate baseline pair.swap :=
  { baseline_eq := h.candidate_eq
    candidate_eq := h.baseline_eq
    taskLockDigest := h.taskLockDigest.symm
    taskId := h.taskId.symm
    primaryMetric := h.primaryMetric.symm
    baselineScore := h.candidateScore
    candidateScore := h.baselineScore }

/-- Acceptance of a list, with the summary it gets. -/
theorem comparePairs_eq_ok_iff {scores : Scores} {pairs : List Pair} {summary : ComparisonSummary} :
    comparePairs scores pairs = .ok summary ↔ pairs ≠ [] ∧
      (∀ pair ∈ pairs, Accepted scores summary.baseline summary.candidate pair) ∧
      summaryOf scores summary.baseline summary.candidate pairs = summary := by
  rw [comparePairs_ok_iff]
  simp only [summarize_foldl]
  constructor
  · rintro ⟨first, hfirst, hall, rfl⟩
    exact ⟨fun hnil => by simp [hnil] at hfirst, hall, rfl⟩
  · rintro ⟨hne, hall, heq⟩
    obtain ⟨first, rest, rfl⟩ := List.exists_cons_of_ne_nil hne
    have hfirst := hall first List.mem_cons_self
    refine ⟨first, rfl, ?_, ?_⟩
    · rw [hfirst.baseline_eq, hfirst.candidate_eq]
      exact hall
    · rw [hfirst.baseline_eq, hfirst.candidate_eq]
      exact heq

theorem wins_add (pairs : List Pair) :
    wins f64Scores .candidateWin pairs + wins f64Scores .tie pairs +
      wins f64Scores .baselineWin pairs = pairs.length := by
  induction pairs with
  | nil => rfl
  | cons pair pairs ih =>
      simp only [wins, countP_cons_eq, List.length_cons] at ih ⊢
      cases outcome f64Scores pair <;> simp [count] <;> omega

theorem aggregates_perm {baseline candidate : CandidateDescriptor} {pairs pairs' : List Pair}
    (h : pairs'.Perm pairs) : aggregates (summaryOf f64Scores baseline candidate pairs') =
      aggregates (summaryOf f64Scores baseline candidate pairs) := by
  simp only [aggregates, summaryOf, wins, baselineTimeouts, candidateTimeouts, h.length_eq,
    h.countP_eq, finish_perm (h.map Prod.fst), finish_perm (h.map Prod.snd)]

theorem aggregates_swap (baseline candidate : CandidateDescriptor) (pairs : List Pair) :
    aggregates (summaryOf f64Scores candidate baseline (pairs.map Prod.swap)) =
      exchange (summaryOf f64Scores baseline candidate pairs) := by
  have hbaseline := wins_swap .candidateWin pairs
  have htie := wins_swap .tie pairs
  have hcandidate := wins_swap .baselineWin pairs
  have hfst : (pairs.map Prod.swap).map Prod.fst = pairs.map Prod.snd := by
    rw [List.map_map]
    rfl
  have hsnd : (pairs.map Prod.swap).map Prod.snd = pairs.map Prod.fst := by
    rw [List.map_map]
    rfl
  simp only [swapOutcome] at hbaseline htie hcandidate
  simp only [aggregates, exchange, summaryOf, hbaseline, htie, hcandidate, hfst, hsnd,
    List.length_map, baselineTimeouts, candidateTimeouts, List.countP_map]
  rfl

/-- An accepted comparison adds up, does not depend on the order of its pairs,
and is accepted with the roles exchanged; a side has a token total exactly when
every model record of it has usage and the sum fits. -/
theorem report_consistent {pairs : List Pair} {summary : ComparisonSummary}
    (h : comparePairs f64Scores pairs = .ok summary) :
    summary.candidateWins + summary.ties + summary.baselineWins = summary.pairCount ∧
    summary.pairCount = pairs.length ∧
    (∀ pairs', pairs'.Perm pairs → ∃ summary', comparePairs f64Scores pairs' = .ok summary' ∧
      aggregates summary' = aggregates summary) ∧
    (∃ summary', comparePairs f64Scores (pairs.map Prod.swap) = .ok summary' ∧
      aggregates summary' = exchange summary) ∧
    (∀ total, summary.baselineTotalTokens = some total ↔ TokenTotal (pairs.map Prod.fst) total) ∧
    (∀ total, summary.candidateTotalTokens = some total ↔
      TokenTotal (pairs.map Prod.snd) total) := by
  obtain ⟨hne, hall, heq⟩ := comparePairs_eq_ok_iff.mp h
  refine ⟨?_, ?_, ?_, ?_, ?_, ?_⟩
  · rw [← heq]
    exact wins_add pairs
  · rw [← heq]
    rfl
  · intro pairs' hperm
    refine ⟨summaryOf f64Scores summary.baseline summary.candidate pairs', ?_, ?_⟩
    · refine comparePairs_eq_ok_iff.mpr ⟨?_, fun pair hpair => hall pair (hperm.mem_iff.mp hpair), rfl⟩
      rintro rfl
      exact hne hperm.nil_eq.symm
    · rw [aggregates_perm hperm, heq]
  · refine ⟨summaryOf f64Scores summary.candidate summary.baseline (pairs.map Prod.swap), ?_, ?_⟩
    · refine comparePairs_eq_ok_iff.mpr ⟨by simpa using hne, ?_, rfl⟩
      intro pair hpair
      obtain ⟨original, horiginal, rfl⟩ := List.mem_map.mp hpair
      exact (hall original horiginal).swap
    · rw [aggregates_swap, heq]
  · intro total
    rw [← finish_eq_some_iff, ← heq]
    rfl
  · intro total
    rw [← finish_eq_some_iff, ← heq]
    rfl

/-! ## The order of the scores -/

open Library
open ResultRecord (canonicalDecimal decimalValue)

/-- The order of two numbers, as an outcome. -/
def exactOutcome (baseline candidate : ℚ) : PairOutcome :=
  if candidate < baseline then .baselineWin
  else if baseline < candidate then .candidateWin
  else .tie

theorem parseScore_ok_iff {scores : Scores} {value : String} {score : scores.Score} :
    parseScore scores value = .ok score ↔
      scores.parse value = .ok score ∧ scores.isFinite score = true := by
  simp only [parseScore, Result.bind_ok_iff, Result.exists_unit_iff, Result.ensure_ok_iff,
    Result.pure_ok_iff]
  constructor
  · rintro ⟨_, hparse, hfinite, rfl⟩
    exact ⟨hparse, hfinite⟩
  · rintro ⟨hparse, hfinite⟩
    exact ⟨score, hparse, hfinite, rfl⟩

theorem parseScore_canonical {value : String} (h : canonicalDecimal value = true)
    (hbound : |decimalValue value| ≤ 2 ^ 1023) :
    parseScore f64Scores value = .ok (F64.ofRat (decimalValue value)) :=
  (@parseScore_ok_iff f64Scores _ _).mpr
    ⟨ResultRecord.parse_canonicalDecimal h, F64.isFinite_ofRat hbound⟩

/-- A canonical score that is accepted stands for its nearest double. -/
theorem score_eq_round {value : String} {score : F64} (h : canonicalDecimal value = true)
    (hscore : parseScore f64Scores value = .ok score) :
    score = .finite (Binary64.round (decimalValue value)) := by
  obtain ⟨hread, hfinite⟩ := (@parseScore_ok_iff f64Scores _ _).mp hscore
  obtain rfl : F64.ofRat (decimalValue value) = score :=
    Except.ok.inj ((ResultRecord.parse_canonicalDecimal h).symm.trans hread)
  change F64.isFinite (F64.ofRat (decimalValue value)) = true at hfinite
  cases hvalue : F64.ofRat (decimalValue value) with
  | finite v => rw [F64.ofRat_finite hvalue]
  | infinity negative =>
      rw [hvalue] at hfinite
      cases hfinite
  | nan =>
      rw [hvalue] at hfinite
      cases hfinite

theorem pairOutcome_finite (x y : ℚ) :
    pairOutcome f64Scores (.finite x) (.finite y) = exactOutcome x y := by
  simp only [pairOutcome, exactOutcome, f64Scores, F64.lt, decide_eq_true_eq]

theorem exactOutcome_round_iff (x y : ℚ) :
    exactOutcome (Binary64.round x) (Binary64.round y) = exactOutcome x y ↔
      x = y ∨ Binary64.round x ≠ Binary64.round y := by
  rcases lt_trichotomy x y with hlt | rfl | hlt
  · have hmono := Binary64.round_mono hlt.le
    have hexact : exactOutcome x y = .candidateWin := by
      rw [exactOutcome, if_neg hlt.not_gt, if_pos hlt]
    rw [hexact, exactOutcome, if_neg hmono.not_gt]
    by_cases heq : Binary64.round x = Binary64.round y
    · simp [heq, hlt.ne]
    · simp [heq, lt_of_le_of_ne hmono heq]
  · simp [exactOutcome]
  · have hmono := Binary64.round_mono hlt.le
    have hexact : exactOutcome x y = .baselineWin := by
      rw [exactOutcome, if_pos hlt]
    rw [hexact, exactOutcome]
    by_cases heq : Binary64.round x = Binary64.round y
    · simp [heq, hlt.ne']
    · simp [heq, lt_of_le_of_ne hmono (Ne.symm heq)]

theorem Accepted.outcome_eq {baseline candidate : CandidateDescriptor} {pair : Pair}
    (h : Accepted f64Scores baseline candidate pair) (hb : canonicalDecimal pair.1.score = true)
    (hc : canonicalDecimal pair.2.score = true) :
    outcome f64Scores pair = exactOutcome (Binary64.round (decimalValue pair.1.score))
      (Binary64.round (decimalValue pair.2.score)) := by
  obtain ⟨b, hbaseline⟩ := h.baselineScore
  obtain ⟨c, hcandidate⟩ := h.candidateScore
  rw [outcome, hbaseline, hcandidate, score_eq_round hb hbaseline, score_eq_round hc hcandidate]
  exact pairOutcome_finite _ _

/-- A reported outcome is the order of the scores as numbers unless they are
different numbers that no double tells apart. -/
theorem outcome_exact_iff {pairs : List Pair} {summary : ComparisonSummary}
    (h : comparePairs f64Scores pairs = .ok summary) {i : Nat} {pair : Pair}
    (hpair : pairs[i]? = some pair) (hbaseline : canonicalDecimal pair.1.score = true)
    (hcandidate : canonicalDecimal pair.2.score = true) :
    ∃ row, summary.pairs[i]? = some row ∧
      (row.outcome = exactOutcome (decimalValue pair.1.score) (decimalValue pair.2.score) ↔
        decimalValue pair.1.score = decimalValue pair.2.score ∨
          Binary64.round (decimalValue pair.1.score) ≠
            Binary64.round (decimalValue pair.2.score)) := by
  obtain ⟨_, hall, heq⟩ := comparePairs_eq_ok_iff.mp h
  refine ⟨pairComparison pair (outcome f64Scores pair), ?_, ?_⟩
  · rw [← heq]
    simp [summaryOf, hpair]
  · change outcome f64Scores pair = _ ↔ _
    rw [(hall pair (List.mem_of_getElem? hpair)).outcome_eq hbaseline hcandidate]
    exact exactOutcome_round_iff _ _

section Sample

/-- Two runs of the sample that differ in their scores. -/
def scoredPair (baseline candidate : String) : Pair :=
  ({ ResultRecord.sampleRecord with score := baseline },
    { ResultRecord.sampleRecord with score := candidate })

theorem comparePairs_scored {baseline candidate : String}
    (hb : canonicalDecimal baseline = true) (hc : canonicalDecimal candidate = true)
    (hbound : |decimalValue baseline| ≤ 2 ^ 1023) (hbound' : |decimalValue candidate| ≤ 2 ^ 1023) :
    comparePairs f64Scores [scoredPair baseline candidate] =
      .ok (summaryOf f64Scores (descriptor ResultRecord.sampleRecord)
        (descriptor ResultRecord.sampleRecord) [scoredPair baseline candidate]) := by
  refine comparePairs_eq_ok_iff.mpr ⟨by simp, ?_, rfl⟩
  rw [List.forall_mem_singleton]
  exact ⟨rfl, rfl, rfl, rfl, rfl, ⟨_, parseScore_canonical hb hbound⟩,
    ⟨_, parseScore_canonical hc hbound'⟩⟩

theorem decimalValue_half : decimalValue "0.5" = 1 / 2 := by decide +kernel

theorem decimalValue_half_more : decimalValue "0.50000000000000000001" =
    50000000000000000001 / 100000000000000000000 := by decide +kernel

theorem round_near_half {x : ℚ} (hlow : 1 / 2 ≤ x) (hhigh : x < 1 / 2 + 1 / 2 ^ 54) :
    Binary64.round x = 1 / 2 := by
  have habs : |x| = x := abs_of_nonneg (by linarith)
  have hexp : Binary64.exponent x = (-1) - 52 := by
    refine Binary64.exponent_eq (by decide) ?_ ?_
    · rw [habs]
      norm_num at hlow ⊢
      linarith
    · rw [habs]
      norm_num at hhigh ⊢
      linarith
  have hunit : Binary64.unit x = 1 / 2 ^ 53 := by
    rw [Binary64.unit, hexp]
    norm_num
  have hround : Binary64.round x = (2 ^ 52 : ℤ) * Binary64.unit x := by
    refine Binary64.round_eq_of_abs_sub_lt ?_
    rw [hunit, abs_lt]
    norm_num at hlow hhigh ⊢
    constructor <;> linarith
  rw [hround, hunit]
  norm_num

theorem comparePairs_half : comparePairs f64Scores [scoredPair "0.5" "0.50000000000000000001"] =
    .ok (summaryOf f64Scores (descriptor ResultRecord.sampleRecord)
      (descriptor ResultRecord.sampleRecord) [scoredPair "0.5" "0.50000000000000000001"]) := by
  refine comparePairs_scored (by decide) (by decide) ?_ ?_
  · rw [decimalValue_half]
    exact le_trans (by norm_num) (one_le_pow₀ (by norm_num))
  · rw [decimalValue_half_more]
    exact le_trans (by norm_num) (one_le_pow₀ (by norm_num))

end Sample

theorem report_consistent_sample :
    ∃ summary, comparePairs f64Scores [scoredPair "0.5" "0.50000000000000000001"] = .ok summary ∧
      summary.candidateWins + summary.ties + summary.baselineWins = summary.pairCount :=
  ⟨_, comparePairs_half, (report_consistent comparePairs_half).1⟩

theorem outcome_exact_iff_sample :
    ∃ summary row, comparePairs f64Scores [scoredPair "0.5" "0.50000000000000000001"] =
      .ok summary ∧ summary.pairs[0]? = some row ∧
      (row.outcome = exactOutcome (1 / 2) (50000000000000000001 / 100000000000000000000) ↔
        (1 / 2 : ℚ) = 50000000000000000001 / 100000000000000000000 ∨
          Binary64.round (1 / 2) ≠
            Binary64.round (50000000000000000001 / 100000000000000000000)) := by
  obtain ⟨row, hrow, hiff⟩ := @outcome_exact_iff _ _ comparePairs_half 0
    (scoredPair "0.5" "0.50000000000000000001") rfl (by decide) (by decide)
  refine ⟨_, row, comparePairs_half, hrow, ?_⟩
  change _ = exactOutcome (decimalValue "0.5") (decimalValue "0.50000000000000000001") ↔
    decimalValue "0.5" = decimalValue "0.50000000000000000001" ∨
      Binary64.round (decimalValue "0.5") ≠
        Binary64.round (decimalValue "0.50000000000000000001") at hiff
  rwa [decimalValue_half, decimalValue_half_more] at hiff

/-- The better candidate is reported as a tie. -/
theorem late_digit_tied :
    ∃ summary row, comparePairs f64Scores [scoredPair "0.5" "0.50000000000000000001"] =
      .ok summary ∧ summary.pairs[0]? = some row ∧ row.outcome = .tie ∧
      exactOutcome (decimalValue "0.5") (decimalValue "0.50000000000000000001") =
        .candidateWin := by
  have hlow : Binary64.round (decimalValue "0.5") = 1 / 2 := by
    rw [decimalValue_half]
    exact round_near_half (by norm_num) (by norm_num)
  have hhigh : Binary64.round (decimalValue "0.50000000000000000001") = 1 / 2 := by
    rw [decimalValue_half_more]
    exact round_near_half (by norm_num) (by norm_num)
  refine ⟨_, _, comparePairs_half, rfl, ?_, ?_⟩
  · have haccepted := (comparePairs_eq_ok_iff.mp comparePairs_half).2.1 _ List.mem_cons_self
    change outcome f64Scores (scoredPair "0.5" "0.50000000000000000001") = .tie
    rw [haccepted.outcome_eq (by decide) (by decide)]
    change exactOutcome (Binary64.round (decimalValue "0.5"))
      (Binary64.round (decimalValue "0.50000000000000000001")) = .tie
    rw [hlow, hhigh]
    norm_num [exactOutcome]
  · rw [decimalValue_half, decimalValue_half_more]
    norm_num [exactOutcome]

end A3sBench.Comparison
