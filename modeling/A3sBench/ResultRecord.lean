import A3sBench.Library.Sealed
import A3sBench.ResultIdentity
import A3sBench.RunJournal
import Mathlib

/-!
# Result records

`LocalResultRecord::validate` checks a stored record against its own digest. The
fields the older identities leave out are the ones it fixes.
-/

namespace A3sBench.ResultRecord

open Library
open ResultIdentity (calculate encoded)

/-- `CandidateExecution::validate`. -/
def validateExecution (execution : CandidateExecution) : Result Unit :=
  match execution.status, execution.timeoutSec with
  | .completed, none => .ok ()
  | .completed, some _ => .error "completed Candidate execution has a timeout"
  | .timedOut, none => .error "timed-out Candidate execution has no positive timeout"
  | .timedOut, some timeout =>
    ensure (timeout ≠ 0) "timed-out Candidate execution has no positive timeout"

def isTimedOut (execution : CandidateExecution) : Bool := execution.status = .timedOut

/-- `str::split_once('.')`, with an empty fraction when there is no point. -/
def splitDecimal (value : List Char) : List Char × List Char :=
  (value.takeWhile (· ≠ '.'), (value.dropWhile (· ≠ '.')).tail)

/-- `runtime::canonical_decimal`. -/
def canonicalDecimal (value : String) : Bool :=
  let unsigned := match value.toList with
    | '-' :: unsigned => unsigned
    | unsigned => unsigned
  let (integer, fraction) := splitDecimal unsigned
  value = "0" ||
    (integer ≠ [] && integer.all Char.isDigit && (integer = ['0'] || integer.head? ≠ some '0') &&
      (fraction = [] || (fraction.all Char.isDigit && fraction.getLast? ≠ some '0')))

/-- What a record has besides, by its schema. -/
def checkSchema (value : LocalResultRecord) : Result Unit :=
  match value.schema with
  | "a3s.bench.local-result.v4" => do
    ensure (value.candidateExecution = none)
      "v4 local result contains Candidate execution metadata"
    ensure (value.candidateEventLogDigest = none)
      "v4 local result contains Candidate event evidence"
  | "a3s.bench.local-result.v5" => do
    let execution ← okOr value.candidateExecution "local result has no Candidate execution"
    validateExecution execution
    ensure (value.candidateEventLogDigest = none)
      "v5 local result contains Candidate event evidence"
  | "a3s.bench.local-result.v6" => do
    let execution ← okOr value.candidateExecution "local result has no Candidate execution"
    validateExecution execution
  | _ => .error "unsupported local result schema"

/-- The texts that must not be blank, under their names. -/
def namedTexts (value : LocalResultRecord) : List (String × String) :=
  [("task_id", value.taskId), ("agent", value.agent), ("agent_identity", value.agentIdentity),
    ("judge_identity", value.judgeIdentity), ("runtime_provider", value.runtimeProvider),
    ("primary_metric", value.primaryMetric)]

def checkModel (value : LocalResultRecord) : Result Unit :=
  let timedOut := value.candidateExecution.any isTimedOut
  match value.model with
  | some model => do
    ensure (Text.isBlank model = false) "local result model is empty"
    if timedOut then
      ensure (value.modelUsage = none) "timed-out model Candidate has completed usage"
    else ensure (value.modelUsage ≠ none) "completed model Candidate has no usage"
  | none =>
    if timedOut then ensure (value.modelUsage = none) "timed-out Candidate has completed usage"
    else .ok ()

/-- `checked_add` of two counts. -/
def checkUsage (usage : ModelUsage) : Result Unit :=
  ensure (usage.1.promptTokens + usage.1.completionTokens = usage.1.totalTokens)
    "model token usage total is inconsistent"

def checkScore (value : LocalResultRecord) : Result Unit := do
  ensure (canonicalDecimal value.score = true) "local result score is not canonical"
  ensure (value.judgeResult.schema = "bench.judge.result.v1") "invalid JudgeResult schema"
  ensure (value.judgeResult.solutionVerdict = "valid") "invalid JudgeResult verdict"
  ensure ((value.judgeResult.metrics.lookup value.primaryMetric).bind Json.asStr =
      some value.score)
    "local result score does not match its primary Judge metric"

/-- `LocalResultRecord::validate`. -/
def validate (os : Platform) (value : LocalResultRecord) (expectedRunId : String) :
    Result Unit := do
  validateRunId value.runId
  checkSchema value
  ensure (value.governanceStatus = "local_unofficial") "invalid local result governance status"
  ensure (value.runId = expectedRunId) "local result identity mismatch"
  LockIdentity.validateDigest value.resultDigest
  let digest ← calculate os value
  ensure (digest = value.resultDigest) "local result semantic digest mismatch"
  (namedTexts value).forM (fun text =>
    ensure (Text.isBlank text.2 = false) ("local result " ++ text.1 ++ " is empty"))
  LockIdentity.validateDigest value.taskLockDigest
  LockIdentity.validateDigest value.candidateLockDigest
  checkModel value
  (value.modelUsage.toList).forM checkUsage
  checkScore value

structure NewLocalResult where
  runId : String
  taskId : String
  taskLockDigest : String
  agent : String
  candidateLockDigest : String
  agentIdentity : String
  judgeIdentity : String
  runtimeProvider : String
  model : Option String
  candidateExecution : CandidateExecution
  modelUsage : Option ModelUsage
  candidateEventLogDigest : Option String
  primaryMetric : String
  score : String
  judgeResult : JudgeResult

/-- The record of a new result, without its digest. -/
def NewLocalResult.record (input : NewLocalResult) : LocalResultRecord :=
  { schema := "a3s.bench.local-result.v6"
    resultDigest := ""
    governanceStatus := "local_unofficial"
    runId := input.runId
    taskId := input.taskId
    taskLockDigest := input.taskLockDigest
    agent := input.agent
    candidateLockDigest := input.candidateLockDigest
    agentIdentity := input.agentIdentity
    judgeIdentity := input.judgeIdentity
    runtimeProvider := input.runtimeProvider
    model := input.model
    candidateExecution := some input.candidateExecution
    modelUsage := input.modelUsage
    candidateEventLogDigest := input.candidateEventLogDigest
    primaryMetric := input.primaryMetric
    score := input.score
    judgeResult := input.judgeResult }

/-- The files of the results: the records, the journals of their runs and the
Codex event logs, by run id. -/
structure ResultStore where
  results : String → Option LocalResultRecord
  journals : String → Option JournalFile
  eventLogs : String → Option Bytes

def resultPath (stateRoot runId : String) : String := stateRoot ++ "/results/" ++ runId ++ ".json"

/-- `LocalResultRecord::save`, when the file is written. -/
def save (os : Platform) (input : NewLocalResult) (store : ResultStore) :
    Result (LocalResultRecord × ResultStore) := do
  let record := input.record
  let digest ← calculate os record
  let record := { record with resultDigest := digest }
  validate os record record.runId
  pure (record,
    { store with results := Function.update store.results record.runId (some record) })

/-- `validate_event_log`. -/
def validateEventLog (os : Platform) (value : LocalResultRecord) (store : ResultStore) :
    Result Unit :=
  if value.schema ≠ "a3s.bench.local-result.v6" then .ok ()
  else
    match value.candidateEventLogDigest with
    | some expected => do
      LockIdentity.validateDigest expected
      let bytes ← okOr (store.eventLogs value.runId) "Codex event log is unavailable"
      ensure ("sha256:" ++ os.sha256 bytes = expected)
        "Codex event log digest does not match local result"
    | none => ensure (store.eventLogs value.runId = none)
        "Codex event log is not bound into the local result"

/-- `LocalResultRecord::load`. -/
def load (os : Platform) (stateRoot : String) (store : ResultStore) (runId : String) :
    Result (Option LocalResultRecord) := do
  validateRunId runId
  match store.results runId with
  | none => pure none
  | some record =>
    validate os record runId
    let journal ← RunJournal.load stateRoot (store.journals runId) runId
    ensure (journal.stage = .completed) "local result is not backed by a completed run journal"
    ensure (journal.taskLockDigest = some record.taskLockDigest ∧
        journal.candidateLockDigest = some record.candidateLockDigest)
      "local result lock binding does not match its run journal"
    ensure (journal.resultDigest = some record.resultDigest)
      "local result digest does not match its run journal"
    ensure (journal.resultPath = some (resultPath stateRoot runId))
      "local result path does not match its run journal"
    validateEventLog os record store
    pure (some record)

/-- A loaded record is the stored one, under its own run id. -/
theorem load_ok {os : Platform} {stateRoot runId : String} {store : ResultStore}
    {record : LocalResultRecord} (h : load os stateRoot store runId = .ok (some record)) :
    store.results runId = some record ∧ record.runId = runId := by
  simp only [load, Result.bind_ok_iff, Result.exists_unit_iff] at h
  obtain ⟨_, h⟩ := h
  split at h
  · cases h
  · rename_i stored hstored
    simp only [Result.bind_ok_iff, Result.exists_unit_iff, Result.pure_ok_iff,
      Option.some.injEq] at h
    obtain ⟨hvalid, _, _, _, _, _, _, _, rfl⟩ := h
    simp only [validate, Result.bind_ok_iff, Result.exists_unit_iff, Result.ensure_ok_iff] at hvalid
    exact ⟨hstored, hvalid.2.2.2.1⟩

theorem schema_of_checkSchema {value : LocalResultRecord} (h : checkSchema value = .ok ()) :
    (value.schema = "a3s.bench.local-result.v4" ∧ value.candidateExecution = none ∧
        value.candidateEventLogDigest = none) ∨
      (value.schema = "a3s.bench.local-result.v5" ∧ value.candidateEventLogDigest = none) ∨
      value.schema = "a3s.bench.local-result.v6" := by
  unfold checkSchema at h
  split at h
  · rename_i hv4
    simp only [Result.bind_ok_iff, Result.exists_unit_iff, Result.ensure_ok_iff] at h
    exact .inl ⟨hv4, h⟩
  · rename_i hv5
    simp only [Result.bind_ok_iff, Result.exists_unit_iff, Result.ensure_ok_iff] at h
    obtain ⟨_, _, _, hlog⟩ := h
    exact .inr (.inl ⟨hv5, hlog⟩)
  · rename_i hv6
    exact .inr (.inr hv6)
  · cases h

theorem sealed_of_validate {os : Platform} {value : LocalResultRecord} {runId : String}
    (h : validate os value runId = .ok ()) :
    checkSchema value = .ok () ∧ .ok value.resultDigest = os.digest <$> encoded value := by
  simp only [validate, Result.bind_ok_iff, Result.exists_unit_iff, Result.ensure_ok_iff] at h
  obtain ⟨_, hschema, _, _, _, digest, hdigest, rfl, _⟩ := h
  exact ⟨hschema, hdigest.symm⟩

/-- The schema is read off the first member of an identity. -/
theorem encoded_eq {value : LocalResultRecord} (h : checkSchema value = .ok ()) :
    ∃ rest, encoded value = .ok (.object (ResultIdentity.runMembers value ++ rest)) := by
  rcases schema_of_checkSchema h with ⟨hv4, _⟩ | ⟨hv5, _⟩ | hv6
  · exact ⟨_, by simp only [encoded, hv4]; rfl⟩
  · exact ⟨_, by simp only [encoded, hv5]; rfl⟩
  · exact ⟨_, by simp only [encoded, hv6]; rfl⟩

/-- Two valid records with one identity agree on everything but the digest. -/
theorem fields_of_encoded_eq {a b : LocalResultRecord} (ha : checkSchema a = .ok ())
    (hb : checkSchema b = .ok ()) (h : encoded a = encoded b) :
    ResultIdentity.runMembers a = ResultIdentity.runMembers b ∧
      a.candidateExecution = b.candidateExecution ∧ a.modelUsage = b.modelUsage ∧
      a.candidateEventLogDigest = b.candidateEventLogDigest ∧
      ResultIdentity.scoreMembers a = ResultIdentity.scoreMembers b := by
  obtain ⟨rest, hrest⟩ := encoded_eq ha
  obtain ⟨rest', hrest'⟩ := encoded_eq hb
  have hobject := Json.object.inj (Except.ok.inj (hrest.symm.trans (h.trans hrest')))
  have hrun := (List.append_inj hobject rfl).1
  refine ⟨hrun, ?_⟩
  have hschema := (ResultIdentity.runMembers_inj hrun).1
  have hpin := schema_of_checkSchema hb
  rw [← hschema] at hpin
  rcases schema_of_checkSchema ha with ⟨hv4, hexecution, hlog⟩ | ⟨hv5, hlog⟩ | hv6
  · simp only [hv4, String.reduceEq, true_and, false_and, or_false] at hpin
    simp only [encoded, ← hschema, hv4, Except.ok.injEq] at h
    obtain ⟨-, htail⟩ := List.append_inj (Json.object.inj h) rfl
    obtain ⟨husage, hscore⟩ := List.cons.inj htail
    exact ⟨hexecution.trans hpin.1.symm, ResultIdentity.usageMember_inj husage,
      hlog.trans hpin.2.symm, hscore⟩
  · simp only [hv5, String.reduceEq, true_and, false_and, false_or, or_false] at hpin
    simp only [encoded, ← hschema, hv5, Except.ok.injEq] at h
    obtain ⟨-, htail⟩ := List.append_inj (Json.object.inj h) rfl
    obtain ⟨hexecution, htail⟩ := List.cons.inj htail
    obtain ⟨husage, hscore⟩ := List.cons.inj htail
    exact ⟨ResultIdentity.executionMember_inj hexecution, ResultIdentity.usageMember_inj husage,
      hlog.trans hpin.symm, hscore⟩
  · simp only [encoded, ← hschema, hv6, Except.ok.injEq] at h
    obtain ⟨-, htail⟩ := List.append_inj (Json.object.inj h) rfl
    obtain ⟨hexecution, htail⟩ := List.cons.inj htail
    obtain ⟨husage, htail⟩ := List.cons.inj htail
    obtain ⟨hlog, hscore⟩ := List.cons.inj htail
    exact ⟨ResultIdentity.executionMember_inj hexecution, ResultIdentity.usageMember_inj husage,
      ResultIdentity.eventLogMember_inj hlog, hscore⟩

/-- Result records as validation accepts them. -/
def resultFormat (os : Platform) : SealedFormat LocalResultRecord (Result Json) (Result String) where
  Accepted value := ∃ runId, validate os value runId = .ok ()
  identity := encoded
  hash identity := os.digest <$> identity
  carried value := .ok value.resultDigest
  carried_eq := fun ⟨_, h⟩ => (sealed_of_validate h).2
  determined := by
    rintro a b ⟨_, ha⟩ ⟨_, hb⟩ hdigest hidentity
    have hschema := (sealed_of_validate ha).1
    have hschema' := (sealed_of_validate hb).1
    obtain ⟨hrun, hexecution, husage, hlog, hscore⟩ :=
      fields_of_encoded_eq hschema hschema' hidentity
    have hrun := ResultIdentity.runMembers_inj hrun
    have hscore := ResultIdentity.scoreMembers_inj hscore
    have hdigest := Except.ok.inj hdigest
    cases a
    cases b
    simp_all

section Sample

set_option maxRecDepth 20000

def sampleRecord : LocalResultRecord :=
  { schema := "a3s.bench.local-result.v6"
    resultDigest := "sha256:" ++ "b0c27aeaec3fdf05e519ed92fd10cb3d0ce20bd8d6b6c1f24a884fd6e282b9bc"
    governanceStatus := "local_unofficial"
    runId := "local-1"
    taskId := "t"
    taskLockDigest := "sha256:36dafbcadbc440dd71b2d005eb5d7720a44d808f7218a5661fda0090369a9bf1"
    agent := "codex"
    candidateLockDigest := "sha256:85c685e60b7f0fbf565b07ffac89070873661bd960fb0fd67a5e251ae96ff97b"
    agentIdentity := "agent"
    judgeIdentity := "judge"
    runtimeProvider := "docker"
    model := some "gpt-5"
    candidateExecution := some { status := .completed, timeoutSec := none }
    modelUsage := some
      ⟨{ promptTokens := 10, completionTokens := 5, totalTokens := 15
         cacheReadTokens := some 0, cacheWriteTokens := none, toolCallsCount := 2 },
        by unfold CodexEvents.ModelExecution.Fits; decide⟩
    candidateEventLogDigest := some
      "sha256:4e1d4b8f54e1456a5f453938278659ebc4e1cba9de2c73f18338a5d332a22ca0"
    primaryMetric := "m"
    score := "0.5"
    judgeResult :=
      { schema := "bench.judge.result.v1", solutionVerdict := "valid"
        metrics := [("m", .string "0.5")], diagnostics := .object [] } }

/-- SHA-256 on the identity of the sample, and the digest of no bytes elsewhere. -/
def sampleSha256 (input : Bytes) : String :=
  if input = (ResultIdentity.identityV6 sampleRecord).toVec then
    "b0c27aeaec3fdf05e519ed92fd10cb3d0ce20bd8d6b6c1f24a884fd6e282b9bc"
  else "e3b0c44298fc1c149afbf4c8996fb92427ae41e4649b934ca495991b7852b855"

theorem validate_sample : validate (Platform.ascii sampleSha256) sampleRecord "local-1" = .ok () := by
  have hencoded : encoded sampleRecord = .ok (ResultIdentity.identityV6 sampleRecord) := rfl
  have hdigest : calculate (Platform.ascii sampleSha256) sampleRecord =
      .ok sampleRecord.resultDigest := by
    have hsha : (Platform.ascii sampleSha256).sha256 = sampleSha256 := rfl
    rw [calculate, hencoded, Result.map_ok_iff]
    refine ⟨_, rfl, ?_⟩
    rw [Platform.digest, hsha, sampleSha256, if_pos rfl, sampleRecord]
  simp only [validate, Result.bind_ok_iff, Result.exists_unit_iff, Result.ensure_ok_iff]
  exact ⟨by decide +kernel, rfl, rfl, rfl, by decide +kernel, _, hdigest, rfl, by decide +kernel,
    by decide +kernel, by decide +kernel, by decide +kernel, by decide +kernel, by decide +kernel⟩

end Sample

/-- Two valid records with the same digest are the same record. -/
theorem record_eq_of_resultDigest_eq (os : Platform) {a b : LocalResultRecord}
    {runId runId' : String} (ha : validate os a runId = .ok ()) (hb : validate os b runId' = .ok ())
    (hsep : ∀ x y, encoded a = .ok x → encoded b = .ok y → os.Separates x y)
    (h : a.resultDigest = b.resultDigest) : a = b := by
  have hhash : (resultFormat os).Separates a b := by
    obtain ⟨rest, hrest⟩ := encoded_eq (sealed_of_validate ha).1
    obtain ⟨rest', hrest'⟩ := encoded_eq (sealed_of_validate hb).1
    intro hhash
    simp only [resultFormat, hrest, hrest'] at hhash ⊢
    exact congrArg Except.ok
      ((Platform.digest_inj (hsep _ _ hrest hrest')).mp (Except.ok.inj hhash))
  exact (resultFormat os).eq_of_carried_eq ⟨runId, ha⟩ ⟨runId', hb⟩ hhash (congrArg Except.ok h)

theorem record_eq_of_resultDigest_eq_sample : sampleRecord = sampleRecord :=
  record_eq_of_resultDigest_eq (Platform.ascii sampleSha256) validate_sample validate_sample
    (fun _ _ ha hb _ => Except.ok.inj (ha.symm.trans hb)) rfl

end A3sBench.ResultRecord
