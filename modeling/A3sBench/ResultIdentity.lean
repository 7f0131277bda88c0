import A3sBench.CodexEvents

/-!
# Result identities

A result record carries the digest of a JSON object made of its fields. Schemas
v4 and v5 leave out what was added after them.
-/

namespace A3sBench

/-- The counts of an execution are `usize` values. -/
def CodexEvents.ModelExecution.Fits (usage : CodexEvents.ModelExecution) : Prop :=
  usage.promptTokens ≤ CodexEvents.usizeMax ∧ usage.completionTokens ≤ CodexEvents.usizeMax ∧
    usage.totalTokens ≤ CodexEvents.usizeMax ∧
    (∀ n ∈ usage.cacheReadTokens, n ≤ CodexEvents.usizeMax) ∧
    (∀ n ∈ usage.cacheWriteTokens, n ≤ CodexEvents.usizeMax) ∧
    usage.toolCallsCount ≤ CodexEvents.usizeMax

abbrev ModelUsage := {usage : CodexEvents.ModelExecution // usage.Fits}

/-- `runtime::JudgeResult`. -/
structure JudgeResult where
  schema : String
  solutionVerdict : String
  metrics : List (String × Json)
  diagnostics : Json

inductive CandidateExecutionStatus where
  | completed
  | timedOut
  deriving DecidableEq

structure CandidateExecution where
  status : CandidateExecutionStatus
  timeoutSec : Option UInt64
  deriving DecidableEq

structure LocalResultRecord where
  schema : String
  resultDigest : String
  governanceStatus : String
  runId : String
  taskId : String
  taskLockDigest : String
  agent : String
  candidateLockDigest : String
  agentIdentity : String
  judgeIdentity : String
  runtimeProvider : String
  model : Option String
  candidateExecution : Option CandidateExecution
  modelUsage : Option ModelUsage
  candidateEventLogDigest : Option String
  primaryMetric : String
  score : String
  judgeResult : JudgeResult

namespace ResultIdentity

open Json (nullable skipNone)

def countJson (n : Nat) : Json := .number (.posInt (UInt64.ofNat n))

def usageJson (usage : ModelUsage) : Json :=
  .object [("prompt_tokens", countJson usage.1.promptTokens),
    ("completion_tokens", countJson usage.1.completionTokens),
    ("total_tokens", countJson usage.1.totalTokens),
    ("cache_read_tokens", nullable countJson usage.1.cacheReadTokens),
    ("cache_write_tokens", nullable countJson usage.1.cacheWriteTokens),
    ("tool_calls_count", countJson usage.1.toolCallsCount)]

def statusText : CandidateExecutionStatus → String
  | .completed => "completed"
  | .timedOut => "timed_out"

def executionJson (execution : CandidateExecution) : Json :=
  .object (("status", .string (statusText execution.status)) ::
    skipNone "timeout_sec" (fun n => .number (.posInt n)) execution.timeoutSec)

def judgeJson (judge : JudgeResult) : Json :=
  .object [("schema", .string judge.schema), ("solution_verdict", .string judge.solutionVerdict),
    ("metrics", .object judge.metrics), ("diagnostics", judge.diagnostics)]

/-- The fields of every layout that come before the execution metadata. -/
def runMembers (value : LocalResultRecord) : List (String × Json) :=
  [("schema", .string value.schema), ("governance_status", .string value.governanceStatus),
    ("run_id", .string value.runId), ("task_id", .string value.taskId),
    ("task_lock_digest", .string value.taskLockDigest), ("agent", .string value.agent),
    ("candidate_lock_digest", .string value.candidateLockDigest),
    ("agent_identity", .string value.agentIdentity),
    ("judge_identity", .string value.judgeIdentity),
    ("runtime_provider", .string value.runtimeProvider),
    ("model", nullable .string value.model)]

/-- The fields that come last in every layout. -/
def scoreMembers (value : LocalResultRecord) : List (String × Json) :=
  [("primary_metric", .string value.primaryMetric), ("score", .string value.score),
    ("judge_result", judgeJson value.judgeResult)]

def usageMember (value : LocalResultRecord) : String × Json :=
  ("model_usage", nullable usageJson value.modelUsage)

def executionMember (value : LocalResultRecord) : String × Json :=
  ("candidate_execution", nullable executionJson value.candidateExecution)

def eventLogMember (value : LocalResultRecord) : String × Json :=
  ("candidate_event_log_digest", nullable .string value.candidateEventLogDigest)

def identityV4 (value : LocalResultRecord) : Json :=
  .object (runMembers value ++ usageMember value :: scoreMembers value)

def identityV5 (value : LocalResultRecord) : Json :=
  .object (runMembers value ++ executionMember value :: usageMember value :: scoreMembers value)

def identityV6 (value : LocalResultRecord) : Json :=
  .object (runMembers value ++
    executionMember value :: usageMember value :: eventLogMember value :: scoreMembers value)

/-- What `calculate` encodes. -/
def encoded (value : LocalResultRecord) : Result Json :=
  match value.schema with
  | "a3s.bench.local-result.v4" => .ok (identityV4 value)
  | "a3s.bench.local-result.v5" => .ok (identityV5 value)
  | "a3s.bench.local-result.v6" => .ok (identityV6 value)
  | _ => .error "unsupported local result schema"

/-- `result_identity::calculate`. -/
def calculate (os : Platform) (value : LocalResultRecord) : Result String :=
  os.digest <$> encoded value

theorem countJson_inj {m n : Nat} (hm : m ≤ CodexEvents.usizeMax) (hn : n ≤ CodexEvents.usizeMax)
    (h : countJson m = countJson n) : m = n := by
  have hlt : ∀ {k : Nat}, k ≤ CodexEvents.usizeMax → (UInt64.ofNat k).toNat = k :=
    fun hk => UInt64.toNat_ofNat_of_lt' (Nat.lt_of_le_of_lt hk (by decide))
  simp only [countJson, Json.number.injEq, JsonNumber.posInt.injEq] at h
  rw [← hlt hm, ← hlt hn, h]

theorem nullable_countJson_inj {a b : Option Nat} (ha : ∀ n ∈ a, n ≤ CodexEvents.usizeMax)
    (hb : ∀ n ∈ b, n ≤ CodexEvents.usizeMax)
    (h : nullable countJson a = nullable countJson b) : a = b := by
  cases a with
  | none =>
    cases b with
    | none => rfl
    | some n => cases h
  | some m =>
    cases b with
    | none => cases h
    | some n => exact congrArg some (countJson_inj (ha m rfl) (hb n rfl) h)

theorem usageJson_injective : Function.Injective usageJson := by
  rintro ⟨a, hp, hc, ht, hr, hw, hk⟩ ⟨b, hp', hc', ht', hr', hw', hk'⟩ h
  simp only [usageJson, Json.object.injEq, List.cons.injEq, Prod.mk.injEq, true_and,
    and_true] at h
  obtain ⟨hprompt, hcompletion, htotal, hread, hwrite, hcalls⟩ := h
  have hprompt := countJson_inj hp hp' hprompt
  have hcompletion := countJson_inj hc hc' hcompletion
  have htotal := countJson_inj ht ht' htotal
  have hread := nullable_countJson_inj hr hr' hread
  have hwrite := nullable_countJson_inj hw hw' hwrite
  have hcalls := countJson_inj hk hk' hcalls
  apply Subtype.ext
  cases a
  cases b
  simp_all

theorem statusText_injective : Function.Injective statusText := by
  rintro (_ | _) (_ | _) h <;> simp_all [statusText]

theorem executionJson_injective : Function.Injective executionJson := by
  rintro ⟨s, t⟩ ⟨s', t'⟩ h
  simp only [executionJson, Json.object.injEq, List.cons.injEq, Prod.mk.injEq, true_and,
    Json.string.injEq, statusText_injective.eq_iff] at h
  have htimeout : t = t' := Json.skipNone_injective "timeout_sec"
    (fun _ _ h => JsonNumber.posInt.inj (Json.number.inj h)) h.2
  rw [h.1, htimeout]

theorem judgeJson_injective : Function.Injective judgeJson := by
  rintro ⟨_, _, _, _⟩ ⟨_, _, _, _⟩ h
  simpa [judgeJson] using h

theorem runMembers_inj {a b : LocalResultRecord} (h : runMembers a = runMembers b) :
    a.schema = b.schema ∧ a.governanceStatus = b.governanceStatus ∧ a.runId = b.runId ∧
      a.taskId = b.taskId ∧ a.taskLockDigest = b.taskLockDigest ∧ a.agent = b.agent ∧
      a.candidateLockDigest = b.candidateLockDigest ∧ a.agentIdentity = b.agentIdentity ∧
      a.judgeIdentity = b.judgeIdentity ∧ a.runtimeProvider = b.runtimeProvider ∧
      a.model = b.model := by
  simpa only [runMembers, List.cons.injEq, Prod.mk.injEq, true_and, and_true, Json.string.injEq,
    Json.nullable_string_inj] using h

theorem scoreMembers_inj {a b : LocalResultRecord} (h : scoreMembers a = scoreMembers b) :
    a.primaryMetric = b.primaryMetric ∧ a.score = b.score ∧ a.judgeResult = b.judgeResult := by
  simpa only [scoreMembers, List.cons.injEq, Prod.mk.injEq, true_and, and_true, Json.string.injEq,
    judgeJson_injective.eq_iff] using h

theorem usageMember_inj {a b : LocalResultRecord} (h : usageMember a = usageMember b) :
    a.modelUsage = b.modelUsage :=
  Json.nullable_injective usageJson_injective (fun _ => Json.noConfusion) (Prod.mk.inj h).2

theorem executionMember_inj {a b : LocalResultRecord} (h : executionMember a = executionMember b) :
    a.candidateExecution = b.candidateExecution :=
  Json.nullable_injective executionJson_injective (fun _ => Json.noConfusion) (Prod.mk.inj h).2

theorem eventLogMember_inj {a b : LocalResultRecord} (h : eventLogMember a = eventLogMember b) :
    a.candidateEventLogDigest = b.candidateEventLogDigest :=
  Json.nullable_string_inj.mp (Prod.mk.inj h).2

end ResultIdentity

end A3sBench
