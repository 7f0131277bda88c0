import A3sBench.CandidateStage
import A3sBench.CodexResume

/-!
# Recording what the Candidate stage accepted

The parsers of the Candidate stage and the validator of the result record have
their own rules for the usage of a Candidate: the first cut a token total off at
the largest count and do not all ask for a usage, the second wants the exact
total and, with a model, a usage.
-/

namespace A3sBench.CodexEvents

/-- What `parse_usage` reads as usage, event after event. -/
def usageMembers (fromStr : String → Result Json) (lines : List String) : List Json :=
  lines.filterMap (fun line => (fromStr line).toOption.bind (fun event => event.get "usage"))

def scanLine (fromStr : String → Result Json) (scan : Scan) (line : String) : Result Scan := do
  let event ← context "Codex emitted invalid JSONL" (fromStr line)
  scanEvent scan event

theorem scanLine_usage {fromStr : String → Result Json} {scan scan' : Scan} {line : String}
    (h : scanLine fromStr scan line = .ok scan') :
    match usageMembers fromStr [line] with
    | [] => scan'.usage = scan.usage
    | value :: _ => ∃ n usage, readUsage value n = .ok usage ∧ scan'.usage = some usage := by
  simp only [scanLine, Result.bind_ok_iff, Result.context_ok_iff] at h
  obtain ⟨event, hevent, hscan⟩ := h
  unfold scanEvent at hscan
  cases hvalue : event.get "usage" with
  | none =>
      simp only [hvalue, Result.pure_ok_iff] at hscan
      simp only [usageMembers, List.filterMap_cons, List.filterMap_nil, hevent, Except.toOption,
        Option.bind_some, hvalue]
      rw [← hscan]
  | some value =>
      simp only [hvalue, Result.bind_ok_iff, Result.pure_ok_iff] at hscan
      obtain ⟨usage, husage, rfl⟩ := hscan
      simp only [usageMembers, List.filterMap_cons, List.filterMap_nil, hevent, Except.toOption,
        Option.bind_some, hvalue]
      exact ⟨_, usage, husage, rfl⟩

/-- The last usage member is the one that counts. -/
theorem foldlM_scanLine_usage {fromStr : String → Result Json} {lines : List String}
    {scan scan' : Scan} (h : lines.foldlM (scanLine fromStr) scan = .ok scan') :
    match (usageMembers fromStr lines).getLast? with
    | none => scan'.usage = scan.usage
    | some value => ∃ n usage, readUsage value n = .ok usage ∧ scan'.usage = some usage := by
  induction lines using List.reverseRecOn generalizing scan' with
  | nil =>
      cases h
      rfl
  | append_singleton lines line ih =>
      rw [List.foldlM_append] at h
      obtain ⟨scan₁, hlines, hline⟩ := Result.bind_ok_iff.mp h
      have hline : scanLine fromStr scan₁ line = .ok scan' := by
        simpa [List.foldlM_cons, Result.bind_ok_iff] using hline
      have hlast := scanLine_usage hline
      have hsplit : usageMembers fromStr (lines ++ [line]) =
          usageMembers fromStr lines ++ usageMembers fromStr [line] := List.filterMap_append
      rw [hsplit]
      cases hmembers : usageMembers fromStr [line] with
      | nil =>
          rw [hmembers] at hlast
          rw [List.append_nil]
          have hbefore := ih hlines
          rw [← hlast] at hbefore
          exact hbefore
      | cons value rest =>
          rw [hmembers] at hlast
          have hrest : rest = [] := by
            have hlength : (usageMembers fromStr [line]).length ≤ 1 :=
              List.length_filterMap_le _ _
            rw [hmembers] at hlength
            exact List.length_eq_zero_iff.mp (by simpa using hlength)
          subst hrest
          rw [List.getLast?_concat]
          exact hlast

end A3sBench.CodexEvents

namespace A3sBench

open CodexEvents (ModelExecution usizeMax)

/-- The two counts of a usage member add up without a carry. -/
def TotalFits (prompt completion : String) (value : Json) : Prop :=
  ∀ p c, (value.get prompt).bind Json.asU64 = some p →
    (value.get completion).bind Json.asU64 = some c → p.toNat + c.toNat ≤ usizeMax

theorem totalFits_iff {prompt completion : String} {value : Json} {p c : UInt64}
    (hp : (value.get prompt).bind Json.asU64 = some p)
    (hc : (value.get completion).bind Json.asU64 = some c) :
    TotalFits prompt completion value ↔
      p.toNat + c.toNat = min usizeMax (p.toNat + c.toNat) := by
  constructor
  · intro h
    have hle := h p c hp hc
    omega
  · intro h p' c' hp' hc'
    obtain rfl := Option.some.inj (hp.symm.trans hp')
    obtain rfl := Option.some.inj (hc.symm.trans hc')
    omega

namespace CodexEvents

theorem usizeField_ok {value : Json} {name : String} {n : Nat}
    (h : usizeField value name = .ok n) :
    ∃ m : UInt64, (value.get name).bind Json.asU64 = some m ∧ m.toNat = n := by
  simp only [usizeField, optionalUsizeField, Result.bind_ok_iff, Result.okOr_ok_iff] at h
  obtain ⟨_, h, rfl⟩ := h
  split at h
  · cases h
  · rename_i found hfound
    split at h
    · rename_i m hm
      cases h
      exact ⟨m, by rw [hfound]; exact hm, rfl⟩
    · cases h

theorem readUsage_total {value : Json} {n : Nat} {usage : ModelExecution}
    (h : readUsage value n = .ok usage) :
    usage.promptTokens + usage.completionTokens = usage.totalTokens ↔
      TotalFits "input_tokens" "output_tokens" value := by
  simp only [readUsage, Result.bind_ok_iff, Result.pure_ok_iff] at h
  obtain ⟨_, hprompt, _, hcompletion, _, _, rfl⟩ := h
  obtain ⟨p, hp, rfl⟩ := usizeField_ok hprompt
  obtain ⟨c, hc, rfl⟩ := usizeField_ok hcompletion
  exact (totalFits_iff hp hc).symm

/-- What a stream must carry for its usage to be recorded. -/
structure Recordable (fromStr : String → Result Json) (events : String)
    (model : Option String) : Prop where
  present : model.isSome = true →
    usageMembers fromStr ((Text.lines events).filter (fun line => !Text.isBlank line)) ≠ []
  total : ∀ value ∈ (usageMembers fromStr
      ((Text.lines events).filter (fun line => !Text.isBlank line))).getLast?,
    TotalFits "input_tokens" "output_tokens" value

theorem recordable_iff_of_parseUsage {fromStr : String → Result Json} {events : String}
    {usage : Option ModelExecution} {model : Option String}
    (h : parseUsage fromStr events = .ok usage) :
    Recordable fromStr events model ↔ (model.isSome = true → usage ≠ none) ∧
      ∀ u ∈ usage, u.promptTokens + u.completionTokens = u.totalTokens := by
  simp only [parseUsage, Result.bind_ok_iff] at h
  obtain ⟨scan, hscan, hfinish⟩ := h
  have husage : scan.usage = usage := by
    simp only [finishScan, Result.bind_ok_iff, Result.exists_unit_iff, Result.pure_ok_iff] at hfinish
    exact hfinish.2.2.2.2
  subst husage
  have hlast := foldlM_scanLine_usage hscan
  cases hmembers : (usageMembers fromStr
      ((Text.lines events).filter (fun line => !Text.isBlank line))).getLast? with
  | none =>
      rw [hmembers] at hlast
      have hnone : scan.usage = none := hlast
      rw [hnone]
      have hnil := List.getLast?_eq_none_iff.mp hmembers
      constructor
      · intro hrec
        exact ⟨fun hmodel => absurd hnil (hrec.present hmodel), nofun⟩
      · intro hrec
        refine ⟨fun hmodel => absurd rfl (hrec.1 hmodel), ?_⟩
        rw [hmembers]
        nofun
  | some value =>
      rw [hmembers] at hlast
      obtain ⟨n, u, hread, hsome⟩ := hlast
      have hne : usageMembers fromStr
          ((Text.lines events).filter (fun line => !Text.isBlank line)) ≠ [] := by
        intro hnil
        rw [hnil] at hmembers
        cases hmembers
      rw [hsome]
      constructor
      · intro hrec
        refine ⟨fun _ => Option.some_ne_none _, ?_⟩
        rintro _ ⟨⟩
        exact (readUsage_total hread).mpr (hrec.total value hmembers)
      · intro hrec
        refine ⟨fun _ => hne, ?_⟩
        intro value' hvalue'
        obtain rfl := Option.some.inj (hmembers.symm.trans hvalue')
        exact (readUsage_total hread).mp (hrec.2 u rfl)

end CodexEvents

namespace A3sCode

open CodexEvents (eventType)

/-- The usage of a line that is a terminal result. -/
def resultUsage (fromStr : String → Result Json) : Result String → Option Json
  | .error _ => none
  | .ok line =>
    if Text.trimEnd line.toList = [] then none
    else (fromStr (String.ofList (Text.trimEnd line.toList))).toOption.bind (fun event =>
      if eventType event = some "result" then event.pointer ["data", "usage"] else none)

theorem usizeField_ok {value : Json} {name : String} {n : Nat}
    (h : usizeField value name = .ok n) :
    ∃ m : UInt64, (value.get name).bind Json.asU64 = some m ∧ m.toNat = n := by
  simp only [usizeField, optionalUsizeField, Result.bind_ok_iff, Result.okOr_ok_iff] at h
  obtain ⟨_, h, rfl⟩ := h
  split at h
  · cases h
  · cases h
  · rename_i found _ hfound
    split at h
    · rename_i m hm
      cases h
      exact ⟨m, by rw [hfound]; exact hm, rfl⟩
    · cases h

theorem readUsage_total {value : Json} {n : Nat} {usage : ModelExecution}
    (h : readUsage value n = .ok usage) :
    usage.promptTokens + usage.completionTokens = usage.totalTokens ↔
      TotalFits "prompt_tokens" "completion_tokens" value := by
  simp only [readUsage, Result.bind_ok_iff, Result.exists_unit_iff, Result.ensure_ok_iff,
    Result.pure_ok_iff] at h
  obtain ⟨_, hprompt, _, hcompletion, _, _, htotal, _, _, _, _, rfl⟩ := h
  obtain ⟨p, hp, rfl⟩ := usizeField_ok hprompt
  obtain ⟨c, hc, rfl⟩ := usizeField_ok hcompletion
  rw [totalFits_iff hp hc]
  exact ⟨fun h => h.trans htotal, fun h => h.trans htotal.symm⟩

theorem scanResult_ok {scan scan' : Scan} {event : Json} (h : scanResult scan event = .ok scan') :
    scan.usage = none ∧ ∃ value n usage, event.pointer ["data", "usage"] = some value ∧
      readUsage value n = .ok usage ∧ scan'.usage = some usage := by
  simp only [scanResult, Result.bind_ok_iff, Result.exists_unit_iff, Result.ensure_ok_iff,
    Result.okOr_ok_iff, Result.pure_ok_iff] at h
  obtain ⟨hnone, _, data, hdata, _, value, hvalue, usage, hread, rfl⟩ := h
  refine ⟨hnone, value, _, usage, ?_, hread, rfl⟩
  simp only [Json.pointer, hdata, Option.bind_some, hvalue]

theorem scanEvent_ok {scan scan' : Scan} {event : Json} (h : scanEvent scan event = .ok scan') :
    if eventType event = some "result" then
      scan.usage = none ∧ ∃ value n usage, event.pointer ["data", "usage"] = some value ∧
        readUsage value n = .ok usage ∧ scan'.usage = some usage
    else scan'.usage = scan.usage := by
  unfold scanEvent at h
  split at h
  · rename_i htool
    cases h
    rw [if_neg (by rw [htool.1]; decide)]
  · split at h
    · rename_i hresult
      rw [if_pos hresult]
      exact scanResult_ok h
    · rename_i hresult
      cases h
      rw [if_neg hresult]

theorem scanLine_usage {fromStr : String → Result Json} {scan scan' : Scan}
    {line : Result String} (h : scanLine fromStr scan line = .ok scan') :
    match resultUsage fromStr line with
    | none => scan'.usage = scan.usage
    | some value => scan.usage = none ∧
        ∃ n usage, readUsage value n = .ok usage ∧ scan'.usage = some usage := by
  simp only [scanLine, Result.bind_ok_iff, Result.exists_unit_iff, Result.ensure_ok_iff] at h
  obtain ⟨text, rfl, _, h⟩ := h
  split at h
  · rename_i hblank
    simp only [resultUsage, if_pos hblank]
    rw [← Result.pure_ok_iff.mp h]
  · rename_i hblank
    simp only [Result.bind_ok_iff, Result.context_ok_iff] at h
    obtain ⟨event, hevent, hscan⟩ := h
    simp only [resultUsage, if_neg hblank, hevent, Except.toOption, Option.bind_some]
    have hspec := scanEvent_ok hscan
    split at hspec
    · rename_i hresult
      obtain ⟨hnone, value, n, usage, hvalue, hread, hsome⟩ := hspec
      rw [if_pos hresult, hvalue]
      exact ⟨hnone, n, usage, hread, hsome⟩
    · rename_i hresult
      rw [if_neg hresult]
      exact hspec

theorem foldlM_scanLine_usage {fromStr : String → Result Json} {lines : List (Result String)}
    {scan scan' : Scan} (h : lines.foldlM (scanLine fromStr) scan = .ok scan') :
    match lines.filterMap (resultUsage fromStr) with
    | [] => scan'.usage = scan.usage
    | value :: rest => scan.usage = none ∧ rest = [] ∧
        ∃ n usage, readUsage value n = .ok usage ∧ scan'.usage = some usage := by
  induction lines generalizing scan with
  | nil =>
      cases h
      rfl
  | cons line lines ih =>
      rw [List.foldlM_cons] at h
      obtain ⟨scan₁, hline, hlines⟩ := Result.bind_ok_iff.mp h
      have hfirst := scanLine_usage hline
      have hrest := ih hlines
      cases hvalue : resultUsage fromStr line with
      | none =>
          rw [hvalue] at hfirst
          rw [List.filterMap_cons_none hvalue, ← hfirst]
          exact hrest
      | some value =>
          rw [hvalue] at hfirst
          rw [List.filterMap_cons_some hvalue]
          obtain ⟨hnone, n, usage, hread, hsome⟩ := hfirst
          -- a second terminal result would have been rejected
          cases hlater : lines.filterMap (resultUsage fromStr) with
          | nil =>
              rw [hlater] at hrest
              exact ⟨hnone, rfl, n, usage, hread, hrest.trans hsome⟩
          | cons later rest =>
              rw [hlater] at hrest
              have hsecond : scan₁.usage = none := hrest.1
              rw [hsome] at hsecond
              cases hsecond

/-- The terminal result of a stream has a total that can be recorded. -/
def Recordable (fromStr : String → Result Json) (lines : List (Result String)) : Prop :=
  ∀ value ∈ lines.filterMap (resultUsage fromStr),
    TotalFits "prompt_tokens" "completion_tokens" value

theorem recordable_iff_of_parseOutput {fromStr : String → Result Json}
    {lines : List (Result String)} {usage : ModelExecution}
    (h : parseOutput fromStr lines = .ok usage) :
    Recordable fromStr lines ↔
      usage.promptTokens + usage.completionTokens = usage.totalTokens := by
  simp only [parseOutput, Result.bind_ok_iff, Result.okOr_ok_iff] at h
  obtain ⟨scan, hscan, husage⟩ := h
  have hlast := foldlM_scanLine_usage hscan
  unfold Recordable
  cases hvalues : lines.filterMap (resultUsage fromStr) with
  | nil =>
      rw [hvalues] at hlast
      have hnone : scan.usage = none := hlast
      rw [husage] at hnone
      cases hnone
  | cons value rest =>
      rw [hvalues] at hlast
      obtain ⟨-, rfl, n, u, hread, hsome⟩ := hlast
      obtain rfl := Option.some.inj (husage.symm.trans hsome)
      rw [List.forall_mem_singleton]
      exact (readUsage_total hread).symm

end A3sCode

namespace BenchRun

open ResultRecord (NewLocalResult ResultStore checkModel checkScore checkUsage namedTexts validate)

/-- The result of a run, with what its Candidate stage answered. -/
def withRun (input : NewLocalResult) (run : CandidateRun) : NewLocalResult :=
  { input with
    candidateExecution := run.execution
    modelUsage := run.modelUsage
    candidateEventLogDigest := run.candidateEventLogDigest }

/-- What a record needs apart from the Candidate's answer, the JudgeResult included. -/
structure RestValid (input : NewLocalResult) : Prop where
  runId : validateRunId input.runId = .ok ()
  texts : (namedTexts input.record).forM (fun text =>
    ensure (Text.isBlank text.2 = false) ("local result " ++ text.1 ++ " is empty")) = .ok ()
  taskLock : LockIdentity.validateDigest input.taskLockDigest = .ok ()
  candidateLock : LockIdentity.validateDigest input.candidateLockDigest = .ok ()
  model : ∀ model ∈ input.model, Text.isBlank model = false
  score : checkScore input.record = .ok ()

theorem checkModel_completed_iff {record : LocalResultRecord}
    (hexecution : record.candidateExecution = some completedExecution)
    (hmodel : ∀ model ∈ record.model, Text.isBlank model = false) :
    checkModel record = .ok () ↔ (record.model.isSome = true → record.modelUsage ≠ none) := by
  have htimed : record.candidateExecution.any ResultRecord.isTimedOut = false := by
    rw [hexecution]
    rfl
  unfold checkModel
  cases hname : record.model with
  | none => simp [htimed]
  | some model =>
      simp only [htimed, Result.bind_ok_iff, Result.exists_unit_iff, Result.ensure_ok_iff,
        hmodel model hname, true_and, Bool.false_eq_true, if_false, Option.isSome_some,
        forall_const]

theorem forM_checkUsage_iff {usage : Option ModelUsage} :
    usage.toList.forM checkUsage = .ok () ↔
      ∀ u ∈ usage, u.1.promptTokens + u.1.completionTokens = u.1.totalTokens := by
  cases usage with
  | none => simp
  | some u => simp [checkUsage, Result.ensure_ok_iff]

/-- Nothing but the usage can keep a completed run from being recorded. -/
theorem save_isOk_iff {os : Platform} (hsha : os.HexDigests) {input : NewLocalResult}
    (hrest : RestValid input) (hexecution : input.candidateExecution = completedExecution)
    (store : ResultStore) :
    (ResultRecord.save os input store).isOk = true ↔
      (input.model.isSome = true → input.modelUsage ≠ none) ∧
        ∀ u ∈ input.modelUsage, u.1.promptTokens + u.1.completionTokens = u.1.totalTokens := by
  let digest := os.digest (ResultIdentity.identityV6 input.record)
  have hcalculate : ResultIdentity.calculate os input.record = .ok digest := rfl
  have hdigest : LockIdentity.validateDigest digest = .ok () :=
    LockIdentity.validateDigest_digest hsha _
  have hmodel := @checkModel_completed_iff { input.record with resultDigest := digest }
    (congrArg some hexecution) hrest.model
  have husage := @forM_checkUsage_iff input.modelUsage
  rw [← husage, Result.isOk_iff]
  have hschema : ResultRecord.checkSchema { input.record with resultDigest := digest } = .ok () := by
    change ResultRecord.validateExecution input.candidateExecution = .ok ()
    rw [hexecution]
    rfl
  have hrecalculate : ResultIdentity.calculate os { input.record with resultDigest := digest } =
      .ok digest := rfl
  simp only [ResultRecord.save, hcalculate, Result.bind_ok_iff, Except.ok.injEq, exists_eq_left',
    Result.exists_unit_iff, Result.pure_ok_iff, validate, Result.ensure_ok_iff, hschema,
    hrecalculate, hdigest, true_and]
  constructor
  · rintro ⟨_, ⟨_, _, _, _, _, hcheck, hcounts, _⟩, _⟩
    exact ⟨hmodel.mp hcheck, hcounts⟩
  · rintro ⟨hcheck, hcounts⟩
    exact ⟨_, ⟨hrest.runId, rfl, hrest.texts, hrest.taskLock, hrest.candidateLock,
      hmodel.mpr hcheck, hcounts, hrest.score⟩, rfl⟩

theorem RestValid.withRun {input : NewLocalResult} (h : RestValid input) (run : CandidateRun) :
    RestValid (withRun input run) :=
  ⟨h.runId, h.texts, h.taskLock, h.candidateLock, h.model, h.score⟩

section Sample

set_option maxRecDepth 20000

def plainInput : NewLocalResult :=
  { runId := "local-1"
    taskId := "t"
    taskLockDigest := "sha256:36dafbcadbc440dd71b2d005eb5d7720a44d808f7218a5661fda0090369a9bf1"
    agent := "codex"
    candidateLockDigest := "sha256:85c685e60b7f0fbf565b07ffac89070873661bd960fb0fd67a5e251ae96ff97b"
    agentIdentity := "agent"
    judgeIdentity := "judge"
    runtimeProvider := "docker"
    model := some "gpt-5"
    candidateExecution := completedExecution
    modelUsage := none
    candidateEventLogDigest := none
    primaryMetric := "m"
    score := "0.5"
    judgeResult :=
      { schema := "bench.judge.result.v1", solutionVerdict := "valid"
        metrics := [("m", .string "0.5")], diagnostics := .object [] } }

theorem restValid_plain : RestValid plainInput where
  runId := rfl
  texts := rfl
  taskLock := by decide
  candidateLock := by decide
  model := by
    rintro _ ⟨⟩
    decide
  score := rfl

def plainPlatform : Platform :=
  Platform.ascii (fun _ => "e3b0c44298fc1c149afbf4c8996fb92427ae41e4649b934ca495991b7852b855")

theorem plainPlatform_hexDigests : plainPlatform.HexDigests := by
  intro input
  change "e3b0c44298fc1c149afbf4c8996fb92427ae41e4649b934ca495991b7852b855".toList.length = 64 ∧
    "e3b0c44298fc1c149afbf4c8996fb92427ae41e4649b934ca495991b7852b855".toList.all
      Text.isHexDigit = true
  decide

def threadLine : String := "\x7b\"type\":\"thread.started\"\x7d"

def turnLine : String := "\x7b\"type\":\"turn.started\"\x7d"

def bareLine : String := "\x7b\"type\":\"turn.completed\"\x7d"

/-- The counts of this line add up to 2 ^ 64. -/
def fullLine : String :=
  "\x7b\"type\":\"turn.completed\",\"usage\":\x7b\"input_tokens\":18446744073709551615," ++
    "\"output_tokens\":1\x7d\x7d"

def smallLine : String :=
  "\x7b\"type\":\"turn.completed\",\"usage\":\x7b\"input_tokens\":12,\"output_tokens\":5\x7d\x7d"

def completedEvent (input output : UInt64) : Json :=
  .object [("type", .string "turn.completed"),
    ("usage", .object [("input_tokens", .number (.posInt input)),
      ("output_tokens", .number (.posInt output))])]

/-- The terminal result of an A3S Code run without tool calls. -/
def resultLine : String :=
  "\x7b\"schemaVersion\":1,\"type\":\"result\",\"command\":\"code.exec\",\"ok\":true,\"data\":" ++
    "\x7b\"toolPolicy\":\"local-workspace\",\"usage\":\x7b\"prompt_tokens\":12," ++
    "\"completion_tokens\":5,\"total_tokens\":17\x7d\x7d\x7d"

def resultEvent : Json :=
  .object [("schemaVersion", .number (.posInt 1)), ("type", .string "result"),
    ("command", .string "code.exec"), ("ok", .bool true),
    ("data", .object [("toolPolicy", .string "local-workspace"),
      ("usage", .object [("prompt_tokens", .number (.posInt 12)),
        ("completion_tokens", .number (.posInt 5)), ("total_tokens", .number (.posInt 17))])])]

/-- `serde_json::from_str` on these lines. -/
def readLine (line : String) : Result Json :=
  if line = threadLine then .ok (.object [("type", .string "thread.started")])
  else if line = turnLine then .ok (.object [("type", .string "turn.started")])
  else if line = bareLine then .ok (.object [("type", .string "turn.completed")])
  else if line = fullLine then .ok (completedEvent 18446744073709551615 1)
  else if line = smallLine then .ok (completedEvent 12 5)
  else if line = resultLine then .ok resultEvent
  else .error "expected value at line 1 column 1"

def stream (last : String) : String := String.join [threadLine, "\n", turnLine, "\n", last, "\n"]

def smallUsage : ModelUsage :=
  ⟨{ promptTokens := 12, completionTokens := 5, totalTokens := 17, cacheReadTokens := none
     cacheWriteTokens := none, toolCallsCount := 0 },
    by unfold CodexEvents.ModelExecution.Fits; decide⟩

def fullUsage : ModelUsage :=
  ⟨{ promptTokens := usizeMax, completionTokens := 1, totalTokens := usizeMax
     cacheReadTokens := none, cacheWriteTokens := none, toolCallsCount := 0 },
    by unfold CodexEvents.ModelExecution.Fits; decide⟩

def noResults : ResultStore :=
  { results := fun _ => none, journals := fun _ => none, eventLogs := fun _ => none }

theorem stream_ascii : (stream smallLine).toList.all (fun c => c.toNat < 128) = true := by
  decide

theorem parseUsage_small :
    CodexEvents.parseUsage readLine (stream smallLine) = .ok (some smallUsage.1) := by
  rfl

theorem parseOutput_result :
    A3sCode.parseOutput readLine [.ok (resultLine ++ "\n")] = .ok smallUsage.1 := by
  rfl

end Sample

end BenchRun

end A3sBench
