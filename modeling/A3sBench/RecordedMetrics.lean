import A3sBench.JudgePaths
import A3sBench.SuiteReports

/-!
# The metrics of a recorded result

Every result that a run saves has a canonical primary metric, since the record
is checked for it. On the legacy paths that is all: the Task may declare more
metrics, or a range without the ratio, and the result is saved all the same.
-/

namespace A3sBench.BenchRun

open Library Library.Action
open Lock
open LegacyJudge (JudgeHost)
open RunInput (LoadedRun)
open RunJournal (Operation)
open A3sBench.Runtime (JudgeWorld TakesJudge executeJudge validateJudgeResult
  takesJudge_of_range validate_executeJudge_iff)

/-- The record has what the Judge returned, with a canonical primary metric. -/
def Judged (env : Surroundings) (task : TaskInfo) (record : LocalResultRecord) : Prop :=
  env.judge = .ok record.judgeResult ∧ ∃ primary text, primaryMetric task = .ok primary ∧
    record.judgeResult.metrics.lookup primary.name = some (.string text) ∧
    ResultRecord.canonicalDecimal text = true

/-- The record under an id is the old one, or it has the property. -/
def Leaves (runId : String) (P : LocalResultRecord → Prop) (s t : RunState) : Prop :=
  t.store.results runId = s.store.results runId ∨
    ∃ record, t.store.results runId = some record ∧ P record

section Leaves

variable {host : Host} {os : Platform} {stateRoot : String} {options : RunOptions}
  {env : Surroundings} {runId : String} {P : LocalResultRecord → Prop}

theorem Leaves.refl (s : RunState) : Leaves runId P s s := .inl rfl

theorem Leaves.trans (s t r : RunState) (hst : Leaves runId P s t) (htr : Leaves runId P t r) :
    Leaves runId P s r := by
  rcases htr with heq | hnew
  · rcases hst with heq' | ⟨record, hrecord, hP⟩
    · exact .inl (heq.trans heq')
    · exact .inr ⟨record, heq.trans hrecord, hP⟩
  · exact .inr hnew

theorem leaves_lift {α : Type} (x : Result α) : Keeps (Leaves runId P) (lift x : RunAction α) :=
  keeps_lift Leaves.refl x

theorem leaves_bind {α β : Type} {x : RunAction α} {f : α → RunAction β}
    (hx : Keeps (Leaves runId P) x) (hf : ∀ a, Keeps (Leaves runId P) (f a)) :
    Keeps (Leaves runId P) (x >>= f) :=
  Keeps.bind Leaves.trans hx hf

theorem leaves_journal (operation : Operation) : Keeps (Leaves runId P) (journal env operation) :=
  fun _ => .inl rfl

theorem leaves_load : Keeps (Leaves runId P) (load host options) := by
  intro s
  unfold load
  split
  · exact .inl rfl
  · exact .inl rfl

theorem lookup_of_asStr {found : Option Json} {text : String}
    (h : found.bind Json.asStr = some text) : found = some (.string text) := by
  obtain ⟨value, rfl, hvalue⟩ := Option.bind_eq_some_iff.mp h
  cases value with
  | string value => rw [Option.some.inj hvalue]
  | null | bool | number | array | object => cases hvalue

/-- A record that is saved was checked. -/
theorem leaves_save {loaded : LoadedRun} {provider score : String} {judgeModel : Option String}
    {run : CandidateRun} {primary : MetricInfo} {judge : JudgeResult}
    (hjudge : env.judge = .ok judge) (hprimary : primaryMetric loaded.task = .ok primary)
    (hjudged : ∀ record, Judged env loaded.task record → P record) :
    Keeps (Leaves runId P) (save os
      (newLocalResult options loaded runId provider judgeModel run primary score judge)
      env.saved) := by
  intro s
  unfold save
  cases hsave : ResultRecord.save os
    (newLocalResult options loaded runId provider judgeModel run primary score judge) s.store with
  | error e => exact .refl s
  | ok saved =>
    obtain ⟨record, store⟩ := saved
    simp only [ResultRecord.save, ResultRecord.validate, ResultRecord.checkScore,
      Result.bind_ok_iff, Result.exists_unit_iff, Result.ensure_ok_iff, Result.pure_ok_iff,
      Prod.mk.injEq] at hsave
    obtain ⟨digest, -, ⟨-, -, -, -, -, -, -, -, -, -, -, -, -, hcanonical, -, -, hscore⟩, rfl,
      rfl⟩ := hsave
    have hnew : (newLocalResult options loaded runId provider judgeModel run primary score
        judge).runId = runId := rfl
    have hP : P { (newLocalResult options loaded runId provider judgeModel run primary score
        judge).record with resultDigest := digest } := by
      refine hjudged _ ⟨hjudge, primary, score, hprimary, ?_, hcanonical⟩
      exact lookup_of_asStr hscore
    cases env.saved with
    | stored => exact .inr ⟨_, Function.update_self _ _ _, hP⟩
    | refused e => exact .refl s
    | unsynced e => exact .inr ⟨_, Function.update_self _ _ _, hP⟩

theorem leaves_executeLoaded {loaded : LoadedRun} {provider : String} {judgeModel : Option String}
    (hjudged : ∀ record, Judged env loaded.task record → P record) :
    Keeps (Leaves runId P)
      (executeLoaded os stateRoot options env runId provider loaded judgeModel) := by
  refine leaves_bind (leaves_lift _) fun _ => leaves_bind (leaves_journal _) fun _ =>
    leaves_bind (fun s => Leaves.refl s) fun run => leaves_bind (leaves_journal _) fun _ =>
    leaves_bind (leaves_lift _) fun _ => leaves_bind (leaves_journal _) fun _ => ?_
  refine keeps_lift_bind Leaves.refl fun judge hjudge =>
    keeps_lift_bind Leaves.refl fun primary hprimary => leaves_bind (leaves_lift _) fun score => ?_
  refine leaves_bind (leaves_save hjudge hprimary hjudged) fun _ =>
    leaves_bind (leaves_journal _) fun _ => leaves_bind (fun s => Leaves.refl s) fun _ => ?_
  exact leaves_lift _

theorem leaves_executeInner {s : RunState}
    (hjudged : ∀ provider loaded root task, env.preflight = .ok provider →
      RunInput.loadLocks host options.taskLock options.candidateLock s.root = .ok (loaded, root) →
      resolveTask env provider loaded = .ok task → ∀ record, Judged env task record → P record) :
    Leaves runId P s (executeInner host stateRoot options env runId s).1 := by
  unfold executeInner
  refine fst_bind (leaves_lift _ s) fun config t hconfig => ?_
  obtain ⟨rfl, -⟩ := lift_ok_iff.mp hconfig
  refine fst_bind (leaves_lift _ s) fun _ t hchecked => ?_
  obtain ⟨rfl, -⟩ := lift_ok_iff.mp hchecked
  refine fst_bind (leaves_lift _ s) fun provider t hpreflight => ?_
  obtain ⟨rfl, hprovider⟩ := lift_ok_iff.mp hpreflight
  refine fst_bind (leaves_journal _ s) fun _ ready hready => ?_
  obtain ⟨hroot, hresults⟩ := journal_ok hready
  refine Leaves.trans s ready _ (.inl (congrFun hresults _)) ?_
  refine fst_bind (leaves_load ready) fun loaded t hload => ?_
  have hlocks := load_ok hload
  rw [hroot] at hlocks
  have hloaded : Leaves runId P ready t := by
    have h := @leaves_load host options runId P ready
    rwa [hload] at h
  refine Leaves.trans ready t _ hloaded ?_
  refine leaves_bind (leaves_journal _) (fun _ => leaves_bind (leaves_lift _) fun judgeModel =>
    keeps_lift_bind Leaves.refl fun task htask => leaves_bind (leaves_journal _) fun _ => ?_) t
  exact leaves_executeLoaded (hjudged provider loaded _ task hprovider hlocks htask)

/-- Recording a failure leaves the records alone. -/
theorem results_settle (outcome : RunState × Result LocalResultRecord) :
    (settle env outcome).1.store.results = outcome.1.store.results := by
  rcases outcome with ⟨s, e | completed⟩
  · rfl
  · rfl

/-- A record that a run leaves under its id, and that was not there, has what the
Judge returned. -/
theorem judged_of_executeOptions {files : RunFiles} {loaded : LoadedRun} {root : StateRoot}
    {provider : String} {task : TaskInfo} {record : LocalResultRecord}
    (hload : RunInput.loadLocks host options.taskLock options.candidateLock files.root =
      .ok (loaded, root))
    (hprovider : env.preflight = .ok provider) (htask : resolveTask env provider loaded = .ok task)
    (hnew : files.store.results env.runId ≠ some record)
    (hrecord : (executeOptions host stateRoot options env files).1.store.results env.runId =
      some record) : Judged env task record := by
  unfold executeOptions at hrecord
  have hbegin := @begin_runId stateRoot options.task options.agent env.processId env.sequence
    env.now env.begun
  generalize RunJournal.begin stateRoot options.task options.agent env.processId env.sequence
    env.now env.begun = started at hbegin hrecord
  rcases started with ⟨session, e | _⟩
  · exact absurd hrecord hnew
  · have hbegin : session.memory.runId = env.runId := hbegin
    dsimp only at hrecord
    rw [hbegin, results_settle] at hrecord
    let begun : RunState :=
      { memory := session.memory, root := files.root
        store :=
          { files.store with
            journals := Function.update files.store.journals env.runId session.disk } }
    have hjudged : Leaves env.runId (Judged env task) begun
        (executeInner host stateRoot options env env.runId begun).1 := by
      refine leaves_executeInner fun provider' loaded' root' task' hprovider' hload' htask' => ?_
      obtain rfl := Except.ok.inj (hprovider.symm.trans hprovider')
      obtain ⟨rfl, -⟩ := Prod.mk.inj (Except.ok.inj (hload.symm.trans hload'))
      obtain rfl := Except.ok.inj (htask.symm.trans htask')
      exact fun _ h => h
    rcases hjudged with hold | ⟨other, hother, hP⟩
    · exact absurd (hold.symm.trans hrecord) hnew
    · obtain rfl := Option.some.inj (hother.symm.trans hrecord)
      exact hP

end Leaves

/-- What a run records passes the check of its Task exactly when no legacy Judge is
executed, or the Task takes the ratio of the one that is. -/
theorem recorded_valid_iff (judges : JudgeHost) (world : JudgeWorld) {host : Host}
    {stateRoot : String} {options : RunOptions} {env : Surroundings} {files : RunFiles}
    {loaded : LoadedRun} {root : StateRoot} {provider : String} {task : TaskInfo}
    {record : LocalResultRecord}
    (hload : RunInput.loadLocks host options.taskLock options.candidateLock files.root =
      .ok (loaded, root))
    (hprovider : env.preflight = .ok provider) (htask : resolveTask env provider loaded = .ok task)
    (hjudge : ∀ result, env.judge = .ok result →
      executeJudge judges world provider task = .ok result)
    (hnew : files.store.results env.runId ≠ some record)
    (hrecord : (executeOptions host stateRoot options env files).1.store.results env.runId =
      some record) :
    validateJudgeResult judges.display task record.judgeResult = .ok () ↔
      TakesJudge judges world task := by
  obtain ⟨hresult, primary, text, hprimary, hlookup, hcanonical⟩ :=
    judged_of_executeOptions hload hprovider htask hnew hrecord
  exact validate_executeJudge_iff (hjudge _ hresult) hprimary hlookup hcanonical

/-- A Task whose only metric ranges over the ratios is met by everything a run records. -/
theorem recorded_valid_of_range (judges : JudgeHost) (world : JudgeWorld) {host : Host}
    {stateRoot : String} {options : RunOptions} {env : Surroundings} {files : RunFiles}
    {loaded : LoadedRun} {root : StateRoot} {provider : String} {task : TaskInfo}
    {record : LocalResultRecord} {metric : MetricInfo}
    (hload : RunInput.loadLocks host options.taskLock options.candidateLock files.root =
      .ok (loaded, root))
    (hprovider : env.preflight = .ok provider) (htask : resolveTask env provider loaded = .ok task)
    (hjudge : ∀ result, env.judge = .ok result →
      executeJudge judges world provider task = .ok result)
    (hnew : files.store.results env.runId ≠ some record)
    (hrecord : (executeOptions host stateRoot options env files).1.store.results env.runId =
      some record)
    (hmetrics : task.metrics = [metric]) (hmin : F64.le metric.min (.finite 0) = true)
    (hmax : F64.le (.finite 1) metric.max = true) :
    validateJudgeResult judges.display task record.judgeResult = .ok () := by
  obtain ⟨hresult, primary, text, hprimary, hlookup, hcanonical⟩ :=
    judged_of_executeOptions hload hprovider htask hnew hrecord
  have htakes := takesJudge_of_range (hjudge _ hresult) hprimary hlookup hcanonical hmetrics hmin
    hmax
  exact (validate_executeJudge_iff (hjudge _ hresult) hprimary hlookup hcanonical).mpr htakes

section Sample

set_option maxRecDepth 20000

open Suite (sampleAnswers sampleSurroundings)

/-! ### A run of the sample agent on a Task with a legacy Judge and two metrics -/

theorem taskDocument_valid :
    utf8 "task.acl" ≠ [] ∧ 0 ∉ utf8 "task.acl" ∧ separator ∉ utf8 "task.acl" := by
  decide

theorem privateDirectory_valid :
    utf8 "private" ≠ [] ∧ 0 ∉ utf8 "private" ∧ separator ∉ utf8 "private" := by
  decide

theorem judgeDirectory_valid :
    utf8 "judge" ≠ [] ∧ 0 ∉ utf8 "judge" ∧ separator ∉ utf8 "judge" := by
  decide

theorem judgeDescriptor_valid : utf8 "judge.source.json" ≠ [] ∧ 0 ∉ utf8 "judge.source.json" ∧
    separator ∉ utf8 "judge.source.json" := by
  decide

def legacyTaskSource : Bytes :=
  ["bench \"t\" \x7b\n", "  schema = \"a3s-bench/task/v1\"\n", "  version = \"1\"\n",
    "  name = \"T\"\n", "  category = \"c\"\n", "  work \x7b image \x7b ref = \"alpine\" \x7d \x7d\n",
    "  judge \x7b asset = \"oci://j\" \x7d\n",
    "  metric \"m\" \x7b role = \"primary\" min = 0 max = 1 \x7d\n",
    "  metric \"n\" \x7b role = \"secondary\" min = 0 max = 1 \x7d\n", "\x7d\n"].flatMap utf8

def legacyDescriptorSource : Bytes :=
  ["\x7b\"admission\":\"quarantined\",\"evaluation\":\x7b\"mode\":\"batch\",",
    "\"source_command\":\"true\",\"source_game_server_command\":null,\"timeout_sec\":60\x7d,",
    "\"image\":\x7b\"digest_resolution\":\"required_at_task_lock\",\"platform\":null,",
    "\"ref\":\"alpine\"\x7d,\"kind\":\"oci\",\"requirements\":[\"oci_judge_admission\"],",
    "\"schema\":\"a3s-bench/judge-source/v1\",\"source_result\":\x7b\"kind\":\"legacy_stdout\",",
    "\"parser\":\"score_sum\",\"rescale_hint\":null,\"score_direction\":\"maximize\",",
    "\"selection_hint\":\"score_first\",\"target_metric\":\"m\"\x7d,",
    "\"workspace\":\x7b\"source_path\":\"/workspace\",\"submission_exclude\":[],",
    "\"submission_paths\":[]\x7d\x7d"].flatMap utf8

def legacyTree : Directory :=
  .directory (fileNamed "private" privateDirectory_valid)
    (.directory (fileNamed "judge" judgeDirectory_valid)
      (.file (fileNamed "judge.source.json" judgeDescriptor_valid)
        { content := legacyDescriptorSource, executable := false, links := 1 } .empty)
      .empty)
    (.file (fileNamed "task.acl" taskDocument_valid)
      { content := legacyTaskSource, executable := false, links := 1 } .empty)

def legacyStream : Bytes :=
  utf8 "private/judge/judge.source.json" ++ [0, 0, 0] ++ legacyDescriptorSource ++
    0 :: (utf8 "task.acl" ++ [0, 0, 0] ++ legacyTaskSource ++ [0])

def legacyHex : String := "398cb04165d259d69c600efdd96acf954c6f0660a5aa0285ac3342b1feee3a37"

def legacyLockHex : String := "4cebc0387e52a47c42751999779d60ab5996c1f312f099231e9d5469bf5818f9"

def legacyResultHex : String := "3cb04a29ea876ee0b15629d46ffea8c54634cb35a5e16e2711c7788e9e4dcef3"

def legacyLock : TaskLock :=
  { sampleTaskLock with
    lockDigest := "sha256:" ++ legacyLockHex
    taskRevision := "sha256:" ++ legacyHex
    artifactDigest := "sha256:" ++ legacyHex }

def legacySource : LegacyJudgeSource :=
  { image := "alpine", platform := none, mode := "batch", requiresModelGateway := false }

def legacyTask : TaskInfo :=
  { sampleTask with
    metrics :=
      [{ name := "m", min := .finite 0, max := .finite 1, role := "primary" },
        { name := "n", min := .finite 0, max := .finite 1, role := "secondary" }]
    legacyJudge := some legacySource }

/-- The Judge ran into its timeout, which scores zero. -/
def legacyWorld : JudgeWorld :=
  { descriptor :=
      { parser := "score_sum", rescale := none, selectionHint := "score_first", timeoutSec := 60 }
    game := none
    batch := { gateway := .ok (), started := .ok (), exitCode := some 124, output := "" }
    negativeZero := false
    docker := .error "could not start Docker Judge"
    osRuntime := .error "could not start os-runtime Judge" }

def legacyResult : JudgeResult :=
  { schema := "bench.judge.result.v1"
    solutionVerdict := "valid"
    metrics := [("m", .string "0")]
    diagnostics := .object
      [("adapter", .string "edgebench-v1"), ("exit_code", .number (.posInt 124)),
        ("output_head", .string ""), ("output_tail", .string ""),
        ("parser", .string "score_sum")] }

def legacyRecord : LocalResultRecord :=
  { sideRecord "local-1-7-0" "baseline" legacyLockHex legacyResultHex with
    agent := "candidate-lock.json", score := "0", judgeResult := legacyResult }

/-- SHA-256 on the inputs of this sample as well. -/
def legacySha256 (input : Bytes) : String :=
  if input = legacyStream then legacyHex
  else if input = (LockIdentity.taskIdentity legacyLock).toVec then legacyLockHex
  else if input = recordJson legacyRecord then legacyResultHex
  else sampleSha256 input

def legacyHost : Host :=
  { sampleHost with
    os := Platform.ascii legacySha256
    loadLocalTask := fun root =>
      if root = legacyTree then .ok legacyTask else .error "could not read task.acl" }

def legacyState : StateRoot :=
  { sampleState with
    artifacts := fun name =>
      if name = legacyHex.toList then some legacyTree else sampleState.artifacts name }

theorem legacyHost_sha256 : legacyHost.os.sha256 = legacySha256 := rfl

/-- What the host of this sample computes. The kernel evaluates all of it at one place. -/
structure LegacyEvaluated : Prop where
  agent : legacySha256 (assetStream agentSource) = agentHex
  taskLock : legacySha256 (LockIdentity.taskIdentity legacyLock).toVec = legacyLockHex
  agentLock : legacySha256 (LockIdentity.candidateIdentity agentLock).toVec = agentLockHex
  record : legacySha256 (recordJson legacyRecord) = legacyResultHex
  hex : legacyHex.toList.length = 64 ∧ legacyHex.toList.all Text.isHexDigit = true
  lockDigest : LockIdentity.validateDigest ("sha256:" ++ legacyLockHex) = .ok ()
  resultDigest : LockIdentity.validateDigest ("sha256:" ++ legacyResultHex) = .ok ()
  taskStream : TaskSnapshot.snapshotStream legacyHost.os legacyTree = .ok legacyStream
  agentStream : TaskSnapshot.snapshotStream legacyHost.os (assetTree agentSource) =
    .ok (assetStream agentSource)
  agentStored : legacyState.artifacts agentHex.toList = some (assetTree agentSource)
  agentLoaded : Asset.loadLocal legacyHost.os legacyHost.parseAcl
    (some (assetTree agentSource)) = .ok agentPackage

theorem legacyEvaluated : LegacyEvaluated where
  agent := by
    rw [legacySha256, if_neg (by decide +kernel), if_neg (by decide +kernel),
      if_neg (by decide +kernel), sampleEvaluated.agent]
  taskLock := by rw [legacySha256, if_neg (by decide +kernel), if_pos rfl]
  agentLock := by
    rw [legacySha256, if_neg (by decide +kernel), if_neg (by decide +kernel),
      if_neg (by decide +kernel), sampleEvaluated.agentLock]
  record := by
    rw [legacySha256, if_neg (by decide +kernel), if_neg (by decide +kernel), if_pos rfl]
  hex := by decide +kernel
  lockDigest := by decide +kernel
  resultDigest := by decide +kernel
  taskStream := by decide +kernel
  agentStream := by decide +kernel
  agentStored := by decide +kernel
  agentLoaded := by decide +kernel

theorem lockedArtifact_legacy (unavailable : String) :
    lockedArtifact legacyHost ("sha256:" ++ legacyHex) unavailable legacyState =
      .ok legacyTree := by
  have hstored : legacyState.artifacts legacyHex.toList = some legacyTree := by
    simp only [legacyState, ↓reduceIte]
  exact lockedArtifact_of_stream (legacyEvaluated).hex (legacyEvaluated).taskStream
    (by rw [legacyHost_sha256, legacySha256, if_pos rfl]) hstored unavailable

theorem lockedArtifact_legacyAgent (unavailable : String) :
    lockedArtifact legacyHost ("sha256:" ++ agentHex) unavailable legacyState =
      .ok (assetTree agentSource) :=
  lockedArtifact_of_stream sampleEvaluated.agentHex (legacyEvaluated).agentStream
    (legacyEvaluated).agent (legacyEvaluated).agentStored unavailable

theorem loadTask_legacy : loadTask legacyHost (some (.ok legacyLock)) legacyState =
    .ok { lock := legacyLock, taskArtifact := legacyTree
          judgeArtifact := assetTree agentSource } := by
  have hdigest : LockIdentity.task legacyHost.os legacyLock = "sha256:" ++ legacyLockHex := by
    rw [LockIdentity.task, Platform.digest, legacyHost_sha256, (legacyEvaluated).taskLock]
  have htask : legacyHost.loadLocalTask legacyTree = .ok legacyTask := by
    simp only [legacyHost, ↓reduceIte]
  have hcheck : checkTaskLock legacyHost legacyLock = .ok () := by
    simp only [checkTaskLock, Result.bind_ok_iff, Result.exists_unit_iff, Result.ensure_ok_iff,
      hdigest]
    exact ⟨.inl rfl, (legacyEvaluated).lockDigest, rfl, rfl, sampleEvaluated.judgeRevision⟩
  simp only [loadTask, Result.bind_ok_iff, Result.context_ok_iff, Result.exists_unit_iff,
    Result.ensure_ok_iff, Result.pure_ok_iff]
  exact ⟨_, rfl, hcheck, _, lockedArtifact_legacy _, legacyTask, htask, rfl, rfl, rfl, _,
    lockedArtifact_legacyAgent _, _, (legacyEvaluated).agentLoaded, rfl, rfl⟩

theorem loadCandidate_legacy : loadCandidate legacyHost (some (.ok agentLock)) legacyState =
    .ok ((agentLock, assetTree agentSource), legacyState) := by
  have hdigest : LockIdentity.candidate legacyHost.os agentLock = "sha256:" ++ agentLockHex := by
    rw [LockIdentity.candidate, Platform.digest, legacyHost_sha256, (legacyEvaluated).agentLock]
  simp only [loadCandidate, Result.bind_ok_iff, Result.context_ok_iff, Result.exists_unit_iff,
    Result.ensure_ok_iff, Result.pure_ok_iff]
  refine ⟨agentLock, rfl, ?_, _, lockedArtifact_legacyAgent _, _, (legacyEvaluated).agentLoaded, rfl,
    legacyState, rfl, rfl⟩
  simp only [checkCandidateLock, Result.bind_ok_iff, Result.exists_unit_iff, Result.ensure_ok_iff]
  exact ⟨.inl rfl, sampleEvaluated.agentLockDigest, hdigest, by decide,
    sampleEvaluated.agentLockFields⟩

/-- The answers of the run, before the images are resolved. -/
def legacyAnswers : Answers :=
  { sampleAnswers 1 legacyLock alpineImage with
    loaded := { (sampleAnswers 1 legacyLock alpineImage).loaded with task := legacyTask }
    task :=
      { legacyTask with
        workImage := alpineImage
        legacyJudge := some { legacySource with image := alpineImage } }
    judge := legacyResult
    score := "0" }

def legacySurroundings : Surroundings :=
  { sampleSurroundings 1 0 with judge := .ok legacyResult }

def legacyOptions : RunOptions :=
  { task := "task-lock.json"
    agent := "candidate-lock.json"
    taskLock := some (.ok legacyLock)
    candidateLock := some (.ok agentLock) }

theorem loadLocks_legacy :
    RunInput.loadLocks legacyHost legacyOptions.taskLock legacyOptions.candidateLock legacyState =
      .ok (legacyAnswers.loaded, legacyState) := by
  have htask : legacyHost.loadLocalTask legacyTree = .ok legacyTask := by
    simp only [legacyHost, ↓reduceIte]
  have hload : loadTask legacyHost legacyOptions.taskLock legacyState = _ := loadTask_legacy
  have hcandidate : loadCandidate legacyHost legacyOptions.candidateLock legacyState = _ :=
    loadCandidate_legacy
  simp only [RunInput.loadLocks, hload, hcandidate, htask, (legacyEvaluated).agentLoaded,
    Result.bind_ok_iff, Result.pure_ok_iff, Except.ok.injEq, exists_eq_left']
  exact ⟨_, rfl, rfl⟩

theorem resolveTask_legacy :
    resolveTask legacySurroundings "docker" legacyAnswers.loaded = .ok legacyAnswers.task := by
  have hkey : imageKey "alpine" none = "native|alpine" := by decide
  have himage : resolveImage legacyLock.resolvedImages "alpine" none = .ok alpineImage := by
    rw [resolveImage, hkey]
    rfl
  change resolveTaskImages legacyTask legacyLock.resolvedImages = _
  simp only [resolveTaskImages, Result.bind_ok_iff, Result.pure_ok_iff]
  refine ⟨alpineImage, himage, none, rfl, some { legacySource with image := alpineImage }, ?_, rfl⟩
  change some <$> (resolveImage legacyLock.resolvedImages "alpine" none >>= _) = _
  rw [himage]
  rfl

theorem faultless_legacy : Faultless legacySurroundings legacyAnswers where
  begun := rfl
  effects _ := rfl
  config := rfl
  configured := rfl
  preflight := rfl
  taskDigest := (legacyEvaluated).lockDigest
  candidateDigest := sampleEvaluated.agentLockDigest
  judgeModel := rfl
  task := resolveTask_legacy
  prepare := rfl
  candidate := rfl
  submission := rfl
  judge := rfl
  primary := by
    change okOr _ _ = _
    rfl
  score := by
    change _ = some "0"
    rfl
  saved := rfl
  published := rfl

theorem validate_legacy :
    ResultRecord.validate legacyHost.os legacyRecord "local-1-7-0" = .ok () := by
  have hdigest : ResultIdentity.calculate legacyHost.os legacyRecord =
      .ok ("sha256:" ++ legacyResultHex) := by
    have hencoded : ResultIdentity.encoded legacyRecord =
        .ok (ResultIdentity.identityV6 legacyRecord) := rfl
    have hsha := (legacyEvaluated).record
    rw [recordJson] at hsha
    rw [ResultIdentity.calculate, hencoded, Result.map_ok_iff]
    exact ⟨_, rfl, by rw [Platform.digest, legacyHost_sha256, hsha]⟩
  simp only [ResultRecord.validate, Result.bind_ok_iff, Result.exists_unit_iff,
    Result.ensure_ok_iff]
  refine ⟨rfl, rfl, rfl, rfl, (legacyEvaluated).resultDigest, _, hdigest, rfl, by decide,
    (legacyEvaluated).lockDigest, ?_, rfl, rfl, ?_⟩
  · change LockIdentity.validateDigest ("sha256:" ++ agentLockHex) = .ok ()
    decide
  · simp only [ResultRecord.checkScore, Result.bind_ok_iff, Result.exists_unit_iff,
      Result.ensure_ok_iff]
    exact ⟨by change ResultRecord.canonicalDecimal "0" = true; decide, rfl, rfl, rfl⟩

theorem recorded_legacy : Recorded legacyHost.os legacyOptions legacySurroundings legacyAnswers
    legacyRecord where
  record_eq := rfl
  valid := validate_legacy
  eventLog store hstore := by
    have hschema : ¬ legacyRecord.schema ≠ "a3s.bench.local-result.v6" := not_not.mpr rfl
    rw [ResultRecord.validateEventLog, if_neg hschema]
    exact Result.ensure_ok_iff.mpr hstore

def legacyJudges : JudgeHost :=
  { ln := id, ln1p := id, checks := true, debug := String.quote, display := fun _ => ""
    fromStr := fun _ => .error "expected value at line 1 column 1" }

theorem executeJudge_legacy : executeJudge legacyJudges legacyWorld "docker" legacyAnswers.task =
    .ok legacyResult := by
  rfl

def legacyFiles : RunFiles :=
  { root := legacyState
    store := { results := fun _ => none, journals := fun _ => none, eventLogs := fun _ => none } }

theorem results_legacy :
    (executeOptions legacyHost "state" legacyOptions legacySurroundings legacyFiles).1.store.results
      legacySurroundings.runId = some legacyRecord := by
  obtain ⟨files, hexecute, -, -⟩ := @executeOptions_completed legacyHost "state" legacyOptions
    legacySurroundings legacyAnswers legacyRecord legacyState legacyFiles faultless_legacy
    loadLocks_legacy recorded_legacy
  rw [hexecute]
  exact (executeOptions_ok hexecute).2.2

/-- The same surroundings with a Docker Judge. -/
def dockerWorld : JudgeWorld := { legacyWorld with docker := .ok baselineRecord.judgeResult }

theorem executeJudge_docker : executeJudge legacyJudges dockerWorld "docker"
    (sampleAnswers 1 sampleTaskLock alpineImage).task = .ok baselineRecord.judgeResult := by
  have hvalid : validateJudgeResult legacyJudges.display
      (sampleAnswers 1 sampleTaskLock alpineImage).task baselineRecord.judgeResult = .ok () := by
    rw [Runtime.validateJudgeResult_ok_iff]
    refine ⟨rfl, rfl, fun metric hmetric => ?_⟩
    have hmetric : metric ∈ sampleTask.metrics := hmetric
    obtain rfl := List.mem_singleton.mp hmetric
    exact ⟨"0.5", rfl, by decide, .finite (1 / 2), by decide +kernel, by decide +kernel⟩
  have haccept : Runtime.acceptAnswer legacyJudges (sampleAnswers 1 sampleTaskLock alpineImage).task
      (.ok baselineRecord.judgeResult) = .ok baselineRecord.judgeResult := by
    simp only [Runtime.acceptAnswer, Result.bind_ok_iff, Result.exists_unit_iff,
      Result.ensure_ok_iff, Result.pure_ok_iff]
    exact ⟨_, rfl, rfl, hvalid, rfl⟩
  exact Outcome.ofResult_ok_iff.mpr haccept

/-- A sample run records the answer of its Docker Judge, which is valid. -/
theorem recorded_valid_sample :
    validateJudgeResult legacyJudges.display (sampleAnswers 1 sampleTaskLock alpineImage).task
      baselineRecord.judgeResult = .ok () := by
  have hrunId : (sampleSurroundings 1 0).runId = "local-1-7-0" := by decide
  have hload : RunInput.loadLocks sampleHost (some (.ok sampleTaskLock)) (some (.ok agentLock))
      sampleState = .ok ((sampleAnswers 1 sampleTaskLock alpineImage).loaded, sampleState) :=
    Suite.loadLocks_sample Suite.sampleLock_planned 1
  have hfaultless := Suite.faultless_sample Suite.sampleLock_planned 1 0
  let options := Suite.memberOptions "state" Suite.sampleDirectory 0 .baseline
  let files : RunFiles := { legacyFiles with root := sampleState }
  obtain ⟨files', hexecute, -, -⟩ := @executeOptions_completed sampleHost "state" options
    (sampleSurroundings 1 0) (sampleAnswers 1 sampleTaskLock alpineImage) baselineRecord sampleState
    files hfaultless hload (Suite.recorded_side rfl rfl hrunId Suite.validate_baseline)
  have hrecord : (executeOptions sampleHost "state" options (sampleSurroundings 1 0)
      files).1.store.results (sampleSurroundings 1 0).runId = some baselineRecord := by
    rw [hexecute]
    exact (executeOptions_ok hexecute).2.2
  refine (@recorded_valid_iff legacyJudges dockerWorld sampleHost "state" options
    (sampleSurroundings 1 0) files _ _ "docker" _ baselineRecord hload rfl hfaultless.task ?_
    (by simp [files, legacyFiles]) hrecord).mpr ?_
  · intro result hresult
    obtain rfl := Except.ok.inj hresult
    exact executeJudge_docker
  · intro source hsource
    cases hsource

/-- What `load_local` reads of the tree. -/
def legacyTaskFiles : TaskSource.TaskFiles :=
  { document := .ok ⟨[.mk "bench" ["t"]
      [("schema", .string "a3s-bench/task/v1"), ("version", .string "1"), ("name", .string "T"),
        ("category", .string "c")]
      [.mk "work" [] [] [.mk "image" [] [("ref", .string "alpine")] []],
        .mk "judge" [] [("asset", .string "oci://j")] [],
        .mk "metric" ["m"]
          [("role", .string "primary"), ("min", .number "0"), ("max", .number "1")] [],
        .mk "metric" ["n"]
          [("role", .string "secondary"), ("min", .number "0"), ("max", .number "1")] []]]⟩
    legacyJudge := .ok (some legacySource)
    hasAssetAcl := fun _ => false }

theorem second_metric_missing :
    ¬∀ (loader : TaskSource.Loader) (taskFiles : TaskSource.TaskFiles) (judges : JudgeHost)
        (world : JudgeWorld) (host : Host) (stateRoot : String) (options : RunOptions)
        (env : Surroundings) (files : RunFiles) (loaded : LoadedRun) (root : StateRoot)
        (provider : String) (task : TaskInfo) (record : LocalResultRecord),
      TaskSource.loadLocal loader taskFiles = .ok loaded.task →
      RunInput.loadLocks host options.taskLock options.candidateLock files.root =
        .ok (loaded, root) →
      env.preflight = .ok provider → resolveTask env provider loaded = .ok task →
      (∀ result, env.judge = .ok result →
        executeJudge judges world provider task = .ok result) →
      files.store.results env.runId = none →
      (executeOptions host stateRoot options env files).1.store.results env.runId = some record →
      validateJudgeResult judges.display task record.judgeResult = .ok () := by
  intro hclaim
  have htask : TaskSource.loadLocal Workspace.sampleLoader legacyTaskFiles =
      .ok legacyAnswers.loaded.task := by
    have hload : TaskSource.loadLocal Workspace.sampleLoader legacyTaskFiles = .ok legacyTask := by
      decide +kernel
    exact hload
  have hjudge : ∀ result, legacySurroundings.judge = .ok result →
      executeJudge legacyJudges legacyWorld "docker" legacyAnswers.task = .ok result := by
    intro result hresult
    obtain rfl := Except.ok.inj hresult
    exact executeJudge_legacy
  have hvalid := hclaim Workspace.sampleLoader legacyTaskFiles legacyJudges legacyWorld legacyHost
    "state" legacyOptions legacySurroundings legacyFiles legacyAnswers.loaded legacyState "docker"
    legacyAnswers.task legacyRecord htask loadLocks_legacy rfl resolveTask_legacy
    hjudge rfl results_legacy
  have hlength : legacyRecord.judgeResult.metrics.length = legacyAnswers.task.metrics.length :=
    (Runtime.validateJudgeResult_ok_iff.mp hvalid).2.1
  exact absurd hlength (by decide)

end Sample

end A3sBench.BenchRun
