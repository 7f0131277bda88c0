import A3sBench.SuiteRuns

/-!
# What a suite reports

A suite whose member runs find the planned digests reports runs of the planned
locks. Nothing else makes sure of that: an accepted replacement that comes before
the member runs is executed and reported without complaint.
-/

namespace A3sBench.Suite

open BenchRun (Answers Faultless OthersKept Recorded RunFiles Surroundings)
open Comparison (ComparisonSummary Scores)
open Library Library.System
open Lock

theorem sound_of_locksAsPlanned {host : Host} {scores : Scores} {stateRoot : String}
    {h : List (World × Event)} {w : World} (hrun : Run (suiteSystem host scores stateRoot) h w)
    (hguard : Guarded LocksAsPlanned h) : Sound w := by
  refine hrun.guarded_invariant ?_ (fun _ _ _ hs hg hstep => sound_step hs hg hstep) hguard
  rintro s ⟨hdir, hproc, hplan, hreports⟩
  constructor
  · exact fun _ => ⟨hproc, hreports⟩
  · exact fun plan hp => by rw [hplan] at hp; cases hp
  · exact fun plan hp => by rw [hplan] at hp; cases hp
  · exact fun plan hp => by rw [hplan] at hp; cases hp

section Completion

variable {host : Host} {scores : Scores} {stateRoot : String} {w : World} {process : Process}
  {directory : SuiteDirectory} {env : Surroundings} {a : Answers} {record : LocalResultRecord}

/-- The world after a member run that met no fault. -/
def World.completed (w : World) (process : Process) (directory : SuiteDirectory) (runId : String)
    (digests : String × String) (files : RunFiles) : World :=
  let state := process.state.setRunId process.index process.role runId
  { w with
    files := files
    directory := some { directory with state := some (.ok state) }
    process := some { process with state := state }.next
    used := Function.update w.used runId (some digests) }

/-- A member run that meets no fault completes, and its record is loaded. -/
theorem step_member_completed {member : SuiteMemberState} {root : StateRoot}
    (hproc : w.process = some process) (hdir : w.directory = some directory)
    (hmember : process.state.members[process.index]? = some member)
    (hnone : member.runId process.role = none)
    (hfresh : w.files.store.results env.runId = none) (hfaultless : Faultless env a)
    (hload : RunInput.loadLocks host (directory.taskLocks process.index)
      (directory.lockOf process.role) w.files.root = .ok (a.loaded, root))
    (hrecord : Recorded host.os (memberOptions stateRoot directory process.index process.role)
      env a record) :
    ∃ files, (suiteSystem host scores stateRoot).step w (.member env .stored)
        (w.completed process directory env.runId
          (a.loaded.taskLockDigest, a.loaded.candidateLockDigest) files) ∧
      files.root = root ∧ OthersKept env.runId w.files.store files.store ∧
      ResultRecord.load host.os stateRoot files.store env.runId = .ok (some record) := by
  obtain ⟨files, hexecute, hroot, hloaded⟩ :=
    @BenchRun.executeOptions_completed host stateRoot
      (memberOptions stateRoot directory process.index process.role) env a record root w.files
      hfaultless hload hrecord
  have hkept := BenchRun.othersKept_executeOptions host stateRoot
    (memberOptions stateRoot directory process.index process.role) env w.files
  rw [hexecute] at hkept
  refine ⟨files, ⟨process, directory, member, hproc, hdir, hmember, hnone, hfresh, ?_⟩, hroot,
    hkept, hloaded⟩
  have hdigests : loadedDigests host directory process.index process.role w.files.root =
      some (a.loaded.taskLockDigest, a.loaded.candidateLockDigest) := by
    rw [loadedDigests, hload]
  simp only [World.afterMember, runMember, hexecute, persistState, hdigests, hrecord.runId_eq]
  rfl

end Completion

section Sample

set_option maxRecDepth 20000

/-! ### A suite of the sample agent against itself -/

def sampleSide (role : String) : Acl.Block := .mk "candidate" [role] [("agent", .string "./agent")] []

def sampleSource : Acl.Document :=
  { blocks := [.mk "bench_suite" ["s"]
      [("schema", .string "a3s-bench/suite/v1"), ("tasks", .list [.string "./task"])]
      [sampleSide "baseline", sampleSide "candidate"]] }

def agentSpec : CandidateSpec := { agent := "./agent", model := none, reasoningEffort := none }

def sampleSpec : SuiteSpec :=
  { id := "s", tasks := ["./task"], baseline := agentSpec, candidate := agentSpec
    digest := "sha256:" ++ "454365f4a35f00e9166b5e3a9e62b56eace6f1b0f57ae29a3efb88ed37d18578" }

/-- The digests of the sample suite and its records. The kernel evaluates all of
them at one place. -/
structure SuiteDigests : Prop where
  suite : sampleSha256 suiteJson.toVec =
    "454365f4a35f00e9166b5e3a9e62b56eace6f1b0f57ae29a3efb88ed37d18578"
  baseline : sampleSha256 (recordJson baselineRecord) =
    "3acd0861a5b31331f4a1f4c5657d72e61c4a9d678119974e8f9e13b50b11bc35"
  candidate : sampleSha256 (recordJson candidateRecord) =
    "a527701059d376434f483c6a53146fae0ff0716a981de72bdedd697a0e20f1cd"
  edgeBaseline : sampleSha256 (recordJson edgeBaselineRecord) =
    "765733c236e81b8f693d1f1b5f3bdc1731f83c43c9d6667531804e53680e58ce"
  edgeCandidate : sampleSha256 (recordJson edgeCandidateRecord) =
    "756e6802ec84d21e9107271bc6893deb0194f62411cb4a59ac8ab293811fa568"

theorem suiteDigests : SuiteDigests where
  suite := by
    rw [sampleSha256]
    iterate 7 rw [if_neg (by decide +kernel)]
    rw [if_pos rfl]
  baseline := by
    rw [sampleSha256]
    iterate 8 rw [if_neg (by decide +kernel)]
    rw [if_pos rfl]
  candidate := by
    rw [sampleSha256]
    iterate 9 rw [if_neg (by decide +kernel)]
    rw [if_pos rfl]
  edgeBaseline := by
    rw [sampleSha256]
    iterate 10 rw [if_neg (by decide +kernel)]
    rw [if_pos rfl]
  edgeCandidate := by
    rw [sampleSha256]
    iterate 11 rw [if_neg (by decide +kernel)]
    rw [if_pos rfl]

theorem loadSpec_sample : loadSpec sampleHost.os (.ok sampleSource) = .ok sampleSpec := by
  have hdigest : specDigest sampleHost.os "s" ["./task"] agentSpec agentSpec = sampleSpec.digest := by
    rw [specDigest, show specJson "s" ["./task"] agentSpec agentSpec = suiteJson from rfl,
      Platform.digest, sampleHost_sha256, suiteDigests.suite, sampleSpec]
  simp only [loadSpec, Result.bind_ok_iff, Result.exists_unit_iff, Result.ensure_ok_iff,
    Result.pure_ok_iff]
  refine ⟨sampleSource, rfl, _, rfl, by decide, "a3s-bench/suite/v1", rfl, rfl, ["./task"],
    rfl, List.cons_ne_nil _ _, by decide, agentSpec, rfl, agentSpec, rfl, "s", rfl, ?_⟩
  rw [hdigest]
  rfl

theorem createTask_sample : createTaskWithProvider sampleHost sampleTaskTree none sampleState none
    "docker" = .ok (sampleTaskLock, sampleState, some (.ok sampleTaskLock)) := by
  have hstreamJudge : TaskSnapshot.snapshotStream sampleHost.os agentPackage.root =
      .ok (assetStream agentSource) := sampleEvaluated.agentStream
  have hstore : sampleState.artifacts taskHex.toList = some sampleTaskTree := by
    simp only [sampleState, sampleArtifacts, ↓reduceIte]
  have hhex := artifactPath_sha256 sampleEvaluated.taskHex
  have hhexJudge := artifactPath_sha256 sampleEvaluated.agentHex
  have hcapture := TaskSnapshot.capture_of_published sampleEvaluated.taskStream
    (by rw [sha256_task]; exact hhex) hstore
  have hcaptureJudge := TaskSnapshot.capture_of_published hstreamJudge
    (by rw [sampleHost_sha256, sampleEvaluated.agent]; exact hhexJudge) sampleEvaluated.agentStored
  rw [sha256_task] at hcapture
  rw [sampleHost_sha256, sampleEvaluated.agent] at hcaptureJudge
  have htask : sampleHost.loadLocalTask sampleTaskTree = .ok sampleTask := by
    simp only [sampleHost, ↓reduceIte]
  have hjudge : resolveJudge sampleHost sampleTaskTree sampleTask = .ok agentPackage := by
    have hoci : sampleHost.resolveOci ['j'] = .ok agentPackage := by
      simp only [sampleHost, ↓reduceIte]
    have hstrip : Text.stripPrefix "oci://" sampleTask.judgeAsset = some ['j'] := by decide
    rw [resolveJudge, if_pos (by decide), resolve, if_neg (by decide),
      if_neg (by decide), hstrip, ← hoci]
    rfl
  have himages : lockedImages sampleHost sampleTask "docker" =
      .ok sampleTaskLock.resolvedImages := by
    have hreferences : taskImageReferences sampleTask = [("alpine", none)] := by decide
    have hresolve : sampleHost.resolveImage "alpine" none = .ok alpineImage := by
      simp only [sampleHost, ↓reduceIte]
    rw [lockedImages, if_neg (by decide), hreferences]
    simp only [resolveImages, hresolve, Result.bind_ok_iff, Except.ok.injEq, exists_eq_left']
    rfl
  have hdigest : LockIdentity.task sampleHost.os { sampleTaskLock with lockDigest := "" } =
      sampleTaskLock.lockDigest := by
    rw [show LockIdentity.task sampleHost.os { sampleTaskLock with lockDigest := "" } =
      sampleHost.os.digest (LockIdentity.taskIdentity sampleTaskLock) from rfl, Platform.digest,
      sampleHost_sha256, sampleEvaluated.taskLock, sampleTaskLock]
  simp only [createTaskWithProvider, Result.bind_ok_iff, Result.exists_unit_iff,
    Result.ensure_ok_iff, Result.pure_ok_iff, Result.okOr_ok_iff]
  refine ⟨_, hcapture, _, hhex, _, hstore, _, htask, .inl (by decide), none, rfl, _, hjudge, _,
    hcaptureJudge, _, hhexJudge, agentPackage, ?_, _, himages, _, rfl, _, rfl, ?_⟩
  · dsimp only
    rw [sampleEvaluated.agentStored]
    exact sampleEvaluated.agentLoaded
  · exact congrArg (fun digest => ({ sampleTaskLock with lockDigest := digest }, sampleState,
      some (Except.ok { sampleTaskLock with lockDigest := digest }))) hdigest

/-- The directory of the sample suite, as planned. -/
def sampleDirectory : SuiteDirectory :=
  { runId := "suite-1-7-0"
    baselineLock := some (.ok agentLock)
    candidateLock := some (.ok agentLock)
    taskLocks := Function.update (fun _ => none) 0 (some (.ok sampleTaskLock))
    state := some (.ok (plannedState sampleSpec "suite-1-7-0")) }

def sampleConfig : BenchRun.LocalConfig := { path := none, judgeModel := none }

theorem planSuite_sample : planSuite sampleHost sampleSpec "suite-1-7-0" (.ok sampleConfig)
    (.ok "docker") sampleState =
      .ok (sampleDirectory, plannedState sampleSpec "suite-1-7-0", sampleState) := by
  have hsource : sampleHost.taskSource "./task" = .ok sampleTaskTree := by
    simp only [sampleHost, ↓reduceIte]
  have htasks : lockTasks sampleHost none "docker" ["./task"] 0 sampleState (fun _ => none) =
      .ok (sampleState, sampleDirectory.taskLocks) := by
    simp only [lockTasks, hsource, createTask_sample, Result.bind_ok_iff, Except.ok.injEq,
      exists_eq_left']
    rfl
  have hcreate := RunInput.create_agent
  simp only [planSuite, Result.bind_ok_iff, Result.pure_ok_iff]
  exact ⟨_, hcreate, _, hcreate, _, rfl, _, rfl, _, htasks, rfl⟩

/-- The surroundings of a sample run that meets no fault. -/
def sampleSurroundings (now : BitVec 128) (sequence : UInt64) : Surroundings :=
  { processId := 7
    sequence := sequence
    now := now
    begun := .stored
    effects := fun _ => { clock := .ok now, write := .stored }
    config := .ok sampleConfig
    resolveModelRoute := fun _ _ => .error "unknown model route"
    preflight := .ok "docker"
    embeddedWorkspace := false
    prepare := .ok ()
    candidate := .ok
      { candidateEventLogDigest := none, execution := { status := .completed, timeoutSec := none }
        modelUsage := none }
    eventLog := none
    submission := .ok ()
    judge := .ok baselineRecord.judgeResult
    saved := .stored
    published := .stored }

/-- What a sample run answers, under a lock of the sample Task. -/
def sampleAnswers (now : BitVec 128) (lock : TaskLock) (image : String) : Answers :=
  { now := now
    config := sampleConfig
    provider := "docker"
    loaded :=
      { task := sampleTask
        candidate := agentPackage
        judge := agentPackage
        judgeModel := lock.judgeModel
        model := none
        reasoningEffort := none
        codexPackage := none
        resolvedImages := lock.resolvedImages
        taskLockSchema := lock.schema
        taskLockResources := lock.resources
        taskLockDigest := lock.lockDigest
        candidateLockDigest := agentLock.lockDigest }
    judgeModel := none
    task := { sampleTask with workImage := image }
    run :=
      { candidateEventLogDigest := none, execution := { status := .completed, timeoutSec := none }
        modelUsage := none }
    judge := baselineRecord.judgeResult
    primary := { name := "m", min := .finite 0, max := .finite 1, role := "primary" }
    score := "0.5" }

/-- A lock of the sample Task that the loader accepts, with the image it binds. -/
structure SampleLock (lock : TaskLock) (image : String) : Prop where
  loads : loadTask sampleHost (some (.ok lock)) sampleState =
    .ok { lock := lock, taskArtifact := sampleTaskTree, judgeArtifact := assetTree agentSource }
  image : lock.resolvedImages.get "native|alpine" = some image
  digest : LockIdentity.validateDigest lock.lockDigest = .ok ()

theorem sampleLock_planned : SampleLock sampleTaskLock alpineImage :=
  ⟨loadTask_sample, by decide, by decide⟩

theorem sampleLock_edge : SampleLock edgeTaskLock edgeImage :=
  ⟨loadTask_edge, by decide, by decide⟩

variable {lock : TaskLock} {image : String}

theorem loadLocks_sample (hlock : SampleLock lock image) (now : BitVec 128) :
    RunInput.loadLocks sampleHost (some (.ok lock)) (some (.ok agentLock)) sampleState =
      .ok ((sampleAnswers now lock image).loaded, sampleState) := by
  have htask : sampleHost.loadLocalTask sampleTaskTree = .ok sampleTask := by
    simp only [sampleHost, ↓reduceIte]
  simp only [RunInput.loadLocks, hlock.loads, loadCandidate_agent, htask, sampleEvaluated.agentLoaded,
    Result.bind_ok_iff, Result.pure_ok_iff, Except.ok.injEq, exists_eq_left']
  exact ⟨_, rfl, rfl⟩

theorem faultless_sample (hlock : SampleLock lock image) (now : BitVec 128) (sequence : UInt64) :
    Faultless (sampleSurroundings now sequence) (sampleAnswers now lock image) where
  begun := rfl
  effects _ := rfl
  config := rfl
  configured := rfl
  preflight := rfl
  taskDigest := hlock.digest
  candidateDigest := by
    change LockIdentity.validateDigest agentLock.lockDigest = .ok ()
    decide
  judgeModel := rfl
  task := by
    have hkey : imageKey "alpine" none = "native|alpine" := by decide
    change BenchRun.resolveTaskImages sampleTask lock.resolvedImages = _
    simp only [BenchRun.resolveTaskImages, Result.bind_ok_iff, Result.pure_ok_iff]
    refine ⟨image, ?_, none, rfl, none, rfl, rfl⟩
    change BenchRun.resolveImage lock.resolvedImages "alpine" none = .ok image
    rw [BenchRun.resolveImage, hkey, hlock.image]
    rfl
  prepare := rfl
  candidate := rfl
  submission := rfl
  judge := rfl
  primary := by
    change okOr _ _ = _
    rfl
  score := by
    change _ = some "0.5"
    rfl
  saved := rfl
  published := rfl

theorem validate_side {runId side taskHex resultHex : String}
    (hsha : sampleHost.os.sha256 (recordJson (sideRecord runId side taskHex resultHex)) = resultHex)
    (hrunId : validateRunId runId = .ok ())
    (hresult : LockIdentity.validateDigest ("sha256:" ++ resultHex) = .ok ())
    (htask : LockIdentity.validateDigest ("sha256:" ++ taskHex) = .ok ())
    (htexts : (ResultRecord.namedTexts (sideRecord runId side taskHex resultHex)).forM (fun text =>
      ensure (Text.isBlank text.2 = false) ("local result " ++ text.1 ++ " is empty")) = .ok ()) :
    ResultRecord.validate sampleHost.os (sideRecord runId side taskHex resultHex) runId =
      .ok () := by
  have hdigest : ResultIdentity.calculate sampleHost.os (sideRecord runId side taskHex resultHex) =
      .ok ("sha256:" ++ resultHex) := by
    have hencoded : ResultIdentity.encoded (sideRecord runId side taskHex resultHex) =
        .ok (ResultIdentity.identityV6 (sideRecord runId side taskHex resultHex)) := rfl
    rw [recordJson] at hsha
    rw [ResultIdentity.calculate, hencoded, Result.map_ok_iff]
    exact ⟨_, rfl, by rw [Platform.digest, hsha]⟩
  simp only [ResultRecord.validate, Result.bind_ok_iff, Result.exists_unit_iff,
    Result.ensure_ok_iff]
  refine ⟨hrunId, rfl, rfl, rfl, hresult, _, hdigest, rfl, htexts, htask, ?_, rfl, rfl, ?_⟩
  · change LockIdentity.validateDigest ("sha256:" ++ agentLockHex) = .ok ()
    decide
  · simp only [ResultRecord.checkScore, Result.bind_ok_iff, Result.exists_unit_iff,
      Result.ensure_ok_iff]
    exact ⟨by change ResultRecord.canonicalDecimal "0.5" = true; decide, rfl, rfl, rfl⟩

theorem recorded_side {directory : SuiteDirectory} {role : Role} {now : BitVec 128}
    {sequence : UInt64} {runId taskHex resultHex : String}
    (hdirectory : directory.runId = "suite-1-7-0") (hlock : lock.lockDigest = "sha256:" ++ taskHex)
    (hrunId : (sampleSurroundings now sequence).runId = runId)
    (hvalid : ResultRecord.validate sampleHost.os
      (sideRecord runId role.text taskHex resultHex) runId = .ok ()) :
    Recorded sampleHost.os (memberOptions "state" directory 0 role)
      (sampleSurroundings now sequence) (sampleAnswers now lock image)
      (sideRecord runId role.text taskHex resultHex) := by
  have hagent : (memberOptions "state" directory 0 role).agent =
      "state/suites/suite-1-7-0/" ++ role.text ++ ".candidate-lock.json" := by
    simp only [memberOptions, hdirectory]
    cases role <;> decide
  subst hrunId
  constructor
  · simp only [Answers.input, BenchRun.newLocalResult, hagent]
    change sideRecord _ _ taskHex resultHex = { sideRecord _ _ taskHex resultHex with
      taskLockDigest := lock.lockDigest }
    rw [hlock, sideRecord]
  · exact hvalid
  · intro store hstore
    have hschema : ¬ (sideRecord (sampleSurroundings now sequence).runId role.text taskHex
        resultHex).schema ≠ "a3s.bench.local-result.v6" := not_not.mpr rfl
    rw [ResultRecord.validateEventLog, if_neg hschema]
    exact Result.ensure_ok_iff.mpr hstore

/-- Scores counted in halves, as far as the sample needs them. -/
def sampleScores : Scores :=
  { Score := Nat
    parse := fun text => if text = "0.5" then .ok 1 else .error "invalid float literal"
    isFinite := fun _ => true
    lt := fun a b => decide (a < b) }

def sampleSummary (taskHex : String) : ComparisonSummary :=
  { schema := "a3s.bench.comparison.v1"
    governanceStatus := "local_unofficial"
    baseline := { identity := "sha256:" ++ agentHex, model := none }
    candidate := { identity := "sha256:" ++ agentHex, model := none }
    pairCount := 1
    baselineWins := 0
    ties := 1
    candidateWins := 0
    baselineTimeouts := 0
    candidateTimeouts := 0
    baselineTotalTokens := none
    candidateTotalTokens := none
    pairs :=
      [{ taskId := "t"
         taskLockDigest := "sha256:" ++ taskHex
         baselineRunId := "local-1-7-0"
         candidateRunId := "local-2-7-1"
         primaryMetric := "m"
         baselineScore := "0.5"
         candidateScore := "0.5"
         outcome := .tie
         baselineTimedOut := false
         candidateTimedOut := false }] }

theorem compare_side (taskHex firstHex secondHex : String) :
    Comparison.comparePairs sampleScores
        [(sideRecord "local-1-7-0" "baseline" taskHex firstHex,
          sideRecord "local-2-7-1" "candidate" taskHex secondHex)] =
      .ok (sampleSummary taskHex) := by
  have hscore : Comparison.parseScore sampleScores "0.5" = .ok (1 : Nat) := by
    simp [Comparison.parseScore, sampleScores, ensure, bind, Except.bind, pure, Except.pure]
  simp only [Comparison.comparePairs, List.foldlM_cons, List.foldlM_nil, Comparison.comparePair,
    Comparison.checkPair, Result.bind_ok_iff, Result.exists_unit_iff, Result.ensure_ok_iff,
    Result.pure_ok_iff]
  exact ⟨_, ⟨_, ⟨⟨trivial, trivial, rfl, rfl, rfl⟩, (1 : Nat), hscore, (1 : Nat), hscore, rfl⟩, rfl⟩,
    rfl⟩

/-- From a fresh process on a directory with this lock, both member runs complete
and the suite reports them. -/
theorem sample_reports {h : List (World × Event)} {w : World} {directory : SuiteDirectory}
    {taskHex firstHex secondHex : String}
    (hrun : Run (suiteSystem sampleHost sampleScores "state") h w) (hlock : SampleLock lock image)
    (hdigest : lock.lockDigest = "sha256:" ++ taskHex)
    (hproc : w.process = some (start (plannedState sampleSpec "suite-1-7-0")))
    (hdir : w.directory = some directory) (hrunId : directory.runId = "suite-1-7-0")
    (htask : directory.taskLocks 0 = some (.ok lock))
    (hside : ∀ role, directory.lockOf role = some (.ok agentLock))
    (hroot : w.files.root = sampleState) (hfresh : ∀ id, w.files.store.results id = none)
    (hfirst : ResultRecord.validate sampleHost.os
      (sideRecord "local-1-7-0" "baseline" taskHex firstHex) "local-1-7-0" = .ok ())
    (hsecond : ResultRecord.validate sampleHost.os
      (sideRecord "local-2-7-1" "candidate" taskHex secondHex) "local-2-7-1" = .ok ()) :
    ∃ h' w', Run (suiteSystem sampleHost sampleScores "state") h' w' ∧ w'.planned = w.planned ∧
      sampleSummary taskHex ∈ w'.reports ∧
      w'.used "local-1-7-0" = some (lock.lockDigest, agentLock.lockDigest) ∧
      (Guarded LocksAsPlanned h →
        (∀ plan ∈ w.planned, plan.taskLocks 0 = some (.ok lock) ∧
          ∀ role, plan.lockOf role = some (.ok agentLock)) → Guarded LocksAsPlanned h') := by
  have hfirstId : (sampleSurroundings 1 0).runId = "local-1-7-0" := by decide
  have hsecondId : (sampleSurroundings 2 1).runId = "local-2-7-1" := by decide
  let member : SuiteMemberState :=
    { taskReference := "./task", baselineRunId := none, candidateRunId := none }
  let process₁ := start (plannedState sampleSpec "suite-1-7-0")
  have hload₁ : RunInput.loadLocks sampleHost (directory.taskLocks 0)
      (directory.lockOf process₁.role) w.files.root =
        .ok ((sampleAnswers 1 lock image).loaded, sampleState) := by
    rw [htask, hside, hroot]
    exact loadLocks_sample hlock 1
  obtain ⟨files₁, hstep₁, hroot₁, hkept₁, hresult₁⟩ := @step_member_completed sampleHost
    sampleScores "state" w process₁ directory (sampleSurroundings 1 0) (sampleAnswers 1 lock image)
    _ member sampleState hproc hdir rfl rfl (hfresh _) (faultless_sample hlock 1 0) hload₁
    (@recorded_side lock image directory .baseline 1 0 _ taskHex firstHex hrunId hdigest hfirstId
      hfirst)
  let w₁ := w.completed process₁ directory (sampleSurroundings 1 0).runId
    (lock.lockDigest, agentLock.lockDigest) files₁
  let state₁ := process₁.state.setRunId 0 .baseline (sampleSurroundings 1 0).runId
  let directory₁ : SuiteDirectory := { directory with state := some (.ok state₁) }
  let process₂ : Process := { state := state₁, index := 0, role := .candidate }
  have hload₂ : RunInput.loadLocks sampleHost (directory₁.taskLocks 0)
      (directory₁.lockOf process₂.role) w₁.files.root =
        .ok ((sampleAnswers 2 lock image).loaded, sampleState) := by
    have hlocks : directory₁.lockOf process₂.role = some (.ok agentLock) := hside .candidate
    rw [show directory₁.taskLocks 0 = some (.ok lock) from htask, hlocks,
      show w₁.files.root = sampleState from hroot₁]
    exact loadLocks_sample hlock 2
  have hne : (sampleSurroundings 1 0).runId ≠ (sampleSurroundings 2 1).runId := by
    rw [hfirstId, hsecondId]
    decide
  have hfresh₂ : w₁.files.store.results (sampleSurroundings 2 1).runId = none :=
    (hkept₁.results _ hne.symm).trans (hfresh _)
  obtain ⟨files₂, hstep₂, hroot₂, hkept₂, hresult₂⟩ := @step_member_completed sampleHost
    sampleScores "state" w₁ process₂ directory₁ (sampleSurroundings 2 1)
    (sampleAnswers 2 lock image) _ { member with baselineRunId := some _ } sampleState rfl rfl rfl
    rfl hfresh₂ (faultless_sample hlock 2 1) hload₂
    (@recorded_side lock image directory₁ .candidate 2 1 _ taskHex secondHex hrunId hdigest
      hsecondId hsecond)
  let state₂ := state₁.setRunId 0 .candidate (sampleSurroundings 2 1).runId
  let w₂ := w₁.completed process₂ directory₁ (sampleSurroundings 2 1).runId
    (lock.lockDigest, agentLock.lockDigest) files₂
  have hcompare : compare sampleHost.os sampleScores "state" w₂.files.store state₂ =
      .ok (sampleSummary taskHex) := by
    have hbaseline := BenchRun.load_of_othersKept hkept₂ hne hresult₁
    have hpairs : loadPairs sampleHost.os "state" files₂.store state₂ =
        .ok [(sideRecord "local-1-7-0" "baseline" taskHex firstHex,
          sideRecord "local-2-7-1" "candidate" taskHex secondHex)] := by
      have hmembers : state₂.members =
          [{ taskReference := "./task"
             baselineRunId := some (sampleSurroundings 1 0).runId
             candidateRunId := some (sampleSurroundings 2 1).runId }] := rfl
      rw [loadPairs, hmembers]
      simp only [List.mapM_cons, List.mapM_nil, loadPair, loadResult, Result.bind_ok_iff,
        Result.okOr_ok_iff, Result.pure_ok_iff]
      exact ⟨_, ⟨_, rfl, _, rfl, _, ⟨_, hbaseline, rfl⟩, _, ⟨_, hresult₂, rfl⟩, rfl⟩, _, rfl, rfl⟩
    rw [compare, show w₂.files.store = files₂.store from rfl, Result.bind_ok_iff]
    exact ⟨_, hpairs, compare_side taskHex firstHex secondHex⟩
  let w₃ : World :=
    { w₂ with
      process := none
      reports := (compare sampleHost.os sampleScores "state" w₂.files.store
        state₂).toOption.toList ++ w₂.reports }
  have hstep₃ : (suiteSystem sampleHost sampleScores "state").step w₂ .compare w₃ :=
    ⟨{ state := state₂, index := 1, role := .baseline }, rfl, rfl, rfl⟩
  refine ⟨_, w₃, ((hrun.next hstep₁).next hstep₂).next hstep₃, rfl, ?_, ?_, ?_⟩
  · have hreports : w₃.reports = (compare sampleHost.os sampleScores "state" w₂.files.store
      state₂).toOption.toList ++ w₂.reports := rfl
    rw [hreports, hcompare]
    exact List.mem_cons_self
  · have hused₂ : w₃.used = Function.update w₁.used (sampleSurroundings 2 1).runId
        (some (lock.lockDigest, agentLock.lockDigest)) := rfl
    have hused₁ : w₁.used = Function.update w.used (sampleSurroundings 1 0).runId
        (some (lock.lockDigest, agentLock.lockDigest)) := rfl
    rw [← hfirstId, hused₂, Function.update_of_ne hne, hused₁, Function.update_self]
  · intro hguard hplanned
    have hlocks : ∀ (p : Process) (d : SuiteDirectory), p.index = 0 →
        d.taskLocks 0 = some (.ok lock) → d.lockOf p.role = some (.ok agentLock) →
        ∀ plan ∈ w.planned,
          carried TaskLock.lockDigest (d.taskLocks p.index) =
              carried TaskLock.lockDigest (plan.taskLocks p.index) ∧
            carried CandidateLock.lockDigest (d.lockOf p.role) =
              carried CandidateLock.lockDigest (plan.lockOf p.role) := by
      intro p d hindex hd hdrole plan hplan
      obtain ⟨hplanTask, hplanRole⟩ := hplanned plan hplan
      rw [hindex, hd, hdrole, hplanTask, hplanRole]
      exact ⟨rfl, rfl⟩
    rw [guarded_cons, guarded_cons, guarded_cons]
    refine ⟨fun env write hmember => (by cases hmember), ?_, ?_, hguard⟩
    · rintro env write - p hp d hd plan hplan
      obtain rfl := Option.some.inj hp
      obtain rfl := Option.some.inj hd
      exact hlocks process₂ directory₁ rfl htask (hside .candidate) plan hplan
    · rintro env write - p hp d hd plan hplan
      obtain rfl := Option.some.inj (hproc.symm.trans hp)
      obtain rfl := Option.some.inj (hdir.symm.trans hd)
      exact hlocks process₁ directory rfl htask (hside .baseline) plan hplan

theorem validate_baseline :
    ResultRecord.validate sampleHost.os baselineRecord "local-1-7-0" = .ok () :=
  @validate_side "local-1-7-0" "baseline" taskLockHex
    "3acd0861a5b31331f4a1f4c5657d72e61c4a9d678119974e8f9e13b50b11bc35"
    suiteDigests.baseline rfl (by decide) sampleEvaluated.taskLockDigest rfl

theorem validate_candidate :
    ResultRecord.validate sampleHost.os candidateRecord "local-2-7-1" = .ok () :=
  @validate_side "local-2-7-1" "candidate" taskLockHex
    "a527701059d376434f483c6a53146fae0ff0716a981de72bdedd697a0e20f1cd"
    suiteDigests.candidate rfl (by decide) sampleEvaluated.taskLockDigest rfl

theorem validate_edgeBaseline :
    ResultRecord.validate sampleHost.os edgeBaselineRecord "local-1-7-0" = .ok () :=
  @validate_side "local-1-7-0" "baseline" edgeTaskLockHex
    "765733c236e81b8f693d1f1b5f3bdc1731f83c43c9d6667531804e53680e58ce"
    suiteDigests.edgeBaseline rfl (by decide) sampleEvaluated.edgeTaskLockDigest rfl

theorem validate_edgeCandidate :
    ResultRecord.validate sampleHost.os edgeCandidateRecord "local-2-7-1" = .ok () :=
  @validate_side "local-2-7-1" "candidate" edgeTaskLockHex
    "756e6802ec84d21e9107271bc6893deb0194f62411cb4a59ac8ab293811fa568"
    suiteDigests.edgeCandidate rfl (by decide) sampleEvaluated.edgeTaskLockDigest rfl

/-- The sample state root before the suite is planned. -/
def unplannedWorld : World :=
  { files :=
      { root := sampleState
        store := { results := fun _ => none, journals := fun _ => none
                   eventLogs := fun _ => none } }
    directory := none
    process := none
    planned := none
    used := fun _ => none
    reports := [] }

def plannedWorld : World :=
  { unplannedWorld with
    directory := some sampleDirectory
    planned := some sampleDirectory
    process := some (start (plannedState sampleSpec "suite-1-7-0")) }

theorem run_planned : Run (suiteSystem sampleHost sampleScores "state")
    [(unplannedWorld, .plan (.ok sampleSource) "suite-1-7-0" (.ok sampleConfig) (.ok "docker"))]
    plannedWorld := by
  refine .next (.start ⟨rfl, rfl, rfl, rfl⟩) ⟨rfl, sampleSpec, sampleDirectory, _, _,
    loadSpec_sample, planSuite_sample, rfl⟩

theorem side_agentLock (role : Role) : sampleDirectory.lockOf role = some (.ok agentLock) := by
  cases role <;> rfl

end Sample

/-- In every run whose member steps find the planned lock digests, each reported
member run used the planned locks. -/
theorem reports_bound_of_locksAsPlanned (host : Host) (scores : Scores) (stateRoot : String)
    {h : List (World × Event)} {w : World} (hrun : Run (suiteSystem host scores stateRoot) h w)
    (hguard : Guarded LocksAsPlanned h) :
    ∀ plan ∈ w.planned, ∀ summary ∈ w.reports, BoundReport w plan summary :=
  (sound_of_locksAsPlanned hrun hguard).reports

theorem reports_bound_of_locksAsPlanned_sample :
    ∃ h w, Run (suiteSystem sampleHost sampleScores "state") h w ∧ Guarded LocksAsPlanned h ∧
      sampleDirectory ∈ w.planned ∧ sampleSummary taskLockHex ∈ w.reports ∧
      BoundReport w sampleDirectory (sampleSummary taskLockHex) := by
  obtain ⟨h, w, hrun, hplanned, hreport, _, hguard⟩ := sample_reports run_planned sampleLock_planned
    (by rfl) rfl rfl rfl rfl side_agentLock rfl (fun _ => rfl)
    validate_baseline validate_candidate
  have hguarded : Guarded LocksAsPlanned h := by
    refine hguard ?_ ?_
    · rw [guarded_cons]
      exact ⟨fun env write hmember => (by cases hmember), guarded_nil _⟩
    · intro plan hplan
      obtain rfl := Option.some.inj hplan
      exact ⟨rfl, side_agentLock⟩
  have hplan : sampleDirectory ∈ w.planned := by
    rw [hplanned]
    rfl
  exact ⟨h, w, hrun, hguarded, hplan, hreport, reports_bound_of_locksAsPlanned sampleHost
    sampleScores "state" hrun hguarded _ hplan _ hreport⟩

/-- Planned, interrupted, given another lock of the Task and resumed, the suite
reports runs of that lock. -/
theorem replaced_lock_is_reported :
    ¬ ∀ (h : List (World × Event)) (w : World),
      Run (suiteSystem sampleHost sampleScores "state") h w →
        ∀ plan ∈ w.planned, ∀ summary ∈ w.reports, BoundReport w plan summary := by
  intro hall
  let replaced : SuiteDirectory :=
    { sampleDirectory with
      taskLocks := Function.update sampleDirectory.taskLocks 0 (some (.ok edgeTaskLock)) }
  let interrupted : World := { plannedWorld with process := none }
  let edited : World := { interrupted with directory := some replaced }
  have hcrash : (suiteSystem sampleHost sampleScores "state").step plannedWorld .crash
      interrupted := rfl
  have hreplace : (suiteSystem sampleHost sampleScores "state").step interrupted
      (.replaceTask 0 edgeTaskLock) edited := by
    refine ⟨rfl, sampleDirectory, rfl, ?_, rfl⟩
    rw [show interrupted.files.root = sampleState from rfl, loadTask_edge]
    rfl
  have hstate : resumeState replaced "suite-1-7-0" sampleSpec =
      .ok (plannedState sampleSpec "suite-1-7-0") := by
    have hrunId : validateSuiteRunId "suite-1-7-0" = .ok () := by decide
    simp only [resumeState, Result.bind_ok_iff, Result.exists_unit_iff, Result.pure_ok_iff]
    refine ⟨hrunId, _, rfl, ?_, rfl⟩
    simp only [validateState, Result.bind_ok_iff, Result.exists_unit_iff, Result.ensure_ok_iff]
    exact ⟨rfl, rfl, ⟨rfl, rfl⟩, rfl, rfl⟩
  have hresume : (suiteSystem sampleHost sampleScores "state").step edited
      (.resume (.ok sampleSource))
      { edited with process := some (start (plannedState sampleSpec "suite-1-7-0")) } :=
    ⟨rfl, replaced, sampleSpec, _, rfl, loadSpec_sample, hstate, rfl⟩
  obtain ⟨h, w, hrun, hplanned, hreport, hused, _⟩ := sample_reports
    (((run_planned.next hcrash).next hreplace).next hresume) sampleLock_edge rfl rfl rfl rfl rfl
    side_agentLock rfl (fun _ => rfl)
    validate_edgeBaseline validate_edgeCandidate
  have hplan : sampleDirectory ∈ w.planned := by
    rw [hplanned]
    rfl
  obtain ⟨⟨task, _, _, hbound⟩, -⟩ := hall h w hrun sampleDirectory hplan _ hreport 0 _ rfl
  have htask : sampleTaskLock = task := by
    have hfile : sampleDirectory.taskLocks 0 = some (.ok sampleTaskLock) := rfl
    exact Except.ok.inj (Option.some.inj (hfile.symm.trans hbound.plannedTask))
  have hdigest : edgeTaskLock.lockDigest = sampleTaskLock.lockDigest := by
    rw [htask]
    exact congrArg Prod.fst (Option.some.inj (hused.symm.trans hbound.used))
  exact absurd hdigest (by decide)

end A3sBench.Suite
