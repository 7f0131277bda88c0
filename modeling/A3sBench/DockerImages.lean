import A3sBench.BenchRun
import A3sBench.LockBinding

/-!
# The images a Docker run uses

Every image reference that a run from locked inputs hands to `docker`, in the
order of the calls. A run that fails on the way has passed the first of them.
-/

namespace A3sBench.BenchRun

open Asset (LocalAssetPackage)
open RunInput (LoadedRun)

inductive ImageRole where
  | workspace
  | candidate
  /-- The network sidecar of a Codex Candidate. -/
  | proxy
  | judge
  deriving DecidableEq

structure ImageUse where
  role : ImageRole
  reference : String
  deriving DecidableEq

/-- What a run with the Docker provider meets. -/
structure DockerHost where
  /-- The Task root has a directory `public/workspace`. -/
  embeddedWorkspace : Bool
  /-- `docker image inspect` finds the seed image. -/
  seedPresent : Bool
  seedCached : Bool
  /-- The commands a model-backed Candidate runs. -/
  toolCalls : Nat
  /-- The Task root has a directory `private/bundle`. -/
  hiddenBundle : Bool

/-- `PROXY_HELPER_IMAGE`. -/
def proxyHelperImage : String :=
  "python@sha256:6d43704baacd1bfbe7c295d7f13079d5d8104ed33568873133f8fc69980419df"

/-- The image `execute_docker_judge` names. -/
def dockerJudgeImage : String := "python:3.12-alpine"

/-- A stage of the run: what it uses and whether the next stage may follow. -/
abbrev Stage := List ImageUse × Bool

def stageImages : List Stage → List ImageUse
  | [] => []
  | (uses, true) :: stages => uses ++ stageImages stages
  | (uses, false) :: _ => uses

def isGame (task : TaskInfo) : Bool := task.legacyJudge.any (fun source => source.mode = "game_server")

def startGame (task : TaskInfo) : Stage :=
  match task.legacyJudge with
  | some source =>
    (if source.mode = "game_server" then [⟨.judge, source.image⟩] else [], true)
  | none => ([], true)

/-- `materialize_seed`: the inspections, the pull and the container that is copied. -/
def materializeSeed (docker : DockerHost) (seed : WorkspaceSeed) : List ImageUse :=
  [⟨.workspace, seed.image⟩] ++ (if docker.seedPresent then [] else [⟨.workspace, seed.image⟩]) ++
    [⟨.workspace, seed.image⟩] ++ (if docker.seedCached then [] else [⟨.workspace, seed.image⟩])

/-- `workspace::create`. -/
def createWorkspace (docker : DockerHost) (task : TaskInfo) : Stage :=
  if docker.embeddedWorkspace then ([], true)
  else
    match task.workspaceSeed with
    | some seed => (materializeSeed docker seed, true)
    | none => ([], false)

def requiresHostWorkspace (docker : DockerHost) (task : TaskInfo) : Bool :=
  docker.embeddedWorkspace || task.workspaceSeed.all (fun seed => seed.image ≠ task.workImage)

def prepareWorkspace (docker : DockerHost) (loaded : LoadedRun) (task : TaskInfo) : Stage :=
  if loaded.candidate.protocol = .codexExec then
    if requiresHostWorkspace docker task then createWorkspace docker task else ([], true)
  else createWorkspace docker task

def prepareWorkspaceImports (task : TaskInfo) : Stage :=
  (task.workWorkspaceImports.map (fun _ => ⟨.workspace, task.workImage⟩), true)

/-- The helper inspection, the staging container, the Candidate, its proxy and the
inventory of its workspace. -/
def codexImages (task : TaskInfo) : List ImageUse :=
  let restricted := task.workNetworkNeed = "none" ∨ task.workNetworkNeed = "restricted_https"
  (if restricted then [⟨.proxy, proxyHelperImage⟩] else []) ++
    [⟨.candidate, task.workImage⟩, ⟨.candidate, task.workImage⟩] ++
    (if restricted then [⟨.proxy, proxyHelperImage⟩] else []) ++ [⟨.candidate, task.workImage⟩]

/-- `execute_candidate`. -/
def candidateImages (docker : DockerHost) (loaded : LoadedRun) (task : TaskInfo) : Stage :=
  match loaded.candidate.protocol with
  | .a3sCodeExec => ([], !isGame task)
  | .codexExec => if loaded.codexPackage.isSome then (codexImages task, true) else ([], false)
  | .agentTool =>
    match loaded.model with
    | none => if isGame task then ([], false) else ([⟨.candidate, task.workImage⟩], true)
    | some _ => (List.replicate docker.toolCalls ⟨.candidate, task.workImage⟩, true)

/-- What `execute_docker_judge` asks of the entrypoint. -/
def isJudgeEntrypoint (entrypoint : String) : Bool :=
  let file := entrypoint.toList.takeWhile (· ≠ ':')
  let rest := entrypoint.toList.dropWhile (· ≠ ':')
  let function := rest.drop 1
  rest ≠ [] && decide (".py".toList <:+ file) && file.head? ≠ some '/' &&
    decide (¬['.', '.'] <:+: file) && function ≠ [] &&
    function.all (fun c => Text.isAsciiAlphanumeric c || c = '_')

/-- `execute_judge`; a game is scored in the container that runs it. -/
def judgeImages (docker : DockerHost) (loaded : LoadedRun) (task : TaskInfo) : Stage :=
  match task.legacyJudge with
  | some source =>
    (if source.mode = "game_server" then [] else [⟨.judge, source.image⟩], true)
  | none =>
    if docker.hiddenBundle && isJudgeEntrypoint loaded.judge.entrypoint then
      ([⟨.judge, dockerJudgeImage⟩], true)
    else ([], false)

/-- The stages before the Judge, of the Task with its images resolved. -/
def stagesBeforeJudge (docker : DockerHost) (loaded : LoadedRun) (task : TaskInfo) : List Stage :=
  [startGame task, prepareWorkspace docker loaded task, prepareWorkspaceImports task,
    candidateImages docker loaded task]

def runImages (docker : DockerHost) (loaded : LoadedRun) (task : TaskInfo) : List ImageUse :=
  stageImages (stagesBeforeJudge docker loaded task ++ [judgeImages docker loaded task])

/-- The run gets as far as `docker run` of the Judge Asset. -/
def startsDockerJudge (docker : DockerHost) (loaded : LoadedRun) (task : TaskInfo) : Bool :=
  (stagesBeforeJudge docker loaded task).all Prod.snd && docker.hiddenBundle &&
    isJudgeEntrypoint loaded.judge.entrypoint

/-- The workspace, the Candidate and the Judge only use values of the lock. -/
def LockBound (images : StringMap) (uses : List ImageUse) : Prop :=
  ∀ use ∈ uses, use.role ≠ .proxy → ∃ key, images.get key = some use.reference

theorem lockBound_append {images : StringMap} {uses uses' : List ImageUse} :
    LockBound images (uses ++ uses') ↔ LockBound images uses ∧ LockBound images uses' :=
  List.forall_mem_append

theorem lockBound_nil (images : StringMap) : LockBound images [] := by
  simp [LockBound]

theorem lockBound_of_references {images : StringMap} {uses : List ImageUse} {reference : String}
    (hreference : ∃ key, images.get key = some reference)
    (huses : ∀ use ∈ uses, use.role ≠ .proxy → use.reference = reference) :
    LockBound images uses := by
  intro use huse hrole
  rw [huses use huse hrole]
  exact hreference

/-- What the rewritten references of a Task are. -/
structure ImagesBound (images : StringMap) (task : TaskInfo) : Prop where
  work : ∃ key, images.get key = some task.workImage
  seed : ∀ seed ∈ task.workspaceSeed, ∃ key, images.get key = some seed.image
  judge : ∀ judge ∈ task.legacyJudge, ∃ key, images.get key = some judge.image

theorem get_of_resolveImage {images : StringMap} {reference image : String}
    {platform : Option String} (h : resolveImage images reference platform = .ok image) :
    ∃ key, images.get key = some image := ⟨_, Result.okOr_ok_iff.mp h⟩

theorem optionMapM_ok_iff {α β : Type} {f : α → Result β} {o : Option α} {o' : Option β} :
    o.mapM f = .ok o' ↔
      (o = none ∧ o' = none) ∨ ∃ a b, o = some a ∧ f a = .ok b ∧ o' = some b := by
  cases o with
  | none =>
      rw [Option.mapM_none, Result.pure_ok_iff]
      simp [eq_comm]
  | some a =>
      rw [Option.mapM_some, Result.map_ok_iff]
      simp [eq_comm]

theorem imagesBound_of_resolveTaskImages {images : StringMap} {task resolved : TaskInfo}
    (h : resolveTaskImages task images = .ok resolved) :
    ImagesBound images resolved ∧ (resolved.legacyJudge = none ↔ task.legacyJudge = none) := by
  simp only [resolveTaskImages, Result.bind_ok_iff, Result.pure_ok_iff, optionMapM_ok_iff] at h
  obtain ⟨image, himage, seed, hseed, judge, hjudge, rfl⟩ := h
  refine ⟨⟨get_of_resolveImage himage, ?_, ?_⟩, ?_⟩
  · rintro resolved hresolved
    rcases hseed with ⟨_, rfl⟩ | ⟨old, new, _, ⟨image, himage, rfl⟩, rfl⟩
    · cases hresolved
    · obtain rfl := Option.some.inj hresolved
      exact get_of_resolveImage himage
  · rintro resolved hresolved
    rcases hjudge with ⟨_, rfl⟩ | ⟨old, new, _, ⟨image, himage, rfl⟩, rfl⟩
    · cases hresolved
    · obtain rfl := Option.some.inj hresolved
      exact get_of_resolveImage himage
  · rcases hjudge with ⟨hnone, rfl⟩ | ⟨old, new, hsome, _, rfl⟩
    · simp [hnone]
    · simp [hsome]

/-! ## The stages -/

theorem stageImages_concat (stages : List Stage) (last : Stage) :
    stageImages (stages ++ [last]) =
      stageImages stages ++ if stages.all Prod.snd then last.1 else [] := by
  induction stages with
  | nil =>
      obtain ⟨uses, follows⟩ := last
      cases follows <;> simp [stageImages]
  | cons stage stages ih =>
      obtain ⟨uses, follows⟩ := stage
      cases follows with
      | true =>
          simp only [List.cons_append, stageImages, ih, List.append_assoc, List.all_cons,
            Bool.true_and]
      | false => simp [stageImages]

theorem lockBound_stageImages {images : StringMap} {stages : List Stage}
    (h : ∀ stage ∈ stages, LockBound images stage.1) : LockBound images (stageImages stages) := by
  induction stages with
  | nil => exact lockBound_nil images
  | cons stage stages ih =>
      obtain ⟨hstage, hstages⟩ := List.forall_mem_cons.mp h
      obtain ⟨uses, follows⟩ := stage
      cases follows with
      | true => exact lockBound_append.mpr ⟨hstage, ih hstages⟩
      | false => exact hstage

section Stages

variable {images : StringMap} {docker : DockerHost} {loaded : LoadedRun} {task : TaskInfo}

theorem lockBound_startGame (h : ImagesBound images task) : LockBound images (startGame task).1 := by
  unfold startGame
  split
  · rename_i source hsource
    split_ifs
    · exact lockBound_of_references (h.judge source hsource) (by simp)
    · exact lockBound_nil images
  · exact lockBound_nil images

theorem lockBound_createWorkspace (h : ImagesBound images task) :
    LockBound images (createWorkspace docker task).1 := by
  unfold createWorkspace
  split_ifs
  · exact lockBound_nil images
  · split
    · rename_i seed hseed
      refine lockBound_of_references (h.seed seed hseed) ?_
      unfold materializeSeed
      split_ifs <;> simp
    · exact lockBound_nil images

theorem lockBound_prepareWorkspace (h : ImagesBound images task) :
    LockBound images (prepareWorkspace docker loaded task).1 := by
  unfold prepareWorkspace
  split_ifs
  · exact lockBound_createWorkspace h
  · exact lockBound_nil images
  · exact lockBound_createWorkspace h

theorem lockBound_candidateImages (h : ImagesBound images task) :
    LockBound images (candidateImages docker loaded task).1 := by
  unfold candidateImages
  split
  · exact lockBound_nil images
  · split_ifs
    · refine lockBound_of_references h.work ?_
      unfold codexImages
      dsimp only
      split_ifs <;> simp
    · exact lockBound_nil images
  · split
    · split_ifs
      · exact lockBound_nil images
      · exact lockBound_of_references h.work (by simp)
    · exact lockBound_of_references h.work (by simp)

theorem lockBound_beforeJudge (h : ImagesBound images task) :
    LockBound images (stageImages (stagesBeforeJudge docker loaded task)) := by
  refine lockBound_stageImages ?_
  simp only [stagesBeforeJudge, List.forall_mem_cons, List.not_mem_nil, false_imp_iff,
    implies_true, and_true]
  refine ⟨lockBound_startGame h, lockBound_prepareWorkspace h, ?_, lockBound_candidateImages h⟩
  exact lockBound_of_references h.work (by simp [prepareWorkspaceImports])

theorem lockBound_judgeImages_iff (h : ImagesBound images task) :
    LockBound images (judgeImages docker loaded task).1 ↔
      task.legacyJudge ≠ none ∨
        (docker.hiddenBundle && isJudgeEntrypoint loaded.judge.entrypoint) = false ∨
          ∃ key, images.get key = some dockerJudgeImage := by
  unfold judgeImages
  cases hsource : task.legacyJudge with
  | some source =>
      have hbound : LockBound images
          (if source.mode = "game_server" then [] else [⟨.judge, source.image⟩]) := by
        split_ifs
        · exact lockBound_nil images
        · exact lockBound_of_references (h.judge source hsource) (by simp)
      simpa using hbound
  | none =>
      cases hstarts : docker.hiddenBundle && isJudgeEntrypoint loaded.judge.entrypoint with
      | true => simp [LockBound]
      | false => simp [LockBound]

end Stages

theorem resolvedImages_of_loadLocks {host : Lock.Host} {taskFile : Lock.LockFile TaskLock}
    {candidateFile : Lock.LockFile CandidateLock} {state state' : Lock.StateRoot}
    {loaded : LoadedRun}
    (h : RunInput.loadLocks host taskFile candidateFile state = .ok (loaded, state')) :
    ∃ lock, taskFile = some (.ok lock) ∧ loaded.resolvedImages = lock.resolvedImages := by
  simp only [RunInput.loadLocks, Result.bind_ok_iff, Result.pure_ok_iff, Prod.mk.injEq] at h
  obtain ⟨lockedTask, htask, _, _, _, _, _, _, _, _, _, _, rfl, _⟩ := h
  obtain ⟨value, hvalue, hrest⟩ := Result.bind_ok_iff.mp htask
  refine ⟨value, ?_, ?_⟩
  · unfold Lock.readLockFile at hvalue
    split at hvalue
    · cases hvalue
    · rw [hvalue]
  · simp only [Result.bind_ok_iff, Result.exists_unit_iff, Result.pure_ok_iff] at hrest
    obtain ⟨_, _, _, _, _, _, _, _, _, _, _, _, _, rfl⟩ := hrest
    rfl

/-- Every run from an accepted lock only uses images the lock binds, where no
Judge Asset is run or the lock happens to bind the image it is run in. -/
theorem lockBound_iff {host : Lock.Host} {taskFile : Lock.LockFile TaskLock}
    {candidateFile : Lock.LockFile CandidateLock} {state state' : Lock.StateRoot}
    {loaded : LoadedRun} {task : TaskInfo} (docker : DockerHost)
    (hload : RunInput.loadLocks host taskFile candidateFile state = .ok (loaded, state'))
    (htask : resolveTaskImages loaded.task loaded.resolvedImages = .ok task) :
    (∃ lock, taskFile = some (.ok lock) ∧ loaded.resolvedImages = lock.resolvedImages) ∧
      ((∀ passed, passed <+: runImages docker loaded task →
          LockBound loaded.resolvedImages passed) ↔
        loaded.task.legacyJudge ≠ none ∨ startsDockerJudge docker loaded task = false ∨
          ∃ key, loaded.resolvedImages.get key = some dockerJudgeImage) := by
  obtain ⟨hbound, hlegacy⟩ := imagesBound_of_resolveTaskImages htask
  refine ⟨resolvedImages_of_loadLocks hload, ?_⟩
  -- the whole run decides, as a part of it uses no more
  have hwhole : (∀ passed, passed <+: runImages docker loaded task →
      LockBound loaded.resolvedImages passed) ↔
        LockBound loaded.resolvedImages (runImages docker loaded task) :=
    ⟨fun h => h _ List.prefix_rfl, fun h passed hpassed use huse => h use (hpassed.subset huse)⟩
  rw [hwhole, runImages, stageImages_concat, lockBound_append,
    and_iff_right (lockBound_beforeJudge hbound), ne_eq, ← hlegacy, startsDockerJudge,
    Bool.and_assoc, Bool.and_eq_false_iff]
  cases hreached : (stagesBeforeJudge docker loaded task).all Prod.snd with
  | true =>
      rw [if_pos rfl, lockBound_judgeImages_iff hbound]
      simp
  | false =>
      rw [if_neg (by simp)]
      simp [lockBound_nil]

/-! ### A locked Task with a Judge Asset -/

section Judged

open Lock
open TaskSnapshot (snapshotStream)

def plainFile (name : String) (h : utf8 name ≠ [] ∧ 0 ∉ utf8 name ∧ separator ∉ utf8 name)
    (content : String) (rest : Directory) : Directory :=
  .file (fileNamed name h) { content := utf8 content, executable := false, links := 1 } rest

def judgedTaskTree : Directory :=
  .directory (fileNamed "private" (by decide))
    (.directory (fileNamed "bundle" (by decide))
      (plainFile "expected.txt" (by decide) "1\n" .empty) .empty)
    (.directory (fileNamed "public" (by decide))
      (.directory (fileNamed "workspace" (by decide))
        (plainFile "answer.txt" (by decide) "0\n" .empty) .empty)
      sampleTaskTree)

def judgeManifest : String :=
  "version = \"a3s.asset.v1\"\ncategory = \"agent\"\n" ++
    "source \x7b entrypoint = \"judge.py:evaluate\" \x7d\n"

def judgeTree : Directory :=
  .directory (fileNamed ".a3s" assetDirectory_valid)
    (plainFile "asset.acl" assetManifest_valid judgeManifest .empty)
    (plainFile "judge.py" (by decide) "def evaluate(request):\n    ...\n" .empty)

def judgedTaskHex : String := "26b591a232687e24e73f82aef67b76e3fd7f5ceb18183d307e6170c9375a98a1"

def judgeHex : String := "bba47266dc18d7171ea938d2875f8c916eb17c99d626c41eaa182233e8d13f0c"

def judgedLockHex : String := "3c82100b519e9e2db9b094221e4e2cdb7a591473875440a38cf222ad8682b6a7"

def judgedTaskLock : TaskLock :=
  { sampleTaskLock with
    lockDigest := "sha256:" ++ judgedLockHex
    taskRevision := "sha256:" ++ judgedTaskHex
    artifactDigest := "sha256:" ++ judgedTaskHex
    judgeRevision := "sha256:" ++ judgeHex
    judgeArtifactDigest := "sha256:" ++ judgeHex }

def judgedTaskStream : Bytes :=
  utf8 "private/bundle/expected.txt" ++ [0, 0, 0] ++ utf8 "1\n" ++ [0] ++
    (utf8 "public/workspace/answer.txt" ++ [0, 0, 0] ++ utf8 "0\n" ++ [0] ++
      (utf8 "task.acl" ++ [0, 0, 0] ++ sampleTaskSource ++ [0]))

def judgeStream : Bytes :=
  utf8 ".a3s/asset.acl" ++ [0, 0, 0] ++ utf8 judgeManifest ++ [0] ++
    (utf8 "judge.py" ++ [0, 0, 0] ++ utf8 "def evaluate(request):\n    ...\n" ++ [0])

def judgePackage : LocalAssetPackage :=
  { root := judgeTree, entrypoint := "judge.py:evaluate", definitionPath := none
    identity := "sha256:" ++ judgeHex, protocol := .agentTool }

/-- SHA-256 on the inputs of the samples. -/
def judgedSha256 (input : Bytes) : String :=
  if input = judgedTaskStream then judgedTaskHex
  else if input = judgeStream then judgeHex
  else if input = (LockIdentity.taskIdentity judgedTaskLock).toVec then judgedLockHex
  else sampleSha256 input

def judgedHost : Host :=
  { sampleHost with
    os := Platform.ascii judgedSha256
    parseAcl := fun source =>
      if source = utf8 judgeManifest then
        .ok (assetDocument [.mk "source" [] [("entrypoint", .string "judge.py:evaluate")] []])
      else sampleHost.parseAcl source
    loadLocalTask := fun root =>
      if root = judgedTaskTree then .ok sampleTask else sampleHost.loadLocalTask root }

def judgedState : StateRoot :=
  { sampleState with
    artifacts := fun name =>
      if name = judgedTaskHex.toList then some judgedTaskTree
      else if name = judgeHex.toList then some judgeTree
      else sampleArtifacts name }

def judgedRun : LoadedRun :=
  { task := sampleTask, candidate := agentPackage, judge := judgePackage, judgeModel := none
    model := none, reasoningEffort := none, codexPackage := none
    resolvedImages := judgedTaskLock.resolvedImages, taskLockSchema := judgedTaskLock.schema
    taskLockResources := none, taskLockDigest := judgedTaskLock.lockDigest
    candidateLockDigest := agentLock.lockDigest }

def judgedDocker : DockerHost :=
  { embeddedWorkspace := true, seedPresent := false, seedCached := false, toolCalls := 0
    hiddenBundle := true }

set_option maxRecDepth 20000

/-- What the host of the sample computes, evaluated at one place. -/
structure JudgedEvaluated : Prop where
  taskStream : snapshotStream judgedHost.os judgedTaskTree = .ok judgedTaskStream
  judgeStream : snapshotStream judgedHost.os judgeTree = .ok BenchRun.judgeStream
  agentStream : snapshotStream judgedHost.os (assetTree agentSource) = .ok (assetStream agentSource)
  judge : judgedSha256 BenchRun.judgeStream = judgeHex
  lock : judgedSha256 (LockIdentity.taskIdentity judgedTaskLock).toVec = judgedLockHex
  agent : judgedSha256 (assetStream agentSource) = agentHex
  agentLock : judgedSha256 (LockIdentity.candidateIdentity Lock.agentLock).toVec = agentLockHex
  hex : judgedTaskHex.toList.length = 64 ∧ judgedTaskHex.toList.all Text.isHexDigit = true
  judgeHex : BenchRun.judgeHex.toList.length = 64 ∧
    BenchRun.judgeHex.toList.all Text.isHexDigit = true
  lockDigest : LockIdentity.validateDigest ("sha256:" ++ judgedLockHex) = .ok ()
  revision : Text.isBlank judgedTaskLock.judgeRevision = false
  judgeStored : judgedState.artifacts BenchRun.judgeHex.toList = some judgeTree
  agentStored : judgedState.artifacts Lock.agentHex.toList = some (assetTree agentSource)
  judgeLoaded : Asset.loadLocal judgedHost.os judgedHost.parseAcl (some judgeTree) = .ok judgePackage
  agentLoaded : Asset.loadLocal judgedHost.os judgedHost.parseAcl (some (assetTree agentSource)) =
    .ok agentPackage

theorem judgedSha256_of_ne {input : Bytes} (htask : input ≠ judgedTaskStream)
    (hjudge : input ≠ judgeStream)
    (hlock : input ≠ (LockIdentity.taskIdentity judgedTaskLock).toVec) :
    judgedSha256 input = sampleSha256 input := by
  rw [judgedSha256, if_neg htask, if_neg hjudge, if_neg hlock]

theorem judgedEvaluated : JudgedEvaluated where
  taskStream := by decide +kernel
  judgeStream := by decide +kernel
  agentStream := by decide +kernel
  judge := by
    rw [judgedSha256, if_neg (by decide +kernel), if_pos rfl]
  lock := by
    rw [judgedSha256, if_neg (by decide +kernel), if_neg (by decide +kernel), if_pos rfl]
  agent := by
    rw [judgedSha256_of_ne (by decide +kernel) (by decide +kernel) (by decide +kernel)]
    exact sampleEvaluated.agent
  agentLock := by
    rw [judgedSha256_of_ne (by decide +kernel) (by decide +kernel) (by decide +kernel)]
    exact sampleEvaluated.agentLock
  hex := by decide +kernel
  judgeHex := by decide +kernel
  lockDigest := by decide +kernel
  revision := by decide +kernel
  judgeStored := by decide +kernel
  agentStored := by decide +kernel
  judgeLoaded := by decide +kernel
  agentLoaded := by decide +kernel

theorem judgedHost_sha256 : judgedHost.os.sha256 = judgedSha256 := rfl

/-- An artifact of the sample is found under the digest of its stream. -/
theorem lockedArtifact_judged {root : Directory} {stream : Bytes} {hex unavailable : String}
    (hstored : judgedState.artifacts hex.toList = some root)
    (hstream : snapshotStream judgedHost.os root = .ok stream) (hsha : judgedSha256 stream = hex)
    (hhex : hex.toList.length = 64 ∧ hex.toList.all Text.isHexDigit = true) :
    lockedArtifact judgedHost ("sha256:" ++ hex) unavailable judgedState = .ok root := by
  have hverify := TaskSnapshot.verify_of_snapshotStream hstream
  rw [judgedHost_sha256, hsha] at hverify
  simp only [lockedArtifact, Result.bind_ok_iff, Result.context_ok_iff, Result.exists_unit_iff]
  refine ⟨_, artifactPath_sha256 hhex, ?_⟩
  rw [hstored]
  exact ⟨hverify, rfl⟩

theorem loadTask_judged : loadTask judgedHost (some (.ok judgedTaskLock)) judgedState =
    .ok { lock := judgedTaskLock, taskArtifact := judgedTaskTree, judgeArtifact := judgeTree } := by
  simp only [loadTask, Result.bind_ok_iff, Result.context_ok_iff, Result.exists_unit_iff,
    Result.ensure_ok_iff, Result.pure_ok_iff]
  have hdigest : LockIdentity.task judgedHost.os judgedTaskLock = "sha256:" ++ judgedLockHex := by
    rw [LockIdentity.task, Platform.digest, judgedHost_sha256, judgedEvaluated.lock]
  have hcheck : checkTaskLock judgedHost judgedTaskLock = .ok () := by
    simp only [checkTaskLock, Result.bind_ok_iff, Result.exists_unit_iff, Result.ensure_ok_iff,
      hdigest]
    exact ⟨.inl rfl, judgedEvaluated.lockDigest, rfl, rfl, judgedEvaluated.revision⟩
  have htask : judgedHost.loadLocalTask judgedTaskTree = .ok sampleTask := by
    simp only [judgedHost, ↓reduceIte]
  have hstored : judgedState.artifacts judgedTaskHex.toList = some judgedTaskTree := by
    simp only [judgedState, ↓reduceIte]
  have hartifact : ∀ unavailable, lockedArtifact judgedHost ("sha256:" ++ judgedTaskHex)
      unavailable judgedState = .ok judgedTaskTree := fun _ =>
    lockedArtifact_judged hstored judgedEvaluated.taskStream (if_pos rfl) judgedEvaluated.hex
  have hjudge : ∀ unavailable, lockedArtifact judgedHost ("sha256:" ++ judgeHex)
      unavailable judgedState = .ok judgeTree := fun _ =>
    lockedArtifact_judged judgedEvaluated.judgeStored judgedEvaluated.judgeStream
      judgedEvaluated.judge judgedEvaluated.judgeHex
  exact ⟨_, rfl, hcheck, _, hartifact _, sampleTask, htask, rfl, rfl, rfl, _, hjudge _, _,
    judgedEvaluated.judgeLoaded, rfl, rfl⟩

theorem loadLocks_judged : RunInput.loadLocks judgedHost (some (.ok judgedTaskLock))
    (some (.ok agentLock)) judgedState = .ok (judgedRun, judgedState) := by
  have hartifact : ∀ unavailable, lockedArtifact judgedHost ("sha256:" ++ agentHex) unavailable
      judgedState = .ok (assetTree agentSource) := fun _ =>
    lockedArtifact_judged judgedEvaluated.agentStored judgedEvaluated.agentStream
      judgedEvaluated.agent sampleEvaluated.agentHex
  have hdigest : LockIdentity.candidate judgedHost.os agentLock = "sha256:" ++ agentLockHex := by
    rw [LockIdentity.candidate, Platform.digest, judgedHost_sha256, judgedEvaluated.agentLock]
  have hcandidate : loadCandidate judgedHost (some (.ok agentLock)) judgedState =
      .ok ((agentLock, assetTree agentSource), judgedState) := by
    simp only [loadCandidate, Result.bind_ok_iff, Result.context_ok_iff, Result.exists_unit_iff,
      Result.ensure_ok_iff, Result.pure_ok_iff]
    refine ⟨agentLock, rfl, ?_, _, hartifact _, _, judgedEvaluated.agentLoaded, rfl, judgedState,
      rfl, rfl⟩
    simp only [checkCandidateLock, Result.bind_ok_iff, Result.exists_unit_iff, Result.ensure_ok_iff]
    exact ⟨.inl rfl, sampleEvaluated.agentLockDigest, hdigest, by decide,
      sampleEvaluated.agentLockFields⟩
  have htask : judgedHost.loadLocalTask judgedTaskTree = .ok sampleTask := by
    simp only [judgedHost, ↓reduceIte]
  simp only [RunInput.loadLocks, loadTask_judged, hcandidate, htask, judgedEvaluated.judgeLoaded,
    judgedEvaluated.agentLoaded, Result.bind_ok_iff, Result.pure_ok_iff, Except.ok.injEq,
    exists_eq_left']
  exact ⟨_, rfl, rfl⟩

theorem resolveTaskImages_judged :
    resolveTaskImages judgedRun.task judgedRun.resolvedImages =
      .ok { sampleTask with workImage := alpineImage } := by
  decide

/-- The run of the sample, up to the Judge. -/
theorem lockBound_iff_judged :
    (∃ lock, some (.ok judgedTaskLock) = some (Except.ok lock : Result TaskLock) ∧
        judgedRun.resolvedImages = lock.resolvedImages) ∧
      ((∀ passed, passed <+: [⟨.candidate, alpineImage⟩, ⟨.judge, dockerJudgeImage⟩] →
          LockBound judgedRun.resolvedImages passed) ↔
        sampleTask.legacyJudge ≠ none ∨
          startsDockerJudge judgedDocker judgedRun { sampleTask with workImage := alpineImage } =
            false ∨
          ∃ key, judgedRun.resolvedImages.get key = some dockerJudgeImage) :=
  lockBound_iff judgedDocker loadLocks_judged resolveTaskImages_judged

/-- The Judge Asset runs in an image the lock does not name. -/
theorem judge_image_unlocked :
    ¬∀ (host : Host) (taskFile : LockFile TaskLock) (candidateFile : LockFile CandidateLock)
        (state state' : StateRoot) (loaded : LoadedRun) (task : TaskInfo) (docker : DockerHost)
        (passed : List ImageUse),
      RunInput.loadLocks host taskFile candidateFile state = .ok (loaded, state') →
      resolveTaskImages loaded.task loaded.resolvedImages = .ok task →
      passed <+: runImages docker loaded task → LockBound loaded.resolvedImages passed := by
  intro hclaim
  have hbound := hclaim _ _ _ _ _ _ _ judgedDocker _ loadLocks_judged resolveTaskImages_judged
    List.prefix_rfl
  obtain ⟨key, hkey⟩ := hbound ⟨.judge, dockerJudgeImage⟩ (by decide) (by decide)
  change List.lookup key [("native|alpine", alpineImage)] = some dockerJudgeImage at hkey
  rw [List.lookup_cons] at hkey
  split at hkey
  · exact absurd (Option.some.inj hkey) (by decide)
  · cases hkey

end Judged

end A3sBench.BenchRun
