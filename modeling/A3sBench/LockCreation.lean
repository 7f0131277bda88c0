import A3sBench.Library.Action
import A3sBench.PathComponents
import A3sBench.SuiteReports

/-!
# The creation of a lock file

The creation of a lock takes many steps that may fail before `write_exclusive`
makes the file, and `write_exclusive` takes more of them afterwards. What a step
has done stays when a later one fails.
-/

namespace A3sBench

/-! ## Pretty JSON -/

namespace Json

/-- A new line of `PrettyFormatter`. -/
def newline (depth : Nat) : List Char := '\n' :: List.replicate (2 * depth) ' '

mutual

def pretty (depth : Nat) : Json → List Char
  | .null => "null".toList
  | .bool value => (toString value).toList
  | .number value => numberText value
  | .string value => quoted value
  | .array items =>
    '[' :: (prettyItems (depth + 1) items ++ (if items.isEmpty then [] else newline depth) ++ [']'])
  | .object members =>
    '\x7b' :: (prettyMembers (depth + 1) members ++
      (if members.isEmpty then [] else newline depth) ++ ['\x7d'])

def prettyItems (depth : Nat) : List Json → List Char
  | [] => []
  | [item] => newline depth ++ pretty depth item
  | item :: rest => newline depth ++ pretty depth item ++ ',' :: prettyItems depth rest

def prettyMembers (depth : Nat) : List (String × Json) → List Char
  | [] => []
  | [(name, value)] => newline depth ++ quoted name ++ ':' :: ' ' :: pretty depth value
  | (name, value) :: rest =>
    newline depth ++ quoted name ++ ':' :: ' ' :: (pretty depth value ++
      ',' :: prettyMembers depth rest)

end

/-- `serde_json::to_vec_pretty`. -/
def toVecPretty (value : Json) : Bytes := utf8Chars (pretty 0 value)

end Json

namespace LockCreation

open Library Library.Action
open Lock (Host StateRoot)
open LockIdentity (importsJson mapJson productJson resourcesJson stringsJson)
open TaskSnapshot (artifactPath capture)

/-- The `Serialize` of a TaskLock. -/
def taskLockJson (value : TaskLock) : Json :=
  .object ([("schema", .string value.schema), ("lock_digest", .string value.lockDigest),
    ("task_revision", .string value.taskRevision),
    ("artifact_digest", .string value.artifactDigest),
    ("judge_revision", .string value.judgeRevision),
    ("judge_artifact_digest", .string value.judgeArtifactDigest),
    ("judge_model", Json.nullable .string value.judgeModel),
    ("resolved_images", mapJson value.resolvedImages)] ++
    Json.skipNone "resources" resourcesJson value.resources ++
    Json.skipNone "workspace_imports" importsJson value.workspaceImports ++
    Json.skipNone "network_allow_hosts" stringsJson value.networkAllowHosts)

/-- The `Serialize` of a CandidateLock. -/
def candidateLockJson (value : CandidateLock) : Json :=
  .object ([("schema", .string value.schema), ("lock_digest", .string value.lockDigest),
    ("candidate_revision", .string value.candidateRevision),
    ("artifact_digest", .string value.artifactDigest),
    ("model", Json.nullable .string value.model)] ++
    Json.skipNone "reasoning_effort" .string value.reasoningEffort ++
    Json.skipNone "product" productJson value.product)

/-! ## What may fail -/

/-- The steps before the file that do more than check a value. -/
inductive Stage where
  | resolve
  | capture
  | artifactPath
  | load
  | resolveJudge
  | captureJudge
  | judgePath
  | loadJudge
  | images
  | product
  | identity
  | serialize

/-- A stage may fail without its effect or with it. -/
inductive StageFault where
  | before (error : String)
  | after (error : String)

/-- What goes wrong outside of the process. -/
structure Faults where
  stage : Stage → Option StageFault
  /-- `create_new`, where nothing is in the way. -/
  create : Option String
  /-- `write_all` of the lock: how many bytes get out, and the error. -/
  write : Option (Nat × String)
  /-- `write_all` of the line end. -/
  newline : Option String
  sync : Option String
  /-- `File::open` of a parent, where the path is not empty. -/
  openParent : Option String
  syncParent : Option String

def Faults.none : Faults where
  stage _ := .none
  create := .none
  write := .none
  newline := .none
  sync := .none
  openParent := .none
  syncParent := .none

/-- Where a lock is to be written. -/
structure Output where
  path : Bytes
  display : String
  unix : Bool
  /-- Whether something inside the state root lies at the path. -/
  occupied : StateRoot → Bool

/-- `Path::parent`. -/
def parent (path : Bytes) : Option (List Component) :=
  match (components path).getLast? with
  | none | some .rootDir => none
  | some _ => some (components path).dropLast

/-- The state root, and the file that was made at the output path. -/
structure World where
  state : StateRoot
  file : Option Bytes

/-- `Path::exists` of the output path. -/
def Output.present (output : Output) (w : World) : Bool :=
  output.occupied w.state || w.file.isSome

section Steps

variable {σ α : Type}

def stage (fault : Option StageFault) (x : Action σ String α) : Action σ String α := fun s =>
  match fault with
  | none => x s
  | some (.before error) => (s, .error error)
  | some (.after error) => ((x s).1, .error error)

/-- A step that reads the state. -/
def inspect (f : σ → Result α) : Action σ String α := commit (fun s => do
  let a ← f s
  pure (a, s))

/-- A step on the state root. -/
def onState (x : Action StateRoot String α) : Action World String α := fun w =>
  ({ w with state := (x w.state).1 }, (x w.state).2)

def attempt (fault : Option String) : Result Unit :=
  match fault with
  | none => .ok ()
  | some error => .error error

end Steps

/-! ## `write_exclusive` -/

section Write

variable (faults : Faults) (output : Output)

/-- `OpenOptions::create_new`. -/
def createNew : Action World String Unit := fun w =>
  let message := "could not create lock " ++ output.display
  if output.present w then (w, context message (.error "File exists (os error 17)"))
  else
    match faults.create with
    | some error => (w, context message (.error error))
    | none => ({ w with file := some [] }, .ok ())

/-- `write_all`. -/
def writeAll (fault : Option (Nat × String)) (bytes : Bytes) : Action World String Unit := fun w =>
  match fault with
  | some (out, error) => ({ w with file := w.file.map (· ++ bytes.take out) }, .error error)
  | none => ({ w with file := w.file.map (· ++ bytes) }, .ok ())

/-- The parent of a bare file name is the empty path, which names nothing. -/
def syncParent : Result Unit :=
  match parent output.path with
  | none => .ok ()
  | some [] => .error "No such file or directory (os error 2)"
  | some (_ :: _) => do
    attempt faults.openParent
    attempt faults.syncParent

/-- What is left once the file has been made. -/
def complete (bytes : Bytes) : Action World String Unit := do
  writeAll faults.write bytes
  writeAll (faults.newline.map (fun error => (0, error))) [10]
  lift (attempt faults.sync)
  if output.unix then lift (syncParent faults output)

def writeExclusive (bytes : Bytes) : Action World String Unit := do
  createNew faults output
  complete faults output bytes

end Write

/-! ## The creations -/

section Creation

variable (host : Host) (faults : Faults)

/-- `task_snapshot::capture` into the state root. -/
def captureTree (root : Directory) : Action StateRoot String String := commit (fun state => do
  let (digest, artifacts) ← capture host.os root state.artifacts
  pure (digest, { state with artifacts := artifacts }))

/-- `asset::load_local` of an artifact. -/
def loadAsset (hex : List Char) : Action StateRoot String Asset.LocalAssetPackage :=
  inspect (fun state => Asset.loadLocal host.os host.parseAcl (state.artifacts hex))

/-- `task::load_local` of an artifact. -/
def loadTask (hex : List Char) : Action StateRoot String (Directory × TaskInfo) :=
  inspect (fun state => do
    let captured ← okOr (state.artifacts hex) "Task source does not exist"
    let task ← host.loadLocalTask captured
    pure (captured, task))

/-- The checks on a Task before its Judge is resolved. -/
def checkTask (task : TaskInfo) (judgeModel : Option String) (runtimeProvider : String) :
    Result (Option String) := do
  ensure (runtimeProvider ≠ Lock.osRuntimeProvider ∨ task.schema = "a3s-bench/task/v1")
    ("os-runtime cannot enforce explicit a3s-bench/task/v2 resources; " ++
      "use the Docker Runtime")
  Lock.lockedJudgeModel task judgeModel

/-- The lock of a captured Task, carrying its digest. -/
def newTaskLock (digest judgeDigest judgeRevision : String) (judgeModel : Option String)
    (images : StringMap) (binding : String × Option TaskResources ×
      Option (List WorkWorkspaceImport) × Option (List String)) : TaskLock :=
  let value : TaskLock :=
    { schema := binding.1
      lockDigest := ""
      taskRevision := digest
      artifactDigest := digest
      judgeRevision := judgeRevision
      judgeArtifactDigest := judgeDigest
      judgeModel := judgeModel
      resolvedImages := images
      resources := binding.2.1
      workspaceImports := binding.2.2.1
      networkAllowHosts := binding.2.2.2 }
  { value with lockDigest := LockIdentity.task host.os value }

/-- `create_task_with_provider`, up to the value of the lock. -/
def prepareTask (root : Directory) (judgeModel : Option String) (runtimeProvider : String) :
    Action StateRoot String TaskLock := do
  let digest ← stage (faults.stage .capture) (captureTree host root)
  let hex ← stage (faults.stage .artifactPath) (lift (artifactPath digest))
  let captured ← stage (faults.stage .load) (loadTask host hex)
  let judgeModel ← lift (checkTask captured.2 judgeModel runtimeProvider)
  let judge ← stage (faults.stage .resolveJudge)
    (lift (Lock.resolveJudge host captured.1 captured.2))
  let judgeDigest ← stage (faults.stage .captureJudge) (captureTree host judge.root)
  let judgeHex ← stage (faults.stage .judgePath) (lift (artifactPath judgeDigest))
  let lockedJudge ← stage (faults.stage .loadJudge) (loadAsset host judgeHex)
  let images ← stage (faults.stage .images)
    (lift (Lock.lockedImages host captured.2 runtimeProvider))
  let binding ← lift (Lock.taskBinding captured.2)
  stage (faults.stage .identity)
    (pure (newTaskLock host digest judgeDigest lockedJudge.identity judgeModel images binding))

/-- `create_candidate_with_codex_default`, up to the value of the lock. -/
def prepareCandidate (reference : String)
    (model reasoningEffort codexDefaultReasoningEffort : Option String) :
    Action StateRoot String CandidateLock := do
  let asset ← stage (faults.stage .resolve) (lift (Lock.resolve host reference))
  let digest ← stage (faults.stage .capture) (captureTree host asset.root)
  let hex ← stage (faults.stage .artifactPath) (lift (artifactPath digest))
  let lockedAsset ← stage (faults.stage .load) (loadAsset host hex)
  lift (Lock.checkRequest lockedAsset model reasoningEffort codexDefaultReasoningEffort)
  let product ← stage (faults.stage .product)
    (commit (Lock.createProduct host lockedAsset.protocol))
  let effort := Lock.lockedEffort lockedAsset.protocol reasoningEffort codexDefaultReasoningEffort
  stage (faults.stage .identity)
    (pure (Lock.newCandidateLock host lockedAsset digest model effort product))

variable {α : Type}

/-- The lock and the bytes of its file. -/
def serialized (render : α → Json) (prepare : Action StateRoot String α) :
    Action StateRoot String (α × Bytes) := do
  let value ← prepare
  let bytes ← stage (faults.stage .serialize) (pure (render value).toVecPretty)
  pure (value, bytes)

/-- The end of both creations. -/
def createLock (output : Output) (prepared : Action StateRoot String (α × Bytes)) :
    Action World String α := do
  let lock ← onState prepared
  writeExclusive faults output lock.2
  pure lock.1

def createTaskWithProvider (root : Directory) (judgeModel : Option String) (output : Output)
    (runtimeProvider : String) : Action World String TaskLock :=
  createLock faults output
    (serialized faults taskLockJson (prepareTask host faults root judgeModel runtimeProvider))

def createCandidateWithCodexDefault (reference : String)
    (model reasoningEffort codexDefaultReasoningEffort : Option String) (output : Output) :
    Action World String CandidateLock :=
  createLock faults output
    (serialized faults candidateLockJson (prepareCandidate host faults reference model
      reasoningEffort codexDefaultReasoningEffort))

end Creation

/-! ## Without faults -/

section Connection

variable {σ α : Type}

theorem stage_none (x : Action σ String α) : stage none x = x := rfl

theorem run_inspect (f : σ → Result α) (s : σ) :
    run (inspect f) s = f s >>= fun a => .ok (a, s) := run_commit _ s

variable (host : Host)

/-- Where no stage fails by itself, a TaskLock is prepared and then written. -/
theorem createTaskWithProvider_eq (root : Directory) (judgeModel : Option String)
    (state : StateRoot) (output : Lock.LockFile TaskLock) (runtimeProvider : String) :
    Lock.createTaskWithProvider host root judgeModel state output runtimeProvider = (do
      let p ← run (prepareTask host .none root judgeModel runtimeProvider) state
      let output ← Lock.writeExclusive output p.1
      pure (p.1, p.2, output)) := by
  simp only [Lock.createTaskWithProvider, prepareTask, Faults.none, stage_none, captureTree,
    loadTask, loadAsset, checkTask, run_bind, run_commit, run_inspect, run_lift, run_pure,
    bind_assoc, pure_bind]
  rfl

theorem createCandidateWithCodexDefault_eq (reference : String)
    (model reasoningEffort codexDefaultReasoningEffort : Option String) (state : StateRoot)
    (output : Lock.LockFile CandidateLock) :
    Lock.createCandidateWithCodexDefault host reference model reasoningEffort
      codexDefaultReasoningEffort state output = (do
      let p ← run (prepareCandidate host .none reference model reasoningEffort
        codexDefaultReasoningEffort) state
      let output ← Lock.writeExclusive output p.1
      pure (p.1, p.2, output)) := by
  simp only [Lock.createCandidateWithCodexDefault, Lock.captureCandidate, prepareCandidate,
    Faults.none, stage_none, captureTree, loadAsset, run_bind, run_commit, run_inspect, run_lift,
    run_pure, bind_assoc, pure_bind]
  rfl

end Connection

/-! ## What a failure leaves -/

section Left

variable {α : Type} {faults : Faults} {output : Output} {w : World}

/-- If the creation fails where nothing was, nothing is there afterwards. -/
def LeavesNothing (output : Output) (x : Action World String α) (w : World) : Prop :=
  output.present w = false → ∀ e, (x w).2 = .error e → output.present (x w).1 = false

/-- Nothing fails once the file has been made. -/
structure Finishes (faults : Faults) (output : Output) : Prop where
  write : faults.write = none
  newline : faults.newline = none
  sync : faults.sync = none
  parent : output.unix = true → ∀ directory, parent output.path = some directory →
    directory ≠ [] ∧ faults.openParent = none ∧ faults.syncParent = none

/-- Something was there before; or the steps before the file put nothing there, and
the file is either not made at all or completed. -/
def Retriable (faults : Faults) (output : Output)
    (prepared : Action StateRoot String (α × Bytes)) (w : World) : Prop :=
  output.present w = true ∨
    output.occupied (prepared w.state).1 = false ∧
      ((∃ e, (prepared w.state).2 = .error e) ∨ faults.create ≠ none ∨ Finishes faults output)

theorem attempt_ok_iff {fault : Option String} {u : Unit} :
    attempt fault = .ok u ↔ fault = none := by
  cases fault <;> simp [attempt]

theorem writeAll_ok_iff {fault : Option (Nat × String)} {bytes : Bytes} {t : World} {u : Unit} :
    writeAll fault bytes w = (t, .ok u) ↔
      fault = none ∧ { w with file := w.file.map (· ++ bytes) } = t := by
  cases fault <;> simp [writeAll]

theorem syncParent_ok_iff {u : Unit} : syncParent faults output = .ok u ↔
    ∀ directory, parent output.path = some directory →
      directory ≠ [] ∧ faults.openParent = none ∧ faults.syncParent = none := by
  unfold syncParent
  cases parent output.path with
  | none => simp
  | some directory =>
    cases directory with
    | nil => simp
    | cons component rest => simp [attempt_ok_iff]

/-- The file is completed exactly when none of the steps fails. -/
theorem complete_ok_iff {bytes : Bytes} :
    (∃ t, complete faults output bytes w = (t, .ok ())) ↔ Finishes faults output := by
  have hparent : ∀ s t : World,
      (if output.unix = true then lift (syncParent faults output) else pure () :
        Action World String Unit) s = (t, .ok ()) ↔ s = t ∧ (output.unix = true →
          ∀ directory, parent output.path = some directory →
            directory ≠ [] ∧ faults.openParent = none ∧ faults.syncParent = none) := by
    intro s t
    split_ifs with hunix
    · simp [syncParent_ok_iff, hunix]
    · simp [hunix]
  simp only [complete, bind_ok_iff, writeAll_ok_iff, lift_ok_iff, attempt_ok_iff, hparent,
    Option.map_eq_none_iff]
  constructor
  · rintro ⟨t, _, _, ⟨hwrite, rfl⟩, _, _, ⟨hnewline, rfl⟩, _, _, ⟨rfl, hsync⟩, rfl, hparent⟩
    exact ⟨hwrite, hnewline, hsync, hparent⟩
  · rintro ⟨hwrite, hnewline, hsync, hparent⟩
    exact ⟨_, (), _, ⟨hwrite, rfl⟩, (), _, ⟨hnewline, rfl⟩, (), _, ⟨rfl, hsync⟩, rfl, hparent⟩

/-- Nothing removes the file once it has been made. -/
theorem keeps_complete (faults : Faults) (output : Output) (bytes : Bytes) :
    Keeps (fun s t : World => s.file.isSome = true → t.file.isSome = true)
      (complete faults output bytes) := by
  have htrans : ∀ s t r : World, (s.file.isSome = true → t.file.isSome = true) →
      (t.file.isSome = true → r.file.isSome = true) → s.file.isSome = true →
        r.file.isSome = true := fun _ _ _ h h' hs => h' (h hs)
  have hlift : ∀ x : Result Unit,
      Keeps (fun s t : World => s.file.isSome = true → t.file.isSome = true)
        (lift x : Action World String Unit) := keeps_lift (fun _ hs => hs)
  have hwrite : ∀ fault bytes,
      Keeps (fun s t : World => s.file.isSome = true → t.file.isSome = true)
        (writeAll fault bytes) := by
    intro fault bytes s hs
    cases fault <;> simpa [writeAll] using hs
  refine (hwrite _ _).bind htrans fun _ => (hwrite _ _).bind htrans fun _ =>
    (hlift _).bind htrans fun _ => ?_
  split
  · exact hlift _
  · exact hlift (.ok ())

theorem present_eq_false_iff : output.present w = false ↔
    output.occupied w.state = false ∧ w.file = none := by
  simp [Output.present]

theorem leavesNothing_of_ok {x : Action World String α} {t : World} {a : α}
    (h : x w = (t, .ok a)) : LeavesNothing output x w := by
  intro _ e he
  rw [h] at he
  cases he

theorem leavesNothing_iff_of_error {x : Action World String α} {t : World} {e : String}
    (hw : output.present w = false) (h : x w = (t, .error e)) :
    LeavesNothing output x w ↔ output.present t = false := by
  unfold LeavesNothing
  rw [h]
  exact ⟨fun hleaves => hleaves hw e rfl, fun ht _ _ _ => ht⟩

/-- The file that `create_new` makes stays, whatever happens to it. -/
theorem writeExclusive_made {bytes : Bytes} {t : World} {r : Result Unit}
    (hmade : createNew faults output w = ({ w with file := some [] }, .ok ()))
    (hrun : writeExclusive faults output bytes w = (t, r)) :
    t.file.isSome = true ∧ (r = .ok () ↔ Finishes faults output) := by
  have hcomplete : complete faults output bytes { w with file := some [] } = (t, r) :=
    (bind_of_ok hmade).symm.trans hrun
  constructor
  · have hkeeps := keeps_complete faults output bytes { w with file := some [] } rfl
    rwa [hcomplete] at hkeeps
  · have hiff : (∃ t, complete faults output bytes { w with file := some [] } = (t, .ok ())) ↔
        Finishes faults output := complete_ok_iff
    rw [← hiff, hcomplete]
    constructor
    · rintro rfl
      exact ⟨t, rfl⟩
    · rintro ⟨_, h⟩
      exact congrArg Prod.snd h

/-- Writing a lock where nothing is leaves nothing behind exactly when the file
is not made or nothing fails after it. -/
theorem leavesNothing_writeExclusive_iff {bytes : Bytes} (hw : output.present w = false) :
    LeavesNothing output (writeExclusive faults output bytes) w ↔
      faults.create ≠ none ∨ Finishes faults output := by
  cases hcreate : faults.create with
  | some error =>
    have hmade : createNew faults output w =
        (w, context ("could not create lock " ++ output.display) (.error error)) := by
      simp [createNew, hw, hcreate]
    have hrun : writeExclusive faults output bytes w =
        (w, .error ("could not create lock " ++ output.display ++ ": " ++ error)) :=
      bind_of_error hmade
    rw [leavesNothing_iff_of_error hw hrun]
    exact ⟨fun _ => .inl (by simp), fun _ => hw⟩
  | none =>
    have hmade : createNew faults output w = ({ w with file := some [] }, .ok ()) := by
      simp [createNew, hw, hcreate]
    cases hrun : writeExclusive faults output bytes w with
    | mk t r =>
      obtain ⟨hfile, hfinishes⟩ := writeExclusive_made hmade hrun
      cases r with
      | ok u => exact ⟨fun _ => .inr (hfinishes.mp rfl), fun _ => leavesNothing_of_ok hrun⟩
      | error e =>
        have hnot : ¬ Finishes faults output := fun h => by cases hfinishes.mpr h
        rw [leavesNothing_iff_of_error hw hrun]
        have hpresent : output.present t = true := by simp [Output.present, hfile]
        simp [hpresent, hnot]

theorem onState_of {x : Action StateRoot String α} {state : StateRoot} {r : Result α}
    (h : x w.state = (state, r)) : onState x w = ({ w with state := state }, r) := by
  simp [onState, h]

theorem createNew_of_present (faults : Faults) (h : output.present w = true) : createNew faults output w =
    (w, .error ("could not create lock " ++ output.display ++ ": " ++
      "File exists (os error 17)")) := by
  simp [createNew, h, context]

theorem leavesNothing_bind_pure_iff {β : Type} {x : Action World String α} {b : β} :
    LeavesNothing output (x >>= fun _ => pure b) w ↔ LeavesNothing output x w := by
  cases hx : x w with
  | mk t r =>
    cases r with
    | ok a => exact iff_of_true (leavesNothing_of_ok (bind_of_ok hx)) (leavesNothing_of_ok hx)
    | error e =>
      cases hw : output.present w with
      | true => simp [LeavesNothing, hw]
      | false =>
        rw [leavesNothing_iff_of_error hw hx, leavesNothing_iff_of_error hw (bind_of_error hx)]

/-- The end of both creations, whatever was prepared before it. -/
theorem leavesNothing_createLock_iff {prepared : Action StateRoot String (α × Bytes)} :
    LeavesNothing output (createLock faults output prepared) w ↔
      Retriable faults output prepared w := by
  cases hw : output.present w with
  | true => simp [LeavesNothing, Retriable, hw]
  | false =>
    obtain ⟨-, hfile⟩ := present_eq_false_iff.mp hw
    cases hprepared : prepared w.state with
    | mk state r =>
      have hstate := onState_of hprepared
      have hpresent : output.present { w with state := state } = output.occupied state := by
        simp [Output.present, hfile]
      cases r with
      | error e =>
        have hrun : createLock faults output prepared w = ({ w with state := state }, .error e) :=
          bind_of_error hstate
        rw [leavesNothing_iff_of_error hw hrun, hpresent]
        simp [Retriable, hw, hprepared]
      | ok lock =>
        have hrun : createLock faults output prepared w =
            (writeExclusive faults output lock.2 >>= fun _ => pure lock.1)
              { w with state := state } := bind_of_ok hstate
        cases hoccupied : output.occupied state with
        | true =>
          -- A step before the file has put something there, so it is not made.
          have hrefused := createNew_of_present faults (hpresent.trans hoccupied)
          have hfailed := hrun.trans (bind_of_error (bind_of_error hrefused))
          rw [leavesNothing_iff_of_error hw hfailed, hpresent, hoccupied]
          simp [Retriable, hw, hprepared, hoccupied]
        | false =>
          have hwrite : LeavesNothing output (createLock faults output prepared) w ↔
              LeavesNothing output (writeExclusive faults output lock.2 >>= fun _ => pure lock.1)
                { w with state := state } := by
            unfold LeavesNothing
            rw [hrun, hw, hpresent, hoccupied]
          rw [hwrite, leavesNothing_bind_pure_iff,
            leavesNothing_writeExclusive_iff (hpresent.trans hoccupied)]
          simp [Retriable, hw, hprepared, hoccupied]

/-- The file of a creation that succeeds: the lock and a line end. -/
theorem createLock_of_prepared {prepared : Action StateRoot String (α × Bytes)}
    {state : StateRoot} {lock : α × Bytes} (hprepared : prepared w.state = (state, .ok lock))
    (hfile : w.file = none) (hoccupied : output.occupied state = false)
    (hcreate : faults.create = none) (hfinishes : Finishes faults output) :
    createLock faults output prepared w =
      ({ state := state, file := some (lock.2 ++ [10]) }, .ok lock.1) := by
  have hmade : createNew faults output { w with state := state } =
      ({ state := state, file := some [] }, .ok ()) := by
    simp [createNew, Output.present, hfile, hoccupied, hcreate]
  have hparent : (if output.unix = true then lift (syncParent faults output) else pure () :
      Action World String Unit) { state := state, file := some (lock.2 ++ [10]) } =
        ({ state := state, file := some (lock.2 ++ [10]) }, .ok ()) := by
    split_ifs with hunix
    · simpa [syncParent_ok_iff] using hfinishes.parent hunix
    · rfl
  have hcomplete : complete faults output lock.2 { state := state, file := some [] } =
      ({ state := state, file := some (lock.2 ++ [10]) }, .ok ()) := by
    simp only [complete, bind_ok_iff, writeAll_ok_iff, lift_ok_iff, attempt_ok_iff,
      Option.map_eq_none_iff]
    exact ⟨(), _, ⟨hfinishes.write, rfl⟩, (), _, ⟨hfinishes.newline, rfl⟩, (), _,
      ⟨rfl, hfinishes.sync⟩, hparent⟩
  have hwrite : writeExclusive faults output lock.2 { w with state := state } =
      ({ state := state, file := some (lock.2 ++ [10]) }, .ok ()) :=
    (bind_of_ok hmade).trans hcomplete
  exact (bind_of_ok (onState_of hprepared)).trans (bind_of_ok hwrite)

/-- Where a lock file was left, every retry fails. -/
theorem createLock_of_file {prepared : Action StateRoot String (α × Bytes)}
    (hfile : w.file.isSome = true) :
    ∃ t e, createLock faults output prepared w = (t, .error e) := by
  cases hprepared : prepared w.state with
  | mk state r =>
    have hstate := onState_of hprepared
    cases r with
    | error e => exact ⟨_, e, bind_of_error hstate⟩
    | ok lock =>
      have hpresent : output.present { w with state := state } = true := by
        simp [Output.present, hfile]
      have hrefused := createNew_of_present faults hpresent
      exact ⟨_, _, (bind_of_ok hstate).trans (bind_of_error (bind_of_error hrefused))⟩

end Left

/-- A creation that fails leaves nothing at its output path exactly under the
condition above, at every point where it may fail. -/
theorem failed_lock_leaves_nothing_iff (host : Host) (faults : Faults) (output : Output) (w : World) :
    (∀ root judgeModel runtimeProvider,
      LeavesNothing output
          (createTaskWithProvider host faults root judgeModel output runtimeProvider) w ↔
        Retriable faults output (serialized faults taskLockJson
          (prepareTask host faults root judgeModel runtimeProvider)) w) ∧
    (∀ reference model reasoningEffort codexDefaultReasoningEffort,
      LeavesNothing output (createCandidateWithCodexDefault host faults reference model
          reasoningEffort codexDefaultReasoningEffort output) w ↔
        Retriable faults output (serialized faults candidateLockJson (prepareCandidate host faults
          reference model reasoningEffort codexDefaultReasoningEffort)) w) :=
  ⟨fun _ _ _ => leavesNothing_createLock_iff, fun _ _ _ _ => leavesNothing_createLock_iff⟩

/-! ## A bare file name -/

/-- `--out task.lock.json` outside of the state root. -/
def bareOutput : Output where
  path := utf8 "task.lock.json"
  display := "task.lock.json"
  unix := true
  occupied _ := false

theorem prepareTask_sample :
    prepareTask Lock.sampleHost .none Lock.sampleTaskTree none "docker" Lock.sampleState =
      (Lock.sampleState, .ok Lock.sampleTaskLock) := by
  have hcreate := Suite.createTask_sample
  rw [createTaskWithProvider_eq] at hcreate
  simp only [Result.bind_ok_iff, Lock.writeExclusive_ok_iff, Result.pure_ok_iff] at hcreate
  obtain ⟨⟨lock, state⟩, hrun, _, ⟨-, rfl⟩, heq⟩ := hcreate
  cases heq
  exact run_ok_iff.mp hrun

/-- Nothing goes wrong, but the lock is written and the creation fails. -/
theorem bare_name_leaves_lock : ¬ LeavesNothing bareOutput
    (createTaskWithProvider Lock.sampleHost .none Lock.sampleTaskTree none bareOutput "docker")
    { state := Lock.sampleState, file := none } := by
  have hparent : parent bareOutput.path = some [] := by decide
  rw [createTaskWithProvider, leavesNothing_createLock_iff]
  rintro (hpresent | ⟨-, ⟨e, herror⟩ | hcreate | hfinishes⟩)
  · cases hpresent
  · have hserialized : serialized .none taskLockJson (prepareTask Lock.sampleHost .none
        Lock.sampleTaskTree none "docker") Lock.sampleState = (Lock.sampleState,
          .ok (Lock.sampleTaskLock, (taskLockJson Lock.sampleTaskLock).toVecPretty)) :=
      bind_of_ok prepareTask_sample
    rw [hserialized] at herror
    cases herror
  · exact hcreate rfl
  · exact (hfinishes.parent rfl [] hparent).1 rfl

end LockCreation

end A3sBench
