import A3sBench.ConcurrentPreparation
import A3sBench.Library.Runs
import A3sBench.LockCreation
import A3sBench.RunInput
import Mathlib

/-!
# Locks over a whole session

Creations of locks, whatever fails in them, and the loads of runs share one
state root. Nothing in it is taken away again: a TaskLock that was created is
accepted ever after, and locks that load once always load the same run.
-/

namespace A3sBench.LockRuns

open CodexPackage (Advances)
open Library Library.Action Library.System
open Lock LockCreation
open RunInput (LoadedRun loadLocks loadProduct)
open TaskSnapshot (artifactPath)

/-- A use of the state root. A creation comes with what goes wrong in it and
with what lies at its output path. -/
inductive Command where
  | createTask (faults : Faults) (root : Directory) (judgeModel : Option String)
      (runtimeProvider : String) (output : Output) (file : Option Bytes)
  | createCandidate (faults : Faults) (reference : String)
      (model reasoningEffort codexDefaultReasoningEffort : Option String) (output : Output)
      (file : Option Bytes)
  | loadLocks (taskLock : LockFile TaskLock) (candidateLock : LockFile CandidateLock)

/-- The state root and the TaskLocks created so far. -/
structure Session where
  state : StateRoot
  taskLocks : List TaskLock

section Commands

variable (host : Host)

def Session.execute (s : Session) : Command → Session
  | .createTask faults root judgeModel runtimeProvider output file =>
    let (w, created) := createTaskWithProvider host faults root judgeModel output runtimeProvider
      { state := s.state, file := file }
    { state := w.state, taskLocks := s.taskLocks ++ created.toOption.toList }
  | .createCandidate faults reference model reasoningEffort codexDefault output file =>
    let (w, _) := createCandidateWithCodexDefault host faults reference model reasoningEffort
      codexDefault output { state := s.state, file := file }
    { s with state := w.state }
  | .loadLocks taskLock candidateLock =>
    match loadLocks host taskLock candidateLock s.state with
    | .ok (_, state) => { s with state := state }
    | .error _ => s

/-- Any commands, from any state root. -/
def sessions : System Session Command where
  init s := s.taskLocks = []
  step s command s' := s' = s.execute host command

end Commands

/-! ## The state root only grows -/

/-- Artifacts stay as they are; packages are at most sealed further. -/
structure Grows (state state' : StateRoot) : Prop where
  artifacts : ∀ hex tree, state.artifacts hex = some tree → state'.artifacts hex = some tree
  packages : Advances state.packages state'.packages

theorem Grows.refl (state : StateRoot) : Grows state state :=
  ⟨fun _ _ h => h, .refl state.packages⟩

theorem Grows.trans {state state' state'' : StateRoot} (h : Grows state state')
    (h' : Grows state' state'') : Grows state state'' :=
  ⟨fun hex tree htree => h'.artifacts hex tree (h.artifacts hex tree htree),
    h.packages.trans h'.packages⟩

section Stages

variable {σ α : Type} {R : σ → σ → Prop}

theorem keeps_stage (hrefl : ∀ s, R s s) (fault : Option StageFault) {x : Action σ String α}
    (hx : Keeps R x) : Keeps R (stage fault x) := by
  intro s
  cases fault with
  | none => exact hx s
  | some fault =>
    cases fault with
    | before error => exact hrefl s
    | after error => exact hx s

theorem keeps_commit (hrefl : ∀ s, R s s) {f : σ → Except String (α × σ)}
    (hf : ∀ s a t, f s = .ok (a, t) → R s t) : Keeps R (commit f) := by
  intro s
  unfold commit
  cases hfs : f s with
  | error e => exact hrefl s
  | ok p => exact hf s p.1 p.2 hfs

theorem keeps_inspect (hrefl : ∀ s, R s s) (f : σ → Result α) : Keeps R (inspect f) := by
  refine keeps_commit hrefl fun s a t h => ?_
  simp only [Result.bind_ok_iff, Result.pure_ok_iff, Prod.mk.injEq] at h
  obtain ⟨_, _, _, rfl⟩ := h
  exact hrefl s

theorem stage_ok_iff {fault : Option StageFault} {x : Action σ String α} {s t : σ} {a : α} :
    stage fault x s = (t, .ok a) ↔ fault = none ∧ x s = (t, .ok a) := by
  cases fault with
  | none => simp [stage]
  | some fault => cases fault <;> simp [stage]

theorem inspect_ok_iff {f : σ → Result α} {s t : σ} {a : α} :
    inspect f s = (t, .ok a) ↔ s = t ∧ f s = .ok a := by
  cases hfs : f s <;> simp [inspect, commit, hfs, Bind.bind, Except.bind, pure, Except.pure]

theorem onState_ok_iff {x : Action StateRoot String α} {w w' : World} {a : α} :
    onState x w = (w', .ok a) ↔
      ∃ state, x w.state = (state, .ok a) ∧ { w with state := state } = w' := by
  cases hx : x w.state with
  | mk state result =>
    simp only [onState, hx, Prod.mk.injEq]
    constructor
    · rintro ⟨hw, hresult⟩
      exact ⟨state, ⟨rfl, hresult⟩, hw⟩
    · rintro ⟨_, ⟨rfl, hresult⟩, hw⟩
      exact ⟨hw, hresult⟩

end Stages

section Creations

variable (host : Host) (faults : Faults)

theorem capture_artifacts {os : Platform} {source : Directory}
    {store store' : TaskSnapshot.ArtifactStore} {digest : String}
    (h : TaskSnapshot.capture os source store = .ok (digest, store')) :
    ∀ hex tree, store hex = some tree → store' hex = some tree := by
  simp only [TaskSnapshot.capture, TaskSnapshot.captureWithHook, Result.bind_ok_iff] at h
  obtain ⟨_, _, _, _, hex, _, h⟩ := h
  split at h
  · simp only [Result.bind_ok_iff, Result.exists_unit_iff, Result.pure_ok_iff, Prod.mk.injEq] at h
    obtain ⟨_, _, rfl⟩ := h
    exact fun _ _ h => h
  · rename_i hnone
    simp only [Result.bind_ok_iff, Result.exists_unit_iff, Result.pure_ok_iff, Prod.mk.injEq] at h
    obtain ⟨_, _, _, _, _, rfl⟩ := h
    intro hex' tree htree
    have hne : hex' ≠ hex := by
      rintro rfl
      rw [hnone] at htree
      cases htree
    rw [Function.update_of_ne hne, htree]

theorem keeps_captureTree (root : Directory) : Keeps Grows (captureTree host root) := by
  refine keeps_commit Grows.refl fun s digest t h => ?_
  simp only [Result.bind_ok_iff, Result.pure_ok_iff, Prod.mk.injEq] at h
  obtain ⟨⟨_, artifacts⟩, hcapture, _, rfl⟩ := h
  exact ⟨capture_artifacts hcapture, .refl _⟩

theorem keeps_createProduct (protocol : Asset.CandidateProtocol) :
    Keeps Grows (commit (createProduct host protocol)) := by
  refine keeps_commit Grows.refl fun s product t h => ?_
  cases protocol with
  | agentTool =>
    cases h
    exact .refl s
  | a3sCodeExec =>
    simp only [createProduct, Result.bind_ok_iff, Result.pure_ok_iff, Prod.mk.injEq] at h
    obtain ⟨_, _, _, rfl⟩ := h
    exact .refl s
  | codexExec =>
    simp only [createProduct, Result.bind_ok_iff, Result.pure_ok_iff, Prod.mk.injEq] at h
    obtain ⟨source, _, ⟨package, packages⟩, hprepare, _, rfl⟩ := h
    exact ⟨fun _ _ h => h, CodexPackage.advances_of_prepareFromPath hprepare⟩

theorem keeps_prepareTask (root : Directory) (judgeModel : Option String)
    (runtimeProvider : String) :
    Keeps Grows (prepareTask host faults root judgeModel runtimeProvider) := by
  have htrans : ∀ s t r : StateRoot, Grows s t → Grows t r → Grows s r := fun _ _ _ => Grows.trans
  have hlift : ∀ {α : Type} (fault : Option StageFault) (x : Result α),
      Keeps Grows (stage fault (lift x)) := fun fault x =>
    keeps_stage Grows.refl fault (keeps_lift Grows.refl x)
  unfold prepareTask
  refine (keeps_stage Grows.refl _ (keeps_captureTree host root)).bind htrans fun digest => ?_
  refine (hlift _ _).bind htrans fun hex => ?_
  refine (keeps_stage Grows.refl _ (keeps_inspect Grows.refl _)).bind htrans fun captured => ?_
  refine (keeps_lift Grows.refl _).bind htrans fun judgeModel => ?_
  refine (hlift _ _).bind htrans fun judge => ?_
  refine (keeps_stage Grows.refl _ (keeps_captureTree host judge.root)).bind htrans fun digest => ?_
  refine (hlift _ _).bind htrans fun judgeHex => ?_
  refine (keeps_stage Grows.refl _ (keeps_inspect Grows.refl _)).bind htrans fun locked => ?_
  refine (hlift _ _).bind htrans fun images => ?_
  refine (keeps_lift Grows.refl _).bind htrans fun binding => ?_
  exact keeps_stage Grows.refl _ (keeps_lift Grows.refl _)

theorem keeps_prepareCandidate (reference : String)
    (model reasoningEffort codexDefault : Option String) :
    Keeps Grows (prepareCandidate host faults reference model reasoningEffort codexDefault) := by
  have htrans : ∀ s t r : StateRoot, Grows s t → Grows t r → Grows s r := fun _ _ _ => Grows.trans
  have hlift : ∀ {α : Type} (fault : Option StageFault) (x : Result α),
      Keeps Grows (stage fault (lift x)) := fun fault x =>
    keeps_stage Grows.refl fault (keeps_lift Grows.refl x)
  unfold prepareCandidate
  refine (hlift _ _).bind htrans fun asset => ?_
  refine (keeps_stage Grows.refl _ (keeps_captureTree host asset.root)).bind htrans fun digest => ?_
  refine (hlift _ _).bind htrans fun hex => ?_
  refine (keeps_stage Grows.refl _ (keeps_inspect Grows.refl _)).bind htrans fun locked => ?_
  refine (keeps_lift Grows.refl _).bind htrans fun _ => ?_
  refine (keeps_stage Grows.refl _ (keeps_createProduct host locked.protocol)).bind htrans
    fun product => ?_
  exact keeps_stage Grows.refl _ (keeps_lift Grows.refl _)

variable {α : Type}

theorem keeps_serialized (render : α → Json) {prepare : Action StateRoot String α}
    (h : Keeps Grows prepare) : Keeps Grows (serialized faults render prepare) := by
  have htrans : ∀ s t r : StateRoot, Grows s t → Grows t r → Grows s r := fun _ _ _ => Grows.trans
  refine h.bind htrans fun value => ?_
  refine (keeps_stage Grows.refl _ (keeps_lift Grows.refl _)).bind htrans fun bytes => ?_
  exact keeps_lift Grows.refl _

/-- The writes of the lock file leave the state root alone. -/
theorem keeps_writeExclusive (output : Output) (bytes : Bytes) :
    Keeps (fun w w' : World => w'.state = w.state) (writeExclusive faults output bytes) := by
  have hrefl : ∀ w : World, w.state = w.state := fun _ => rfl
  have htrans : ∀ s t r : World, t.state = s.state → r.state = t.state → r.state = s.state :=
    fun _ _ _ h h' => h'.trans h
  have hwrite : ∀ fault bytes, Keeps (fun w w' : World => w'.state = w.state)
      (writeAll fault bytes) := by
    intro fault bytes w
    cases fault <;> rfl
  have hcreate : Keeps (fun w w' : World => w'.state = w.state) (createNew faults output) := by
    intro w
    unfold createNew
    split
    · rfl
    · split <;> rfl
  refine hcreate.bind htrans fun _ => ?_
  refine (hwrite _ _).bind htrans fun _ => (hwrite _ _).bind htrans fun _ =>
    (keeps_lift hrefl _).bind htrans fun _ => ?_
  split
  · exact keeps_lift hrefl _
  · exact keeps_lift hrefl _

theorem keeps_createLock (output : Output) {prepared : Action StateRoot String (α × Bytes)}
    (h : Keeps Grows prepared) :
    Keeps (fun w w' : World => Grows w.state w'.state) (createLock faults output prepared) := by
  have htrans : ∀ s t r : World, Grows s.state t.state → Grows t.state r.state →
      Grows s.state r.state := fun _ _ _ => Grows.trans
  have hstate : Keeps (fun w w' : World => Grows w.state w'.state) (onState prepared) :=
    fun w => h w.state
  refine hstate.bind htrans fun lock => Keeps.bind htrans (fun w => ?_)
    fun _ => keeps_lift (fun w : World => Grows.refl w.state) _
  change Grows w.state _
  rw [keeps_writeExclusive faults output lock.2 w]
  exact .refl _

end Creations

/-! ## What was accepted is accepted again -/

section Loads

variable {host : Host} {state state' : StateRoot}

theorem lockedArtifact_grows (h : Grows state state') {digest unavailable : String}
    {root : Directory} (hroot : lockedArtifact host digest unavailable state = .ok root) :
    lockedArtifact host digest unavailable state' = .ok root := by
  simp only [lockedArtifact, Result.bind_ok_iff, Result.exists_unit_iff, Result.context_ok_iff,
    Result.okOr_ok_iff] at hroot ⊢
  obtain ⟨hex, hhex, hverify, htree⟩ := hroot
  have htree' := h.artifacts hex root htree
  exact ⟨hex, hhex, by rwa [htree', ← htree], htree'⟩

theorem loadTask_grows (h : Grows state state') {file : LockFile TaskLock} {loaded : LoadedTaskLock}
    (hload : Lock.loadTask host file state = .ok loaded) :
    Lock.loadTask host file state' = .ok loaded := by
  simp only [Lock.loadTask, Result.bind_ok_iff, Result.exists_unit_iff, Result.context_ok_iff,
    Result.ensure_ok_iff, Result.pure_ok_iff] at hload ⊢
  obtain ⟨value, hvalue, hcheck, artifact, hartifact, task, htask, hschema, hrequires, hmodel, root,
    hroot, judge, hjudge, hidentity, rfl⟩ := hload
  exact ⟨value, hvalue, hcheck, artifact, lockedArtifact_grows h hartifact, task, htask, hschema,
    hrequires, hmodel, root, lockedArtifact_grows h hroot, judge, hjudge, hidentity, rfl⟩

theorem grows_of_loadCached {product : CandidateProductLock} {taskPlatform : Option String}
    {cached : CodexPackage.CachedCodexPackage}
    (hload : Lock.loadCached host product taskPlatform state = .ok (cached, state')) :
    Grows state state' := by
  simp only [Lock.loadCached, Result.bind_ok_iff, Result.pure_ok_iff, Prod.mk.injEq] at hload
  obtain ⟨⟨_, packages⟩, hcached, rfl, rfl⟩ := hload
  exact ⟨fun _ _ h => h, CodexPackage.advances_of_loadCached hcached⟩

theorem loadCached_grows (h : Grows state state') {product : CandidateProductLock}
    {taskPlatform : Option String} {cached : CodexPackage.CachedCodexPackage} {state₁ : StateRoot}
    (hload : Lock.loadCached host product taskPlatform state = .ok (cached, state₁)) :
    ∃ state₂, Lock.loadCached host product taskPlatform state' = .ok (cached, state₂) ∧
      Grows state₁ state₂ := by
  simp only [Lock.loadCached, Result.bind_ok_iff, Result.pure_ok_iff, Prod.mk.injEq] at hload ⊢
  obtain ⟨⟨_, packages⟩, hcached, rfl, rfl⟩ := hload
  obtain ⟨packages', hcached', hadv⟩ := CodexPackage.loadCached_advances h.packages hcached
  exact ⟨_, ⟨_, hcached', rfl, rfl⟩, h.artifacts, hadv⟩

/-- The product of a CandidateLock: only a containerized Codex touches the state. -/
theorem checkProduct_ok {protocol : Asset.CandidateProtocol} {value : CandidateLock}
    {state₁ : StateRoot} (hcheck : checkProduct host protocol value state = .ok state₁) :
    Grows state state₁ ∧ ∀ state', Grows state state' →
      ∃ state₂, checkProduct host protocol value state' = .ok state₂ ∧ Grows state₁ state₂ := by
  unfold checkProduct at hcheck
  cases protocol with
  | agentTool =>
    cases hproduct : value.product with
    | none =>
      simp only [hproduct, Result.bind_ok_iff, Result.exists_unit_iff, Result.pure_ok_iff] at hcheck
      obtain ⟨hschema, heffort, rfl⟩ := hcheck
      refine ⟨.refl state, fun state' hgrows => ⟨state', ?_, hgrows⟩⟩
      simp only [checkProduct, hproduct, Result.bind_ok_iff, Result.exists_unit_iff,
        Result.pure_ok_iff]
      exact ⟨hschema, heffort, trivial⟩
    | some product =>
      rw [hproduct] at hcheck
      cases hcheck
  | a3sCodeExec =>
    cases hproduct : value.product with
    | none =>
      rw [hproduct] at hcheck
      cases hcheck
    | some product =>
      simp only [hproduct, Result.bind_ok_iff, Result.exists_unit_iff, Result.pure_ok_iff] at hcheck
      obtain ⟨hname, hfields, version, hversion, hsame, rfl⟩ := hcheck
      refine ⟨.refl state, fun state' hgrows => ⟨state', ?_, hgrows⟩⟩
      simp only [checkProduct, hproduct, Result.bind_ok_iff, Result.exists_unit_iff,
        Result.pure_ok_iff]
      exact ⟨hname, hfields, version, hversion, hsame, trivial⟩
  | codexExec =>
    cases hproduct : value.product with
    | none =>
      rw [hproduct] at hcheck
      cases hcheck
    | some product =>
      simp only [hproduct, Result.bind_ok_iff, Result.exists_unit_iff, Result.pure_ok_iff] at hcheck
      obtain ⟨hname, hfields, hschema, ⟨cached, _⟩, hcached, rfl⟩ := hcheck
      refine ⟨grows_of_loadCached hcached, fun state' hgrows => ?_⟩
      obtain ⟨state₂, hcached', hgrows'⟩ := loadCached_grows hgrows hcached
      refine ⟨state₂, ?_, hgrows'⟩
      simp only [checkProduct, hproduct, Result.bind_ok_iff, Result.exists_unit_iff,
        Result.pure_ok_iff]
      exact ⟨hname, hfields, hschema, _, hcached', rfl⟩

theorem loadCandidate_ok {file : LockFile CandidateLock} {value : CandidateLock}
    {artifact : Directory} {state₁ : StateRoot}
    (hload : loadCandidate host file state = .ok ((value, artifact), state₁)) :
    Grows state state₁ ∧ ∀ state', Grows state state' → ∃ state₂,
      loadCandidate host file state' = .ok ((value, artifact), state₂) ∧ Grows state₁ state₂ := by
  simp only [loadCandidate, Result.bind_ok_iff, Result.exists_unit_iff, Result.context_ok_iff,
    Result.pure_ok_iff, Prod.mk.injEq] at hload
  obtain ⟨_, hvalue, hcheck, _, hartifact, candidate, hcandidate, hidentity, _, hproduct,
    ⟨rfl, rfl⟩, rfl⟩ := hload
  obtain ⟨hgrows, hagain⟩ := checkProduct_ok hproduct
  refine ⟨hgrows, fun state' hstate' => ?_⟩
  obtain ⟨state₂, hproduct', hgrows'⟩ := hagain state' hstate'
  refine ⟨state₂, ?_, hgrows'⟩
  simp only [loadCandidate, Result.bind_ok_iff, Result.exists_unit_iff, Result.context_ok_iff,
    Result.pure_ok_iff, Prod.mk.injEq]
  exact ⟨_, hvalue, hcheck, _, lockedArtifact_grows hstate' hartifact, candidate, hcandidate,
    hidentity, _, hproduct', ⟨rfl, rfl⟩, rfl⟩

theorem loadProduct_ok {product : Option CandidateProductLock} {taskPlatform : Option String}
    {cached : Option CodexPackage.CachedCodexPackage} {state₁ : StateRoot}
    (hload : loadProduct host product taskPlatform state = .ok (cached, state₁)) :
    Grows state state₁ ∧ ∀ state', Grows state state' → ∃ state₂,
      loadProduct host product taskPlatform state' = .ok (cached, state₂) ∧ Grows state₁ state₂ := by
  cases product with
  | none =>
    cases hload
    exact ⟨.refl state, fun state' hgrows => ⟨state', rfl, hgrows⟩⟩
  | some product =>
    simp only [loadProduct, Result.bind_ok_iff, Result.pure_ok_iff, Prod.mk.injEq] at hload
    obtain ⟨⟨package, _⟩, hcached, rfl, rfl⟩ := hload
    refine ⟨grows_of_loadCached hcached, fun state' hgrows => ?_⟩
    obtain ⟨state₂, hcached', hgrows'⟩ := loadCached_grows hgrows hcached
    refine ⟨state₂, ?_, hgrows'⟩
    simp only [loadProduct, Result.bind_ok_iff, Result.pure_ok_iff, Prod.mk.injEq]
    exact ⟨_, hcached', rfl, rfl⟩

/-- Locks that load a run grow the state at most, and load the same run from
every state that has grown. -/
theorem loadLocks_ok {taskLock : LockFile TaskLock} {candidateLock : LockFile CandidateLock}
    {run : LoadedRun} {state₁ : StateRoot}
    (hload : loadLocks host taskLock candidateLock state = .ok (run, state₁)) :
    Grows state state₁ ∧ ∀ state', Grows state state' → ∃ state₂,
      loadLocks host taskLock candidateLock state' = .ok (run, state₂) ∧ Grows state₁ state₂ := by
  simp only [loadLocks, Result.bind_ok_iff, Result.pure_ok_iff, Prod.mk.injEq] at hload
  obtain ⟨locked, htask, ⟨⟨value, artifact⟩, middle⟩, hcandidate, task, hinfo, ⟨package, _⟩, hproduct,
    candidate, hasset, judge, hjudge, rfl, rfl⟩ := hload
  obtain ⟨hgrows, hagain⟩ := loadCandidate_ok hcandidate
  obtain ⟨hgrows', hagain'⟩ := loadProduct_ok hproduct
  refine ⟨hgrows.trans hgrows', fun state' hstate' => ?_⟩
  obtain ⟨middle', hcandidate', hmiddle⟩ := hagain state' hstate'
  obtain ⟨state₂, hproduct', hlast⟩ := hagain' middle' hmiddle
  refine ⟨state₂, ?_, hlast⟩
  simp only [loadLocks, Result.bind_ok_iff, Result.pure_ok_iff, Prod.mk.injEq]
  exact ⟨locked, loadTask_grows hstate' htask, _, hcandidate', task, hinfo, _, hproduct', candidate,
    hasset, judge, hjudge, rfl, rfl⟩

end Loads

/-! ## A created TaskLock is accepted -/

section Created

variable {host : Host} {faults : Faults}

theorem lockedArtifact_of_captureTree {root : Directory} {state state' : StateRoot}
    {digest : String} (h : captureTree host root state = (state', .ok digest)) :
    ∃ tree hex, artifactPath digest = .ok hex ∧ state'.artifacts hex = some tree ∧
      ∀ unavailable, lockedArtifact host digest unavailable state' = .ok tree := by
  have hrun := run_ok_iff.mpr h
  rw [captureTree, run_commit] at hrun
  simp only [Result.bind_ok_iff, Result.pure_ok_iff, Prod.mk.injEq] at hrun
  obtain ⟨⟨_, artifacts⟩, hcapture, rfl, rfl⟩ := hrun
  obtain ⟨hex, hhex, hverify⟩ := TaskSnapshot.verify_of_captureWithHook hcapture
  obtain ⟨tree, htree⟩ : ∃ tree, artifacts hex = some tree := by
    simp only [TaskSnapshot.verify, Result.bind_ok_iff, Result.okOr_ok_iff] at hverify
    obtain ⟨tree, htree, _⟩ := hverify
    exact ⟨tree, htree⟩
  refine ⟨tree, hex, hhex, htree, fun unavailable => ?_⟩
  simp only [lockedArtifact, Result.bind_ok_iff, Result.exists_unit_iff, Result.context_ok_iff,
    Result.okOr_ok_iff]
  exact ⟨hex, hhex, hverify, htree⟩

/-- What the binding by the schema of the Task says passes the check by both schemas. -/
theorem checkTaskSchema_of_taskBinding {task : TaskInfo} {binding : String ×
    Option TaskResources × Option (List WorkWorkspaceImport) × Option (List String)}
    (h : taskBinding task = .ok binding) {value : TaskLock}
    (hvalue : (value.schema, value.resources, value.workspaceImports, value.networkAllowHosts) =
      binding) :
    checkTaskSchema value task = .ok () ∧
      (value.schema = "a3s.bench.task-lock.v1" ∨ value.schema = "a3s.bench.task-lock.v2") := by
  subst hvalue
  unfold taskBinding at h
  split at h
  · rename_i hschema
    simp only [Except.ok.injEq, Prod.mk.injEq] at h
    obtain ⟨hv, hresources, himports, hhosts⟩ := h
    refine ⟨?_, .inl hv.symm⟩
    simp [checkTaskSchema, ← hv, hschema, ← hresources, ← himports, ← hhosts]
  · rename_i hschema
    simp only [Except.ok.injEq, Prod.mk.injEq] at h
    obtain ⟨hv, hresources, himports, hhosts⟩ := h
    refine ⟨?_, .inr hv.symm⟩
    by_cases hempty : task.workNetworkAllowHosts = []
    · simp [checkTaskSchema, ← hv, hschema, ← hresources, ← himports, ← hhosts, hempty]
    · simp [checkTaskSchema, ← hv, hschema, ← hresources, ← himports, ← hhosts, hempty]
  · cases h

theorem lockedJudgeModel_ok {task : TaskInfo} {judgeModel locked : Option String}
    (h : lockedJudgeModel task judgeModel = .ok locked) :
    requiresJudgeModel task = locked.isSome ∧
      (locked.toList).forM validateModelReference = .ok () := by
  simp only [lockedJudgeModel, Result.bind_ok_iff, Result.exists_unit_iff, Result.ensure_ok_iff,
    Result.pure_ok_iff] at h
  obtain ⟨hrequires, hvalidate, rfl⟩ := h
  refine ⟨?_, hvalidate⟩
  by_cases hmodel : requiresJudgeModel task = true
  · rw [if_pos hmodel, hmodel]
    exact (Option.isSome_iff_ne_none.mpr (hrequires hmodel)).symm
  · rw [if_neg hmodel]
    simpa using hmodel

/-- A prepared TaskLock is accepted in the state its preparation leaves. -/
theorem loadTask_of_prepareTask (hsha : host.os.HexDigests) {root : Directory}
    {judgeModel : Option String} {runtimeProvider : String} {state state' : StateRoot}
    {value : TaskLock}
    (h : prepareTask host faults root judgeModel runtimeProvider state = (state', .ok value)) :
    ∃ loaded, Lock.loadTask host (some (.ok value)) state' = .ok loaded ∧ loaded.lock = value := by
  simp only [prepareTask, LockCreation.loadTask, loadAsset, Action.bind_ok_iff, stage_ok_iff,
    lift_ok_iff, inspect_ok_iff, Action.pure_ok_iff, Result.bind_ok_iff, Result.okOr_ok_iff,
    Result.pure_ok_iff] at h
  obtain ⟨digest, s₁, ⟨_, hcapture⟩, hex, _, ⟨_, rfl, hhex⟩, captured, _,
    ⟨_, rfl, artifact, hartifact, task, hinfo, rfl⟩, model, _, ⟨rfl, hcheck⟩, judge, _,
    ⟨_, rfl, hjudge⟩, judgeDigest, s₂, ⟨_, hcaptureJudge⟩, judgeHex, _, ⟨_, rfl, hjudgeHex⟩, locked,
    _, ⟨_, rfl, hlocked⟩, images, _, ⟨_, rfl, himages⟩, binding, _, ⟨rfl, hbinding⟩, _, rfl, rfl⟩ := h
  obtain ⟨tree, hex', hhex', htree, hroot⟩ := lockedArtifact_of_captureTree hcapture
  obtain rfl := Except.ok.inj (hhex'.symm.trans hhex)
  obtain rfl := Option.some.inj (htree.symm.trans hartifact)
  obtain ⟨judgeTree, judgeHex', hjudgeHex', hjudgeTree, hjudgeRoot⟩ :=
    lockedArtifact_of_captureTree hcaptureJudge
  obtain rfl := Except.ok.inj (hjudgeHex'.symm.trans hjudgeHex)
  have hgrows : Grows s₁ s₂ := by
    have hkeeps := keeps_captureTree host judge.root s₁
    rwa [hcaptureJudge] at hkeeps
  have hcheck' : lockedJudgeModel task judgeModel = .ok model := by
    simp only [checkTask, Result.bind_ok_iff, Result.exists_unit_iff] at hcheck
    exact hcheck.2
  obtain ⟨hrequires, hmodel⟩ := lockedJudgeModel_ok hcheck'
  obtain ⟨hschema, hknown⟩ := @checkTaskSchema_of_taskBinding task binding hbinding
    (newTaskLock host digest judgeDigest locked.identity model images binding) rfl
  rw [hjudgeTree] at hlocked
  have hlock : checkTaskLock host
      (newTaskLock host digest judgeDigest locked.identity model images binding) = .ok () := by
    simp only [checkTaskLock, Result.bind_ok_iff, Result.exists_unit_iff, Result.ensure_ok_iff]
    exact ⟨hknown, LockIdentity.validateDigest_digest hsha _, rfl, rfl,
      RunInput.isBlank_identity hlocked⟩
  refine ⟨{ lock := _, taskArtifact := tree, judgeArtifact := judgeTree }, ?_, rfl⟩
  simp only [Lock.loadTask, readLockFile, Result.bind_ok_iff, Result.exists_unit_iff,
    Result.context_ok_iff, Result.ensure_ok_iff, Result.pure_ok_iff]
  exact ⟨_, rfl, hlock, tree, lockedArtifact_grows hgrows (hroot _), task, hinfo, hschema, hrequires,
    hmodel, judgeTree, hjudgeRoot _, locked, hlocked, rfl, rfl⟩

theorem loadTask_of_createTask (hsha : host.os.HexDigests) {root : Directory}
    {judgeModel : Option String} {runtimeProvider : String} {output : Output} {w w' : World}
    {value : TaskLock}
    (h : LockCreation.createTaskWithProvider host faults root judgeModel output runtimeProvider w =
      (w', .ok value)) :
    ∃ loaded, Lock.loadTask host (some (.ok value)) w'.state = .ok loaded ∧
      loaded.lock = value := by
  simp only [LockCreation.createTaskWithProvider, createLock, serialized, Action.bind_ok_iff,
    onState_ok_iff, stage_ok_iff, Action.pure_ok_iff] at h
  obtain ⟨⟨value', bytes⟩, w₁, ⟨state, ⟨_, s₁, hprepared, _, _, ⟨_, rfl, _⟩, rfl, rfl, rfl⟩, rfl⟩, _,
    w₂, hwrite, rfl, rfl⟩ := h
  have hkeeps := keeps_writeExclusive faults output bytes { w with state := s₁ }
  rw [hwrite] at hkeeps
  rw [show w₂.state = s₁ from hkeeps]
  exact loadTask_of_prepareTask hsha hprepared

/-- What is asked of a session: the created TaskLocks are accepted, and locks
that loaded a run at any earlier point load it again. -/
def LocksStay (host : Host) (h : List (Session × Command)) (s : Session) : Prop :=
  (∀ value ∈ s.taskLocks, ∃ loaded, Lock.loadTask host (some (.ok value)) s.state = .ok loaded ∧
    loaded.lock = value) ∧
  ∀ p ∈ h, ∀ taskLock candidateLock run state₁,
    loadLocks host taskLock candidateLock p.1.state = .ok (run, state₁) →
      ∃ state₂, loadLocks host taskLock candidateLock s.state = .ok (run, state₂)

/-- One command of a session: the state grows, and a TaskLock it creates is
accepted in the state it leaves. -/
theorem execute_spec (hsha : host.os.HexDigests) (s : Session) (command : Command) :
    Grows s.state (s.execute host command).state ∧
      ∀ value ∈ (s.execute host command).taskLocks, value ∈ s.taskLocks ∨
        ∃ loaded, Lock.loadTask host (some (.ok value)) (s.execute host command).state =
          .ok loaded ∧ loaded.lock = value := by
  cases command with
  | createTask faults root judgeModel runtimeProvider output file =>
    refine ⟨keeps_createLock faults output (keeps_serialized faults taskLockJson
      (keeps_prepareTask host faults root judgeModel runtimeProvider))
      { state := s.state, file := file }, fun value hvalue => ?_⟩
    cases hrun : LockCreation.createTaskWithProvider host faults root judgeModel output
        runtimeProvider { state := s.state, file := file } with
    | mk w created =>
      simp only [Session.execute, hrun] at hvalue ⊢
      rcases List.mem_append.mp hvalue with hold | hnew
      · exact .inl hold
      · cases created with
        | error e => cases hnew
        | ok value' =>
          obtain rfl : value = value' := List.mem_singleton.mp hnew
          exact .inr (loadTask_of_createTask hsha hrun)
  | createCandidate faults reference model reasoningEffort codexDefault output file =>
    refine ⟨keeps_createLock faults output (keeps_serialized faults candidateLockJson
      (keeps_prepareCandidate host faults reference model reasoningEffort codexDefault))
      { state := s.state, file := file }, fun value hvalue => .inl hvalue⟩
  | loadLocks taskLock candidateLock =>
    cases hload : RunInput.loadLocks host taskLock candidateLock s.state with
    | error e =>
      simp only [Session.execute, hload]
      exact ⟨.refl s.state, fun value hvalue => .inl hvalue⟩
    | ok result =>
      simp only [Session.execute, hload]
      exact ⟨(loadLocks_ok hload).1, fun value hvalue => .inl hvalue⟩

/-- Whatever is created, whatever fails in between and whatever runs are loaded. -/
theorem locksStay_of_run (hsha : host.os.HexDigests) {h : List (Session × Command)} {s : Session}
    (hrun : Run (sessions host) h s) : LocksStay host h s := by
  have haccepted : ∀ value ∈ s.taskLocks, ∃ loaded,
      Lock.loadTask host (some (.ok value)) s.state = .ok loaded ∧ loaded.lock = value := by
    refine hrun.invariant (I := fun s => ∀ value ∈ s.taskLocks, ∃ loaded,
      Lock.loadTask host (some (.ok value)) s.state = .ok loaded ∧ loaded.lock = value) ?_ ?_
    · intro s hinit value hvalue
      rw [show s.taskLocks = [] from hinit] at hvalue
      cases hvalue
    · rintro s command s' hs rfl value hvalue
      obtain ⟨hgrows, hlocks⟩ := execute_spec hsha s command
      rcases hlocks value hvalue with hold | hnew
      · obtain ⟨loaded, hload, hlock⟩ := hs value hold
        exact ⟨loaded, loadTask_grows hgrows hload, hlock⟩
      · exact hnew
  have hgrows : ∀ p ∈ h, Grows p.1.state s.state := by
    refine hrun.guarded_related (G := fun _ _ => True) (I := fun _ => True)
      (R := fun s s' => Grows s.state s'.state) (fun _ _ => trivial) ?_
      (fun _ _ _ => Grows.trans) (fun _ _ => trivial)
    rintro s command s' _ _ rfl
    exact ⟨trivial, (execute_spec hsha s command).1⟩
  refine ⟨haccepted, fun p hp taskLock candidateLock run state₁ hload => ?_⟩
  obtain ⟨state₂, hload', _⟩ := (loadLocks_ok hload).2 s.state (hgrows p hp)
  exact ⟨state₂, hload'⟩

end Created

section Sample

/-- `--out locks/task.lock.json`, outside of the state root. -/
def sampleOutput : Output where
  path := utf8 "locks/task.lock.json"
  display := "locks/task.lock.json"
  unix := true
  occupied _ := false

/-- The first creation fails when its lock is synced, the second one does not. -/
def sampleCommands : List Command :=
  [.createTask { Faults.none with sync := some "No space left on device (os error 28)" }
      sampleTaskTree none "docker" sampleOutput none,
    .createTask .none sampleTaskTree none "docker" sampleOutput none,
    .createCandidate .none "./agent" none none none sampleOutput none,
    .loadLocks (some (.ok sampleTaskLock)) (some (.ok agentLock))]

def sampleSession : List (Session × Command) × Session :=
  replay (Session.execute sampleHost) { state := sampleState, taskLocks := [] } sampleCommands

theorem createTask_sampleOutput : LockCreation.createTaskWithProvider sampleHost .none
    sampleTaskTree none sampleOutput "docker" { state := sampleState, file := none } =
      ({ state := sampleState
         file := some ((taskLockJson sampleTaskLock).toVecPretty ++ [10]) },
        .ok sampleTaskLock) := by
  have hserialized : serialized .none taskLockJson (prepareTask sampleHost .none sampleTaskTree none
      "docker") sampleState = (sampleState,
        .ok (sampleTaskLock, (taskLockJson sampleTaskLock).toVecPretty)) :=
    bind_of_ok prepareTask_sample
  have hparent : ∀ directory, parent sampleOutput.path = some directory → directory ≠ [] := by
    have hpath : parent sampleOutput.path = some [Component.normal (utf8 "locks")] := by decide
    intro directory h
    obtain rfl := Option.some.inj (hpath.symm.trans h)
    simp
  have hfinishes : Finishes .none sampleOutput :=
    ⟨rfl, rfl, rfl, fun _ directory h => ⟨hparent directory h, rfl, rfl⟩⟩
  unfold LockCreation.createTaskWithProvider
  rw [@createLock_of_prepared _ .none sampleOutput { state := sampleState, file := none } _ _ _
    hserialized rfl rfl rfl hfinishes]

example : (Session.execute sampleHost { state := sampleState, taskLocks := [] }
    (.createTask .none sampleTaskTree none "docker" sampleOutput none)).taskLocks =
      [sampleTaskLock] := by
  simp only [Session.execute, createTask_sampleOutput]
  rfl

theorem locksStay_of_run_sample : LocksStay sampleHost sampleSession.1 sampleSession.2 :=
  locksStay_of_run RunInput.sampleHost_hexDigests (Run.replay (fun _ _ => rfl) rfl sampleCommands)

end Sample

end A3sBench.LockRuns
