import A3sBench.RunJournal

/-!
# Journal files along a run

The loader states five joint conditions between the stage and the optional
fields. Each operation checks its own precondition only, so the conditions are
carried through a run by an invariant on the memory and one on the file. One
condition is not kept by the operations alone: nothing stops a caller from
advancing to `InputsResolved` with unbound locks.
-/

namespace A3sBench.RunJournal

open Library Library.System

/-- What the loader asks of the fields of a journal file. -/
structure Loadable (f : JournalFile) : Prop where
  schema : f.schema = journalSchema
  runId : validateRunId f.runId = .ok ()
  bothLocks : f.taskLockDigest.isSome = f.candidateLockDigest.isSome
  taskDigest : validateOptionalDigest f.taskLockDigest = .ok ()
  candidateDigest : validateOptionalDigest f.candidateLockDigest = .ok ()
  resolved : f.stage = .failed ∨ f.stage.rank < RunStage.inputsResolved.rank ∨
    f.taskLockDigest.isSome = true
  resultPath : decide (f.stage = .completed) = f.resultPath.isSome
  resultDigest : decide (f.stage = .completed) = f.resultDigest.isSome
  resultDigestValid : validateOptionalDigest f.resultDigest = .ok ()
  failure : decide (f.stage = .failed) = f.error.isSome

theorem load_eq {stateRoot runId : String} {f : JournalFile} (hid : f.runId = runId)
    (h : Loadable f) :
    load stateRoot (some f) runId = .ok { f with path := filePath stateRoot runId } := by
  subst hid
  simp only [load, Result.bind_ok_iff, Result.exists_unit_iff, Result.ensure_ok_iff,
    Result.okOr_ok_iff, Result.pure_ok_iff, Option.some.injEq]
  exact ⟨h.runId, f, rfl, h.schema, rfl, h.bothLocks, h.taskDigest, h.candidateDigest,
    h.resolved, h.resultPath, h.resultDigest, h.resultDigestValid, h.failure, rfl⟩

theorem load_ok_iff {stateRoot runId : String} {f : JournalFile} :
    (∃ j, load stateRoot (some f) runId = .ok j) ↔ f.runId = runId ∧ Loadable f := by
  constructor
  · rintro ⟨j, h⟩
    simp only [load, Result.bind_ok_iff, Result.exists_unit_iff, Result.ensure_ok_iff,
      Result.okOr_ok_iff, Result.pure_ok_iff, Option.some.injEq] at h
    obtain ⟨hid, _, rfl, hs, rfl, hb, ht, hc, hr, hp, hd, hv, hf, rfl⟩ := h
    exact ⟨rfl, hs, hid, hb, ht, hc, hr, hp, hd, hv, hf⟩
  · rintro ⟨hid, h⟩
    exact ⟨_, load_eq hid h⟩

/-- The operations of a journal after `begin`. -/
inductive Operation where
  | advance (stage : RunStage)
  | bindLocks (taskDigest candidateDigest : String)
  | complete (resultPath resultDigest : String)
  | fail (error : String)
  deriving DecidableEq, Repr

def apply : Operation → Effects → Session → Session × Result Unit
  | .advance stage => advance stage
  | .bindLocks taskDigest candidateDigest => bindLocks taskDigest candidateDigest
  | .complete resultPath resultDigest => complete resultPath resultDigest
  | .fail error => fail error

theorem runId_commit (fx : Effects) {first : RunJournal} {rest : RunJournal → RunJournal}
    {s : Session} (hfirst : first.runId = s.memory.runId)
    (hrest : ∀ m : RunJournal, (rest m).runId = m.runId) :
    (commit fx first rest s).1.memory.runId = s.memory.runId := by
  unfold commit
  split
  · exact hfirst
  · cases fx.write <;> exact (hrest _).trans hfirst

/-- No operation changes the run id. -/
theorem runId_apply (operation : Operation) (fx : Effects) (s : Session) :
    (apply operation fx s).1.memory.runId = s.memory.runId := by
  cases operation with
  | advance stage =>
    simp only [apply, advance]
    split_ifs
    · rfl
    · exact runId_commit fx rfl fun _ => rfl
    · rfl
  | bindLocks taskDigest candidateDigest =>
    simp only [apply, bindLocks]
    split_ifs
    · rfl
    · split
      · rfl
      · rfl
      · exact runId_commit fx rfl fun _ => rfl
    · rfl
  | complete resultPath resultDigest =>
    simp only [apply, complete]
    split_ifs
    · rfl
    · split
      · rfl
      · exact runId_commit fx rfl fun _ => rfl
  | fail error =>
    simp only [apply, fail]
    split_ifs
    · rfl
    · exact runId_commit fx rfl fun _ => rfl

/-- Any operation at any time, with any behaviour of the clock and the write.
A run starts where `begin` has left a file. -/
def journalSystem (stateRoot : String) : System Session (Operation × Effects) where
  init s := ∃ taskReference agentReference processId sequence now write,
    s = (begin stateRoot taskReference agentReference processId sequence now write).1 ∧
      s.disk.isSome = true
  step s a s' := s' = (apply a.1 a.2 s).1

/-- The rank the file on disk shows. -/
def diskRank (s : Session) : Nat := (s.disk.map (fun f => f.stage.rank)).getD 0

/-- The invariant: what the file holds is loadable and not ahead of the memory;
the memory is loadable while it can still be written. -/
structure Sound (s : Session) : Prop where
  memory : s.memory.stage.terminal = false → Loadable s.memory.toJournalFile
  disk : ∃ f, s.disk = some f ∧ Loadable f ∧ f.runId = s.memory.runId ∧
    f.stage.rank ≤ s.memory.stage.rank

/-- Locks are bound by the time the inputs are declared resolved. -/
def BindsBeforeInputs (s : Session) (a : Operation × Effects) : Prop :=
  a.1 = .advance .inputsResolved → s.memory.stage = .runtimeReady →
    s.memory.taskLockDigest.isSome = true

theorem validateRunId_beginRunId (now : BitVec 128) (processId : UInt32) (sequence : UInt64) :
    validateRunId (beginRunId now processId sequence) = .ok () := by
  have hnow : Text.byteLength (toString now.toNat) ≤ 39 :=
    Text.byteLength_repr_le (by decide) (now.isLt.trans (by decide))
  have hpid : Text.byteLength (toString processId.toNat) ≤ 10 :=
    Text.byteLength_repr_le (by decide) (processId.toNat_lt.trans (by decide))
  have hseq : Text.byteLength (toString sequence.toNat) ≤ 20 :=
    Text.byteLength_repr_le (by decide) (sequence.toNat_lt.trans (by decide))
  have hlocal : Text.byteLength "local-" = 6 := by decide
  have hdash : Text.byteLength "-" = 1 := by decide
  rw [validateRunId, Result.ensure_ok_iff]
  refine ⟨?_, ?_, ?_⟩
  · simp only [beginRunId, String.append_assoc]
    exact Text.startsWith_append _ _
  · simp only [beginRunId, Text.byteLength_append]
    omega
  · have hnumber : ∀ n : Nat, (toString n).toList.all
        (fun c => Text.isAsciiAlphanumeric c || c == '-') = true := by
      intro n
      rw [List.all_eq_true]
      intro c hc
      rw [Text.isAsciiAlphanumeric_of_mem_repr hc]
      rfl
    simp only [beginRunId, String.toList_append, List.all_append, Bool.and_eq_true]
    exact ⟨⟨⟨⟨⟨rfl, hnumber _⟩, rfl⟩, hnumber _⟩, rfl⟩, hnumber _⟩

theorem sound_begin {stateRoot : String} {s : Session} (h : (journalSystem stateRoot).init s) :
    Sound s := by
  obtain ⟨taskReference, agentReference, processId, sequence, now, write, rfl, hdisk⟩ := h
  have hfresh : Loadable
      { schema := journalSchema
        runId := beginRunId now processId sequence
        taskReference := taskReference
        agentReference := agentReference
        taskLockDigest := none
        candidateLockDigest := none
        stage := .planned
        updatedAtMs := now
        resultPath := none
        resultDigest := none
        error := none } :=
    ⟨rfl, validateRunId_beginRunId now processId sequence, rfl, rfl, rfl, .inr (.inl Nat.two_pos),
      rfl, rfl, rfl, rfl⟩
  cases write with
  | stored => exact ⟨fun _ => hfresh, _, rfl, hfresh, rfl, le_rfl⟩
  | refused e => cases hdisk
  | unsynced e => exact ⟨fun _ => hfresh, _, rfl, hfresh, rfl, le_rfl⟩

/-- A commit keeps the invariant when its first edit does not lower the stage
and its complete edit is loadable. -/
theorem sound_commit {fx : Effects} {first : RunJournal} {rest : RunJournal → RunJournal}
    {s : Session} (hs : Sound s) (hid : first.runId = s.memory.runId)
    (hrank : s.memory.stage.rank ≤ first.stage.rank)
    (hfirst : first.stage.terminal = false → Loadable first.toJournalFile)
    (hrest : ∀ now, Loadable (rest { first with updatedAtMs := now }).toJournalFile ∧
      (rest { first with updatedAtMs := now }).runId = first.runId ∧
      (rest { first with updatedAtMs := now }).stage = first.stage) :
    Sound (commit fx first rest s).1 ∧ diskRank s ≤ diskRank (commit fx first rest s).1 := by
  obtain ⟨f, hf, hload, hfid, hfrank⟩ := hs.disk
  unfold commit
  cases hclock : fx.clock with
  | error e =>
    exact ⟨⟨hfirst, f, hf, hload, hfid.trans hid.symm, hfrank.trans hrank⟩, le_rfl⟩
  | ok now =>
    obtain ⟨hm, hmid, hmstage⟩ := hrest now
    have hold : f.stage.rank ≤ (rest { first with updatedAtMs := now }).stage.rank := by
      rw [hmstage]
      exact hfrank.trans hrank
    have hwritten : diskRank s ≤ (rest { first with updatedAtMs := now }).stage.rank := by
      simpa [diskRank, hf] using hold
    cases hwrite : fx.write with
    | stored => exact ⟨⟨fun _ => hm, _, rfl, hm, rfl, le_rfl⟩, hwritten⟩
    | refused e =>
      exact ⟨⟨fun _ => hm, f, hf, hload, (hfid.trans hid.symm).trans hmid.symm, hold⟩, le_rfl⟩
    | unsynced e => exact ⟨⟨fun _ => hm, _, rfl, hm, rfl, le_rfl⟩, hwritten⟩

/-- The stage a nonterminal memory moves to keeps the loader's conditions on the
optional fields, since these only name terminal stages. -/
theorem Loadable.with_stage {m : JournalFile} (h : Loadable m) {stage : RunStage}
    (hm : m.stage.terminal = false) (hstage : stage.terminal = false)
    (hresolved : stage.rank < RunStage.inputsResolved.rank ∨ m.taskLockDigest.isSome = true)
    (now : BitVec 128) : Loadable { m with stage := stage, updatedAtMs := now } := by
  have hdone : ∀ st : RunStage, st.terminal = false →
      decide (st = .completed) = false ∧ decide (st = .failed) = false := by
    intro st
    cases st <;> decide
  obtain ⟨hc, hf⟩ := hdone _ hm
  obtain ⟨hc', hf'⟩ := hdone _ hstage
  exact
    { h with
      resolved := .inr hresolved
      resultPath := hc'.trans (hc.symm.trans h.resultPath)
      resultDigest := hc'.trans (hc.symm.trans h.resultDigest)
      failure := hf'.trans (hf.symm.trans h.failure) }

/-- A loadable nonterminal journal past readiness has its locks bound. -/
theorem Loadable.bound {m : JournalFile} (h : Loadable m) (hm : m.stage.terminal = false)
    (hrank : RunStage.inputsResolved.rank ≤ m.stage.rank) : m.taskLockDigest.isSome = true := by
  rcases h.resolved with hf | hlt | hb
  · rw [hf] at hm
    cases hm
  · exact absurd hrank (Nat.not_le.mpr hlt)
  · exact hb

theorem sound_advance {stage : RunStage} {fx : Effects} {s : Session} (hs : Sound s)
    (hbound : BindsBeforeInputs s (.advance stage, fx)) :
    Sound (advance stage fx s).1 ∧ diskRank s ≤ diskRank (advance stage fx s).1 := by
  unfold advance
  split_ifs with hterm hmove
  · exact ⟨hs, le_rfl⟩
  · obtain ⟨hstage, hrank⟩ := hmove
    have hm : s.memory.stage.terminal = false := by simpa using hterm
    have hload := hs.memory hm
    have hresolved : stage.rank < RunStage.inputsResolved.rank ∨
        s.memory.taskLockDigest.isSome = true := by
      rcases Nat.lt_trichotomy s.memory.stage.rank 1 with hlt | heq | hgt
      · exact .inl (by rw [hrank]; exact Nat.succ_lt_succ hlt)
      · have hnow : s.memory.stage = .runtimeReady := by
          revert heq; cases s.memory.stage <;> decide
        have hnext : stage = .inputsResolved := by
          rw [hnow] at hrank
          revert hrank; cases stage <;> decide
        subst hnext
        exact .inr (hbound rfl hnow)
      · exact .inr (hload.bound hm hgt)
    exact sound_commit hs rfl (by simp only; omega)
      (fun _ => hload.with_stage hm hstage hresolved _)
      (fun now => ⟨hload.with_stage hm hstage hresolved now, rfl, rfl⟩)
  · exact ⟨hs, le_rfl⟩

theorem sound_bindLocks {taskDigest candidateDigest : String} {fx : Effects} {s : Session}
    (hs : Sound s) : Sound (bindLocks taskDigest candidateDigest fx s).1 ∧
      diskRank s ≤ diskRank (bindLocks taskDigest candidateDigest fx s).1 := by
  unfold bindLocks
  split_ifs with hready hfree
  · exact ⟨hs, le_rfl⟩
  · have hm : s.memory.stage = .runtimeReady := not_not.mp hready
    split
    · exact ⟨hs, le_rfl⟩
    · exact ⟨hs, le_rfl⟩
    · rename_i htask hcandidate
      have hload := hs.memory (by rw [hm]; rfl)
      have hbind : ∀ now, Loadable
          { s.memory.toJournalFile with
            taskLockDigest := some taskDigest
            candidateLockDigest := some candidateDigest
            updatedAtMs := now } := fun now =>
        { hload with
          bothLocks := rfl
          taskDigest := htask
          candidateDigest := hcandidate
          resolved := .inr (.inr rfl) }
      exact sound_commit hs rfl le_rfl (fun _ => hbind _) (fun now => ⟨hbind now, rfl, rfl⟩)
  · exact ⟨hs, le_rfl⟩

theorem sound_complete {resultPath resultDigest : String} {fx : Effects} {s : Session}
    (hs : Sound s) : Sound (complete resultPath resultDigest fx s).1 ∧
      diskRank s ≤ diskRank (complete resultPath resultDigest fx s).1 := by
  unfold complete
  split_ifs with hjudging
  · exact ⟨hs, le_rfl⟩
  · have hm : s.memory.stage = .judging := not_not.mp hjudging
    split
    · exact ⟨hs, le_rfl⟩
    · rename_i hdigest
      have hload := hs.memory (by rw [hm]; rfl)
      have hbound := hload.bound (by rw [hm]; rfl) (by rw [hm]; decide)
      have hfail := hload.failure
      rw [hm] at hfail
      refine sound_commit hs rfl (RunStage.rank_le_six _) (fun h => by cases h)
        (fun now => ⟨?_, rfl, rfl⟩)
      exact
        { hload with
          resolved := .inr (.inr hbound)
          resultPath := rfl
          resultDigest := rfl
          resultDigestValid := hdigest
          failure := hfail }

theorem sound_fail {error : String} {fx : Effects} {s : Session} (hs : Sound s) :
    Sound (fail error fx s).1 ∧ diskRank s ≤ diskRank (fail error fx s).1 := by
  unfold fail
  split_ifs with hterm
  · exact ⟨hs, le_rfl⟩
  · have hm : s.memory.stage.terminal = false := by simpa using hterm
    have hload := hs.memory hm
    have hopen : decide (s.memory.stage = .completed) = false := by
      revert hm; cases s.memory.stage <;> decide
    refine sound_commit hs rfl (RunStage.rank_le_six _) (fun h => by cases h)
      (fun now => ⟨?_, rfl, rfl⟩)
    exact
      { hload with
        resolved := .inl rfl
        resultPath := hopen.symm.trans hload.resultPath
        resultDigest := hopen.symm.trans hload.resultDigest
        failure := rfl }

theorem sound_step {stateRoot : String} {s s' : Session} {a : Operation × Effects} (hs : Sound s)
    (hbound : BindsBeforeInputs s a) (hstep : (journalSystem stateRoot).step s a s') :
    Sound s' ∧ diskRank s ≤ diskRank s' := by
  obtain ⟨op, fx⟩ := a
  subst hstep
  cases op with
  | advance stage => exact sound_advance hs hbound
  | bindLocks taskDigest candidateDigest => exact sound_bindLocks hs
  | complete resultPath resultDigest => exact sound_complete hs
  | fail error => exact sound_fail hs

/-- The loader accepts the file, and no earlier file showed a later stage. -/
def DiskSound (stateRoot : String) (h : List (Session × (Operation × Effects))) (s : Session) :
    Prop :=
  (∃ j, load stateRoot s.disk s.memory.runId = .ok j) ∧ ∀ p ∈ h, diskRank p.1 ≤ diskRank s

/-- Whatever is rejected or fails on the way, a run that resolves its inputs
only with bound locks leaves a loadable journal that never moves back. -/
theorem disk_sound_of_bound (stateRoot : String) {h : List (Session × (Operation × Effects))}
    {s : Session} (hrun : Run (journalSystem stateRoot) h s) (hbound : Guarded BindsBeforeInputs h) :
    DiskSound stateRoot h s := by
  have hsound : Sound s := hrun.guarded_invariant (fun _ => sound_begin)
    (fun s a s' hs hb hstep => (sound_step hs hb hstep).1) hbound
  constructor
  · obtain ⟨f, hf, hload, hid, _⟩ := hsound.disk
    rw [hf]
    exact load_ok_iff.mpr ⟨hid, hload⟩
  · exact hrun.guarded_related (fun _ => sound_begin)
      (fun s a s' hs hb hstep => sound_step hs hb hstep) (fun _ _ _ => Nat.le_trans) hbound

/-- Effects of a clock that reads one millisecond and a write that succeeds. -/
def plainEffects : Effects := { clock := .ok 1, write := .stored }

def freshSession : Session := (begin "state" "task" "agent" 7 0 1 .stored).1

/-- The journal after one more operation that meets no fault. -/
def after (op : Operation) (s : Session) : Session := (apply op plainEffects s).1

theorem freshSession_init : (journalSystem "state").init freshSession :=
  ⟨"task", "agent", 7, 0, 1, .stored, rfl, rfl⟩

theorem Run.after {h : List (Session × (Operation × Effects))} {s : Session} (op : Operation)
    (hrun : Run (journalSystem "state") h s) :
    Run (journalSystem "state") ((s, (op, plainEffects)) :: h) (after op s) :=
  hrun.next rfl

/-- Two digests, to bind as locks. -/
def digestOf (c : Char) : String := "sha256:" ++ String.ofList (List.replicate 64 c)

theorem disk_sound_of_bound_resolved :
    DiskSound "state"
      [(after (.bindLocks (digestOf 'a') (digestOf 'b')) (after (.advance .runtimeReady) freshSession),
          (.advance .inputsResolved, plainEffects)),
        (after (.advance .runtimeReady) freshSession,
          (.bindLocks (digestOf 'a') (digestOf 'b'), plainEffects)),
        (freshSession, (.advance .runtimeReady, plainEffects))]
      (after (.advance .inputsResolved) (after (.bindLocks (digestOf 'a') (digestOf 'b'))
        (after (.advance .runtimeReady) freshSession))) :=
  disk_sound_of_bound "state"
    (Run.after _ (Run.after _ (Run.after _ (Run.start freshSession_init))))
    (by simp [BindsBeforeInputs]; decide)

/-- Two transitions of a fresh journal are enough for the loader to refuse it. -/
theorem unbound_inputs_not_loadable :
    ¬ ∀ h s, Run (journalSystem "state") h s → DiskSound "state" h s := by
  intro hall
  have hrun := Run.after (.advance .inputsResolved)
    (Run.after (.advance .runtimeReady) (Run.start freshSession_init))
  obtain ⟨⟨j, hj⟩, _⟩ := hall _ _ hrun
  have hrefused : load "state" (after (.advance .inputsResolved)
      (after (.advance .runtimeReady) freshSession)).disk freshSession.memory.runId =
      .error "resolved run journal has no lock binding" := by rfl
  rw [show (after (.advance .inputsResolved) (after (.advance .runtimeReady)
    freshSession)).memory.runId = freshSession.memory.runId from rfl, hrefused] at hj
  cases hj

/-- The guard is needed at every reachable state: an advance to `InputsResolved`
without bound locks writes a file the loader refuses. -/
theorem load_after_unbound_advance {stateRoot : String} {s : Session} (hs : Sound s)
    (hready : s.memory.stage = .runtimeReady) (hfree : s.memory.taskLockDigest = none)
    (now : BitVec 128) :
    load stateRoot (advance .inputsResolved { clock := .ok now, write := .stored } s).1.disk
      s.memory.runId = .error "resolved run journal has no lock binding" := by
  have hload := hs.memory (by rw [hready]; rfl)
  have hcandidate : s.memory.candidateLockDigest = none := by
    have := hload.bothLocks
    rw [hfree] at this
    simpa using this.symm
  have hrank : RunStage.inputsResolved.rank = RunStage.runtimeReady.rank + 1 := rfl
  simp [advance, commit, persist, load, hready, hload.runId, hload.schema, hfree, hcandidate,
    validateOptionalDigest, hrank, RunStage.terminal, ensure, okOr, bind, Except.bind]

end A3sBench.RunJournal
