import A3sBench.CandidateStage
import A3sBench.RunSettlement

/-!
# What a killed run leaves

The record of a run is written before its journal is completed, and loading the
record asks for the completed journal. Every state of the files that a run passes
is a point where it can be killed.
-/

namespace A3sBench.BenchRun

open Library Library.Action
open Lock
open ResultRecord (ResultStore)
open RunJournal (Loadable)

/-- The files after each durable write of a run, in order. -/
def crashStores (host : Host) (stateRoot : String) (options : RunOptions) (env : Surroundings)
    (files : RunFiles) : List ResultStore :=
  let (session, begun) := RunJournal.begin stateRoot options.task options.agent env.processId
    env.sequence env.now env.begun
  let store :=
    { files.store with
      journals := Function.update files.store.journals session.memory.runId session.disk }
  match begun with
  | .error _ => [store]
  | .ok () =>
    let outcome := program (watch RunState.store) host stateRoot options env session.memory.runId
      ({ memory := session.memory, root := files.root, store := store }, [store])
    outcome.1.2 ++ [(settle env (outcome.1.1, outcome.2)).1.store]

/-- The journal of the run on disk is completed. -/
def CompletedOnDisk (runId : String) (store : ResultStore) : Prop :=
  ∃ file, store.journals runId = some file ∧ file.stage = .completed

/-- The record of the run is not there yet, or its journal is completed. -/
def Consistent (runId : String) (store : ResultStore) : Prop :=
  store.results runId = none ∨ CompletedOnDisk runId store

/-- Loading from these files fails unless they are consistent. -/
def LoadsWhenConsistent (os : Platform) (stateRoot runId : String) (store : ResultStore) : Prop :=
  (ResultRecord.load os stateRoot store runId).isOk = true ↔ Consistent runId store

section Loading

variable {os : Platform} {stateRoot runId : String} {store : ResultStore}

theorem load_of_absent (hid : validateRunId runId = .ok ()) (h : store.results runId = none) :
    ResultRecord.load os stateRoot store runId = .ok none := by
  simp only [ResultRecord.load, hid, h, Result.bind_ok_iff, Result.exists_unit_iff, true_and]
  rfl

/-- Without a completed journal only a missing record loads. -/
theorem loadsWhenConsistent_of_open (hid : validateRunId runId = .ok ())
    (hopen : ¬ CompletedOnDisk runId store) : LoadsWhenConsistent os stateRoot runId store := by
  unfold LoadsWhenConsistent
  cases hresult : store.results runId with
  | none =>
      rw [load_of_absent hid hresult]
      exact ⟨fun _ => .inl hresult, fun _ => rfl⟩
  | some record =>
      constructor
      · intro hok
        obtain ⟨loaded, hload⟩ := (Result.isOk_iff).mp hok
        simp only [ResultRecord.load, hresult, Result.bind_ok_iff, Result.exists_unit_iff,
          Result.ensure_ok_iff] at hload
        obtain ⟨_, _, journal, hjournal, hstage, _⟩ := hload
        refine absurd ?_ hopen
        simp only [RunJournal.load, Result.bind_ok_iff, Result.exists_unit_iff,
          Result.okOr_ok_iff, Result.pure_ok_iff] at hjournal
        obtain ⟨_, file, hfile, _, _, _, _, _, _, _, _, _, _, rfl⟩ := hjournal
        exact ⟨file, hfile, hstage⟩
      · rintro (hnone | hcompleted)
        · rw [hresult] at hnone
          cases hnone
        · exact absurd hcompleted hopen

end Loading

section Passing

variable {host : Host} {stateRoot : String} {options : RunOptions} {env : Surroundings}
  {runId : String} {record : LocalResultRecord}

/-- The evidence in the saved record is the log that was left. -/
theorem validateEventLog_of_saved {os : Platform} (hsha : os.HexDigests) (hanswered : env.Answered os)
    {t : RunState} (h : Saved os env runId record t) (hid : record.runId = runId)
    {store : ResultStore} (hlogs : store.eventLogs = t.store.eventLogs) :
    ResultRecord.validateEventLog os record store = .ok () := by
  obtain ⟨run, hrun, hevidence⟩ := h.evidence
  obtain ⟨timeoutSec, answer, rfl, hanswer⟩ := hanswered run hrun
  have hlog : store.eventLogs record.runId = answer.eventLog := by
    rw [hid, hlogs, h.eventLog, hanswer]
  have hdigest : record.candidateEventLogDigest =
      answer.eventLog.map (fun events => "sha256:" ++ os.sha256 events) :=
    hevidence.trans (candidateRun_eventLog os timeoutSec answer)
  unfold ResultRecord.validateEventLog
  rw [if_neg (not_not.mpr h.schema), hdigest, hlog]
  cases answer.eventLog with
  | none => rfl
  | some events =>
      simp only [Option.map_some, LockIdentity.validateDigest_sha256 hsha, Result.bind_ok_iff,
        Result.exists_unit_iff, Result.okOr_ok_iff, Result.ensure_ok_iff]
      exact ⟨trivial, events, rfl, rfl⟩

/-- With its journal completed, the saved record is loaded. -/
theorem loadsWhenConsistent_of_completed {os : Platform} (hsha : os.HexDigests)
    (hanswered : env.Answered os) {t : RunState} (h : Saved os env runId record t)
    (now : BitVec 128) :
    LoadsWhenConsistent os stateRoot runId
      (t.withJournal (t.memory.completed (ResultRecord.resultPath stateRoot runId)
        record.resultDigest now)).store := by
  have hrecord := h.valid
  have hid : record.runId = runId := by
    simp only [ResultRecord.validate, Result.bind_ok_iff, Result.exists_unit_iff,
      Result.ensure_ok_iff] at hrecord
    exact hrecord.2.2.2.1
  subst hid
  have hfailure := h.loadable.failure
  rw [h.stage] at hfailure
  have hbound : t.memory.taskLockDigest.isSome = true := by
    rw [h.task]
    rfl
  have hloadable : Loadable (t.memory.completed (ResultRecord.resultPath stateRoot record.runId)
      record.resultDigest now).toJournalFile :=
    { h.loadable with
      resolved := .inr (.inr hbound)
      resultPath := rfl
      resultDigest := rfl
      resultDigestValid := h.resultDigest
      failure := hfailure }
  have hjournal := RunState.withJournal_journals t (t.memory.completed
    (ResultRecord.resultPath stateRoot record.runId) record.resultDigest now)
  rw [h.own] at hjournal
  have hlog := validateEventLog_of_saved hsha hanswered h rfl (RunState.withJournal_eventLogs t
    (t.memory.completed (ResultRecord.resultPath stateRoot record.runId) record.resultDigest now))
  have hstored : (t.withJournal (t.memory.completed (ResultRecord.resultPath stateRoot record.runId)
      record.resultDigest now)).store.results record.runId = some record := h.stored
  have hload := load_of_completed hrecord hstored hjournal hloadable h.own rfl h.task h.candidate
    rfl rfl hlog
  constructor
  · exact fun _ => .inr ⟨_, hjournal, rfl⟩
  · intro _
    rw [hload]
    rfl

/-- Where a run stands at a crash point. -/
structure Passable (os : Platform) (stateRoot runId : String) (s : RunState) : Prop where
  stage : Unsettled runId s ∨ s.memory.stage.terminal = true
  loads : LoadsWhenConsistent os stateRoot runId s.store

theorem Unsettled.not_completedOnDisk {s : RunState} (h : Unsettled runId s) :
    ¬ CompletedOnDisk runId s.store := by
  rintro ⟨file, hfile, hstage⟩
  have hopen := h.journal.disk file hfile
  rw [hstage] at hopen
  cases hopen

theorem passable_of_unsettled {os : Platform} (hid : validateRunId runId = .ok ()) {s : RunState}
    (h : Unsettled runId s) : Passable os stateRoot runId s :=
  ⟨.inl h, loadsWhenConsistent_of_open hid h.not_completedOnDisk⟩

/-- Recording a failure does not complete the journal. -/
theorem loadsWhenConsistent_settle {os : Platform} (hid : validateRunId runId = .ok ())
    {s : RunState} (result : Result LocalResultRecord) (h : Passable os stateRoot runId s) :
    LoadsWhenConsistent os stateRoot runId (settle env (s, result)).1.store := by
  cases result with
  | ok record => exact h.loads
  | error e =>
      rcases h.stage with hopen | hterminal
      · refine loadsWhenConsistent_of_open hid ?_
        rintro ⟨file, hfile, hstage⟩
        obtain ⟨session, recorded, hfail, hdisk, -⟩ := settle_error env s e
        rw [hopen.own] at hfail hdisk
        have hnever := @RunJournal.not_completed_of_fail e (env.effects (.fail e)) _ hopen.journal
        rw [hfail, ← hdisk] at hnever
        exact hnever file hfile hstage
      · rw [(@settle_of_terminal env s e hterminal).1]
        exact h.loads

theorem watches_action {α : Type} (x : RunAction α) : Watches (watch RunState.store x) x :=
  watches_watch _ x

theorem watches_savedLoaded {os : Platform} (provider : String) (loaded : RunInput.LoadedRun)
    (judgeModel : Option String) :
    Watches (savedLoaded (watch RunState.store) os options env runId provider loaded judgeModel)
      (savedLoaded (m := Action RunState String) (fun x => x) os options env runId provider loaded
        judgeModel) := by
  refine Watches.bind (watches_action _) fun _ => Watches.bind (watches_action _) fun _ =>
    Watches.bind (watches_action _) fun _ => Watches.bind (watches_action _) fun _ =>
    Watches.bind (watches_action _) fun _ => Watches.bind (watches_action _) fun _ => ?_
  exact Watches.bind (watches_action _) fun _ => Watches.bind (watches_action _) fun _ =>
    Watches.bind (watches_action _) fun _ => watches_action _

theorem watches_savedProgram (runId : String) :
    Watches (savedProgram (watch RunState.store) host options env runId)
      (savedRecord host options env runId) := by
  refine Watches.bind (watches_action _) fun _ => Watches.bind (watches_action _) fun _ =>
    Watches.bind (watches_action _) fun _ => Watches.bind (watches_action _) fun _ => ?_
  refine Watches.bind (watches_action _) fun _ => Watches.bind (watches_action _) fun _ =>
    Watches.bind (watches_action _) fun _ => Watches.bind (watches_action _) fun _ => ?_
  exact Watches.bind (watches_action _) fun _ => watches_savedLoaded _ _ _

theorem watches_program (runId : String) :
    Watches (program (watch RunState.store) host stateRoot options env runId)
      (executeInner host stateRoot options env runId) := by
  rw [executeInner_eq_program]
  exact Watches.bind (watches_savedProgram runId) fun _ => Watches.bind (watches_watch _ _) fun _ =>
    Watches.bind (watches_watch _ _) fun _ => watches_pure _

/-- What is noted while a run passes. -/
abbrev Passed (os : Platform) (stateRoot runId : String) : RunState × List ResultStore → Prop :=
  Noted (Passable os stateRoot runId) (LoadsWhenConsistent os stateRoot runId)

/-- Completing the journal of the saved record is passable, whether it lands or not. -/
theorem passable_complete {os : Platform} (hsha : os.HexDigests) (hanswered : env.Answered os)
    (hid : validateRunId runId = .ok ()) {t : RunState} (h : Saved os env runId record t)
    (hopen : Unsettled runId t) :
    Passable os stateRoot runId (journal env
      (.complete (ResultRecord.resultPath stateRoot runId) record.resultDigest) t).1 := by
  by_cases hlands : (env.effects
      (.complete (ResultRecord.resultPath stateRoot runId) record.resultDigest)).Lands
  · obtain ⟨now, hcompleted⟩ := journal_complete_of_lands h hlands
    rw [hcompleted]
    exact ⟨.inr rfl, loadsWhenConsistent_of_completed hsha hanswered h now⟩
  · obtain ⟨hstore, hstage, -⟩ := journal_complete_of_not_lands h hlands
    refine ⟨.inr (congrArg RunStage.terminal hstage), ?_⟩
    rw [hstore]
    exact (passable_of_unsettled hid hopen).loads

theorem passed_publishLatest {os : Platform} :
    Keeps (fun p q => Passed os stateRoot runId p → Passed os stateRoot runId q)
      (watch RunState.store (publishLatest os stateRoot runId env.published)) :=
  keeps_watch (fun _ h => h.loads) (fun _ h => h)

theorem passed_program (hsha : host.os.HexDigests) (hanswered : env.Answered host.os)
    (hid : validateRunId runId = .ok ()) {start : RunState} (hopen : Unsettled runId start)
    (hplanned : start.memory.stage = .planned) (hloadable : Loadable start.memory.toJournalFile) :
    Passed host.os stateRoot runId
      (program (watch RunState.store) host stateRoot options env runId
        (start, [start.store])).1 := by
  have hloads : ∀ s, Unsettled runId s → LoadsWhenConsistent host.os stateRoot runId s.store :=
    fun s h => (passable_of_unsettled hid h).loads
  have hkeeps := @unsettled_savedProgram host options env runId _
    (fun p q => Noted (Unsettled runId) (LoadsWhenConsistent host.os stateRoot runId) p →
      Noted (Unsettled runId) (LoadsWhenConsistent host.os stateRoot runId) q)
    (watch RunState.store) (fun _ _ _ hst htr hs => htr (hst hs))
    (fun x hx => keeps_watch hloads hx) (start, [start.store])
  have hwatched := @watches_savedProgram host options env runId (start, [start.store])
  change Passed host.os stateRoot runId (Action.bind (savedProgram (watch RunState.store) host options
    env runId) _ (start, [start.store])).1
  unfold Action.bind
  generalize savedProgram (watch RunState.store) host options env runId (start, [start.store]) =
    outcome at hkeeps hwatched ⊢
  have hnoted := hkeeps ⟨hopen, by simpa using hloads start hopen⟩
  rcases outcome with ⟨⟨t, notes⟩, e | record⟩
  · exact ⟨passable_of_unsettled hid hnoted.1, hnoted.2⟩
  · have hsaved := savedRecord_ok hopen.own hplanned hloadable hwatched.symm
    have hcomplete : Passable host.os stateRoot runId _ :=
      passable_complete hsha hanswered hid hsaved hnoted.1
    have hpassed : Passed host.os stateRoot runId (watch RunState.store (journal env
        (.complete (ResultRecord.resultPath stateRoot runId) record.resultDigest)) (t, notes)).1 :=
      ⟨hcomplete, fun v hv => (List.mem_append.mp hv).elim (hnoted.2 v)
        fun hv => List.mem_singleton.mp hv ▸ hcomplete.loads⟩
    have hrest := Keeps.bind (fun _ _ _ hst htr hs => htr (hst hs))
      (@passed_publishLatest stateRoot env runId host.os)
      (fun _ => keeps_lift (fun _ h => h) (.ok record))
    change Passed host.os stateRoot runId (Action.bind (watch RunState.store (journal env
      (.complete (ResultRecord.resultPath stateRoot runId) record.resultDigest))) _ (t, notes)).1
    unfold Action.bind
    generalize watch RunState.store (journal env
      (.complete (ResultRecord.resultPath stateRoot runId) record.resultDigest)) (t, notes) =
      completed at hpassed ⊢
    rcases completed with ⟨p, e | _⟩
    · exact hpassed
    · exact hrest p hpassed

end Passing

section Stores

variable (host : Host) (stateRoot : String) (options : RunOptions) (env : Surroundings)
  (files : RunFiles)

/-- The stores a begun run passes, its settlement last. -/
theorem crashStores_of_begun (hbegun : env.begun = .stored) :
    crashStores host stateRoot options env files =
      let start := begunState stateRoot options env files
      let outcome := program (watch RunState.store) host stateRoot options env env.runId
        (start, [start.store])
      outcome.1.2 ++ [(settle env (outcome.1.1, outcome.2)).1.store] := by
  unfold crashStores
  rw [hbegun]
  rfl

theorem getLast?_crashStores (hbegun : env.begun = .stored) :
    (crashStores host stateRoot options env files).getLast? =
      some (executeOptions host stateRoot options env files).1.store := by
  have hwatched := @watches_program host stateRoot options env env.runId
    (begunState stateRoot options env files, [(begunState stateRoot options env files).store])
  rw [crashStores_of_begun host stateRoot options env files hbegun,
    executeOptions_of_begun hbegun, ← hwatched]
  exact List.getLast?_concat

theorem loadsWhenConsistent_of_mem_crashStores (hsha : host.os.HexDigests)
    (hanswered : env.Answered host.os) :
    ∀ store ∈ crashStores host stateRoot options env files,
      LoadsWhenConsistent host.os stateRoot env.runId store := by
  have hid : validateRunId env.runId = .ok () := RunJournal.validateRunId_beginRunId _ _ _
  cases hbegun : env.begun with
  | stored =>
      rw [crashStores_of_begun host stateRoot options env files hbegun]
      have hpassed := @passed_program host stateRoot options env _ hsha hanswered hid
        (begunState stateRoot options env files) unsettled_begunState rfl loadable_begunState
      intro store hstore
      rcases List.mem_append.mp hstore with hnoted | hsettled
      · exact hpassed.2 store hnoted
      · rw [List.mem_singleton.mp hsettled]
        exact loadsWhenConsistent_settle hid _ hpassed.1
  | refused e =>
      have hstores : crashStores host stateRoot options env files =
          [{ files.store with
              journals := Function.update files.store.journals env.runId none }] := by
        unfold crashStores
        rw [hbegun]
        rfl
      rw [hstores, List.forall_mem_singleton]
      refine loadsWhenConsistent_of_open hid ?_
      rintro ⟨file, hfile, -⟩
      have hnone := (Function.update_self env.runId none files.store.journals).symm.trans hfile
      cases hnone
  | unsynced e =>
      have hstores : crashStores host stateRoot options env files =
          [(begunState stateRoot options env files).store] := by
        unfold crashStores
        rw [hbegun]
        rfl
      rw [hstores, List.forall_mem_singleton]
      exact (passable_of_unsettled hid unsettled_begunState).loads

theorem saved_mem_crashStores (hbegun : env.begun = .stored) {t : RunState}
    {record : LocalResultRecord}
    (hrun : savedRecord host options env env.runId (begunState stateRoot options env files) =
      (t, .ok record)) : t.store ∈ crashStores host stateRoot options env files := by
  let start := begunState stateRoot options env files
  have htrans : ∀ p q r : RunState × List ResultStore, q.1.store ∈ q.2 ∧ p.2 ⊆ q.2 →
      r.1.store ∈ r.2 ∧ q.2 ⊆ r.2 → r.1.store ∈ r.2 ∧ p.2 ⊆ r.2 :=
    fun _ _ _ hpq hqr => ⟨hqr.1, List.Subset.trans hpq.2 hqr.2⟩
  have hnotes := @unsettled_savedProgram host options env env.runId _ _ (watch RunState.store) htrans
    (fun x _ => keeps_notes RunState.store x) (start, [start.store])
  have hwatched := @watches_savedProgram host options env env.runId (start, [start.store])
  rw [hrun] at hwatched
  rw [crashStores_of_begun host stateRoot options env files hbegun]
  refine List.mem_append_left _ ?_
  change t.store ∈ (Action.bind (savedProgram (watch RunState.store) host options env env.runId) _
    (start, [start.store])).1.2
  unfold Action.bind
  generalize savedProgram (watch RunState.store) host options env env.runId (start, [start.store]) =
    outcome at hnotes hwatched ⊢
  rcases outcome with ⟨⟨r, notes⟩, e | saved⟩
  · cases hwatched
  · obtain ⟨rfl, -⟩ := Prod.mk.inj hwatched
    have hforgets : ∀ p q r : RunState × List ResultStore, p.2 ⊆ q.2 → q.2 ⊆ r.2 → p.2 ⊆ r.2 :=
      fun _ _ _ => List.Subset.trans
    have hrest := Keeps.bind hforgets
      (fun p => (keeps_notes RunState.store (journal env
        (.complete (ResultRecord.resultPath stateRoot env.runId) saved.resultDigest)) p).2)
      fun _ => Keeps.bind hforgets
        (fun p => (keeps_notes RunState.store
          (publishLatest host.os stateRoot env.runId env.published) p).2)
        fun _ => keeps_lift (fun p => List.Subset.refl p.2) (.ok saved)
    exact hrest (r, notes) hnotes.1

theorem not_loaded_of_saved {t : RunState} {record : LocalResultRecord}
    (hrun : savedRecord host options env env.runId (begunState stateRoot options env files) =
      (t, .ok record)) :
    (ResultRecord.load host.os stateRoot t.store env.runId).isOk = false := by
  have hsaved : Saved host.os env env.runId record t :=
    savedRecord_ok rfl rfl loadable_begunState hrun
  have hkeeps : StaysUnsettled env.runId (begunState stateRoot options env files)
      (savedRecord host options env env.runId (begunState stateRoot options env files)).1 :=
    unsettled_savedRecord _
  rw [hrun] at hkeeps
  have hopen := hkeeps unsettled_begunState
  have hloads : LoadsWhenConsistent host.os stateRoot env.runId t.store :=
    (passable_of_unsettled (RunJournal.validateRunId_beginRunId _ _ _) hopen).loads
  rw [Bool.eq_false_iff]
  intro hok
  rcases hloads.mp hok with hnone | hcompleted
  · rw [hsaved.stored] at hnone
    cases hnone
  · exact hopen.not_completedOnDisk hcompleted

end Stores

section Sample

open Suite (sampleSurroundings)

theorem answered_sample (os : Platform) : (sampleSurroundings 1 0).Answered os := by
  rintro _ ⟨⟩
  exact ⟨300, .process (.completed ()), rfl, rfl⟩

end Sample

end A3sBench.BenchRun
