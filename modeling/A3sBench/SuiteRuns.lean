import A3sBench.RunCompletion
import A3sBench.Suite

/-!
# Suite runs with interruptions and edits

A suite run is planned, executed, interrupted and resumed; between two processes
its lock files may be replaced by others that the loaders accept, and the rest of
the state root changes all the time. The state file names run ids and the digest
of the suite source. It does not name the digests of the planned locks, and what
ties a report to them is only that each member run found them in place.
-/

namespace A3sBench.Suite

open BenchRun (LocalConfig RunFiles Surroundings)
open Comparison (ComparisonSummary PairComparison Scores)
open Library Library.System
open Lock

/-- The state of one suite run. The last three fields are not stored anywhere:
the directory as it was planned, the lock digests that the loaders gave each run,
and the comparisons reported so far. -/
structure World where
  files : RunFiles
  directory : Option SuiteDirectory
  process : Option Process
  planned : Option SuiteDirectory
  used : String → Option (String × String)
  reports : List ComparisonSummary

inductive Event where
  | plan (source : Result Acl.Document) (runId : String) (config : Result LocalConfig)
      (preflight : Result String)
  | resume (source : Result Acl.Document)
  /-- A statement of the loop whose run is recorded. -/
  | skip
  | member (env : Surroundings) (write : WriteOutcome)
  | compare
  | crash
  | replaceTask (index : Nat) (lock : TaskLock)
  | replaceCandidate (role : Role) (lock : CandidateLock)
  /-- Anything else that happens in the state root. -/
  | elsewhere (files : RunFiles)

/-- The digests of the locks that `load_locks` gives a member run. -/
def loadedDigests (host : Host) (directory : SuiteDirectory) (index : Nat) (role : Role)
    (root : StateRoot) : Option (String × String) :=
  match RunInput.loadLocks host (directory.taskLocks index) (directory.lockOf role) root with
  | .ok (loaded, _) => some (loaded.taskLockDigest, loaded.candidateLockDigest)
  | .error _ => none

def start (state : SuiteRunState) : Process := { state := state, index := 0, role := .baseline }

def SuiteDirectory.replaceCandidate (directory : SuiteDirectory) (role : Role)
    (lock : CandidateLock) : SuiteDirectory :=
  match role with
  | .baseline => { directory with baselineLock := some (.ok lock) }
  | .candidate => { directory with candidateLock := some (.ok lock) }

section Steps

variable (host : Host) (scores : Scores) (stateRoot : String)

def World.afterMember (w : World) (env : Surroundings) (write : WriteOutcome) (process : Process)
    (directory : SuiteDirectory) : World :=
  let (files, written, result) := runMember host stateRoot env write process directory w.files
  { w with
    files := files
    directory := some written
    process := result.toOption
    used := Function.update w.used env.runId
      (loadedDigests host directory process.index process.role w.files.root) }

/-- One process at a time; run ids are fresh, and results are never taken away. -/
def suiteSystem : System World Event where
  init w := w.directory = none ∧ w.process = none ∧ w.planned = none ∧ w.reports = []
  step w event w' := match event with
    | .plan source runId config preflight => w.directory = none ∧
      ∃ spec directory state root, loadSpec host.os source = .ok spec ∧
        planSuite host spec runId config preflight w.files.root = .ok (directory, state, root) ∧
        w' =
          { w with
            files := { w.files with root := root }
            directory := some directory
            planned := some directory
            process := some (start state) }
    | .resume source => w.process = none ∧
      ∃ directory spec state, w.directory = some directory ∧ loadSpec host.os source = .ok spec ∧
        resumeState directory directory.runId spec = .ok state ∧
        w' = { w with process := some (start state) }
    | .skip => ∃ process member, w.process = some process ∧
      process.state.members[process.index]? = some member ∧
      (member.runId process.role).isSome = true ∧ w' = { w with process := some process.next }
    | .member env write => ∃ process directory member, w.process = some process ∧
      w.directory = some directory ∧ process.state.members[process.index]? = some member ∧
      member.runId process.role = none ∧ w.files.store.results env.runId = none ∧
      w' = w.afterMember host stateRoot env write process directory
    | .compare => ∃ process, w.process = some process ∧
      process.index = process.state.members.length ∧
      w' =
        { w with
          process := none
          reports := (compare host.os scores stateRoot w.files.store
            process.state).toOption.toList ++ w.reports }
    | .crash => w' = { w with process := none }
    | .replaceTask index lock => w.process = none ∧ ∃ directory, w.directory = some directory ∧
      (loadTask host (some (.ok lock)) w.files.root).isOk = true ∧
      w' =
        { w with
          directory := some
            { directory with
              taskLocks := Function.update directory.taskLocks index (some (.ok lock)) } }
    | .replaceCandidate role lock => w.process = none ∧
      ∃ directory, w.directory = some directory ∧
        (loadCandidate host (some (.ok lock)) w.files.root).isOk = true ∧
        w' = { w with directory := some (directory.replaceCandidate role lock) }
    | .elsewhere files =>
      (∀ id record, w.files.store.results id = some record →
        files.store.results id = some record) ∧ w' = { w with files := files }

end Steps

/-- The digest a lock file carries. -/
def carried {α : Type} (digest : α → String) (file : LockFile α) : Option String :=
  match file with
  | some (.ok lock) => some (digest lock)
  | _ => none

/-- A member run finds lock files that carry the planned digests. -/
def LocksAsPlanned (w : World) (event : Event) : Prop :=
  ∀ env write, event = .member env write →
    ∀ process ∈ w.process, ∀ directory ∈ w.directory, ∀ plan ∈ w.planned,
      carried TaskLock.lockDigest (directory.taskLocks process.index) =
          carried TaskLock.lockDigest (plan.taskLocks process.index) ∧
        carried CandidateLock.lockDigest (directory.lockOf process.role) =
          carried CandidateLock.lockDigest (plan.lockOf process.role)

/-- The run used the planned locks of its member and side, and its record says so. -/
structure UsedPlanned (w : World) (plan : SuiteDirectory) (index : Nat) (role : Role)
    (runId : String) (task : TaskLock) (lock : CandidateLock) (record : LocalResultRecord) :
    Prop where
  stored : w.files.store.results runId = some record
  plannedTask : plan.taskLocks index = some (.ok task)
  plannedLock : plan.lockOf role = some (.ok lock)
  taskDigest : record.taskLockDigest = task.lockDigest
  lockDigest : record.candidateLockDigest = lock.lockDigest
  used : w.used runId = some (task.lockDigest, lock.lockDigest)

def BoundRun (w : World) (plan : SuiteDirectory) (index : Nat) (role : Role) (runId : String) :
    Prop :=
  ∃ task lock record, UsedPlanned w plan index role runId task lock record

def BoundState (w : World) (plan : SuiteDirectory) (state : SuiteRunState) : Prop :=
  ∀ index member, state.members[index]? = some member →
    ∀ role, ∀ runId ∈ member.runId role, BoundRun w plan index role runId

/-- Every member run of the report used the planned locks. -/
def BoundReport (w : World) (plan : SuiteDirectory) (summary : ComparisonSummary) : Prop :=
  ∀ index row, summary.pairs[index]? = some row →
    BoundRun w plan index .baseline row.baselineRunId ∧
      BoundRun w plan index .candidate row.candidateRunId

/-- The invariant: what is recorded, in the file, in memory and in the reports,
used the planned locks. -/
structure Sound (w : World) : Prop where
  idle : w.directory = none → w.process = none ∧ w.reports = []
  stored : ∀ plan ∈ w.planned, ∀ directory ∈ w.directory, ∀ state,
    directory.state = some (.ok state) → BoundState w plan state
  running : ∀ plan ∈ w.planned, ∀ process ∈ w.process, BoundState w plan process.state
  reports : ∀ plan ∈ w.planned, ∀ summary ∈ w.reports, BoundReport w plan summary

/-- Nothing that is stored, and no lock that a stored run used, has changed. -/
structure Extends (w w' : World) : Prop where
  results : ∀ id record, w.files.store.results id = some record →
    w'.files.store.results id = some record
  used : ∀ id, (w.files.store.results id).isSome = true → w'.used id = w.used id

section Invariant

variable {host : Host} {scores : Scores} {stateRoot : String} {w w' : World}
  {plan directory : SuiteDirectory}

theorem Extends.refl_files (hfiles : w'.files = w.files) (hused : w'.used = w.used) :
    Extends w w' :=
  ⟨fun _ _ h => hfiles ▸ h, fun _ _ => hused ▸ rfl⟩

theorem BoundRun.mono {index : Nat} {role : Role} {runId : String}
    (h : BoundRun w plan index role runId) (hext : Extends w w') :
    BoundRun w' plan index role runId := by
  obtain ⟨task, lock, record, h⟩ := h
  have hused := hext.used runId (by rw [h.stored]; rfl)
  exact ⟨task, lock, record,
    { h with stored := hext.results _ _ h.stored, used := hused.trans h.used }⟩

theorem BoundState.mono {state : SuiteRunState} (h : BoundState w plan state)
    (hext : Extends w w') : BoundState w' plan state :=
  fun index member hmember role runId hrun => (h index member hmember role runId hrun).mono hext

theorem BoundReport.mono {summary : ComparisonSummary} (h : BoundReport w plan summary)
    (hext : Extends w w') : BoundReport w' plan summary :=
  fun index row hrow => ⟨(h index row hrow).1.mono hext, (h index row hrow).2.mono hext⟩

/-- A step that writes no state file and adds no report. -/
theorem Sound.frame (h : Sound w) (hext : Extends w w') (hplan : w'.planned = w.planned)
    (hreports : w'.reports = w.reports)
    (hidle : w'.directory = none → w'.process = none ∧ w.directory = none)
    (hstored : ∀ directory ∈ w'.directory, ∃ before ∈ w.directory,
      directory.state = before.state)
    (hrunning : ∀ plan ∈ w.planned, ∀ process ∈ w'.process, BoundState w plan process.state) :
    Sound w' where
  idle hnone := ⟨(hidle hnone).1, hreports ▸ (h.idle (hidle hnone).2).2⟩
  stored plan hp directory hd state hstate := by
    rw [hplan] at hp
    obtain ⟨before, hbefore, hsame⟩ := hstored directory hd
    exact (h.stored plan hp before hbefore state (hsame ▸ hstate)).mono hext
  running plan hp process hproc := (hrunning plan (hplan ▸ hp) process hproc).mono hext
  reports plan hp summary hs :=
    (h.reports plan (hplan ▸ hp) summary (hreports ▸ hs)).mono hext

theorem boundState_planned (spec : SuiteSpec) (runId : String) :
    BoundState w plan (plannedState spec runId) := by
  intro index member hmember role id hid
  simp only [plannedState, List.getElem?_map, Option.map_eq_some_iff] at hmember
  obtain ⟨task, _, rfl⟩ := hmember
  cases role <;> cases hid

theorem state_of_planSuite {spec : SuiteSpec} {runId : String} {config : Result LocalConfig}
    {preflight : Result String} {root root' : StateRoot} {state : SuiteRunState}
    (h : planSuite host spec runId config preflight root = .ok (directory, state, root')) :
    state = plannedState spec runId ∧ directory.state = some (.ok state) := by
  simp only [planSuite, Result.bind_ok_iff, Result.pure_ok_iff, Prod.mk.injEq] at h
  obtain ⟨_, _, _, _, _, _, _, _, _, _, rfl, rfl, _⟩ := h
  exact ⟨rfl, rfl⟩

theorem readLockFile_ok {α : Type} {file : LockFile α} {value : α}
    (h : readLockFile file = .ok value) : file = some (.ok value) := by
  cases file with
  | none => cases h
  | some content => exact congrArg some h

theorem state_of_resumeState {spec : SuiteSpec} {runId : String} {state : SuiteRunState}
    (h : resumeState directory runId spec = .ok state) : directory.state = some (.ok state) := by
  simp only [resumeState, Result.bind_ok_iff, Result.exists_unit_iff, Result.pure_ok_iff] at h
  obtain ⟨_, _, hread, _, rfl⟩ := h
  exact readLockFile_ok hread

theorem carried_of_loadLocks {taskFile : LockFile TaskLock} {file : LockFile CandidateLock}
    {root root' : StateRoot} {loaded : RunInput.LoadedRun}
    (h : RunInput.loadLocks host taskFile file root = .ok (loaded, root')) :
    carried TaskLock.lockDigest taskFile = some loaded.taskLockDigest ∧
      carried CandidateLock.lockDigest file = some loaded.candidateLockDigest := by
  simp only [RunInput.loadLocks, Result.bind_ok_iff, Result.pure_ok_iff, Prod.mk.injEq] at h
  obtain ⟨task, htask, ⟨⟨lock, artifact⟩, _⟩, hlock, _, _, _, _, _, _, _, _, rfl, _⟩ := h
  simp only [loadTask, Result.bind_ok_iff, Result.pure_ok_iff] at htask
  obtain ⟨taskLock, htask, _, _, _, _, _, _, _, _, _, _, _, _, _, _, _, _, _, _, rfl⟩ := htask
  simp only [loadCandidate, Result.bind_ok_iff, Result.pure_ok_iff, Prod.mk.injEq] at hlock
  obtain ⟨value, hlock, _, _, _, _, _, _, _, _, _, _, ⟨rfl, _⟩, _⟩ := hlock
  rw [readLockFile_ok htask, readLockFile_ok hlock]
  exact ⟨rfl, rfl⟩

/-- A recorded run is known to the state by one more id. -/
theorem BoundState.setRunId {state : SuiteRunState} {index : Nat} {role : Role} {runId : String}
    (h : BoundState w plan state) (hrun : BoundRun w plan index role runId) :
    BoundState w plan (state.setRunId index role runId) := by
  intro index' member hmember role' id hid
  simp only [SuiteRunState.setRunId, List.getElem?_modify] at hmember
  obtain ⟨before, hbefore, rfl⟩ := Option.map_eq_some_iff.mp hmember
  by_cases hindex : index = index'
  · subst hindex
    simp only [if_pos] at hid
    by_cases hrole : role' = role
    · subst hrole
      have hself : (before.setRunId role' runId).runId role' = some runId := by
        cases role' <;> rfl
      rw [hself] at hid
      obtain rfl := Option.mem_some_iff.mp hid
      exact hrun
    · have hother : (before.setRunId role runId).runId role' = before.runId role' := by
        cases role <;> cases role' <;> first | rfl | exact absurd rfl hrole
      rw [hother] at hid
      exact h index before hbefore role' id hid
  · rw [if_neg hindex] at hid
    exact h index' before hbefore role' id hid

theorem next_state (process : Process) : process.next.state = process.state := by
  rcases process with ⟨_, _, _ | _⟩ <;> rfl

/-- What one statement of the loop does: the files are those of the run, and
only a completed run gets into the state. -/
theorem runMember_cases {env : Surroundings} {write : WriteOutcome} {process : Process}
    {files : RunFiles} {outcome : RunFiles × SuiteDirectory × Result Process}
    (h : runMember host stateRoot env write process directory files = outcome) :
    outcome.1 = (BenchRun.executeOptions host stateRoot
        (memberOptions stateRoot directory process.index process.role) env files).1 ∧
      (outcome.2.1 = directory ∧ outcome.2.2.toOption = none ∨
        ∃ record state, BenchRun.executeOptions host stateRoot
            (memberOptions stateRoot directory process.index process.role) env files =
              (outcome.1, .ok record) ∧
          state = process.state.setRunId process.index process.role record.runId ∧
          (outcome.2.1.state = directory.state ∨ outcome.2.1.state = some (.ok state)) ∧
          ∀ p ∈ outcome.2.2.toOption, p.state = state) := by
  subst h
  unfold runMember
  dsimp only
  generalize BenchRun.executeOptions host stateRoot
    (memberOptions stateRoot directory process.index process.role) env files = run
  rcases run with ⟨files', e | record⟩
  · exact ⟨rfl, .inl ⟨rfl, rfl⟩⟩
  · refine ⟨rfl, .inr ⟨record, _, rfl, rfl, ?_⟩⟩
    cases write with
    | stored =>
      refine ⟨.inr rfl, fun p hp => ?_⟩
      obtain rfl := Option.some.inj hp
      exact next_state _
    | refused e => exact ⟨.inl rfl, fun p hp => by cases hp⟩
    | unsynced e => exact ⟨.inr rfl, fun p hp => by cases hp⟩

theorem extends_afterMember {env : Surroundings} {write : WriteOutcome} {process : Process}
    (hfresh : w.files.store.results env.runId = none) :
    Extends w (w.afterMember host stateRoot env write process directory) := by
  have hother : ∀ id, (w.files.store.results id).isSome = true → id ≠ env.runId := by
    rintro id hid rfl
    rw [hfresh] at hid
    cases hid
  constructor
  · intro id record hrecord
    have hid := hother id (by rw [hrecord]; rfl)
    have hkept := BenchRun.othersKept_executeOptions host stateRoot
      (memberOptions stateRoot directory process.index process.role) env w.files
    simp only [World.afterMember, (runMember_cases rfl).1]
    exact (hkept.results id hid).trans hrecord
  · intro id hid
    exact Function.update_of_ne (hother id hid) _ _

/-- The run of a member step is bound when it found the planned digests. -/
theorem boundRun_afterMember {env : Surroundings} {write : WriteOutcome} {process : Process}
    {files : RunFiles} {record : LocalResultRecord}
    (hfiles : (w.afterMember host stateRoot env write process directory).files = files)
    (hrun : BenchRun.executeOptions host stateRoot
      (memberOptions stateRoot directory process.index process.role) env w.files =
        (files, .ok record))
    (htask : carried TaskLock.lockDigest (directory.taskLocks process.index) =
      carried TaskLock.lockDigest (plan.taskLocks process.index))
    (hlock : carried CandidateLock.lockDigest (directory.lockOf process.role) =
      carried CandidateLock.lockDigest (plan.lockOf process.role)) :
    BoundRun (w.afterMember host stateRoot env write process directory) plan process.index
      process.role record.runId := by
  have hplanned : ∀ {α : Type} {digest : α → String} {file : LockFile α} {d : String},
      carried digest file = some d → ∃ value, file = some (.ok value) ∧ digest value = d := by
    intro α digest file d h
    unfold carried at h
    split at h
    · exact ⟨_, rfl, Option.some.inj h⟩
    · cases h
  obtain ⟨⟨loaded, root, hload, hrecordTask, hrecordLock⟩, hid, hstored⟩ :=
    BenchRun.executeOptions_ok hrun
  obtain ⟨hfileTask, hfileLock⟩ := carried_of_loadLocks hload
  obtain ⟨task, hplanTask, htaskDigest⟩ := hplanned (htask.symm.trans hfileTask)
  obtain ⟨lock, hplanLock, hlockDigest⟩ := hplanned (hlock.symm.trans hfileLock)
  have hdigests : loadedDigests host directory process.index process.role w.files.root =
      some (loaded.taskLockDigest, loaded.candidateLockDigest) := by
    unfold loadedDigests
    rw [show RunInput.loadLocks host (directory.taskLocks process.index)
      (directory.lockOf process.role) w.files.root = .ok (loaded, root) from hload]
  refine ⟨task, lock, record, ?_, hplanTask, hplanLock, hrecordTask.trans htaskDigest.symm,
    hrecordLock.trans hlockDigest.symm, ?_⟩
  · rw [hid, hfiles]
    exact hstored
  · rw [hid, htaskDigest, hlockDigest, ← hdigests]
    exact Function.update_self _ _ _

theorem sound_member {env : Surroundings} {write : WriteOutcome} {process : Process}
    (h : Sound w) (hguard : LocksAsPlanned w (.member env write))
    (hproc : w.process = some process) (hdir : w.directory = some directory)
    (hfresh : w.files.store.results env.runId = none) :
    Sound (w.afterMember host stateRoot env write process directory) := by
  have hext := @extends_afterMember host stateRoot w directory env write process hfresh
  obtain ⟨-, hcases⟩ :=
    @runMember_cases host stateRoot directory env write process w.files _ rfl
  have hstate : ∀ plan ∈ w.planned, ∀ record state,
      BenchRun.executeOptions host stateRoot
          (memberOptions stateRoot directory process.index process.role) env w.files =
        ((runMember host stateRoot env write process directory w.files).1, .ok record) →
      state = process.state.setRunId process.index process.role record.runId →
      BoundState (w.afterMember host stateRoot env write process directory) plan state := by
    rintro plan hplan record state hrun rfl
    obtain ⟨htask, hlock⟩ := hguard env write rfl process hproc directory hdir plan hplan
    exact ((h.running plan hplan process hproc).mono hext).setRunId
      (boundRun_afterMember rfl hrun htask hlock)
  constructor
  · exact fun hnone => by cases hnone
  · rintro plan hplan written hwritten state hstored
    have hdirectory : written =
        (runMember host stateRoot env write process directory w.files).2.1 :=
      (Option.some.inj hwritten).symm
    rw [hdirectory] at hstored
    rcases hcases with ⟨hsame, -⟩ | ⟨record, new, hrun, hnew, hkept | hput, -⟩
    · rw [hsame] at hstored
      exact (h.stored plan hplan directory hdir state hstored).mono hext
    · rw [hkept] at hstored
      exact (h.stored plan hplan directory hdir state hstored).mono hext
    · obtain rfl := Except.ok.inj (Option.some.inj (hput.symm.trans hstored))
      exact hstate plan hplan record new hrun hnew
  · rintro plan hplan next hnext
    rcases hcases with ⟨-, hnone⟩ | ⟨record, new, hrun, hnew, -, hstates⟩
    · rw [show (w.afterMember host stateRoot env write process directory).process = none from
        hnone] at hnext
      cases hnext
    · rw [hstates next hnext]
      exact hstate plan hplan record new hrun hnew
  · exact fun plan hplan summary hsummary => (h.reports plan hplan summary hsummary).mono hext

theorem exists_of_forall₂ {α β : Type} {R : α → β → Prop} {l : List α} {l' : List β}
    (h : List.Forall₂ R l l') {index : Nat} {b : β} (hb : l'[index]? = some b) :
    ∃ a, l[index]? = some a ∧ R a b := by
  induction h generalizing index with
  | nil => cases hb
  | @cons a _ _ _ hab _ ih =>
    cases index with
    | zero =>
      obtain rfl := Option.some.inj hb
      exact ⟨a, rfl, hab⟩
    | succ index => exact ih hb

theorem loadResult_ok {os : Platform} {store : ResultRecord.ResultStore} {role : Role}
    {runId : String} {record : LocalResultRecord}
    (h : loadResult os stateRoot store role runId = .ok record) :
    store.results runId = some record ∧ record.runId = runId := by
  simp only [loadResult, Result.bind_ok_iff, Result.okOr_ok_iff] at h
  obtain ⟨_, hload, rfl⟩ := h
  exact ResultRecord.load_ok hload

/-- A comparison has one row for each member, about the runs the member has. -/
theorem members_of_compare {os : Platform} {store : ResultRecord.ResultStore}
    {state : SuiteRunState} {summary : ComparisonSummary}
    (h : compare os scores stateRoot store state = .ok summary) :
    summary.pairs.length = state.members.length ∧
      ∀ (index : Nat) (row : PairComparison), summary.pairs[index]? = some row →
        ∃ member : SuiteMemberState, state.members[index]? = some member ∧
          member.baselineRunId = some row.baselineRunId ∧
          member.candidateRunId = some row.candidateRunId := by
  simp only [compare, Result.bind_ok_iff] at h
  obtain ⟨pairs, hpairs, hsummary⟩ := h
  have hrows := Comparison.reports_of_comparePairs hsummary
  have hmembers := Result.forall₂_of_mapM hpairs
  refine ⟨(hmembers.length_eq.trans hrows.length_eq).symm, fun index row hrow => ?_⟩
  obtain ⟨pair, hpair, hreports⟩ := exists_of_forall₂ hrows hrow
  obtain ⟨member, hmember, hload⟩ := exists_of_forall₂ hmembers hpair
  simp only [loadPair, Result.bind_ok_iff, Result.okOr_ok_iff, Result.pure_ok_iff] at hload
  obtain ⟨baselineId, hbaseline, candidateId, hcandidate, baseline, hloadBaseline, candidate,
    hloadCandidate, rfl⟩ := hload
  refine ⟨member, hmember, ?_, ?_⟩
  · rw [hbaseline, hreports.row_eq]
    exact congrArg some (loadResult_ok hloadBaseline).2.symm
  · rw [hcandidate, hreports.row_eq]
    exact congrArg some (loadResult_ok hloadCandidate).2.symm

theorem bound_of_compare {os : Platform} {state : SuiteRunState} {summary : ComparisonSummary}
    (hbound : BoundState w plan state)
    (h : compare os scores stateRoot w.files.store state = .ok summary) :
    BoundReport w plan summary := by
  intro index row hrow
  obtain ⟨member, hmember, hbaseline, hcandidate⟩ := (members_of_compare h).2 index row hrow
  exact ⟨hbound index member hmember .baseline _ hbaseline,
    hbound index member hmember .candidate _ hcandidate⟩

theorem sound_step {event : Event} (h : Sound w) (hguard : LocksAsPlanned w event)
    (hstep : (suiteSystem host scores stateRoot).step w event w') : Sound w' := by
  cases event with
  | plan source runId config preflight =>
    obtain ⟨hnone, spec, directory, state, root, -, hplan, rfl⟩ := hstep
    obtain ⟨rfl, hfile⟩ := state_of_planSuite hplan
    constructor
    · exact fun hnone => by cases hnone
    · rintro plan hplan written hwritten stored hstored
      obtain rfl := Option.some.inj hwritten
      obtain rfl := Except.ok.inj (Option.some.inj (hfile.symm.trans hstored))
      exact boundState_planned spec runId
    · rintro plan hplan process hprocess
      obtain rfl := Option.some.inj hprocess
      exact boundState_planned spec runId
    · rintro plan hplan summary hsummary
      rw [show w.reports = [] from (h.idle hnone).2] at hsummary
      cases hsummary
  | resume source =>
    obtain ⟨-, directory, spec, state, hdir, -, hresume, rfl⟩ := hstep
    refine h.frame (.refl_files rfl rfl) rfl rfl (fun hnone => ?_) (fun d hd => ⟨d, hd, rfl⟩) ?_
    · rw [hdir] at hnone
      cases hnone
    · rintro plan hplan process hprocess
      obtain rfl := Option.some.inj hprocess
      exact h.stored plan hplan directory hdir state (state_of_resumeState hresume)
  | skip =>
    obtain ⟨process, member, hproc, -, -, rfl⟩ := hstep
    refine h.frame (.refl_files rfl rfl) rfl rfl (fun hnone => ?_) (fun d hd => ⟨d, hd, rfl⟩) ?_
    · rw [(h.idle hnone).1] at hproc
      cases hproc
    · rintro plan hplan next hnext
      obtain rfl := Option.some.inj hnext
      rw [next_state]
      exact h.running plan hplan process hproc
  | member env write =>
    obtain ⟨process, directory, member, hproc, hdir, -, -, hfresh, rfl⟩ := hstep
    exact sound_member h hguard hproc hdir hfresh
  | compare =>
    obtain ⟨process, hproc, -, rfl⟩ := hstep
    constructor
    · intro hnone
      rw [(h.idle hnone).1] at hproc
      cases hproc
    · exact fun plan hplan d hd state hstate => (h.stored plan hplan d hd state hstate).mono
        (.refl_files rfl rfl)
    · exact fun plan hplan p hp => by cases hp
    · rintro plan hplan summary hsummary
      rcases List.mem_append.mp hsummary with hnew | hold
      · cases hcompare : compare host.os scores stateRoot w.files.store process.state with
        | error e =>
          rw [hcompare] at hnew
          cases hnew
        | ok reported =>
          rw [hcompare] at hnew
          obtain rfl := List.mem_singleton.mp hnew
          exact (bound_of_compare (h.running plan hplan process hproc) hcompare).mono
            (.refl_files rfl rfl)
      · exact (h.reports plan hplan summary hold).mono (.refl_files rfl rfl)
  | crash =>
    obtain rfl := hstep
    exact h.frame (.refl_files rfl rfl) rfl rfl (fun hnone => ⟨rfl, hnone⟩)
      (fun d hd => ⟨d, hd, rfl⟩) (fun _ _ _ hp => by cases hp)
  | replaceTask index lock =>
    obtain ⟨hproc, directory, hdir, -, rfl⟩ := hstep
    refine h.frame (.refl_files rfl rfl) rfl rfl (fun hnone => by cases hnone) ?_ ?_
    · rintro d hd
      obtain rfl := Option.some.inj hd
      exact ⟨directory, hdir, rfl⟩
    · rintro plan hplan process hprocess
      rw [hproc] at hprocess
      cases hprocess
  | replaceCandidate role lock =>
    obtain ⟨hproc, directory, hdir, -, rfl⟩ := hstep
    refine h.frame (.refl_files rfl rfl) rfl rfl (fun hnone => by cases hnone) ?_ ?_
    · rintro d hd
      obtain rfl := Option.some.inj hd
      exact ⟨directory, hdir, by cases role <;> rfl⟩
    · rintro plan hplan process hprocess
      rw [hproc] at hprocess
      cases hprocess
  | elsewhere files =>
    obtain ⟨hresults, rfl⟩ := hstep
    exact h.frame ⟨hresults, fun _ _ => rfl⟩ rfl rfl (fun hnone => ⟨(h.idle hnone).1, hnone⟩)
      (fun d hd => ⟨d, hd, rfl⟩) h.running

end Invariant

end A3sBench.Suite
