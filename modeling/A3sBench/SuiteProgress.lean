import A3sBench.SuiteReports

/-!
# The progress of a suite run

One process at a time plans a suite or resumes it with the same source, and may
be killed between any two of its effects. What counts is the state file: it is
replaced atomically, and a resumed process knows nothing else.
-/

namespace A3sBench.SuiteProgress

open BenchRun (LocalConfig RunFiles Surroundings)
open Comparison (ComparisonSummary PairComparison Scores)
open Library Library.System
open Lock (Host sampleHost sampleState)
open Suite

/-- Where the loop of `execute` stands. -/
inductive Phase where
  | statement (process : Process)
  /-- The member run is done, its id not yet in the state file. -/
  | executed (process : Process) (record : LocalResultRecord)

def Phase.process : Phase → Process
  | .statement process => process
  | .executed process _ => process

structure World where
  files : RunFiles
  directory : Option SuiteDirectory
  running : Option Phase
  reports : List ComparisonSummary

inductive Event where
  | plan (runId : String) (config : Result LocalConfig) (preflight : Result String)
  | resume
  /-- A statement of the loop whose run is recorded. -/
  | skip
  | execute (env : Surroundings)
  | persist (write : WriteOutcome)
  | compare
  /-- The process dies, in the middle of a member run or elsewhere. -/
  | kill (files : RunFiles)
  /-- Anything that other processes do in the state root. -/
  | elsewhere (files : RunFiles)

/-- The state that the file holds. -/
def persisted (w : World) : Option SuiteRunState :=
  match w.directory with
  | some { state := some (.ok state), .. } => some state
  | _ => none

def runIdAt (state : SuiteRunState) (index : Nat) (role : Role) : Option String :=
  (state.members[index]?).bind (fun member => member.runId role)

/-- The id of a member run in the state file. -/
def recorded (w : World) (index : Nat) (role : Role) : Option String :=
  (persisted w).bind (fun state => runIdAt state index role)

section Steps

variable (host : Host) (scores : Scores) (stateRoot : String)
  (source : Result Acl.Document)

/-- The process at a statement executes its member run. -/
def execute (w : World) (env : Surroundings) (process : Process) (directory : SuiteDirectory) :
    World :=
  match BenchRun.executeOptions host stateRoot
      (memberOptions stateRoot directory process.index process.role) env w.files with
  | (files, .ok record) => { w with files := files, running := some (.executed process record) }
  | (files, .error _) => { w with files := files, running := none }

/-- `persist_state` after a member run. -/
def persist (w : World) (write : WriteOutcome) (process : Process) (record : LocalResultRecord)
    (directory : SuiteDirectory) : World :=
  let state := process.state.setRunId process.index process.role record.runId
  let (directory, written) := persistState write directory state
  { w with
    directory := some directory
    running :=
      match written with
      | .ok () => some (.statement { process with state := state }.next)
      | .error _ => none }

/-- The comparison that ends the process. -/
def report (w : World) (process : Process) : World :=
  { w with
    running := none
    reports := (compare host.os scores stateRoot w.files.store process.state).toOption.toList ++
      w.reports }

/-- A suite of one source, with one process at a time. -/
def progressSystem : System World Event where
  init w := w.directory = none ∧ w.running = none ∧ w.reports = []
  step w event w' := match event with
    | .plan runId config preflight => w.directory = none ∧ w.running = none ∧
      ∃ spec directory state root, loadSpec host.os source = .ok spec ∧
        planSuite host spec runId config preflight w.files.root = .ok (directory, state, root) ∧
        w' =
          { w with
            files := { w.files with root := root }
            directory := some directory
            running := some (.statement (start state)) }
    | .resume => w.running = none ∧ ∃ spec directory state,
      loadSpec host.os source = .ok spec ∧ w.directory = some directory ∧
      resumeState directory directory.runId spec = .ok state ∧
      w' = { w with running := some (.statement (start state)) }
    | .skip => ∃ process, w.running = some (.statement process) ∧
      (runIdAt process.state process.index process.role).isSome = true ∧
      w' = { w with running := some (.statement process.next) }
    | .execute env => ∃ process directory, w.running = some (.statement process) ∧
      w.directory = some directory ∧ process.index < process.state.members.length ∧
      runIdAt process.state process.index process.role = none ∧
      w' = execute host stateRoot w env process directory
    | .persist write => ∃ process record directory,
      w.running = some (.executed process record) ∧ w.directory = some directory ∧
      w' = persist w write process record directory
    | .compare => ∃ process, w.running = some (.statement process) ∧
      process.index = process.state.members.length ∧ w' = report host scores stateRoot w process
    | .kill files => w' = { w with files := files, running := none }
    | .elsewhere files => w' = { w with files := files }

end Steps

/-! ## The order of the runs -/

/-- Members in the order of the Tasks, the baseline of each before its candidate. -/
def Before (first second : Nat × Role) : Prop :=
  first.1 < second.1 ∨
    (first.1 = second.1 ∧ first.2 = .baseline ∧ second.2 = .candidate)

/-- Every run before this one has its id. -/
def Filled (state : SuiteRunState) (place : Nat × Role) : Prop :=
  ∀ index role, index < state.members.length → Before (index, role) place →
    (runIdAt state index role).isSome = true

/-- No run has its id before all those in front of it. -/
def Ordered (state : SuiteRunState) : Prop :=
  ∀ index role, (runIdAt state index role).isSome = true → Filled state (index, role)

def Process.place (process : Process) : Nat × Role := (process.index, process.role)

theorem before_next {process : Process} {index : Nat} {role : Role}
    (h : Before (index, role) (Process.place process.next)) :
    Before (index, role) (Process.place process) ∨ (index, role) = Process.place process := by
  rcases process with ⟨state, i, _ | _⟩
  · rcases h with h | ⟨h, hrole, -⟩
    · exact .inl (.inl h)
    · obtain rfl : index = i := h
      obtain rfl : role = .baseline := hrole
      exact .inr rfl
  · rcases h with h | ⟨-, -, hrole⟩
    · rcases Nat.lt_succ_iff_lt_or_eq.mp h with h | rfl
      · exact .inl (.inl h)
      · cases role with
        | baseline => exact .inl (.inr ⟨rfl, rfl, rfl⟩)
        | candidate => exact .inr rfl
    · cases hrole

theorem filled_start (state : SuiteRunState) : Filled state (Process.place (start state)) := by
  rintro index role _ (h | ⟨-, -, h⟩)
  · exact absurd h (Nat.not_lt_zero _)
  · cases h

/-- Past a run that has its id. -/
theorem filled_next {process : Process} (h : Filled process.state (Process.place process))
    (hself : (runIdAt process.state process.index process.role).isSome = true) :
    Filled process.state (Process.place process.next) := by
  intro index role hindex hbefore
  rcases before_next hbefore with hbefore | hplace
  · exact h index role hindex hbefore
  · obtain ⟨rfl, rfl⟩ := Prod.mk.inj hplace
    exact hself

section SetRunId

variable {state : SuiteRunState} {index : Nat} {role : Role} {id : String}

@[simp] theorem length_setRunId :
    (state.setRunId index role id).members.length = state.members.length :=
  List.length_modify ..

theorem runIdAt_setRunId_self (h : index < state.members.length) :
    runIdAt (state.setRunId index role id) index role = some id := by
  have hmember := List.getElem?_eq_getElem h
  simp only [runIdAt, SuiteRunState.setRunId, List.getElem?_modify, hmember]
  cases role <;> simp [SuiteMemberState.setRunId, SuiteMemberState.runId]

theorem runIdAt_setRunId_of_ne {index' : Nat} {role' : Role} (h : (index', role') ≠ (index, role)) :
    runIdAt (state.setRunId index role id) index' role' = runIdAt state index' role' := by
  simp only [runIdAt, SuiteRunState.setRunId, List.getElem?_modify]
  by_cases hindex : index = index'
  · subst hindex
    have hrole : role' ≠ role := fun h' => h (by rw [h'])
    cases state.members[index]? with
    | none => rfl
    | some member =>
      have hother : (member.setRunId role id).runId role' = member.runId role' := by
        cases role <;> cases role' <;> first | rfl | exact absurd rfl hrole
      simpa using hother
  · cases state.members[index']? <;> simp [hindex]

theorem isSome_runIdAt_setRunId {index' : Nat} {role' : Role} (hindex : index < state.members.length)
    (h : (runIdAt state index' role').isSome = true) :
    (runIdAt (state.setRunId index role id) index' role').isSome = true := by
  by_cases hplace : (index', role') = (index, role)
  · obtain ⟨rfl, rfl⟩ := Prod.mk.inj hplace
    rw [runIdAt_setRunId_self hindex]
    rfl
  · rwa [runIdAt_setRunId_of_ne hplace]

theorem Filled.setRunId {place : Nat × Role} (h : Filled state place)
    (hindex : index < state.members.length) : Filled (state.setRunId index role id) place := by
  intro index' role' hlength hbefore
  rw [length_setRunId] at hlength
  exact isSome_runIdAt_setRunId hindex (h index' role' hlength hbefore)

theorem Ordered.setRunId (h : Ordered state) (hindex : index < state.members.length)
    (hfilled : Filled state (index, role)) : Ordered (state.setRunId index role id) := by
  intro index' role' hsome
  by_cases hplace : (index', role') = (index, role)
  · rw [hplace]
    exact hfilled.setRunId hindex
  · rw [runIdAt_setRunId_of_ne hplace] at hsome
    exact (h index' role' hsome).setRunId hindex

end SetRunId

/-! ## What `validate_state` accepts -/

structure Valid (spec : SuiteSpec) (runId : String) (state : SuiteRunState) : Prop where
  schema : state.schema = "a3s.bench.suite-run.v1"
  suiteRunId : state.suiteRunId = runId
  suite : state.suiteId = spec.id ∧ state.specDigest = spec.digest
  tasks : state.members.map SuiteMemberState.taskReference = spec.tasks
  ids : ∀ member ∈ state.members, ∀ role, ∀ id ∈ member.runId role, validateRunId id = .ok ()

theorem Valid.validateState {spec : SuiteSpec} {runId : String} {state : SuiteRunState}
    (h : Valid spec runId state) : Suite.validateState state runId spec = .ok () := by
  simp only [Suite.validateState, Result.bind_ok_iff, Result.exists_unit_iff,
    Result.ensure_ok_iff, Result.forM_ok_iff]
  refine ⟨h.schema, h.suiteRunId, h.suite, ?_, ?_⟩
  · rw [← h.tasks, List.length_map]
  · have hpairs : state.members.zip spec.tasks =
        state.members.map (fun member => (member, member.taskReference)) := by
      have := @List.zip_map' _ _ _ id SuiteMemberState.taskReference state.members
      rwa [List.map_id, h.tasks] at this
    rw [hpairs]
    intro pair hpair
    obtain ⟨member, hmember, rfl⟩ := List.mem_map.mp hpair
    simp only [validateMember, Result.bind_ok_iff, Result.exists_unit_iff, Result.ensure_ok_iff,
      Result.forM_ok_iff]
    refine ⟨trivial, List.forall_mem_append.mpr ⟨fun id hid => ?_, fun id hid => ?_⟩⟩
    · exact h.ids member hmember .baseline id (Option.mem_toList.mp hid)
    · exact h.ids member hmember .candidate id (Option.mem_toList.mp hid)

theorem valid_planned (spec : SuiteSpec) (runId : String) :
    Valid spec runId (plannedState spec runId) where
  schema := rfl
  suiteRunId := rfl
  suite := ⟨rfl, rfl⟩
  tasks := by simp [plannedState, Function.comp_def]
  ids := by
    intro member hmember role id hid
    obtain ⟨task, -, rfl⟩ := List.mem_map.mp hmember
    cases role <;> cases hid

theorem runId_setRunId {member : SuiteMemberState} {role role' : Role} {id id' : String}
    (h : id' ∈ (member.setRunId role id).runId role') : id' = id ∨ id' ∈ member.runId role' := by
  cases role <;> cases role' <;>
    first | exact .inr h | exact .inl (Option.mem_some_iff.mp h).symm

theorem runIdAt_planned (spec : SuiteSpec) (runId : String) (index : Nat) (role : Role) :
    runIdAt (plannedState spec runId) index role = none := by
  simp only [runIdAt, plannedState, List.getElem?_map]
  cases spec.tasks[index]? <;> cases role <;> rfl

theorem planned_of_planSuite {host : Host} {spec : SuiteSpec} {runId : String}
    {config : Result LocalConfig} {preflight : Result String} {root root' : Lock.StateRoot}
    {state : SuiteRunState} {directory : SuiteDirectory}
    (h : planSuite host spec runId config preflight root = .ok (directory, state, root')) :
    state = plannedState spec runId ∧ directory.state = some (.ok state) ∧
      directory.runId = runId := by
  simp only [planSuite, Result.bind_ok_iff, Result.pure_ok_iff, Prod.mk.injEq] at h
  obtain ⟨_, _, _, _, _, _, _, _, _, _, rfl, rfl, _⟩ := h
  exact ⟨rfl, rfl, rfl⟩

theorem Valid.setRunId {spec : SuiteSpec} {runId : String} {state : SuiteRunState} {index : Nat}
    {role : Role} {id : String} (h : Valid spec runId state) (hid : validateRunId id = .ok ()) :
    Valid spec runId (state.setRunId index role id) where
  schema := h.schema
  suiteRunId := h.suiteRunId
  suite := h.suite
  tasks := by
    rw [← h.tasks]
    apply List.ext_getElem?
    intro i
    simp only [SuiteRunState.setRunId, List.getElem?_map, List.getElem?_modify]
    cases state.members[i]? with
    | none => rfl
    | some member => by_cases hi : index = i <;> cases role <;> simp [hi, SuiteMemberState.setRunId]
  ids := by
    intro member hmember role' id' hid'
    obtain ⟨i, hi⟩ := List.mem_iff_getElem?.mp hmember
    simp only [SuiteRunState.setRunId, List.getElem?_modify] at hi
    obtain ⟨old, hold, rfl⟩ := Option.map_eq_some_iff.mp hi
    have holdIds := h.ids old (List.mem_of_getElem? hold)
    split_ifs at hid' with hindex
    · rcases runId_setRunId hid' with rfl | hid'
      · exact hid
      · exact holdIds role' id' hid'
    · exact holdIds role' id' hid'

/-! ## The invariant -/

/-- A report names the recorded runs of every Task. -/
def Reported (spec : SuiteSpec) (w : World) (summary : ComparisonSummary) : Prop :=
  summary.pairs.length = spec.tasks.length ∧
    ∀ index row, summary.pairs[index]? = some row →
      recorded w index .baseline = some row.baselineRunId ∧
        recorded w index .candidate = some row.candidateRunId

structure Consistent (spec : SuiteSpec) (w : World) : Prop where
  idle : w.directory = none → w.running = none
  stored : ∀ directory ∈ w.directory, ∃ state, directory.state = some (.ok state) ∧
    Valid spec directory.runId state ∧ Ordered state
  running : ∀ phase ∈ w.running, persisted w = some phase.process.state ∧
    Filled phase.process.state (Process.place phase.process)
  executed : ∀ process record, w.running = some (.executed process record) →
    process.index < process.state.members.length ∧
      runIdAt process.state process.index process.role = none ∧
      validateRunId record.runId = .ok ()
  reports : ∀ summary ∈ w.reports, Reported spec w summary

/-- What a step does to the state file: nothing, or one more id whose turn it is. -/
inductive Advances (w w' : World) : Prop where
  | same (h : persisted w' = persisted w)
  | planned (h : persisted w = none)
      (h' : ∀ index role, recorded w' index role = none)
  | one (state : SuiteRunState) (index : Nat) (role : Role) (id : String)
      (h : persisted w = some state) (hindex : index < state.members.length)
      (hfree : runIdAt state index role = none) (hfilled : Filled state (index, role))
      (h' : persisted w' = some (state.setRunId index role id))

section Invariant

variable {host : Host} {scores : Scores} {stateRoot : String} {source : Result Acl.Document}
  {spec : SuiteSpec} {w w' : World}

theorem persisted_of_directory {directory : SuiteDirectory} {state : SuiteRunState}
    (hdirectory : w.directory = some directory) (hstate : directory.state = some (.ok state)) :
    persisted w = some state := by
  rcases directory with ⟨_, _, _, _, _⟩
  cases hstate
  rw [persisted, hdirectory]

theorem persisted_congr (h : w'.directory = w.directory) : persisted w' = persisted w := by
  rw [persisted, persisted, h]

theorem recorded_of_persisted {state : SuiteRunState} (h : persisted w = some state) (index : Nat)
    (role : Role) : recorded w index role = runIdAt state index role := by
  rw [recorded, h]
  rfl

theorem Advances.recorded (h : Advances w w') {index : Nat} {role : Role} {id : String}
    (hid : recorded w index role = some id) : recorded w' index role = some id := by
  cases h with
  | same h => rwa [SuiteProgress.recorded, h]
  | planned h _ =>
    rw [SuiteProgress.recorded, h] at hid
    cases hid
  | one state index' role' id' h hindex hfree hfilled h' =>
    rw [recorded_of_persisted h] at hid
    rw [recorded_of_persisted h', runIdAt_setRunId_of_ne, hid]
    intro hplace
    obtain ⟨rfl, rfl⟩ := Prod.mk.inj hplace
    rw [hfree] at hid
    cases hid

/-- The run whose id is new had its turn. -/
theorem Advances.turn (h : Advances w w') {index : Nat} {role : Role}
    (hnone : SuiteProgress.recorded w index role = none)
    (hsome : (SuiteProgress.recorded w' index role).isSome = true) :
    ∃ state, persisted w = some state ∧ Filled state (index, role) := by
  cases h with
  | same h =>
    rw [SuiteProgress.recorded, h] at hsome
    rw [SuiteProgress.recorded] at hnone
    rw [hnone] at hsome
    cases hsome
  | planned _ h' =>
    rw [h'] at hsome
    cases hsome
  | one state index' role' id h hindex hfree hfilled h' =>
    rw [recorded_of_persisted h] at hnone
    rw [recorded_of_persisted h'] at hsome
    by_cases hplace : (index, role) = (index', role')
    · exact ⟨state, h, hplace ▸ hfilled⟩
    · rw [runIdAt_setRunId_of_ne hplace, hnone] at hsome
      cases hsome

theorem Reported.advance {summary : ComparisonSummary} (h : Reported spec w summary)
    (hadvance : Advances w w') : Reported spec w' summary := by
  refine ⟨h.1, fun index row hrow => ?_⟩
  obtain ⟨hbaseline, hcandidate⟩ := h.2 index row hrow
  exact ⟨hadvance.recorded hbaseline, hadvance.recorded hcandidate⟩

theorem Consistent.frame (h : Consistent spec w) (hdirectory : w'.directory = w.directory)
    (hidle : w.directory = none → w'.running = none)
    (hrunning : ∀ phase ∈ w'.running, persisted w = some phase.process.state ∧
      Filled phase.process.state (Process.place phase.process))
    (hexecuted : ∀ process record, w'.running = some (.executed process record) →
      process.index < process.state.members.length ∧
        runIdAt process.state process.index process.role = none ∧
        validateRunId record.runId = .ok ())
    (hreports : ∀ summary ∈ w'.reports, Reported spec w summary) :
    Consistent spec w' ∧ Advances w w' := by
  have hpersisted := persisted_congr hdirectory
  refine ⟨?_, .same hpersisted⟩
  constructor
  · intro hnone
    rw [hdirectory] at hnone
    exact hidle hnone
  · intro directory hmem
    rw [hdirectory] at hmem
    exact h.stored directory hmem
  · intro phase hphase
    rw [hpersisted]
    exact hrunning phase hphase
  · exact hexecuted
  · exact fun summary hsummary => (hreports summary hsummary).advance (.same hpersisted)

theorem Consistent.stopped (h : Consistent spec w) (hdirectory : w'.directory = w.directory)
    (hrunning : w'.running = none) (hreports : w'.reports = w.reports) :
    Consistent spec w' ∧ Advances w w' := by
  refine h.frame hdirectory (fun _ => hrunning) ?_ ?_ (hreports ▸ h.reports)
  · intro phase hphase
    rw [hrunning] at hphase
    cases hphase
  · intro process record hphase
    rw [hrunning] at hphase
    cases hphase

theorem Consistent.at_statement {process : Process} (h : Consistent spec w)
    (hdirectory : w'.directory = w.directory) (hsome : w.directory ≠ none)
    (hrunning : w'.running = some (.statement process))
    (hpersisted : persisted w = some process.state)
    (hfilled : Filled process.state (Process.place process)) (hreports : w'.reports = w.reports) :
    Consistent spec w' ∧ Advances w w' := by
  refine h.frame hdirectory (fun hnone => absurd hnone hsome) ?_ ?_ (hreports ▸ h.reports)
  · intro phase hphase
    rw [hrunning] at hphase
    obtain rfl := Option.some.inj hphase
    exact ⟨hpersisted, hfilled⟩
  · intro process record hphase
    rw [hrunning] at hphase
    cases Option.some.inj hphase

theorem validateRunId_of_executeOptions {options : BenchRun.RunOptions} {env : Surroundings}
    {files files' : RunFiles} {record : LocalResultRecord}
    (h : BenchRun.executeOptions host stateRoot options env files = (files', .ok record)) :
    validateRunId record.runId = .ok () := by
  obtain ⟨-, hid, -⟩ := BenchRun.executeOptions_ok h
  rw [hid]
  exact RunJournal.validateRunId_beginRunId _ _ _

theorem consistent_execute {env : Surroundings} {process : Process} {directory : SuiteDirectory}
    (h : Consistent spec w) (hrunning : w.running = some (.statement process))
    (hdirectory : w.directory = some directory)
    (hindex : process.index < process.state.members.length)
    (hfree : runIdAt process.state process.index process.role = none) :
    Consistent spec (execute host stateRoot w env process directory) ∧
      Advances w (execute host stateRoot w env process directory) := by
  obtain ⟨hpersisted, hfilled⟩ := h.running _ hrunning
  unfold execute
  split
  case h_1 files record hok =>
    refine h.frame rfl (fun hnone => ?_) ?_ ?_ h.reports
    · rw [hdirectory] at hnone
      cases hnone
    · intro phase hphase
      obtain rfl := Option.some.inj hphase
      exact ⟨hpersisted, hfilled⟩
    · intro _ _ hphase
      obtain ⟨rfl, rfl⟩ := Phase.executed.inj (Option.some.inj hphase)
      exact ⟨hindex, hfree, validateRunId_of_executeOptions hok⟩
  case h_2 => exact h.stopped rfl rfl rfl

theorem consistent_written {process : Process} {record : LocalResultRecord}
    {directory : SuiteDirectory} (h : Consistent spec w)
    (hrunning : w.running = some (.executed process record))
    (hdirectory : w.directory = some directory)
    (hwritten : ∃ written, w'.directory = some written ∧ written.runId = directory.runId ∧
      written.state =
        some (.ok (process.state.setRunId process.index process.role record.runId)))
    (hnext : ∀ phase ∈ w'.running, phase = .statement (Process.next
      { process with
        state := process.state.setRunId process.index process.role record.runId }))
    (hreports : w'.reports = w.reports) : Consistent spec w' ∧ Advances w w' := by
  obtain ⟨hpersisted, hfilled⟩ := h.running _ hrunning
  obtain ⟨hindex, hfree, hid⟩ := h.executed process record hrunning
  obtain ⟨state, hstate, hvalid, hordered⟩ := h.stored directory hdirectory
  obtain rfl : state = process.state :=
    Option.some.inj ((persisted_of_directory hdirectory hstate).symm.trans hpersisted)
  obtain ⟨written, hwritten, hrunId, hfile⟩ := hwritten
  have hadvance : Advances w w' :=
    .one process.state process.index process.role record.runId hpersisted hindex hfree hfilled
      (persisted_of_directory hwritten hfile)
  refine ⟨?_, hadvance⟩
  constructor
  · intro hnone
    rw [hwritten] at hnone
    cases hnone
  · intro directory' hmem
    obtain rfl := Option.some.inj (hwritten.symm.trans hmem)
    exact ⟨_, hfile, hrunId ▸ hvalid.setRunId hid, hordered.setRunId hindex hfilled⟩
  · intro phase hphase
    obtain rfl := hnext phase hphase
    dsimp only [Phase.process]
    rw [next_state, persisted_of_directory hwritten hfile]
    refine ⟨rfl, ?_⟩
    have hself := @runIdAt_setRunId_self process.state process.index process.role record.runId
      hindex
    have hpast := @filled_next
      { process with
        state := process.state.setRunId process.index process.role record.runId }
      (hfilled.setRunId hindex) (by rw [hself]; rfl)
    exact hpast
  · intro process' record' hphase
    cases hnext _ hphase
  · intro summary hsummary
    exact (h.reports summary (hreports ▸ hsummary)).advance hadvance

theorem consistent_persist {process : Process} {record : LocalResultRecord}
    {directory : SuiteDirectory} {write : WriteOutcome} (h : Consistent spec w)
    (hrunning : w.running = some (.executed process record))
    (hdirectory : w.directory = some directory) :
    Consistent spec (persist w write process record directory) ∧
      Advances w (persist w write process record directory) := by
  cases write with
  | stored =>
    refine consistent_written h hrunning hdirectory ⟨_, rfl, rfl, rfl⟩ ?_ rfl
    intro phase hphase
    exact (Option.some.inj hphase).symm
  | refused e => exact h.stopped hdirectory.symm rfl rfl
  | unsynced e =>
    refine consistent_written h hrunning hdirectory ⟨_, rfl, rfl, rfl⟩ ?_ rfl
    intro phase hphase
    cases hphase

/-- A comparison is one of the runs in the state file. -/
theorem reported_of_compare {process : Process} {summary : ComparisonSummary}
    (h : Consistent spec w) (hrunning : w.running = some (.statement process))
    (hcompare : compare host.os scores stateRoot w.files.store process.state = .ok summary) :
    Reported spec w summary := by
  obtain ⟨hpersisted, -⟩ := h.running _ hrunning
  obtain ⟨hlength, hrows⟩ := members_of_compare hcompare
  obtain ⟨directory, hdirectory⟩ : ∃ directory, w.directory = some directory := by
    apply Option.ne_none_iff_exists'.mp
    intro hnone
    rw [h.idle hnone] at hrunning
    cases hrunning
  obtain ⟨state, hstate, hvalid, -⟩ := h.stored directory hdirectory
  obtain rfl : state = process.state :=
    Option.some.inj ((persisted_of_directory hdirectory hstate).symm.trans hpersisted)
  refine ⟨?_, fun index row hrow => ?_⟩
  · rw [hlength, ← hvalid.tasks, List.length_map]
  · obtain ⟨member, hmember, hbaseline, hcandidate⟩ := hrows index row hrow
    rw [recorded_of_persisted hpersisted, recorded_of_persisted hpersisted]
    simp only [runIdAt, Phase.process, hmember, Option.bind_some]
    exact ⟨hbaseline, hcandidate⟩

theorem consistent_step {event : Event} (hspec : loadSpec host.os source = .ok spec)
    (h : Consistent spec w) (hstep : (progressSystem host scores stateRoot source).step w event w') :
    Consistent spec w' ∧ Advances w w' := by
  cases event with
  | plan runId config preflight =>
    obtain ⟨hnone, hidle, spec', directory, state, root, hspec', hplan, rfl⟩ := hstep
    obtain rfl := Except.ok.inj (hspec.symm.trans hspec')
    obtain ⟨rfl, hfile, hrunId⟩ := planned_of_planSuite hplan
    have hempty : ∀ index role, runIdAt (plannedState spec runId) index role = none :=
      runIdAt_planned spec runId
    have hpersisted := persisted_of_directory (w := { w with
      files := { w.files with root := root }
      directory := some directory
      running := some (.statement (start (plannedState spec runId))) }) rfl hfile
    have hadvance := Advances.planned (w := w) (by rw [persisted, hnone])
      (fun index role => (recorded_of_persisted hpersisted index role).trans (hempty index role))
    refine ⟨?_, hadvance⟩
    constructor
    · exact fun hnone => by cases hnone
    · intro directory' hmem
      obtain rfl := Option.some.inj hmem
      refine ⟨_, hfile, hrunId ▸ valid_planned spec runId, fun index role hsome => ?_⟩
      rw [hempty] at hsome
      cases hsome
    · intro phase hphase
      obtain rfl := Option.some.inj hphase
      exact ⟨hpersisted, filled_start _⟩
    · intro process record hphase
      cases Option.some.inj hphase
    · exact fun summary hsummary => (h.reports summary hsummary).advance hadvance
  | resume =>
    obtain ⟨-, spec', directory, state, -, hdirectory, hresume, rfl⟩ := hstep
    refine h.at_statement rfl (by rw [hdirectory]; exact Option.some_ne_none _) rfl ?_
      (filled_start state) rfl
    exact persisted_of_directory hdirectory (state_of_resumeState hresume)
  | skip =>
    obtain ⟨process, hrunning, hself, rfl⟩ := hstep
    obtain ⟨hpersisted, hfilled⟩ := h.running _ hrunning
    refine h.at_statement rfl (fun hnone => ?_) rfl ?_ ?_ rfl
    · rw [h.idle hnone] at hrunning
      cases hrunning
    · rwa [next_state]
    · rw [next_state]
      exact filled_next hfilled hself
  | execute env =>
    obtain ⟨process, directory, hrunning, hdirectory, hindex, hfree, rfl⟩ := hstep
    exact consistent_execute h hrunning hdirectory hindex hfree
  | persist write =>
    obtain ⟨process, record, directory, hrunning, hdirectory, rfl⟩ := hstep
    exact consistent_persist h hrunning hdirectory
  | compare =>
    obtain ⟨process, hrunning, -, rfl⟩ := hstep
    refine h.frame rfl (fun _ => rfl) ?_ ?_ ?_
    · intro phase hphase
      cases hphase
    · intro process record hphase
      cases hphase
    · intro summary hsummary
      rcases List.mem_append.mp hsummary with hnew | hold
      · cases hcompare : compare host.os scores stateRoot w.files.store process.state with
        | error e =>
          rw [hcompare] at hnew
          cases hnew
        | ok compared =>
          rw [hcompare] at hnew
          obtain rfl := List.mem_singleton.mp hnew
          exact reported_of_compare h hrunning hcompare
      · exact h.reports summary hold
  | kill files =>
    obtain rfl := hstep
    exact h.stopped rfl rfl rfl
  | elsewhere files =>
    obtain rfl := hstep
    exact h.frame rfl h.idle h.running h.executed h.reports

theorem consistent_init (h : (progressSystem host scores stateRoot source).init w) :
    Consistent spec w := by
  obtain ⟨hdirectory, hrunning, hreports⟩ := h
  constructor
  · exact fun _ => hrunning
  · intro directory hmem
    rw [hdirectory] at hmem
    cases hmem
  · intro phase hphase
    rw [hrunning] at hphase
    cases hphase
  · intro process record hphase
    rw [hrunning] at hphase
    cases hphase
  · intro summary hsummary
    rw [hreports] at hsummary
    cases hsummary

theorem consistent_of_run {h : List (World × Event)} (hspec : loadSpec host.os source = .ok spec)
    (hrun : Run (progressSystem host scores stateRoot source) h w) : Consistent spec w :=
  hrun.invariant (fun _ hinit => consistent_init hinit)
    (fun _ _ _ hcons hstep => (consistent_step hspec hcons hstep).1)

/-- An id that the state file ever had is still there. -/
theorem recorded_of_run {h : List (World × Event)} (hspec : loadSpec host.os source = .ok spec)
    (hrun : Run (progressSystem host scores stateRoot source) h w) {p : World × Event} (hp : p ∈ h)
    {index : Nat} {role : Role} {id : String} (hid : recorded p.1 index role = some id) :
    recorded w index role = some id := by
  have hrelated := @Run.guarded_related _ _ (progressSystem host scores stateRoot source)
    (fun _ _ => True) (Consistent spec)
    (fun v v' => ∀ index role id, recorded v index role = some id →
      recorded v' index role = some id)
    (fun _ hinit => consistent_init hinit)
    (fun v event v' hcons _ hstep =>
      have hnext := consistent_step hspec hcons hstep
      ⟨hnext.1, fun _ _ _ => hnext.2.recorded⟩)
    (fun _ _ _ hfirst hsecond _ _ _ hid => hsecond _ _ _ (hfirst _ _ _ hid))
    h w hrun (fun _ _ => trivial)
  exact hrelated p hp index role id hid

/-- The step executes this member run. -/
def Executes (p : World × Event) (index : Nat) (role : Role) : Prop :=
  ∃ env process, p.2 = .execute env ∧ p.1.running = some (.statement process) ∧
    process.index = index ∧ process.role = role

theorem recorded_of_executes {v v' : World} {event : Event} {index : Nat} {role : Role}
    (h : Consistent spec v)
    (hstep : (progressSystem host scores stateRoot source).step v event v')
    (hexecutes : Executes (v, event) index role) : recorded v index role = none := by
  obtain ⟨env, process, hevent, hrunning, rfl, rfl⟩ := hexecutes
  obtain rfl : event = .execute env := hevent
  obtain ⟨process', _, hrunning', -, -, hfree, -⟩ := hstep
  obtain rfl := Phase.statement.inj (Option.some.inj (hrunning.symm.trans hrunning'))
  rw [recorded_of_persisted (h.running _ hrunning).1]
  exact hfree

end Invariant

/-- What holds of the state file and the reports after any run. -/
structure Progress (spec : SuiteSpec) (h : List (World × Event)) (w : World) : Prop where
  accepted : ∀ directory ∈ w.directory, ∃ state, directory.state = some (.ok state) ∧
    validateState state directory.runId spec = .ok () ∧ Ordered state
  kept : ∀ p ∈ h, ∀ index role id, recorded p.1 index role = some id →
    recorded w index role = some id
  executedOnce : ∀ later p earlier, h = later ++ p :: earlier → ∀ index role,
    Executes p index role → recorded p.1 index role = none ∧
      ∀ q ∈ earlier, recorded q.1 index role = none
  reported : ∀ summary ∈ w.reports, Reported spec w summary

def unplannedSuite : World :=
  { files :=
      { root := sampleState
        store := { results := fun _ => none, journals := fun _ => none
                   eventLogs := fun _ => none } }
    directory := none
    running := none
    reports := [] }

def plannedSuite : World :=
  { unplannedSuite with
    directory := some sampleDirectory
    running := some (.statement (start (plannedState sampleSpec "suite-1-7-0"))) }

end A3sBench.SuiteProgress
