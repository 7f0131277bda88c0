import A3sBench.Library.Runs
import A3sBench.RunMetadata

/-!
# Sweeping stale resources

`sweep_stale_codex_resources` lists what carries a run label, inspects it name by
name and removes, run by run, what belongs to a process that is gone. Processes
start, make resources and exit while any number of sweeps are at it.
-/

namespace A3sBench.StaleSweep

open Library Library.System

/-! ## What a sweep discovers -/

inductive Kind where
  | container
  | network
  | volume
  deriving DecidableEq

/-- The order of the kinds. -/
def Kind.rank : Kind → Nat
  | .container => 0
  | .network => 1
  | .volume => 2

abbrev Key := Kind × String

abbrev Resource := Key × Labels

structure Discovered where
  kind : Kind
  name : String
  metadata : RunMetadata

def Discovered.key (d : Discovered) : Key := (d.kind, d.name)

def ownerOf (labels : Labels) : String :=
  ((labels.lookup containerOwnerLabel).bind Json.asStr).getD ""

/-- What `discover_run_labeled_resources` makes of the labels it inspected. -/
def discover (key : Key) (labels : Labels) : Result Discovered := do
  ensure (ownerOf labels = key.2)
    ("refusing to sweep Codex resource " ++ key.2 ++ ": ownership label mismatch")
  let metadata ← RunMetadata.fromLabels key.2 labels
  pure { kind := key.1, name := key.2, metadata := metadata }

theorem discover_ok_iff {key : Key} {labels : Labels} {d : Discovered} :
    discover key labels = .ok d ↔
      ownerOf labels = key.2 ∧ ∃ metadata, RunMetadata.fromLabels key.2 labels = .ok metadata ∧
        { kind := key.1, name := key.2, metadata := metadata } = d := by
  simp only [discover, Result.bind_ok_iff, Result.exists_unit_iff, Result.ensure_ok_iff,
    Result.pure_ok_iff]

theorem discover_key {key : Key} {labels : Labels} {d : Discovered}
    (h : discover key labels = .ok d) : d.key = key := by
  obtain ⟨-, metadata, -, rfl⟩ := discover_ok_iff.mp h
  rfl

/-- `list_run_labeled_resources`: the names that Docker lists, in order. -/
def listRunLabeled (kind : Kind) (present : List Resource) : List String :=
  (((present.filter fun r => r.1.1 = kind ∧ (r.2.lookup containerRunLabel).isSome).map
    fun r => r.1.2).insertionSort (· ≤ ·)).dedup

/-- The resources of one run. -/
abbrev Group := RunMetadata × List Discovered

/-- The entry of a resource in the map of the runs. -/
def insertGroup : List (String × Group) → Discovered → Result (List (String × Group))
  | [], d => .ok [(d.metadata.runId, d.metadata, [d])]
  | (runId, metadata, resources) :: groups, d =>
    if runId = d.metadata.runId then do
      ensure (metadata = d.metadata)
        ("refusing to sweep Codex run " ++ runId ++ ": resource metadata is inconsistent")
      pure ((runId, metadata, resources ++ [d]) :: groups)
    else do
      let groups ← insertGroup groups d
      pure ((runId, metadata, resources) :: groups)

/-- The runs in the order of their ids. -/
def groupResources (found : List Discovered) : Result (List (String × Group)) := do
  let groups ← found.foldlM insertGroup []
  pure (groups.insertionSort fun a b => a.1 ≤ b.1)

/-- A map of the runs of some resources. -/
structure GroupsOf (groups : List (String × Group)) (resources : List Discovered) : Prop where
  members : ∀ e ∈ groups, ∀ d ∈ e.2.2, d ∈ resources ∧ d.metadata = e.2.1
  runId : ∀ e ∈ groups, e.2.1.runId = e.1
  covers : ∀ d ∈ resources, ∃ e ∈ groups, d ∈ e.2.2
  names : (groups.map Prod.fst).Nodup

theorem insertGroup_ok {groups groups' : List (String × Group)} {d : Discovered}
    (h : insertGroup groups d = .ok groups') :
    (∃ before resources after,
        groups = before ++ (d.metadata.runId, d.metadata, resources) :: after ∧
        groups' = before ++ (d.metadata.runId, d.metadata, resources ++ [d]) :: after) ∨
      (∀ e ∈ groups, e.1 ≠ d.metadata.runId) ∧
        groups' = groups ++ [(d.metadata.runId, d.metadata, [d])] := by
  induction groups generalizing groups' with
  | nil =>
    obtain rfl := Except.ok.inj h
    exact .inr ⟨fun e he => absurd he List.not_mem_nil, rfl⟩
  | cons e groups ih =>
    obtain ⟨runId, metadata, resources⟩ := e
    rw [insertGroup] at h
    split at h
    · rename_i hrun
      simp only [Result.bind_ok_iff, Result.exists_unit_iff, Result.ensure_ok_iff,
        Result.pure_ok_iff] at h
      obtain ⟨rfl, rfl⟩ := h
      subst hrun
      exact .inl ⟨[], resources, groups, rfl, rfl⟩
    · rename_i hrun
      simp only [Result.bind_ok_iff, Result.pure_ok_iff] at h
      obtain ⟨rest, hrest, rfl⟩ := h
      obtain ⟨before, joined, after, rfl, rfl⟩ | ⟨hnone, rfl⟩ := ih hrest
      · exact .inl ⟨(runId, metadata, resources) :: before, joined, after, rfl, rfl⟩
      · refine .inr ⟨fun e he => ?_, rfl⟩
        obtain rfl | he := List.mem_cons.mp he
        · exact hrun
        · exact hnone e he

theorem GroupsOf.insert {groups groups' : List (String × Group)} {resources : List Discovered}
    {d : Discovered} (hgroups : GroupsOf groups resources)
    (h : insertGroup groups d = .ok groups') : GroupsOf groups' (resources ++ [d]) := by
  obtain ⟨before, joined, after, rfl, rfl⟩ | ⟨hnone, rfl⟩ := insertGroup_ok h
  · have hjoined := hgroups.members (d.metadata.runId, d.metadata, joined) (by simp)
    refine ⟨fun e he x hx => ?_, fun e he => ?_, fun x hx => ?_, ?_⟩
    · simp only [List.mem_append, List.mem_cons] at he
      obtain he | rfl | he := he
      · obtain ⟨hmem, hmetadata⟩ := hgroups.members e (by simp [he]) x hx
        exact ⟨List.mem_append_left _ hmem, hmetadata⟩
      · obtain hx | hx := List.mem_append.mp hx
        · exact ⟨List.mem_append_left _ (hjoined x hx).1, (hjoined x hx).2⟩
        · rw [List.mem_singleton.mp hx]
          exact ⟨List.mem_append_right _ (List.mem_singleton_self d), rfl⟩
      · obtain ⟨hmem, hmetadata⟩ := hgroups.members e (by simp [he]) x hx
        exact ⟨List.mem_append_left _ hmem, hmetadata⟩
    · simp only [List.mem_append, List.mem_cons] at he
      obtain he | rfl | he := he
      · exact hgroups.runId e (by simp [he])
      · rfl
      · exact hgroups.runId e (by simp [he])
    · obtain hx | hx := List.mem_append.mp hx
      · obtain ⟨e, he, hmem⟩ := hgroups.covers x hx
        simp only [List.mem_append, List.mem_cons] at he
        obtain he | rfl | he := he
        · exact ⟨e, by simp [he], hmem⟩
        · exact ⟨(d.metadata.runId, d.metadata, joined ++ [d]), by simp,
            List.mem_append_left [d] hmem⟩
        · exact ⟨e, by simp [he], hmem⟩
      · rw [List.mem_singleton.mp hx]
        exact ⟨(d.metadata.runId, d.metadata, joined ++ [d]), by simp, by simp⟩
    · have hnames := hgroups.names
      simp only [List.map_append, List.map_cons] at hnames ⊢
      exact hnames
  · refine ⟨fun e he x hx => ?_, fun e he => ?_, fun x hx => ?_, ?_⟩
    · obtain he | he := List.mem_append.mp he
      · obtain ⟨hmem, hmetadata⟩ := hgroups.members e he x hx
        exact ⟨List.mem_append_left _ hmem, hmetadata⟩
      · rw [List.mem_singleton.mp he] at hx ⊢
        rw [List.mem_singleton.mp hx]
        exact ⟨List.mem_append_right _ (List.mem_singleton_self d), rfl⟩
    · obtain he | he := List.mem_append.mp he
      · exact hgroups.runId e he
      · rw [List.mem_singleton.mp he]
    · obtain hx | hx := List.mem_append.mp hx
      · obtain ⟨e, he, hmem⟩ := hgroups.covers x hx
        exact ⟨e, List.mem_append_left _ he, hmem⟩
      · exact ⟨_, List.mem_append_right _ (List.mem_singleton_self _), hx⟩
    · rw [List.map_append, List.nodup_append]
      refine ⟨hgroups.names, List.nodup_singleton _, fun a ha b hb => ?_⟩
      obtain ⟨e, he, rfl⟩ := List.mem_map.mp ha
      rw [List.mem_singleton.mp hb]
      exact hnone e he

theorem groupsOf_foldlM {groups groups' : List (String × Group)} {done rest : List Discovered}
    (hgroups : GroupsOf groups done) (h : rest.foldlM insertGroup groups = .ok groups') :
    GroupsOf groups' (done ++ rest) := by
  induction rest generalizing groups done with
  | nil =>
    obtain rfl := Except.ok.inj h
    rwa [List.append_nil]
  | cons d rest ih =>
    rw [List.foldlM_cons, Result.bind_ok_iff] at h
    obtain ⟨next, hnext, hrest⟩ := h
    have := ih (hgroups.insert hnext) hrest
    rwa [List.append_assoc] at this

/-- Resources of one run id agree in all their metadata. -/
def Consistent (resources : List Discovered) : Prop :=
  ∀ d ∈ resources, ∀ d' ∈ resources, d.metadata.runId = d'.metadata.runId → d.metadata = d'.metadata

theorem GroupsOf.consistent {groups : List (String × Group)} {resources : List Discovered}
    (h : GroupsOf groups resources) : Consistent resources := by
  intro d hd d' hd' hrun
  obtain ⟨e, he, hmem⟩ := h.covers d hd
  obtain ⟨e', he', hmem'⟩ := h.covers d' hd'
  have hmetadata := (h.members e he d hmem).2
  have hmetadata' := (h.members e' he' d' hmem').2
  have hname : e.1 = e'.1 := by
    rw [← h.runId e he, ← h.runId e' he', ← hmetadata, ← hmetadata', hrun]
  rw [hmetadata, hmetadata', List.inj_on_of_nodup_map h.names he he' hname]

theorem groupResources_ok {found : List Discovered} {groups : List (String × Group)}
    (h : groupResources found = .ok groups) :
    (∀ e ∈ groups, ∀ d ∈ e.2.2, d ∈ found ∧ d.metadata = e.2.1) ∧ Consistent found := by
  simp only [groupResources, Result.bind_ok_iff, Result.pure_ok_iff] at h
  obtain ⟨unsorted, hfold, rfl⟩ := h
  have hempty : GroupsOf [] [] :=
    ⟨fun e he => absurd he List.not_mem_nil, fun e he => absurd he List.not_mem_nil,
      fun d hd => absurd hd List.not_mem_nil, List.nodup_nil⟩
  have hgroups := groupsOf_foldlM hempty hfold
  rw [List.nil_append] at hgroups
  exact ⟨fun e he => hgroups.members e ((List.mem_insertionSort _).mp he), hgroups.consistent⟩

/-! ## The steps of a sweep -/

inductive Phase where
  | list (kinds : List Kind) (found : List Discovered)
  | inspect (kind : Kind) (names : List String) (kinds : List Kind) (found : List Discovered)
  | check (groups : List (String × Group))
  /-- Before the next removal: `owned_container_id` and its siblings. -/
  | probe (pending : List Discovered) (groups : List (String × Group))
  | remove (d : Discovered) (pending : List Discovered) (groups : List (String × Group))
  | recheck (d : Discovered) (pending : List Discovered) (groups : List (String × Group))
  | finished (result : Result Unit)

/-- What Docker or the kernel answers besides the state: a failure, and whether a removal takes
effect. -/
structure Answer where
  fault : Option String
  removes : Bool

/-- A sweep with the process that makes it, everything it inspected and everything it removed. -/
structure Sweep where
  process : Identity
  phase : Phase
  seen : List Resource
  removed : List Key

def Sweep.goTo (s : Sweep) (phase : Phase) : Sweep := { s with phase := phase }

/-- A removal that takes effect. -/
def Sweep.takes (s : Sweep) (key : Key) (answer : Answer) : Sweep :=
  if answer.removes then { s with removed := s.removed ++ [key] } else s

/-- The labels go into what the sweep has seen, and end it where they are not in order. -/
def Sweep.inspected (s : Sweep) (key : Key) (labels : Labels) (names : List String)
    (kinds : List Kind) (found : List Discovered) : Sweep :=
  { s with
    seen := s.seen ++ [(key, labels)]
    phase :=
      match discover key labels with
      | .error error => .finished (.error error)
      | .ok d => .inspect key.1 names kinds (found ++ [d]) }

/-- One step, on the processes and the resources there are. -/
def Sweep.advance (s : Sweep) (running : Nat → Option ProcStat) (present : List Resource)
    (answer : Answer) : Sweep :=
  match s.phase with
  | .list [] found =>
    match groupResources found with
    | .error error => s.goTo (.finished (.error error))
    | .ok groups => s.goTo (.check groups)
  | .list (kind :: kinds) found =>
    match answer.fault with
    | some error => s.goTo (.finished (.error error))
    | none => s.goTo (.inspect kind (listRunLabeled kind present) kinds found)
  | .inspect _ [] kinds found => s.goTo (.list kinds found)
  | .inspect kind (name :: names) kinds found =>
    match answer.fault with
    | some error => s.goTo (.finished (.error error))
    | none =>
      match present.lookup (kind, name) with
      | none => s.goTo (.inspect kind names kinds found)
      | some labels => s.inspected (kind, name) labels names kinds found
  | .check [] => s.goTo (.finished (.ok ()))
  | .check ((_, metadata, resources) :: groups) =>
    match answer.fault with
    | some error => s.goTo (.finished (.error error))
    | none =>
      match runMetadataIsActive metadata s.process.bootId (readPidStartTicks running) with
      | .error error => s.goTo (.finished (.error error))
      | .ok true => s.goTo (.check groups)
      | .ok false =>
        s.goTo (.probe (resources.insertionSort fun a b => a.kind.rank ≤ b.kind.rank) groups)
  | .probe [] groups => s.goTo (.check groups)
  | .probe (d :: pending) groups =>
    match answer.fault with
    | some error => s.goTo (.finished (.error error))
    | none =>
      match present.lookup d.key with
      | none => s.goTo (.probe pending groups)
      | some labels =>
        if ownerOf labels = d.name then s.goTo (.remove d pending groups)
        else s.goTo (.finished (.error "ownership label mismatch"))
  | .remove d pending groups =>
    match answer.fault with
    | some error => (s.takes d.key answer).goTo (.finished (.error error))
    | none => (s.takes d.key answer).goTo (.recheck d pending groups)
  | .recheck d pending groups =>
    match answer.fault with
    | some error => s.goTo (.finished (.error error))
    | none =>
      match present.lookup d.key with
      | none => s.goTo (.probe pending groups)
      | some _ => s.goTo (.finished (.error "still exists after cleanup"))
  | .finished result => s.goTo (.finished result)

/-- The resources that the step leaves. -/
def Sweep.leaves (s : Sweep) (present : List Resource) (answer : Answer) : List Resource :=
  match s.phase with
  | .remove d _ _ => if answer.removes then present.filter (fun r => r.1 ≠ d.key) else present
  | _ => present

/-! ## Processes, resources and sweeps together -/

structure World where
  bootId : String
  running : Nat → Option ProcStat
  /-- Every process there ever was. -/
  used : List Identity
  present : List Resource
  /-- Every resource there ever was. -/
  made : List Resource
  sweeps : Nat → Option Sweep

/-- The process is running. -/
def World.Alive (w : World) (id : Identity) : Prop :=
  id.bootId = w.bootId ∧ (w.running id.pid).map ProcStat.startTicks = some id.startTicks

/-- The process was there and is not running any more. -/
def Exited (w : World) (id : Identity) : Prop := id ∈ w.used ∧ ¬ w.Alive id

/-- The process that the labels record, if they record one, was there. -/
def Recorded (used : List Identity) (r : Resource) : Prop :=
  ∀ metadata, RunMetadata.fromLabels r.1.2 r.2 = .ok metadata → metadata.identity ∈ used

inductive Event where
  | start (pid : Nat) (stat : ProcStat)
  | exit (pid : Nat)
  | reboot (bootId : String)
  /-- A running process makes a resource with its own metadata. -/
  | create (key : Key) (metadata : RunMetadata)
  /-- Anything else appears with labels, or with labels of an earlier process. -/
  | appear (r : Resource)
  | vanish (key : Key)
  | begin (i : Nat) (process : Identity)
  | advance (i : Nat) (answer : Answer)

def World.add (w : World) (r : Resource) : World :=
  { w with present := r :: w.present, made := r :: w.made }

/-- The name of a resource is never used again. -/
def World.Unused (w : World) (key : Key) : Prop := ∀ r ∈ w.made, r.1 ≠ key

def World.step (w : World) : Event → World → Prop
  | .start pid stat, w' =>
    let id : Identity := { bootId := w.bootId, pid := pid, startTicks := stat.startTicks }
    w.running pid = none ∧ id ∉ w.used ∧
      w' = { w with running := Function.update w.running pid (some stat), used := id :: w.used }
  | .exit pid, w' => w' = { w with running := Function.update w.running pid none }
  | .reboot bootId, w' =>
    (∀ id ∈ w.used, id.bootId ≠ bootId) ∧
      w' = { w with bootId := bootId, running := fun _ => none }
  | .create key metadata, w' =>
    w.Alive metadata.identity ∧ metadata.Valid ∧ w.Unused key ∧
      w' = w.add (key, metadata.addLabels key.2)
  | .appear r, w' => w.Unused r.1 ∧ Recorded w.used r ∧ w' = w.add r
  | .vanish key, w' => w' = { w with present := w.present.filter fun r => r.1 ≠ key }
  | .begin i process, w' =>
    w.sweeps i = none ∧ w.Alive process ∧
      w' = { w with
        sweeps := Function.update w.sweeps i
          (some { process := process, phase := .list [.container, .network, .volume] [],
                  seen := [], removed := [] }) }
  | .advance i answer, w' =>
    ∃ s, w.sweeps i = some s ∧ w.Alive s.process ∧
      w' = { w with
        present := s.leaves w.present answer
        sweeps := Function.update w.sweeps i (some (s.advance w.running w.present answer)) }

/-- Any labelled resources of processes that were there, and no sweep yet. -/
structure World.Initial (w : World) : Prop where
  made : w.made = w.present
  names : (w.present.map Prod.fst).Nodup
  recorded : ∀ r ∈ w.present, Recorded w.used r
  alive : ∀ id, w.Alive id → id ∈ w.used
  sweeps : ∀ i, w.sweeps i = none

def sweepSystem : System World Event where
  init := World.Initial
  step := World.step

/-! ## What the world keeps -/

/-- Resources and processes that were there stay known, and no process comes back. -/
structure Advances (w w' : World) : Prop where
  made : ∀ r ∈ w.made, r ∈ w'.made
  used : ∀ id ∈ w.used, id ∈ w'.used
  dies : ∀ id ∈ w.used, w'.Alive id → w.Alive id

theorem Advances.exited {w w' : World} (h : Advances w w') {id : Identity} (hexited : Exited w id) :
    Exited w' id :=
  ⟨h.used id hexited.1, fun halive => hexited.2 (h.dies id hexited.1 halive)⟩

theorem alive_of_start {w w' : World} {pid : Nat} {stat : ProcStat} {id : Identity}
    (h : w'.Alive id) (hboot : w'.bootId = w.bootId)
    (hrunning : w'.running = Function.update w.running pid (some stat)) :
    id = { bootId := w.bootId, pid := pid, startTicks := stat.startTicks } ∨ w.Alive id := by
  obtain ⟨hid, hticks⟩ := h
  rw [hboot] at hid
  rw [hrunning] at hticks
  obtain hpid | hpid := eq_or_ne id.pid pid
  · rw [hpid, Function.update_self, Option.map_some] at hticks
    obtain ⟨idBoot, idPid, idTicks⟩ := id
    obtain rfl : idBoot = w.bootId := hid
    obtain rfl : idPid = pid := hpid
    obtain rfl : stat.startTicks = idTicks := Option.some.inj hticks
    exact .inl rfl
  · rw [Function.update_of_ne hpid] at hticks
    exact .inr ⟨hid, hticks⟩

theorem alive_of_exit {w w' : World} {pid : Nat} {id : Identity} (h : w'.Alive id)
    (hboot : w'.bootId = w.bootId) (hrunning : w'.running = Function.update w.running pid none) :
    w.Alive id := by
  obtain ⟨hid, hticks⟩ := h
  rw [hboot] at hid
  rw [hrunning] at hticks
  obtain hpid | hpid := eq_or_ne id.pid pid
  · rw [hpid, Function.update_self] at hticks
    cases hticks
  · rw [Function.update_of_ne hpid] at hticks
    exact ⟨hid, hticks⟩

theorem advances_step {w w' : World} {e : Event} (h : w.step e w') : Advances w w' := by
  cases e with
  | start pid stat =>
    obtain ⟨hfree, hnew, rfl⟩ := h
    refine ⟨fun r hr => hr, fun id hid => List.mem_cons_of_mem _ hid, fun id hid halive => ?_⟩
    obtain rfl | halive := @alive_of_start w _ pid stat id halive rfl rfl
    · exact absurd hid hnew
    · exact halive
  | exit pid =>
    obtain rfl := h
    exact ⟨fun r hr => hr, fun id hid => hid, fun id _ halive => @alive_of_exit w _ pid id halive rfl rfl⟩
  | reboot bootId =>
    obtain ⟨-, rfl⟩ := h
    exact ⟨fun r hr => hr, fun id hid => hid, fun id hid halive => by cases halive.2⟩
  | create key metadata =>
    obtain ⟨-, -, -, rfl⟩ := h
    exact ⟨fun r hr => List.mem_cons_of_mem _ hr, fun id hid => hid, fun id _ halive => halive⟩
  | appear r =>
    obtain ⟨-, -, rfl⟩ := h
    exact ⟨fun r hr => List.mem_cons_of_mem _ hr, fun id hid => hid, fun id _ halive => halive⟩
  | vanish key =>
    obtain rfl := h
    exact ⟨fun r hr => hr, fun id hid => hid, fun id _ halive => halive⟩
  | begin i process =>
    obtain ⟨-, -, rfl⟩ := h
    exact ⟨fun r hr => hr, fun id hid => hid, fun id _ halive => halive⟩
  | advance i answer =>
    obtain ⟨s, -, -, rfl⟩ := h
    exact ⟨fun r hr => hr, fun id hid => hid, fun id _ halive => halive⟩

/-- Names belong to one resource, whose labels record a process that was there. -/
structure WorldInv (w : World) : Prop where
  names : (w.made.map Prod.fst).Nodup
  present : ∀ r ∈ w.present, r ∈ w.made
  recorded : ∀ r ∈ w.made, Recorded w.used r
  alive : ∀ id, w.Alive id → id ∈ w.used

theorem World.Initial.inv {w : World} (h : w.Initial) : WorldInv w where
  names := h.made ▸ h.names
  present := fun _ hr => h.made ▸ hr
  recorded := fun r hr => h.recorded r (h.made ▸ hr)
  alive := h.alive

theorem WorldInv.add {w : World} (h : WorldInv w) {r : Resource} (hunused : w.Unused r.1)
    (hrecorded : Recorded w.used r) : WorldInv (w.add r) where
  names := by
    refine List.nodup_cons.mpr ⟨fun hmem => ?_, h.names⟩
    obtain ⟨r', hr', hkey⟩ := List.mem_map.mp hmem
    exact hunused r' hr' hkey
  present := by
    intro r' hr'
    obtain rfl | hr' := List.mem_cons.mp hr'
    · exact List.mem_cons_self
    · exact List.mem_cons_of_mem _ (h.present r' hr')
  recorded := by
    intro r' hr'
    obtain rfl | hr' := List.mem_cons.mp hr'
    · exact hrecorded
    · exact h.recorded r' hr'
  alive := h.alive

/-- Only the removal step takes resources away, and only those of the name it is at. -/
theorem leaves_cases (s : Sweep) (present : List Resource) (answer : Answer) :
    s.leaves present answer = present ∨
      ∃ d pending groups, s.phase = .remove d pending groups ∧ answer.removes = true ∧
        s.leaves present answer = present.filter fun r => r.1 ≠ d.key := by
  rw [Sweep.leaves]
  split
  · rename_i d pending groups hphase
    split
    · rename_i hremoves
      exact .inr ⟨d, pending, groups, hphase, hremoves, rfl⟩
    · exact .inl rfl
  · exact .inl rfl

theorem leaves_subset {s : Sweep} {present : List Resource} {answer : Answer} :
    ∀ r ∈ s.leaves present answer, r ∈ present := by
  intro r hr
  obtain hsame | ⟨d, pending, groups, -, -, hfilter⟩ := leaves_cases s present answer
  · rwa [hsame] at hr
  · rw [hfilter] at hr
    exact List.mem_of_mem_filter hr

theorem WorldInv.step {w w' : World} {e : Event} (h : WorldInv w) (hstep : w.step e w') :
    WorldInv w' := by
  cases e with
  | start pid stat =>
    obtain ⟨-, -, rfl⟩ := hstep
    refine ⟨h.names, h.present, fun r hr m hm => List.mem_cons_of_mem _ (h.recorded r hr m hm),
      fun id halive => ?_⟩
    obtain rfl | halive := @alive_of_start w _ pid stat id halive rfl rfl
    · exact List.mem_cons_self
    · exact List.mem_cons_of_mem _ (h.alive id halive)
  | exit pid =>
    obtain rfl := hstep
    exact ⟨h.names, h.present, h.recorded, fun id halive =>
      h.alive id (@alive_of_exit w _ pid id halive rfl rfl)⟩
  | reboot bootId =>
    obtain ⟨-, rfl⟩ := hstep
    exact ⟨h.names, h.present, h.recorded, fun id halive => by cases halive.2⟩
  | create key metadata =>
    obtain ⟨halive, hvalid, hunused, rfl⟩ := hstep
    refine h.add hunused fun m hm => ?_
    obtain rfl := Except.ok.inj ((fromLabels_addLabels hvalid key.2).symm.trans hm)
    exact h.alive _ halive
  | appear r =>
    obtain ⟨hunused, hrecorded, rfl⟩ := hstep
    exact h.add hunused hrecorded
  | vanish key =>
    obtain rfl := hstep
    exact ⟨h.names, fun r hr => h.present r (List.mem_of_mem_filter hr), h.recorded, h.alive⟩
  | begin i process =>
    obtain ⟨-, -, rfl⟩ := hstep
    exact ⟨h.names, h.present, h.recorded, h.alive⟩
  | advance i answer =>
    obtain ⟨s, -, -, rfl⟩ := hstep
    exact ⟨h.names, fun r hr => h.present r (leaves_subset r hr), h.recorded,
      h.alive⟩

/-! ## What a sweep knows -/

def Phase.found : Phase → List Discovered
  | .list _ found => found
  | .inspect _ _ _ found => found
  | _ => []

def Phase.groups : Phase → List (String × Group)
  | .check groups => groups
  | .probe _ groups => groups
  | .remove _ _ groups => groups
  | .recheck _ _ groups => groups
  | _ => []

def Phase.pending : Phase → List Discovered
  | .probe pending _ => pending
  | .remove d pending _ => d :: pending
  | .recheck _ pending _ => pending
  | _ => []

/-- The sweep is still discovering. -/
def Phase.Listing : Phase → Prop
  | .list _ _ => True
  | .inspect _ _ _ _ => True
  | _ => False

/-- The sweep has discovered everything it deals with. -/
def Phase.Removing : Phase → Prop
  | .check _ => True
  | .probe _ _ => True
  | .remove _ _ _ => True
  | .recheck _ _ _ => True
  | _ => False

/-- The resource was inspected, and its labels were these. -/
def Records (seen : List Resource) (d : Discovered) : Prop :=
  ∃ labels, (d.key, labels) ∈ seen ∧ discover d.key labels = .ok d

/-- Everything inspected carries its metadata, and one run's resources agree in it. -/
structure Proper (seen : List Resource) : Prop where
  complete : ∀ r ∈ seen, ∃ d, discover r.1 r.2 = .ok d
  consistent : ∀ r ∈ seen, ∀ r' ∈ seen, ∀ d d', discover r.1 r.2 = .ok d →
    discover r'.1 r'.2 = .ok d' → d.metadata.runId = d'.metadata.runId → d.metadata = d'.metadata

structure SweepInv (w : World) (s : Sweep) : Prop where
  seen : ∀ r ∈ s.seen, r ∈ w.made
  found : ∀ d ∈ s.phase.found, Records s.seen d
  complete : s.phase.Listing → ∀ r ∈ s.seen, ∃ d ∈ s.phase.found, discover r.1 r.2 = .ok d
  groups : ∀ e ∈ s.phase.groups, ∀ d ∈ e.2.2, Records s.seen d ∧ d.metadata = e.2.1
  pending : ∀ d ∈ s.phase.pending, Records s.seen d ∧ Exited w d.metadata.identity
  proper : s.phase.Removing ∨ s.removed ≠ [] → Proper s.seen
  quiet : s.phase.Listing → s.removed = []

theorem SweepInv.advances {w w' : World} {s : Sweep} (h : SweepInv w s) (hw : Advances w w') :
    SweepInv w' s :=
  { h with
    seen := fun r hr => hw.made r (h.seen r hr)
    pending := fun d hd => ⟨(h.pending d hd).1, hw.exited (h.pending d hd).2⟩ }

/-- The next phase deals with nothing that the phase before it did not. -/
theorem SweepInv.goTo {w : World} {s : Sweep} (h : SweepInv w s) {phase : Phase}
    (hfound : phase.Listing → s.phase.Listing ∧ phase.found = s.phase.found)
    (hnone : ¬ phase.Listing → phase.found = [])
    (hgroups : ∀ e ∈ phase.groups, e ∈ s.phase.groups)
    (hpending : ∀ d ∈ phase.pending, d ∈ s.phase.pending)
    (hremoving : phase.Removing → s.phase.Removing) : SweepInv w (s.goTo phase) where
  seen := h.seen
  found := by
    intro d hd
    by_cases hlisting : phase.Listing
    · exact h.found d ((hfound hlisting).2 ▸ hd)
    · have : d ∈ phase.found := hd
      rw [hnone hlisting] at this
      cases this
  complete := by
    intro hlisting r hr
    obtain ⟨hbefore, hsame⟩ := hfound hlisting
    obtain ⟨d, hd, hdiscover⟩ := h.complete hbefore r hr
    exact ⟨d, hsame ▸ hd, hdiscover⟩
  groups := fun e he => h.groups e (hgroups e he)
  pending := fun d hd => h.pending d (hpending d hd)
  proper := fun hproper => h.proper (hproper.imp hremoving id)
  quiet := fun hlisting => h.quiet (hfound hlisting).1

theorem SweepInv.finish {w : World} {s : Sweep} (h : SweepInv w s) (result : Result Unit) :
    SweepInv w (s.goTo (.finished result)) :=
  h.goTo (fun hlisting => hlisting.elim) (fun _ => rfl) (fun _ he => absurd he List.not_mem_nil)
    (fun _ hd => absurd hd List.not_mem_nil) (fun hremoving => hremoving.elim)

/-- Discovering goes on with what is found so far. -/
theorem SweepInv.lists {w : World} {s : Sweep} (h : SweepInv w s) {phase : Phase}
    (hbefore : s.phase.Listing) (hnext : phase.Listing) (hfound : phase.found = s.phase.found)
    (hgroups : phase.groups = []) (hpending : phase.pending = []) (hremoving : ¬ phase.Removing) :
    SweepInv w (s.goTo phase) :=
  h.goTo (fun _ => ⟨hbefore, hfound⟩) (fun hno => absurd hnext hno)
    (fun e he => by rw [hgroups] at he; cases he) (fun d hd => by rw [hpending] at hd; cases hd)
    (fun hremove => absurd hremove hremoving)

/-- Removing goes on with no more than there was. -/
theorem SweepInv.goesOn {w : World} {s : Sweep} (h : SweepInv w s) {phase : Phase}
    (hbefore : s.phase.Removing) (hlisting : ¬ phase.Listing) (hfound : phase.found = [])
    (hgroups : ∀ e ∈ phase.groups, e ∈ s.phase.groups)
    (hpending : ∀ d ∈ phase.pending, d ∈ s.phase.pending) : SweepInv w (s.goTo phase) :=
  h.goTo (fun hlist => absurd hlist hlisting) (fun _ => hfound) hgroups hpending (fun _ => hbefore)

theorem mem_of_lookup {present : List Resource} {key : Key} {labels : Labels}
    (h : present.lookup key = some labels) : (key, labels) ∈ present := by
  obtain ⟨before, after, rfl, -⟩ := List.lookup_eq_some_iff.mp h
  exact List.mem_append_right _ List.mem_cons_self

theorem SweepInv.inspected {w : World} {s : Sweep} (h : SweepInv w s) {kind : Kind} {name : String}
    {names : List String} {kinds : List Kind} {found : List Discovered} {labels : Labels}
    (hphase : s.phase = .inspect kind (name :: names) kinds found)
    (hmade : ((kind, name), labels) ∈ w.made) :
    SweepInv w (s.inspected (kind, name) labels names kinds found) := by
  have hlisting : s.phase.Listing := hphase ▸ trivial
  have hfound : s.phase.found = found := hphase ▸ rfl
  have hremoved := h.quiet hlisting
  have hseen : ∀ r ∈ s.seen ++ [((kind, name), labels)], r ∈ w.made := by
    intro r hr
    obtain hr | hr := List.mem_append.mp hr
    · exact h.seen r hr
    · exact List.mem_singleton.mp hr ▸ hmade
  rw [Sweep.inspected]
  split
  · exact ⟨hseen, fun d hd => absurd hd List.not_mem_nil, fun hlist => hlist.elim,
      fun e he => absurd he List.not_mem_nil, fun d hd => absurd hd List.not_mem_nil,
      fun hproper => (hproper.elim False.elim (fun hne => hne hremoved)).elim, fun _ => hremoved⟩
  · rename_i d hd
    have hkey : d.key = (kind, name) := discover_key hd
    refine ⟨hseen, fun x hx => ?_, fun _ r hr => ?_, fun e he => absurd he List.not_mem_nil,
      fun x hx => absurd hx List.not_mem_nil,
      fun hproper => (hproper.elim False.elim (fun hne => hne hremoved)).elim, fun _ => hremoved⟩
    · obtain hx | hx := List.mem_append.mp hx
      · obtain ⟨labels', hmem, hdiscover⟩ := h.found x (hfound ▸ hx)
        exact ⟨labels', List.mem_append_left _ hmem, hdiscover⟩
      · rw [List.mem_singleton.mp hx]
        exact ⟨labels, hkey ▸ List.mem_append_right _ (List.mem_singleton_self _), hkey ▸ hd⟩
    · obtain hr | hr := List.mem_append.mp hr
      · obtain ⟨x, hx, hdiscover⟩ := h.complete hlisting r hr
        exact ⟨x, List.mem_append_left _ (hfound ▸ hx), hdiscover⟩
      · rw [List.mem_singleton.mp hr]
        exact ⟨d, List.mem_append_right _ (List.mem_singleton_self d), hd⟩

/-- Everything is discovered: the runs are grouped, and what was inspected was in order. -/
theorem SweepInv.grouped {w : World} {s : Sweep} (h : SweepInv w s) {found : List Discovered}
    {groups : List (String × Group)} (hphase : s.phase = .list [] found)
    (hgroups : groupResources found = .ok groups) : SweepInv w (s.goTo (.check groups)) := by
  have hlisting : s.phase.Listing := hphase ▸ trivial
  have hfound : s.phase.found = found := hphase ▸ rfl
  obtain ⟨hmembers, hconsistent⟩ := groupResources_ok hgroups
  have hcomplete : ∀ r ∈ s.seen, ∃ d ∈ found, discover r.1 r.2 = .ok d :=
    fun r hr => hfound ▸ h.complete hlisting r hr
  refine ⟨h.seen, fun d hd => absurd hd List.not_mem_nil, fun hlist => hlist.elim,
    fun e he d hd => ⟨h.found d (hfound ▸ (hmembers e he d hd).1), (hmembers e he d hd).2⟩,
    fun d hd => absurd hd List.not_mem_nil, fun _ => ⟨fun r hr => ?_, ?_⟩, fun hlist => hlist.elim⟩
  · obtain ⟨d, -, hdiscover⟩ := hcomplete r hr
    exact ⟨d, hdiscover⟩
  · intro r hr r' hr' d d' hd hd' hrun
    obtain ⟨x, hx, hdiscover⟩ := hcomplete r hr
    obtain ⟨x', hx', hdiscover'⟩ := hcomplete r' hr'
    obtain rfl := Except.ok.inj (hdiscover.symm.trans hd)
    obtain rfl := Except.ok.inj (hdiscover'.symm.trans hd')
    exact hconsistent x hx x' hx' hrun

/-- A process that is not running any more is gone for good. -/
theorem exited_of_inactive {w : World} {metadata : RunMetadata}
    {process : Identity} (halive : w.Alive process) (hused : metadata.identity ∈ w.used)
    (hinactive :
      runMetadataIsActive metadata process.bootId (readPidStartTicks w.running) = .ok false) :
    Exited w metadata.identity := by
  refine ⟨hused, fun hrunning => ?_⟩
  have hboot : metadata.bootId = process.bootId := hrunning.1.trans halive.1.symm
  have hticks : (w.running metadata.pid).map ProcStat.startTicks = some metadata.pidStartTicks :=
    hrunning.2
  rw [runMetadataIsActive, if_neg (not_not.mpr hboot), readPidStartTicks_eq, hticks] at hinactive
  simp only [Result.bind_ok_iff, Result.pure_ok_iff] at hinactive
  obtain ⟨start, hstart, hfalse⟩ := hinactive
  obtain rfl := Except.ok.inj hstart
  simp at hfalse

theorem Records.identity {w : World} (hw : WorldInv w) {s : Sweep} (h : SweepInv w s)
    {d : Discovered} (hd : Records s.seen d) : d.metadata.identity ∈ w.used := by
  obtain ⟨labels, hmem, hdiscover⟩ := hd
  obtain ⟨-, metadata, hmetadata, hd⟩ := discover_ok_iff.mp hdiscover
  have hsame : metadata = d.metadata := congrArg Discovered.metadata hd
  exact hsame ▸ hw.recorded _ (h.seen _ hmem) metadata hmetadata

/-- The resources of a run are removed only once its process is found gone. -/
theorem SweepInv.probed {w : World} (hw : WorldInv w) {s : Sweep} (h : SweepInv w s)
    (halive : w.Alive s.process) {runId : String} {metadata : RunMetadata}
    {resources : List Discovered} {groups : List (String × Group)}
    (hphase : s.phase = .check ((runId, metadata, resources) :: groups))
    (hinactive :
      runMetadataIsActive metadata s.process.bootId (readPidStartTicks w.running) = .ok false) :
    SweepInv w
      (s.goTo (.probe (resources.insertionSort fun a b => a.kind.rank ≤ b.kind.rank) groups)) := by
  have hgroups : s.phase.groups = (runId, metadata, resources) :: groups := hphase ▸ rfl
  have hproper : Proper s.seen := h.proper (.inl (hphase ▸ trivial))
  refine ⟨h.seen, fun d hd => absurd hd List.not_mem_nil, fun hlist => hlist.elim,
    fun e he => h.groups e (hgroups ▸ List.mem_cons_of_mem _ he), fun d hd => ?_,
    fun _ => hproper, fun hlist => hlist.elim⟩
  have hmem : d ∈ resources := (List.mem_insertionSort _).mp hd
  obtain ⟨hrecords, hmetadata⟩ := h.groups (runId, metadata, resources)
    (hgroups ▸ List.mem_cons_self) d hmem
  refine ⟨hrecords, ?_⟩
  have hused := hrecords.identity hw h
  rw [show d.metadata = metadata from hmetadata] at hused ⊢
  exact exited_of_inactive halive hused hinactive

theorem SweepInv.takes {w : World} {s : Sweep} (h : SweepInv w s) (key : Key) (answer : Answer)
    (hremoving : s.phase.Removing) (hlisting : ¬ s.phase.Listing) :
    SweepInv w (s.takes key answer) := by
  rw [Sweep.takes]
  split
  · exact { h with
      proper := fun _ => h.proper (.inl hremoving)
      quiet := fun hlist => absurd hlist hlisting }
  · exact h

theorem takes_phase (s : Sweep) (key : Key) (answer : Answer) :
    (s.takes key answer).phase = s.phase := by
  rw [Sweep.takes]
  split <;> rfl

theorem SweepInv.advance {w : World} (hw : WorldInv w) {s : Sweep} (h : SweepInv w s)
    (halive : w.Alive s.process) (answer : Answer) :
    SweepInv w (s.advance w.running w.present answer) := by
  rw [Sweep.advance]
  split
  · split
    · exact h.finish _
    · rename_i found hphase _ groups hgroups
      exact h.grouped hphase hgroups
  · rename_i kind kinds found hphase
    split
    · exact h.finish _
    · exact h.lists (hphase ▸ trivial) trivial (hphase ▸ rfl) rfl rfl id
  · rename_i kind kinds found hphase
    exact h.lists (hphase ▸ trivial) trivial (hphase ▸ rfl) rfl rfl id
  · rename_i kind name names kinds found hphase
    split
    · exact h.finish _
    · split
      · exact h.lists (hphase ▸ trivial) trivial (hphase ▸ rfl) rfl rfl id
      · rename_i labels hlookup
        exact h.inspected hphase (hw.present _ (mem_of_lookup hlookup))
  · exact h.finish _
  · rename_i runId metadata resources groups hphase
    have hlater : ∀ e ∈ groups, e ∈ s.phase.groups :=
      fun e he => hphase ▸ List.mem_cons_of_mem _ he
    split
    · exact h.finish _
    · split
      · exact h.finish _
      · exact h.goesOn (hphase ▸ trivial) id rfl hlater
          (fun _ hd => absurd hd List.not_mem_nil)
      · rename_i hinactive
        exact h.probed hw halive hphase hinactive
  · rename_i groups hphase
    exact h.goesOn (hphase ▸ trivial) id rfl (fun _ he => hphase ▸ he)
      (fun _ hd => absurd hd List.not_mem_nil)
  · rename_i d pending groups hphase
    split
    · exact h.finish _
    · split
      · exact h.goesOn (hphase ▸ trivial) id rfl (fun _ he => hphase ▸ he)
          (fun _ hx => hphase ▸ List.mem_cons_of_mem _ hx)
      · split
        · exact h.goesOn (hphase ▸ trivial) id rfl (fun _ he => hphase ▸ he)
            (fun _ hx => hphase ▸ hx)
        · exact h.finish _
  · rename_i d pending groups hphase
    have hafter : SweepInv w (s.takes d.key answer) :=
      h.takes d.key answer (hphase ▸ trivial) (hphase ▸ id)
    have hsame : (s.takes d.key answer).phase = .remove d pending groups :=
      (takes_phase s d.key answer).trans hphase
    split
    · exact hafter.finish _
    · exact hafter.goesOn (hsame ▸ trivial) id rfl (fun _ he => hsame ▸ he)
        (fun x hx => hsame ▸ List.mem_cons_of_mem d hx)
  · rename_i d pending groups hphase
    split
    · exact h.finish _
    · split
      · exact h.goesOn (hphase ▸ trivial) id rfl (fun _ he => hphase ▸ he)
          (fun _ hx => hphase ▸ hx)
      · exact h.finish _
  · exact h.finish _

/-! ## Every interleaving -/

structure Inv (w : World) : Prop where
  world : WorldInv w
  sweeps : ∀ i s, w.sweeps i = some s → SweepInv w s

theorem World.Initial.sweeps_inv {w : World} (h : w.Initial) : Inv w where
  world := h.inv
  sweeps := by
    intro i s hs
    rw [h.sweeps i] at hs
    cases hs

theorem SweepInv.fresh (w : World) (process : Identity) :
    SweepInv w { process := process, phase := .list [.container, .network, .volume] [],
                 seen := [], removed := [] } where
  seen := fun _ hr => absurd hr List.not_mem_nil
  found := fun _ hd => absurd hd List.not_mem_nil
  complete := fun _ _ hr => absurd hr List.not_mem_nil
  groups := fun _ he => absurd he List.not_mem_nil
  pending := fun _ hd => absurd hd List.not_mem_nil
  proper := fun hproper => (hproper.elim False.elim (fun hne => hne rfl)).elim
  quiet := fun _ => rfl

theorem Inv.step {w w' : World} {e : Event} (h : Inv w) (hstep : w.step e w') : Inv w' := by
  have hworld := h.world.step hstep
  have hadvances := advances_step hstep
  -- a sweep that takes no step is carried over
  have hkept : w'.sweeps = w.sweeps → Inv w' := fun hsame =>
    ⟨hworld, fun i s hs => (h.sweeps i s (hsame ▸ hs)).advances hadvances⟩
  cases e with
  | start pid stat =>
    obtain ⟨-, -, rfl⟩ := hstep
    exact hkept rfl
  | exit pid =>
    obtain rfl := hstep
    exact hkept rfl
  | reboot bootId =>
    obtain ⟨-, rfl⟩ := hstep
    exact hkept rfl
  | create key metadata =>
    obtain ⟨-, -, -, rfl⟩ := hstep
    exact hkept rfl
  | appear r =>
    obtain ⟨-, -, rfl⟩ := hstep
    exact hkept rfl
  | vanish key =>
    obtain rfl := hstep
    exact hkept rfl
  | begin i process =>
    obtain ⟨-, -, rfl⟩ := hstep
    refine ⟨hworld, fun j s hs => ?_⟩
    obtain rfl | hj := eq_or_ne j i
    · simp only [Function.update_self, Option.some.injEq] at hs
      exact hs ▸ SweepInv.fresh _ process
    · simp only [Function.update_of_ne hj] at hs
      exact (h.sweeps j s hs).advances hadvances
  | advance i answer =>
    obtain ⟨before, hbefore, halive, rfl⟩ := hstep
    refine ⟨hworld, fun j s hs => ?_⟩
    obtain rfl | hj := eq_or_ne j i
    · simp only [Function.update_self, Option.some.injEq] at hs
      exact hs ▸ ((h.sweeps j before hbefore).advance h.world halive answer).advances hadvances
    · simp only [Function.update_of_ne hj] at hs
      exact (h.sweeps j s hs).advances hadvances

theorem inv_of_run {history : List (World × Event)} {w : World}
    (hrun : Run sweepSystem history w) : Inv w :=
  hrun.invariant (I := Inv) (fun _ hinit => World.Initial.sweeps_inv hinit)
    fun _ _ _ h hstep => Inv.step h hstep

/-- What a step of a sweep takes away is what it is at, and its process has exited. -/
theorem Inv.taken {w : World} (h : Inv w) {i : Nat} {s : Sweep} (hs : w.sweeps i = some s)
    {answer : Answer} {r : Resource} (hr : r ∈ w.present)
    (hgone : r ∉ s.leaves w.present answer) :
    (∃ metadata, RunMetadata.fromLabels r.1.2 r.2 = .ok metadata ∧ Exited w metadata.identity) ∧
      r.1 ∈ (s.advance w.running w.present answer).removed := by
  obtain hsame | ⟨d, pending, groups, hphase, hremoves, hleaves⟩ := leaves_cases s w.present answer
  · exact absurd (hsame.symm ▸ hr) hgone
  have hkey : r.1 = d.key := by
    by_contra hne
    exact hgone (hleaves ▸ List.mem_filter.mpr ⟨hr, decide_eq_true hne⟩)
  obtain ⟨⟨labels, hseen, hdiscover⟩, hexited⟩ :=
    (h.sweeps i s hs).pending d (hphase ▸ List.mem_cons_self)
  -- the name belongs to the resource that the sweep inspected
  obtain rfl : r = (d.key, labels) :=
    List.inj_on_of_nodup_map h.world.names (h.world.present r hr)
      ((h.sweeps i s hs).seen _ hseen) hkey
  obtain ⟨-, metadata, hmetadata, hd⟩ := discover_ok_iff.mp hdiscover
  have hsame : metadata = d.metadata := congrArg Discovered.metadata hd
  refine ⟨⟨metadata, hmetadata, hsame ▸ hexited⟩, ?_⟩
  rw [Sweep.advance, hphase]
  cases answer.fault with
  | some error => simp [Sweep.goTo, Sweep.takes, hremoves]
  | none => simp [Sweep.goTo, Sweep.takes, hremoves]

/-- In every interleaving, a sweep removes a resource only if the process in its labels was there
and has exited, and a sweep that removes anything found everything it inspected in order. -/
theorem sweep_spares_live_runs {history : List (World × Event)} {w : World}
    (hrun : Run sweepSystem history w) :
    (∀ i answer w', w.step (.advance i answer) w' → ∀ r ∈ w.present, r ∉ w'.present →
      (∃ metadata, RunMetadata.fromLabels r.1.2 r.2 = .ok metadata ∧
        Exited w metadata.identity) ∧
      ∃ s, w'.sweeps i = some s ∧ r.1 ∈ s.removed) ∧
    ∀ i s, w.sweeps i = some s → s.removed ≠ [] → Proper s.seen := by
  have h := inv_of_run hrun
  refine ⟨fun i answer w' hstep r hr hgone => ?_,
    fun i s hs hremoved => (h.sweeps i s hs).proper (.inr hremoved)⟩
  obtain ⟨s, hs, -, rfl⟩ := hstep
  obtain ⟨hexited, hremoved⟩ := h.taken hs hr hgone
  exact ⟨hexited, _, Function.update_self .., hremoved⟩

/-- The only sweep there is goes on, and every removal takes effect. -/
def World.sweepOn (w : World) : Nat → World
  | 0 => w
  | n + 1 =>
    let w := w.sweepOn n
    match w.sweeps 0 with
    | none => w
    | some s =>
      { w with
        present := s.leaves w.present { fault := none, removes := true }
        sweeps := Function.update w.sweeps 0
          (some (s.advance w.running w.present { fault := none, removes := true })) }

theorem advance_process (s : Sweep) (running : Nat → Option ProcStat) (present : List Resource)
    (answer : Answer) : (s.advance running present answer).process = s.process := by
  rw [Sweep.advance]
  repeat' split
  all_goals first | rfl | simp only [Sweep.goTo, Sweep.takes]; split <;> rfl

theorem sweepOn_run {history : List (World × Event)} {w : World}
    (hrun : Run sweepSystem history w) {s : Sweep} (hs : w.sweeps 0 = some s)
    (halive : w.Alive s.process) (n : Nat) :
    ∃ history', Run sweepSystem history' (w.sweepOn n) ∧
      ∃ s', (w.sweepOn n).sweeps 0 = some s' ∧ (w.sweepOn n).Alive s'.process := by
  induction n with
  | zero => exact ⟨history, hrun, s, hs, halive⟩
  | succ n ih =>
    obtain ⟨history', hrun', s', hs', halive'⟩ := ih
    rw [World.sweepOn]
    simp only [hs']
    have hnext : Run sweepSystem
        ((w.sweepOn n, .advance 0 { fault := none, removes := true }) :: history') _ :=
      hrun'.next ⟨s', hs', halive', rfl⟩
    exact ⟨_, hnext, _, Function.update_self .., (advance_process ..).symm ▸ halive'⟩

/-- A running process. -/
def sweeperStat : ProcStat where
  command := []
  fields := List.replicate 20 ['5']
  startTicks := 5
  plain := by
    intro field hfield
    rw [List.eq_of_mem_replicate hfield]
    refine ⟨List.cons_ne_nil _ _, fun c hc => ?_⟩
    rw [List.mem_singleton.mp hc]
    decide
  start := by decide
  bound := by decide

def sweeper : Identity := { bootId := "boot-2", pid := 9, startTicks := 5 }

/-- A container of an earlier boot, and the process that sweeps it. -/
def afterReboot : World :=
  let metadata : RunMetadata :=
    { runId := "run", bootId := "boot-1", pid := 7, pidStartTicks := 100, createdAt := 0 }
  let container : Resource := ((.container, "run"), metadata.addLabels "run")
  { bootId := "boot-2", running := fun pid => if pid = 9 then some sweeperStat else none,
    used := [sweeper, metadata.identity],
    present := [container], made := [container], sweeps := fun _ => none }

theorem afterReboot_initial : afterReboot.Initial where
  made := rfl
  names := List.nodup_singleton _
  recorded := by
    intro r hr metadata hmetadata
    obtain rfl := List.mem_singleton.mp hr
    obtain rfl := Except.ok.inj
      ((fromLabels_addLabels ⟨by decide, by decide, by decide, by decide, by decide⟩ "run").symm.trans
        hmetadata)
    exact List.mem_cons_of_mem _ (List.mem_singleton_self _)
  alive := by
    rintro ⟨bootId, pid, startTicks⟩ ⟨hboot, hticks⟩
    obtain rfl | hpid := eq_or_ne pid 9
    · obtain rfl : bootId = "boot-2" := hboot
      obtain rfl : 5 = startTicks := Option.some.inj hticks
      exact List.mem_cons_self
    · simp [afterReboot, hpid] at hticks
  sweeps := fun _ => rfl

/-- The sweep of `sweeper` begins. -/
def sweeping : World :=
  { afterReboot with
    sweeps := Function.update afterReboot.sweeps 0
      (some { process := sweeper, phase := .list [.container, .network, .volume] [],
              seen := [], removed := [] }) }

theorem sweeping_run :
    Run sweepSystem [(afterReboot, .begin 0 sweeper)] sweeping :=
  .next (.start afterReboot_initial) ⟨rfl, ⟨rfl, rfl⟩, rfl⟩

theorem sweep_spares_live_runs_sample :
    (∀ i answer w', (sweeping.sweepOn 10).step (.advance i answer) w' →
      ∀ r ∈ (sweeping.sweepOn 10).present, r ∉ w'.present →
      (∃ metadata, RunMetadata.fromLabels r.1.2 r.2 = .ok metadata ∧
        Exited (sweeping.sweepOn 10) metadata.identity) ∧
      ∃ s, w'.sweeps i = some s ∧ r.1 ∈ s.removed) ∧
    ∀ i s, (sweeping.sweepOn 10).sweeps i = some s → s.removed ≠ [] → Proper s.seen := by
  obtain ⟨history, hrun, -⟩ := sweepOn_run sweeping_run rfl ⟨rfl, rfl⟩ 10
  exact sweep_spares_live_runs hrun

example : (sweeping.sweepOn 10).present ≠ [] ∧ (sweeping.sweepOn 11).present = [] := by decide

end A3sBench.StaleSweep
