import A3sBench.GameHistory
import A3sBench.Library.Custody

/-!
# Runs of the game server

Every session is in exactly one place: the registry, the hands of a handler
that archives it, or the history. What a block can do to the places, the
creation lock, the sessions and the entries is said once, by `Step`.
-/

namespace A3sBench.GameServer

open Library (System Exclusive Moves Appears)
open Library.System (Run Guarded)
open GameJudge

/-! ## What a block does -/

def After.rest : After → List Nat
  | .closeRest rest => rest
  | _ => []

def After.reserves : After → Option String
  | .startGame sessionId => some sessionId
  | _ => none

def After.sweeps : After → Bool
  | .closeRest _ => true
  | _ => false

namespace Phase

/-- The sessions taken from the registry and not yet appended. -/
def held : Phase → List Nat
  | .archiving object after => object :: after.rest
  | .appending object _ after => object :: after.rest
  | _ => []

/-- The id that `/new` has drawn and has yet to register. -/
def reserves : Phase → Option String
  | .starting sessionId => some sessionId
  | .inserting sessionId _ _ => some sessionId
  | .archiving _ after => after.reserves
  | .appending _ _ after => after.reserves
  | _ => none

/-- Whether the request holds `new_lock`. -/
def creates (phase : Phase) : Bool :=
  phase.reserves.isSome || phase = .choosing || phase = .releasing

/-- Whether the `/close-all` of the request has emptied the registry. -/
def sweeps : Phase → Bool
  | .archiving _ after => after.sweeps
  | .appending _ _ after => after.sweeps
  | .closed => true
  | .answered _ => true
  | _ => false

end Phase

/-- A phase that takes nothing over but what the one before it had. -/
structure Quiet (phase next : Phase) : Prop where
  held : phase.held = []
  heldNext : next.held = []
  creates : next.creates = true → phase.creates = true
  reserves : ∀ sessionId, next.reserves = some sessionId → phase.reserves = some sessionId
  sweeps : next.sweeps = false

theorem Quiet.finished {phase : Phase} (h : phase.held = []) : Quiet phase .finished :=
  ⟨h, rfl, by simp [Phase.creates, Phase.reserves], by simp [Phase.reserves], rfl⟩

/-- The score of a session is the one its last step recorded. -/
def Scored (session : GameSessionState) : Prop :=
  ∀ step ∈ session.steps.getLast?, step.score = session.score

/-- What play leaves of a session. -/
structure Continues (before after : GameSessionState) : Prop where
  gameNumber : after.gameNumber = before.gameNumber
  scored : Scored before → Scored after
  steps : before.steps ≠ [] → after.steps ≠ []

inductive Step (c : Config) (s : State) (r : Nat) : State → Prop where
  | called (hphase : s.request r = .idle) :
      Step c s r
        ({ s with
            received := Function.update s.received r
              ((List.range s.nextObject).filter (fun o => (s.object o).steps ≠ [])) }.goto r
          .closingAll)
  | quiet {next : Phase} (hquiet : Quiet (s.request r) next) : Step c s r (s.goto r next)
  | acquired (hphase : s.request r = .waiting) (hfree : s.newLock = none) :
      Step c s r ({ s with newLock := some r }.goto r .choosing)
  | reserved {sessionId : String} (hphase : s.request r = .choosing) (hnew : sessionId ∉ s.keys)
      (hroom : s.sessions.length < c.maxActiveSessions) :
      Step c s r (s.goto r (.starting sessionId))
  | evicted {sessionId key : String} {oldest : Nat} {rest : List (String × Nat)}
      (hphase : s.request r = .choosing) (hnew : sessionId ∉ s.keys)
      (hsessions : s.sessions = (key, oldest) :: rest) :
      Step c s r ({ s with sessions := rest }.goto r (.archiving oldest (.startGame sessionId)))
  | inserted {sessionId observation : String} {maximum : CInt}
      (hphase : s.request r = .inserting sessionId observation maximum) :
      Step c s r (insert s r sessionId observation maximum)
  | released (hphase : s.request r = .releasing) :
      Step c s r ({ s with newLock := none }.goto r .finished)
  | played {object : Nat} {session : GameSessionState} {next : Phase}
      (henv : (s.object object).env = true) (hsession : Continues (s.object object) session)
      (hquiet : Quiet (s.request r) next) : Step c s r ((s.setObject object session).goto r next)
  | left {sessionId : String} {object : Nat} (hheld : (s.request r).held = [])
      (hlookup : s.sessions.lookup sessionId = some object) :
      Step c s r
        ({ s with sessions := pop s.sessions sessionId }.goto r (.archiving object .respond))
  | swept (hphase : s.request r = .closingAll) : Step c s r (closeAll s r)
  | sealed {object : Nat} {after : After} (hphase : s.request r = .archiving object after) :
      Step c s r (archive c s r object after)
  | appended {object : Nat} {entry : Entry} {after : After}
      (hphase : s.request r = .appending object entry after) : Step c s r (append s r entry after)
  | answered (hphase : s.request r = .closed) : Step c s r (s.goto r (.answered s.history))

theorem continues_play (session : GameSessionState) (action observation : String) (done : Bool)
    (score : CInt) : Continues session (session.play action observation done score) where
  gameNumber := rfl
  scored := by
    intro _ step hstep
    simp only [GameSessionState.play, List.getLast?_append, List.getLast?_singleton,
      Option.some_or, Option.mem_some_iff] at hstep
    exact hstep ▸ rfl
  steps := by simp [GameSessionState.play]

section Blocks

variable {c : Config} {s s' : State} {r : Nat}

theorem Step.of_choose {sessionId : String} (hphase : s.request r = .choosing)
    (h : choose c s r sessionId = some s') : Step c s r s' := by
  unfold choose at h
  split_ifs at h with hnew hroom
  · cases h
    exact .reserved hphase hnew hroom
  · split at h
    · cases h
    · cases h
      exact .evicted hphase hnew ‹_›

theorem Step.of_play {sessionId action : String} {object : Nat} (answer : Play)
    (hphase : s.request r = .playing sessionId object action) :
    Step c s r (play s r sessionId object action answer) := by
  have hfinished : Quiet (s.request r) .finished := .finished (by rw [hphase]; rfl)
  unfold play
  dsimp only
  split_ifs with hover
  · exact .quiet hfinished
  · have henv : (s.object object).env = true := by simpa using fun h => hover (.inr h)
    cases answer with
    | stepFails => exact .quiet hfinished
    | scoreFails observation done => exact .played henv ⟨rfl, id, id⟩ hfinished
    | played observation done score =>
      refine .played henv (continues_play ..) ?_
      cases done with
      | false => exact hfinished
      | true =>
        refine ⟨by rw [hphase]; rfl, rfl, ?_, ?_, rfl⟩ <;>
          simp [Phase.creates, Phase.reserves]

theorem Step.of_leave {sessionId : String} {object : Nat}
    (hphase : s.request r = .leaving sessionId object) :
    Step c s r (leave s r sessionId object) := by
  have hheld : (s.request r).held = [] := by rw [hphase]; rfl
  unfold leave
  split_ifs with hlookup
  · exact .left hheld hlookup
  · exact .quiet (.finished hheld)

theorem Step.of_close {sessionId : String} (hphase : s.request r = .closing sessionId) :
    Step c s r (close s r sessionId) := by
  have hheld : (s.request r).held = [] := by rw [hphase]; rfl
  unfold close
  split
  · exact .quiet (.finished hheld)
  · exact .left hheld ‹_›

theorem Step.of_block {answer : Answer} (h : block c s r answer = some s') : Step c s r s' := by
  unfold block at h
  split at h
  case h_1 hphase =>
    split_ifs at h with hfree
    cases h
    exact .acquired hphase hfree
  case h_2 hphase => exact .of_choose hphase h
  case h_3 hphase =>
    cases h
    exact .quiet ⟨by rw [hphase]; rfl, rfl, by rw [hphase]; exact id,
      by rw [hphase]; exact fun _ => id, rfl⟩
  case h_4 hphase =>
    cases h
    exact .quiet ⟨by rw [hphase]; rfl, rfl, by rw [hphase]; exact fun _ => rfl,
      by simp [Phase.reserves], rfl⟩
  case h_5 hphase =>
    cases h
    exact .inserted hphase
  case h_6 hphase =>
    cases h
    exact .released hphase
  case h_7 hphase =>
    have hheld : (s.request r).held = [] := by rw [hphase]; rfl
    split at h
    · cases h
      exact .quiet (.finished hheld)
    · cases h
      exact .quiet ⟨hheld, rfl, by simp [Phase.creates, Phase.reserves],
        by simp [Phase.reserves], rfl⟩
  case h_8 hphase =>
    cases h
    exact .of_play _ hphase
  case h_9 hphase =>
    cases h
    exact .of_leave hphase
  case h_10 hphase =>
    cases h
    exact .of_close hphase
  case h_11 hphase =>
    cases h
    exact .swept hphase
  case h_12 hphase =>
    cases h
    exact .sealed hphase
  case h_13 hphase =>
    cases h
    exact .appended hphase
  case h_14 hphase =>
    cases h
    exact .answered hphase
  case h_15 => cases h

theorem Step.of_receive (call : Call) (hphase : s.request r = .idle) :
    Step c s r (receive s r call) := by
  have hquiet : ∀ next : Phase, next.held = [] → next.creates = false → next.reserves = none →
      next.sweeps = false → Step c s r (s.goto r next) := by
    intro next hheld hcreates hreserves hsweeps
    exact .quiet ⟨by rw [hphase]; rfl, hheld, by simp [hcreates], by simp [hreserves], hsweeps⟩
  cases call with
  | newGame => exact hquiet _ rfl rfl rfl rfl
  | step sessionId action => exact hquiet _ rfl rfl rfl rfl
  | close sessionId => exact hquiet _ rfl rfl rfl rfl
  | finish clientHost =>
    dsimp only [receive]
    split_ifs
    · exact .called hphase
    · exact hquiet _ rfl rfl rfl rfl

def Event.request : Event → Nat
  | .receive r _ => r
  | .block r _ => r

theorem Step.of_apply {event : Event} (h : apply c s event = some s') :
    Step c s event.request s' := by
  cases event with
  | receive r call =>
    dsimp only [apply] at h
    split_ifs at h with hphase
    cases h
    exact .of_receive call hphase
  | block r answer => exact .of_block h

end Blocks

/-! ## The places of the sessions -/

inductive Place where
  | registry
  | handler (r : Nat)
  | archive
  deriving DecidableEq

namespace State

def holds (s : State) : Place → List Nat
  | .registry => s.sessions.map Prod.snd
  | .handler r => (s.request r).held
  | .archive => s.history.map Entry.object

@[simp] theorem request_goto_self (s : State) (r : Nat) (next : Phase) :
    (s.goto r next).request r = next := Function.update_self ..

theorem request_goto_of_ne {s : State} {r q : Nat} {next : Phase} (h : q ≠ r) :
    (s.goto r next).request q = s.request q := Function.update_of_ne h ..

theorem holds_goto_of_held {s : State} {r : Nat} {next : Phase}
    (h : next.held = (s.request r).held) : (s.goto r next).holds = s.holds := by
  funext p
  cases p with
  | registry => rfl
  | handler q =>
      by_cases hq : q = r
      · subst hq
        simpa [holds] using h
      · simp only [holds, request_goto_of_ne hq]
  | archive => rfl

/-- A handler that holds nothing takes sessions from the registry. -/
theorem moves_take {s : State} {r : Nat} {next : Phase} {rest : List (String × Nat)}
    (hheld : (s.request r).held = [])
    (htaken : (s.sessions.map Prod.snd).Perm (next.held ++ rest.map Prod.snd)) :
    Moves s.holds ({ s with sessions := rest }.goto r next).holds .registry (.handler r)
      next.held where
  ne := by simp
  source := htaken
  target := by simp [holds, hheld]
  other p hregistry hhandler := by
    cases p with
    | registry => exact absurd rfl hregistry
    | handler q =>
        exact congrArg Phase.held (request_goto_of_ne (fun h : q = r => hhandler (h ▸ rfl)))
    | archive => rfl

end State

/-- No session is in two places, and those in a place are those created. -/
structure Custody (s : State) : Prop where
  exclusive : Exclusive s.holds
  created : ∀ object, (∃ p, object ∈ s.holds p) ↔ object < s.nextObject

/-- The registry and the request under `new_lock`. -/
structure Creation (c : Config) (s : State) : Prop where
  keys : s.keys.Nodup
  capacity : s.sessions.length ≤ c.maxActiveSessions
  locked : ∀ r, (s.request r).creates = true → s.newLock = some r
  room : ∀ r sessionId, (s.request r).reserves = some sessionId →
    sessionId ∉ s.keys ∧ s.sessions.length < c.maxActiveSessions

/-- An entry that its session, closed for good, still agrees with. -/
structure Sealed (c : Config) (s : State) (entry : Entry) : Prop where
  created : entry.object < s.nextObject
  env : (s.object entry.object).env = false
  eq : entry = entryOf c entry.object (s.object entry.object)

structure Objects (c : Config) (s : State) : Prop where
  nextGameNumber : s.nextGameNumber = s.nextObject + 1
  gameNumber : ∀ object < s.nextObject, (s.object object).gameNumber = object + 1
  scored : ∀ object < s.nextObject, Scored (s.object object)
  history : ∀ entry ∈ s.history, Sealed c s entry
  appending : ∀ r object entry after, s.request r = .appending object entry after →
    entry.object = object ∧ Sealed c s entry

/-- What holds of the sessions that a `/close-all` has to archive. -/
structure Receipts (s : State) : Prop where
  known : ∀ r, ∀ object ∈ s.received r,
    object < s.nextObject ∧ (s.object object).steps ≠ []
  swept : ∀ r, (s.request r).sweeps = true → ∀ object ∈ s.received r,
    object ∉ s.sessions.map Prod.snd
  answered : ∀ r entries, s.request r = .answered entries → entries ⊆ s.history

structure Consistent (c : Config) (s : State) : Prop where
  custody : Custody s
  creation : Creation c s
  objects : Objects c s
  receipts : Receipts s

/-! ## After an archive -/

namespace After

@[simp] theorem held_next (after : After) : after.next.held = after.rest := by
  cases after with
  | closeRest rest => cases rest <;> rfl
  | _ => rfl

@[simp] theorem reserves_next (after : After) : after.next.reserves = after.reserves := by
  cases after with
  | closeRest rest => cases rest <;> rfl
  | _ => rfl

@[simp] theorem sweeps_next (after : After) : after.next.sweeps = after.sweeps := by
  cases after with
  | closeRest rest => cases rest <;> rfl
  | _ => rfl

theorem reserves_of_creates_next {after : After} (h : after.next.creates = true) :
    after.reserves.isSome = true := by
  cases after with
  | closeRest rest =>
      cases rest <;> simp [next, sweep, Phase.creates, Phase.reserves, reserves] at h
  | respond => simp [next, Phase.creates, Phase.reserves] at h
  | startGame sessionId => rfl

theorem next_ne_appending (after : After) (object : Nat) (entry : Entry) (after' : After) :
    after.next ≠ .appending object entry after' := by
  cases after with
  | closeRest rest => cases rest <;> exact Phase.noConfusion
  | _ => exact Phase.noConfusion

theorem next_ne_answered (after : After) (entries : List Entry) :
    after.next ≠ .answered entries := by
  cases after with
  | closeRest rest => cases rest <;> exact Phase.noConfusion
  | _ => exact Phase.noConfusion

end After

@[simp] theorem held_sweep (objects : List Nat) : (sweep objects).held = objects := by
  cases objects <;> rfl

theorem Phase.creates_of_reserves {phase : Phase} {sessionId : String}
    (h : phase.reserves = some sessionId) : phase.creates = true := by
  simp [creates, h]

/-! ## The registry -/

theorem perm_pop {sessions : List (String × Nat)} {key : String} {object : Nat}
    (hkeys : (sessions.map Prod.fst).Nodup) (hlookup : sessions.lookup key = some object) :
    (sessions.map Prod.snd).Perm (object :: (pop sessions key).map Prod.snd) := by
  induction sessions with
  | nil => cases hlookup
  | cons p sessions ih =>
      obtain ⟨name, value⟩ := p
      obtain ⟨hnew, hkeys⟩ := List.nodup_cons.mp hkeys
      by_cases hname : name = key
      · subst hname
        obtain rfl : value = object := by simpa using hlookup
        have hpop : pop ((name, value) :: sessions) name = sessions := by
          have hrest : ∀ q ∈ sessions, q.1 ≠ name :=
            fun q hq h => hnew (List.mem_map.mpr ⟨q, hq, h⟩)
          simpa [pop, List.filter_eq_self] using hrest
        rw [hpop]
        rfl
      · have hlookup : sessions.lookup key = some object := by
          simpa [List.lookup_cons, beq_false_of_ne (Ne.symm hname)] using hlookup
        have hpop : pop ((name, value) :: sessions) key = (name, value) :: pop sessions key := by
          simp [pop, hname]
        rw [hpop]
        exact ((ih hkeys hlookup).cons value).trans (.swap ..)

theorem setItem_of_notMem {sessions : List (String × Nat)} {key : String} {object : Nat}
    (h : key ∉ sessions.map Prod.fst) : setItem sessions key object = sessions ++ [(key, object)] :=
  if_neg h

/-! ## Each block keeps each part of the invariant -/

variable {c : Config} {s s' : State} {r : Nat}

namespace Custody

theorem frame (hs : Custody s) (object : Nat → GameSessionState) (newLock : Option Nat)
    (received : Nat → List Nat) :
    Custody { s with object := object, newLock := newLock, received := received } :=
  ⟨hs.exclusive, hs.created⟩

theorem goto (hs : Custody s) {next : Phase} (h : next.held = (s.request r).held) :
    Custody (s.goto r next) := by
  have hholds := State.holds_goto_of_held h
  exact ⟨hholds ▸ hs.exclusive, by rw [hholds]; exact hs.created⟩

theorem moves (hs : Custody s) {p q : Place} {moved : List Nat}
    (hm : Moves s.holds s'.holds p q moved) (hnext : s'.nextObject = s.nextObject) :
    Custody s' where
  exclusive := hm.exclusive hs.exclusive
  created object := by rw [hm.exists_mem_iff hs.exclusive, hs.created, hnext]

theorem appended (hs : Custody s) {object : Nat} {entry : Entry} {after : After}
    (hphase : s.request r = .appending object entry after) (hobject : entry.object = object) :
    Custody (append s r entry after) := by
  have hm : Moves s.holds (append s r entry after).holds (.handler r) .archive [object] := by
    refine ⟨by simp, ?_, ?_, ?_⟩
    · have hafter : (append s r entry after).holds (.handler r) = after.rest := by
        simp [State.holds, append]
      have hbefore : s.holds (.handler r) = object :: after.rest := congrArg Phase.held hphase
      rw [hafter, hbefore]
      rfl
    · simp [State.holds, append, State.goto, hobject]
    · intro p hhandler harchive
      cases p with
      | registry => rfl
      | handler q =>
          exact congrArg Phase.held
            (State.request_goto_of_ne (fun h : q = r => hhandler (h ▸ rfl)))
      | archive => exact absurd rfl harchive
  exact hs.moves hm rfl

theorem inserted (hs : Custody s) {sessionId observation : String} {maximum : CInt}
    (hphase : s.request r = .inserting sessionId observation maximum)
    (hnew : sessionId ∉ s.keys) : Custody (insert s r sessionId observation maximum) := by
  have ha : Appears s.holds (insert s r sessionId observation maximum).holds .registry
      s.nextObject := by
    refine ⟨?_, ?_⟩
    · simp only [State.holds, insert, setItem_of_notMem hnew, List.map_append]
      exact List.perm_append_singleton ..
    · intro p hregistry
      cases p with
      | registry => exact absurd rfl hregistry
      | handler q =>
          by_cases hq : q = r
          · subst hq
            simp [State.holds, insert, hphase, Phase.held]
          · simp [State.holds, insert, hq]
      | archive => rfl
  have hfresh : ∀ p, s.nextObject ∉ s.holds p :=
    fun p hp => (lt_irrefl _ ((hs.created s.nextObject).mp ⟨p, hp⟩))
  refine ⟨ha.exclusive hs.exclusive hfresh, fun object => ?_⟩
  rw [ha.exists_mem_iff, hs.created]
  exact (or_comm.trans Nat.lt_succ_iff_lt_or_eq.symm)

end Custody

namespace Creation

theorem frame (hs : Creation c s) (object : Nat → GameSessionState) (history : List Entry)
    (received : Nat → List Nat) :
    Creation c { s with object := object, history := history, received := received } :=
  ⟨hs.keys, hs.capacity, hs.locked, hs.room⟩

theorem shrink (hs : Creation c s) {rest : List (String × Nat)} (hrest : rest.Sublist s.sessions) :
    Creation c { s with sessions := rest } where
  keys := hs.keys.sublist (hrest.map Prod.fst)
  capacity := hrest.length_le.trans hs.capacity
  locked := hs.locked
  room q sessionId h :=
    ⟨fun hmem => (hs.room q sessionId h).1 ((hrest.map Prod.fst).subset hmem),
      hrest.length_le.trans_lt (hs.room q sessionId h).2⟩

theorem goto (hs : Creation c s) {next : Phase}
    (hcreates : next.creates = true → s.newLock = some r)
    (hreserves : ∀ sessionId, next.reserves = some sessionId →
      sessionId ∉ s.keys ∧ s.sessions.length < c.maxActiveSessions) :
    Creation c (s.goto r next) where
  keys := hs.keys
  capacity := hs.capacity
  locked q h := by
    by_cases hq : q = r
    · subst hq
      exact hcreates (by simpa using h)
    · exact hs.locked q (State.request_goto_of_ne hq ▸ h)
  room q sessionId h := by
    by_cases hq : q = r
    · subst hq
      exact hreserves sessionId (by simpa using h)
    · exact hs.room q sessionId (State.request_goto_of_ne hq ▸ h)

theorem quiet (hs : Creation c s) {next : Phase} (h : Quiet (s.request r) next) :
    Creation c (s.goto r next) :=
  hs.goto (fun hcreates => hs.locked r (h.creates hcreates))
    (fun sessionId hreserves => hs.room r sessionId (h.reserves sessionId hreserves))

/-- No other request creates a session while this one does. -/
theorem creates_eq_false (hs : Creation c s) (hr : (s.request r).creates = true) {q : Nat}
    (hq : q ≠ r) : (s.request q).creates = false := by
  by_contra h
  have hlock := (hs.locked q (by simpa using h)).symm.trans (hs.locked r hr)
  exact hq (Option.some.inj hlock)

theorem acquired (hs : Creation c s) (hfree : s.newLock = none) :
    Creation c ({ s with newLock := some r }.goto r .choosing) := by
  have hlocked : Creation c { s with newLock := some r } := by
    refine ⟨hs.keys, hs.capacity, fun q h => ?_, hs.room⟩
    exact absurd (hfree.symm.trans (hs.locked q h)) (by simp)
  exact hlocked.goto (fun _ => rfl) (by simp [Phase.reserves])

theorem released (hs : Creation c s) (hphase : s.request r = .releasing) :
    Creation c ({ s with newLock := none }.goto r .finished) where
  keys := hs.keys
  capacity := hs.capacity
  locked q h := by
    by_cases hq : q = r
    · subst hq
      simp [Phase.creates, Phase.reserves] at h
    · have hother := hs.creates_eq_false (by rw [hphase]; rfl) hq
      rw [State.request_goto_of_ne hq] at h
      exact absurd h (by simp [hother])
  room q sessionId h := by
    by_cases hq : q = r
    · subst hq
      simp [Phase.reserves] at h
    · exact hs.room q sessionId (State.request_goto_of_ne hq ▸ h)

theorem evicted (hs : Creation c s) {sessionId key : String} {oldest : Nat}
    {rest : List (String × Nat)} (hphase : s.request r = .choosing) (hnew : sessionId ∉ s.keys)
    (hsessions : s.sessions = (key, oldest) :: rest) :
    Creation c
      ({ s with sessions := rest }.goto r (.archiving oldest (.startGame sessionId))) := by
  have hrest : rest.Sublist s.sessions := hsessions ▸ List.sublist_cons_self ..
  refine (hs.shrink hrest).goto (fun _ => hs.locked r (by rw [hphase]; rfl)) ?_
  intro id hid
  obtain rfl : sessionId = id := Option.some.inj hid
  have hroom : rest.length < c.maxActiveSessions := by
    have hcapacity := hs.capacity
    rw [hsessions, List.length_cons] at hcapacity
    omega
  exact ⟨fun hmem => hnew ((hrest.map Prod.fst).subset hmem), hroom⟩

theorem inserted (hs : Creation c s) {sessionId observation : String} {maximum : CInt}
    (hphase : s.request r = .inserting sessionId observation maximum) :
    Creation c (insert s r sessionId observation maximum) := by
  have hreserves : (s.request r).reserves = some sessionId := by rw [hphase]; rfl
  have hcreates : (s.request r).creates = true := Phase.creates_of_reserves hreserves
  obtain ⟨hnew, hroom⟩ := hs.room r sessionId hreserves
  have hsessions : (insert s r sessionId observation maximum).sessions =
      s.sessions ++ [(sessionId, s.nextObject)] := setItem_of_notMem hnew
  refine ⟨?_, ?_, fun q h => ?_, fun q id h => ?_⟩
  · simp only [State.keys, hsessions, List.map_append]
    exact List.nodup_append'.mpr
      ⟨hs.keys, List.nodup_singleton _, List.disjoint_singleton.mpr hnew⟩
  · rw [hsessions, List.length_append]
    exact hroom
  · by_cases hq : q = r
    · exact hq ▸ hs.locked r hcreates
    · have hother := hs.creates_eq_false hcreates hq
      simp [insert, hq, hother] at h
  · by_cases hq : q = r
    · subst hq
      simp [insert, Phase.reserves] at h
    · have hother := hs.creates_eq_false hcreates hq
      simp only [insert, Function.update_of_ne hq] at h
      exact absurd (Phase.creates_of_reserves h) (by simp [hother])

end Creation

theorem Sealed.congr {entry : Entry} (h : Sealed c s entry) (hnext : s.nextObject ≤ s'.nextObject)
    (hobject : s'.object entry.object = s.object entry.object) : Sealed c s' entry where
  created := h.created.trans_le hnext
  env := hobject ▸ h.env
  eq := by rw [hobject]; exact h.eq

namespace Objects

theorem frame (hs : Objects c s) (sessions : List (String × Nat)) (newLock : Option Nat)
    (received : Nat → List Nat) :
    Objects c { s with sessions := sessions, newLock := newLock, received := received } where
  nextGameNumber := hs.nextGameNumber
  gameNumber := hs.gameNumber
  scored := hs.scored
  history entry hentry := (hs.history entry hentry).congr le_rfl rfl
  appending q object entry after hq :=
    ⟨(hs.appending q object entry after hq).1,
      (hs.appending q object entry after hq).2.congr le_rfl rfl⟩

theorem goto (hs : Objects c s) {next : Phase} (h : ∀ object entry after,
      next = .appending object entry after → entry.object = object ∧ Sealed c s entry) :
    Objects c (s.goto r next) where
  nextGameNumber := hs.nextGameNumber
  gameNumber := hs.gameNumber
  scored := hs.scored
  history entry hentry := (hs.history entry hentry).congr le_rfl rfl
  appending q object entry after hq := by
    have hsealed : entry.object = object ∧ Sealed c s entry := by
      by_cases hr : q = r
      · subst hr
        exact h object entry after (by simpa using hq)
      · exact hs.appending q object entry after (State.request_goto_of_ne hr ▸ hq)
    exact ⟨hsealed.1, hsealed.2.congr le_rfl rfl⟩

/-- A phase that holds nothing appends nothing. -/
theorem goto_of_held (hs : Objects c s) {next : Phase} (h : next.held = []) :
    Objects c (s.goto r next) :=
  hs.goto (fun object entry after hnext => by simp [hnext, Phase.held] at h)

theorem setObject (hs : Objects c s) {object : Nat} {session : GameSessionState}
    (hsession : Continues (s.object object) session)
    (henv : (s.object object).env = false → session = s.object object) :
    Objects c (s.setObject object session) := by
  have hsame : ∀ entry, Sealed c s entry →
      (s.setObject object session).object entry.object = s.object entry.object := by
    intro entry hentry
    by_cases hobject : entry.object = object
    · have hclosed := henv (hobject ▸ hentry.env)
      rw [hobject, hclosed]
      exact Function.update_self ..
    · exact Function.update_of_ne hobject ..
  refine ⟨hs.nextGameNumber, fun o ho => ?_, fun o ho => ?_, fun entry hentry => ?_,
    fun q o entry after hq => ?_⟩
  · by_cases hobject : o = object
    · subst hobject
      simpa [State.setObject, hsession.gameNumber] using hs.gameNumber o ho
    · simpa [State.setObject, hobject] using hs.gameNumber o ho
  · by_cases hobject : o = object
    · subst hobject
      simpa [State.setObject] using hsession.scored (hs.scored o ho)
    · simpa [State.setObject, hobject] using hs.scored o ho
  · have hsealed := hs.history entry hentry
    exact hsealed.congr le_rfl (hsame entry hsealed)
  · obtain ⟨heq, hsealed⟩ := hs.appending q o entry after hq
    exact ⟨heq, hsealed.congr le_rfl (hsame entry hsealed)⟩

theorem sealed (hs : Objects c s) {object : Nat} {after : After} (hobject : object < s.nextObject) :
    Objects c (archive c s r object after) := by
  have hclosed : Objects c (s.setObject object { s.object object with env := false }) :=
    hs.setObject ⟨rfl, id, id⟩ (fun henv => by rw [← henv])
  refine hclosed.goto (fun o entry after' h => ?_)
  simp only [Phase.appending.injEq] at h
  obtain ⟨rfl, rfl, -⟩ := h
  refine ⟨rfl, hobject, ?_, ?_⟩
  · simp [State.setObject, entryOf]
  · simp [State.setObject, entryOf]

theorem appended (hs : Objects c s) {object : Nat} {entry : Entry} {after : After}
    (hphase : s.request r = .appending object entry after) :
    Objects c (append s r entry after) := by
  have hentry : Sealed c s entry := (hs.appending r object entry after hphase).2
  have happended : Objects c { s with history := s.history ++ [entry] } := by
    refine ⟨hs.nextGameNumber, hs.gameNumber, hs.scored, fun e he => ?_,
      fun q o e after' hq => ?_⟩
    · rcases List.mem_append.mp he with he | he
      · exact (hs.history e he).congr le_rfl rfl
      · obtain rfl := List.mem_singleton.mp he
        exact hentry.congr le_rfl rfl
    · obtain ⟨heq, hsealed⟩ := hs.appending q o e after' hq
      exact ⟨heq, hsealed.congr le_rfl rfl⟩
  exact happended.goto (fun o e after' h => absurd h (after.next_ne_appending o e after'))

theorem inserted (hs : Objects c s) (sessionId observation : String) (maximum : CInt) :
    Objects c (insert s r sessionId observation maximum) := by
  have hsame : ∀ o < s.nextObject,
      (insert s r sessionId observation maximum).object o = s.object o :=
    fun o ho => Function.update_of_ne ho.ne ..
  have hself : (insert s r sessionId observation maximum).object s.nextObject =
      newSession sessionId s.nextGameNumber observation maximum := Function.update_self ..
  have hsealed : ∀ entry, Sealed c s entry →
      Sealed c (insert s r sessionId observation maximum) entry :=
    fun entry h => h.congr (Nat.le_succ _) (hsame _ h.created)
  refine ⟨congrArg (· + 1) hs.nextGameNumber, fun o ho => ?_, fun o ho => ?_,
    fun entry hentry => hsealed entry (hs.history entry hentry), fun q o entry after hq => ?_⟩
  · rcases Nat.lt_succ_iff_lt_or_eq.mp ho with ho | rfl
    · rw [hsame o ho]
      exact hs.gameNumber o ho
    · rw [hself]
      exact hs.nextGameNumber
  · rcases Nat.lt_succ_iff_lt_or_eq.mp ho with ho | rfl
    · rw [hsame o ho]
      exact hs.scored o ho
    · rw [hself]
      simp [Scored, newSession]
  · have hold : s.request q = .appending o entry after := by
      by_cases hr : q = r
      · subst hr
        simp [insert] at hq
      · simpa [insert, hr] using hq
    obtain ⟨heq, hentry⟩ := hs.appending q o entry after hold
    exact ⟨heq, hsealed entry hentry⟩

end Objects

namespace Receipts

theorem frame (hs : Receipts s) (newLock : Option Nat) : Receipts { s with newLock := newLock } :=
  ⟨hs.known, hs.swept, hs.answered⟩

theorem shrink (hs : Receipts s) {rest : List (String × Nat)} (hrest : rest.Sublist s.sessions) :
    Receipts { s with sessions := rest } where
  known := hs.known
  swept q hq object hobject hmem :=
    hs.swept q hq object hobject ((hrest.map Prod.snd).subset hmem)
  answered := hs.answered

theorem goto (hs : Receipts s) {next : Phase}
    (hsweeps : next.sweeps = true → ∀ object ∈ s.received r, object ∉ s.sessions.map Prod.snd)
    (hanswered : ∀ entries, next = .answered entries → entries ⊆ s.history) :
    Receipts (s.goto r next) where
  known := hs.known
  swept q hq := by
    by_cases hr : q = r
    · subst hr
      exact hsweeps (by simpa using hq)
    · exact hs.swept q (State.request_goto_of_ne hr ▸ hq)
  answered q entries hq := by
    by_cases hr : q = r
    · subst hr
      exact hanswered entries (by simpa using hq)
    · exact hs.answered q entries (State.request_goto_of_ne hr ▸ hq)

/-- A request that stays on its side of the sweep and is not answered. -/
theorem goto_of_sweeps (hs : Receipts s) {next : Phase}
    (hsweeps : next.sweeps = true → (s.request r).sweeps = true)
    (hanswered : ∀ entries, next ≠ .answered entries) : Receipts (s.goto r next) :=
  hs.goto (fun h => hs.swept r (hsweeps h)) (fun entries h => absurd h (hanswered entries))

theorem goto_of_not_sweeps (hs : Receipts s) {next : Phase} (h : next.sweeps = false) :
    Receipts (s.goto r next) :=
  hs.goto_of_sweeps (by simp [h]) (fun entries hnext => by simp [hnext, Phase.sweeps] at h)

theorem setObject (hs : Receipts s) {object : Nat} {session : GameSessionState}
    (hsteps : (s.object object).steps ≠ [] → session.steps ≠ []) :
    Receipts (s.setObject object session) where
  known q o ho := by
    refine ⟨(hs.known q o ho).1, ?_⟩
    by_cases hobject : o = object
    · subst hobject
      simpa [State.setObject] using hsteps (hs.known q o ho).2
    · simpa [State.setObject, hobject] using (hs.known q o ho).2
  swept := hs.swept
  answered := hs.answered

theorem called (hs : Receipts s) (hphase : s.request r = .idle) :
    Receipts
      ({ s with
          received := Function.update s.received r
            ((List.range s.nextObject).filter (fun o => (s.object o).steps ≠ [])) }.goto r
        .closingAll) := by
  have hreceived : Receipts { s with
      received := Function.update s.received r
        ((List.range s.nextObject).filter (fun o => (s.object o).steps ≠ [])) } := ?_
  · exact hreceived.goto_of_not_sweeps rfl
  refine ⟨fun q object hobject => ?_, fun q hq object hobject => ?_, hs.answered⟩
  · by_cases hr : q = r
    · subst hr
      simpa using hobject
    · exact hs.known q object (by simpa [hr] using hobject)
  · by_cases hr : q = r
    · subst hr
      simp [hphase, Phase.sweeps] at hq
    · exact hs.swept q hq object (by simpa [hr] using hobject)

theorem swept_all (hs : Receipts s) : Receipts (closeAll s r) := by
  refine (hs.shrink (List.nil_sublist _)).goto (by simp) (fun entries h => ?_)
  cases hobjects : s.sessions.map Prod.snd <;> simp [hobjects, sweep] at h

theorem sealed (hs : Receipts s) {object : Nat} {after : After}
    (hphase : s.request r = .archiving object after) : Receipts (archive c s r object after) := by
  have hclosed : Receipts (s.setObject object { s.object object with env := false }) :=
    hs.setObject id
  refine hclosed.goto_of_sweeps (fun h => ?_) (fun entries h => Phase.noConfusion h)
  simpa [State.setObject, hphase, Phase.sweeps] using h

theorem appended (hs : Receipts s) {object : Nat} {entry : Entry} {after : After}
    (hphase : s.request r = .appending object entry after) : Receipts (append s r entry after) := by
  have happended : Receipts { s with history := s.history ++ [entry] } :=
    ⟨hs.known, hs.swept,
      fun q entries hq => List.subset_append_of_subset_left _ (hs.answered q entries hq)⟩
  refine happended.goto_of_sweeps (fun h => ?_) after.next_ne_answered
  rw [hphase]
  exact after.sweeps_next.symm.trans h

theorem inserted (hs : Receipts s) {sessionId observation : String} {maximum : CInt}
    (hnew : sessionId ∉ s.keys) : Receipts (insert s r sessionId observation maximum) := by
  refine ⟨fun q object hobject => ?_, fun q hq object hobject => ?_, fun q entries hq => ?_⟩
  · obtain ⟨hcreated, hsteps⟩ := hs.known q object hobject
    refine ⟨hcreated.trans (Nat.lt_succ_self _), ?_⟩
    simpa [insert, State.setObject, hcreated.ne] using hsteps
  · have hsweeps : (s.request q).sweeps = true := by
      by_cases hr : q = r
      · subst hr
        simp [insert, Phase.sweeps] at hq
      · simpa [insert, hr] using hq
    have hne : object ≠ s.nextObject := (hs.known q object hobject).1.ne
    simpa [insert, setItem_of_notMem hnew, hne] using hs.swept q hsweeps object hobject
  · by_cases hr : q = r
    · subst hr
      simp [insert] at hq
    · exact hs.answered q entries (by simpa [insert, hr] using hq)

end Receipts

namespace Consistent

theorem start (c : Config) : Consistent c start where
  custody := by
    refine ⟨⟨fun p => ?_, fun {p q object} h => ?_⟩, fun object => ?_⟩
    · cases p <;> simp [State.holds, GameServer.start, Phase.held]
    · cases p <;> simp [State.holds, GameServer.start, Phase.held] at h
    · simp only [GameServer.start, Nat.not_lt_zero, iff_false]
      rintro ⟨p, h⟩
      cases p <;> simp [State.holds, Phase.held] at h
  creation := by
    refine ⟨List.nodup_nil, Nat.zero_le _, fun r h => ?_, fun r id h => ?_⟩
    · simp [GameServer.start, Phase.creates, Phase.reserves] at h
    · simp [GameServer.start, Phase.reserves] at h
  objects := by
    refine ⟨rfl, ?_, ?_, ?_, fun r object entry after h => ?_⟩
    · exact fun object h => absurd h (Nat.not_lt_zero _)
    · exact fun object h => absurd h (Nat.not_lt_zero _)
    · exact fun entry h => absurd h List.not_mem_nil
    · simp [GameServer.start] at h
  receipts := by
    refine ⟨fun r object h => absurd h List.not_mem_nil, fun r h => ?_, fun r entries h => ?_⟩
    · simp [GameServer.start, Phase.sweeps] at h
    · simp [GameServer.start] at h

theorem step (hs : Consistent c s) (h : Step c s r s') : Consistent c s' := by
  obtain ⟨hcustody, hcreation, hobjects, hreceipts⟩ := hs
  cases h with
  | called hphase =>
    refine ⟨(hcustody.frame _ _ _).goto (by rw [hphase]; rfl), ?_,
      (hobjects.frame _ _ _).goto_of_held rfl, hreceipts.called hphase⟩
    exact (hcreation.frame _ _ _).goto (by simp [Phase.creates, Phase.reserves])
      (by simp [Phase.reserves])
  | quiet hquiet =>
    exact ⟨hcustody.goto (by rw [hquiet.held, hquiet.heldNext]), hcreation.quiet hquiet,
      hobjects.goto_of_held hquiet.heldNext, hreceipts.goto_of_not_sweeps hquiet.sweeps⟩
  | acquired hphase hfree =>
    exact ⟨(hcustody.frame _ _ _).goto (by rw [hphase]; rfl), hcreation.acquired hfree,
      (hobjects.frame _ _ _).goto_of_held rfl, (hreceipts.frame _).goto_of_not_sweeps rfl⟩
  | reserved hphase hnew hroom =>
    refine ⟨hcustody.goto (by rw [hphase]; rfl), ?_, hobjects.goto_of_held rfl,
      hreceipts.goto_of_not_sweeps rfl⟩
    refine hcreation.goto (fun _ => hcreation.locked r (by rw [hphase]; rfl)) ?_
    rintro _ ⟨⟩
    exact ⟨hnew, hroom⟩
  | @evicted sessionId key oldest rest hphase hnew hsessions =>
    have hrest : rest.Sublist s.sessions := hsessions ▸ List.sublist_cons_self ..
    have hheld : (s.request r).held = [] := by rw [hphase]; rfl
    refine ⟨?_, hcreation.evicted hphase hnew hsessions, ?_,
      (hreceipts.shrink hrest).goto_of_not_sweeps rfl⟩
    · refine hcustody.moves (State.moves_take hheld ?_) rfl
      rw [hsessions]
      rfl
    · exact (hobjects.frame _ _ _).goto (fun _ _ _ h => Phase.noConfusion h)
  | inserted hphase =>
    have hnew := (hcreation.room r _ (by rw [hphase]; rfl)).1
    exact ⟨hcustody.inserted hphase hnew, hcreation.inserted hphase, hobjects.inserted ..,
      hreceipts.inserted hnew⟩
  | released hphase =>
    exact ⟨(hcustody.frame _ _ _).goto (by rw [hphase]; rfl), hcreation.released hphase,
      (hobjects.frame _ _ _).goto_of_held rfl, (hreceipts.frame _).goto_of_not_sweeps rfl⟩
  | played henv hsession hquiet =>
    exact ⟨(hcustody.frame _ _ _).goto (hquiet.heldNext.trans hquiet.held.symm),
      (hcreation.frame _ _ _).quiet hquiet,
      (hobjects.setObject hsession (by simp [henv])).goto_of_held hquiet.heldNext,
      (hreceipts.setObject hsession.steps).goto_of_not_sweeps hquiet.sweeps⟩
  | @left sessionId object hheld hlookup =>
    have hrest : (pop s.sessions sessionId).Sublist s.sessions := List.filter_sublist
    refine ⟨hcustody.moves (State.moves_take hheld (perm_pop hcreation.keys hlookup)) rfl, ?_, ?_,
      (hreceipts.shrink hrest).goto_of_not_sweeps rfl⟩
    · exact (hcreation.shrink hrest).goto (by simp [Phase.creates, Phase.reserves, After.reserves])
        (by simp [Phase.reserves, After.reserves])
    · exact (hobjects.frame _ _ _).goto (fun _ _ _ h => Phase.noConfusion h)
  | swept hphase =>
    have hheld : (s.request r).held = [] := by rw [hphase]; rfl
    have htaken : (s.sessions.map Prod.snd).Perm
        ((sweep (s.sessions.map Prod.snd)).held ++ ([] : List (String × Nat)).map Prod.snd) := by
      simp
    refine ⟨hcustody.moves (State.moves_take hheld htaken) rfl, ?_, ?_, hreceipts.swept_all⟩
    · cases hobjects : s.sessions.map Prod.snd <;>
        exact (hcreation.shrink (List.nil_sublist _)).goto
          (by simp [hobjects, sweep, Phase.creates, Phase.reserves, After.reserves])
          (by simp [hobjects, sweep, Phase.reserves, After.reserves])
    · refine (hobjects.frame _ _ _).goto (fun _ _ _ h => ?_)
      cases hobjects : s.sessions.map Prod.snd <;> simp [hobjects, sweep] at h
  | @«sealed» object after hphase =>
    have hcreated : object < s.nextObject := by
      refine (hcustody.created object).mp ⟨.handler r, ?_⟩
      simp [State.holds, hphase, Phase.held]
    refine ⟨(hcustody.frame _ _ _).goto ?_, (hcreation.frame _ _ _).goto ?_ ?_,
      hobjects.sealed hcreated, hreceipts.sealed hphase⟩
    · simp [hphase, Phase.held]
    · refine fun h => hcreation.locked r ?_
      simpa [hphase, Phase.creates, Phase.reserves] using h
    · refine fun id h => hcreation.room r id ?_
      simpa [hphase, Phase.reserves] using h
  | @appended object entry after hphase =>
    refine ⟨hcustody.appended hphase (hobjects.appending r _ _ _ hphase).1,
      (hcreation.frame _ _ _).goto ?_ ?_, hobjects.appended hphase, hreceipts.appended hphase⟩
    · refine fun h => hcreation.locked r ?_
      simpa [hphase, Phase.creates, Phase.reserves] using After.reserves_of_creates_next h
    · refine fun id h => hcreation.room r id ?_
      rw [hphase]
      exact after.reserves_next.symm.trans h
  | answered hphase =>
    refine ⟨hcustody.goto (by rw [hphase]; rfl), ?_, hobjects.goto_of_held rfl, ?_⟩
    · exact hcreation.goto (by simp [Phase.creates, Phase.reserves]) (by simp [Phase.reserves])
    · refine hreceipts.goto (fun _ => hreceipts.swept r (by rw [hphase]; rfl)) ?_
      rintro _ ⟨⟩
      exact List.Subset.refl _

theorem of_run {h : List (State × Event)} (hrun : Run (serverSystem c) h s) : Consistent c s :=
  hrun.invariant (fun _ hinit => hinit ▸ .start c) (fun _ _ _ hs hstep => hs.step (.of_apply hstep))

end Consistent

/-! ## What a step leaves alone -/

namespace Step

theorem request_of_ne (h : Step c s r s') {q : Nat} (hq : q ≠ r) : s'.request q = s.request q := by
  cases h <;> exact Function.update_of_ne hq ..

theorem received_of_ne (h : Step c s r s') {q : Nat} (hq : q ≠ r) :
    s'.received q = s.received q := by
  cases h with
  | called hphase => exact Function.update_of_ne hq ..
  | _ => rfl

theorem history_grows (h : Step c s r s') : s.history <+: s'.history := by
  cases h with
  | appended hphase => exact List.prefix_append ..
  | _ => exact List.prefix_refl _

theorem of_appending (h : Step c s r s') {object : Nat} {entry : Entry} {after : After}
    (hphase : s.request r = .appending object entry after) : s' = append s r entry after := by
  have hheld : (s.request r).held ≠ [] := by simp [hphase, Phase.held]
  cases h with
  | quiet hquiet => exact absurd hquiet.held hheld
  | played _ _ hquiet => exact absurd hquiet.held hheld
  | left hnone _ => exact absurd hnone hheld
  | appended hother =>
    rw [hphase] at hother
    cases hother
    rfl
  | _ => simp_all

theorem of_answered (h : Step c s r s') {entries : List Entry}
    (hanswered : s'.request r = .answered entries) :
    s.request r = .closed ∧ s' = s.goto r (.answered s.history) ∧ entries = s.history := by
  have hquiet : ∀ {next : Phase}, Quiet (s.request r) next → next ≠ .answered entries := by
    intro next hquiet hnext
    simpa [hnext, Phase.sweeps] using hquiet.sweeps
  cases h with
  | quiet h => exact absurd (by simpa using hanswered) (hquiet h)
  | played _ _ h => exact absurd (by simpa using hanswered) (hquiet h)
  | appended _ => exact absurd (by simpa [append] using hanswered) (After.next_ne_answered _ entries)
  | swept _ => cases hobjects : s.sessions.map Prod.snd <;> simp [closeAll, hobjects, sweep] at hanswered
  | answered hphase => exact ⟨hphase, rfl, by simpa using hanswered.symm⟩
  | _ => simp [insert, archive] at hanswered

end Step

/-! ## Every session is archived once -/

/-- The entry was made: `archive_session` is past the lock of the session. -/
def Archived (s : State) (entry : Entry) : Prop :=
  entry ∈ s.history ∨ ∃ r object after, s.request r = .appending object entry after

theorem Archived.step {entry : Entry} (h : Archived s entry) (hstep : Step c s r s') :
    Archived s' entry := by
  rcases h with hentry | ⟨q, object, after, hq⟩
  · exact .inl (hstep.history_grows.subset hentry)
  · by_cases hqr : q = r
    · subst hqr
      rw [hstep.of_appending hq]
      exact .inl (by simp [append, State.goto])
    · exact .inr ⟨q, object, after, (hstep.request_of_ne hqr).trans hq⟩

namespace Consistent

theorem sealed_of_archived (hs : Consistent c s) {entry : Entry} (h : Archived s entry) :
    Sealed c s entry := by
  rcases h with hentry | ⟨q, object, after, hq⟩
  · exact hs.objects.history entry hentry
  · exact (hs.objects.appending q object entry after hq).2

theorem notMem_registry_of_archived (hs : Consistent c s) {entry : Entry} (h : Archived s entry) :
    entry.object ∉ s.sessions.map Prod.snd := by
  intro hregistry
  have hplace : ∀ p, entry.object ∈ s.holds p → p = .registry :=
    fun p hp => hs.custody.exclusive.place_eq hp (q := .registry) hregistry
  rcases h with hentry | ⟨q, object, after, hq⟩
  · exact Place.noConfusion (hplace .archive (List.mem_map_of_mem hentry))
  · have hobject := (hs.objects.appending q object entry after hq).1
    exact Place.noConfusion (hplace (.handler q) (by simp [State.holds, hq, Phase.held, hobject]))

theorem score_eq (hs : Consistent c s) {entry : Entry} (h : Archived s entry) :
    entry.score = (s.object entry.object).score :=
  congrArg Entry.score (hs.sealed_of_archived h).eq

theorem finalScore_eq (hs : Consistent c s) {entry : Entry} (h : entry ∈ s.history) :
    entry.finalScore = entry.score := by
  rw [(hs.objects.history entry h).eq]
  rfl

end Consistent

/-- Sessions never exceed the maximum, each is archived once, after it left the
registry and with the score it keeps, and the harness reads the greatest score
from every history. -/
theorem archived_once {h : List (State × Event)} {s : State} (hrun : Run (serverSystem c) h s) :
    s.sessions.length ≤ c.maxActiveSessions ∧
      (∀ a < s.nextObject, ∀ b < s.nextObject,
        (s.object a).gameNumber = (s.object b).gameNumber → a = b) ∧
      (s.history.map Entry.object).Nodup ∧
      (∀ entry, Archived s entry →
        entry.object ∉ s.sessions.map Prod.snd ∧ entry.score = (s.object entry.object).score) ∧
      (∀ p ∈ h, p.1.history <+: s.history ∧ ∀ entry, Archived p.1 entry →
        (s.object entry.object).score = (p.1.object entry.object).score) ∧
      ∃ score top, parseGameHistory (historyResponse c s.history) = .ok score ∧
        score.raw = .finite ((top : ℤ) : ℚ) ∧ MaxScore s.history top := by
  have hs : Consistent c s := .of_run hrun
  refine ⟨hs.creation.capacity, fun a ha b hb hab => ?_, hs.custody.exclusive.nodup .archive,
    fun entry hentry => ⟨hs.notMem_registry_of_archived hentry, hs.score_eq hentry⟩,
    fun p hp => ?_, parseGameHistory_historyResponse (fun entry => hs.finalScore_eq)⟩
  · rw [hs.objects.gameNumber a ha, hs.objects.gameNumber b hb] at hab
    exact Nat.succ.inj hab
  · have hlater : p.1.history <+: s.history ∧ ∀ entry, Archived p.1 entry → Archived s entry := by
      refine hrun.guarded_related (G := fun _ _ => True) (I := fun _ => True)
        (R := fun s t => s.history <+: t.history ∧ ∀ entry, Archived s entry → Archived t entry)
        (fun _ _ => trivial) (fun s a t _ _ hstep => ⟨trivial, ?_, ?_⟩) ?_ (fun _ _ => trivial) p hp
      · exact (Step.of_apply hstep).history_grows
      · exact fun entry hentry => hentry.step (Step.of_apply hstep)
      · exact fun s t r hst htr => ⟨hst.1.trans htr.1, fun entry he => htr.2 entry (hst.2 entry he)⟩
    obtain ⟨h', hearlier, -⟩ := hrun.of_mem hp
    refine ⟨hlater.1, fun entry hentry => ?_⟩
    rw [← (Consistent.of_run hearlier).score_eq hentry, hs.score_eq (hlater.2 entry hentry)]

theorem Run.event {h : List (State × Event)} (hrun : Run (serverSystem c) h s) (event : Event)
    (hstep : apply c s event = some s') : Run (serverSystem c) ((s, event) :: h) s' :=
  hrun.next hstep

theorem Run.idle {h : List (State × Event)} (hrun : Run (serverSystem c) h s)
    (hr : ∀ p ∈ h, p.2.request ≠ r) : s.request r = .idle := by
  induction hrun with
  | start hinit => rw [hinit]; rfl
  | @next h s s' event _ hstep ih =>
    obtain ⟨hne, hr⟩ := List.forall_mem_cons.mp hr
    rw [(Step.of_apply hstep).request_of_ne (Ne.symm hne)]
    exact ih hr

def twoGames : Config where
  maxActiveSessions := 2
  atLeastOne := by decide
  quotient := fun _ _ => "0.5"
  wide := fun _ => "1.8446744073709552e19"

/-- The session that is played in the runs below. -/
def lampGame : GameSessionState :=
  (newSession "0123456789ab" 1 "A hall." ⟨10, by decide⟩).play "take lamp" "Taken." false
    ⟨5, by decide⟩

/-- A game with one move, taken from the registry by `/close`. -/
theorem closing_run : ∃ h s, Run (serverSystem twoGames) h s ∧
    (∀ p ∈ h, p.2.request ≤ 2 ∧ p.1.request p.2.request ≠ .closed) ∧
    s.sessions = [] ∧ s.history = [] ∧ s.nextObject = 1 ∧ s.object 0 = lampGame ∧
    s.request 0 = .finished ∧ s.request 1 = .finished ∧ s.request 2 = .archiving 0 .respond := by
  have hstart : Run (serverSystem twoGames) [] start := .start rfl
  have hchosen := Run.event (Run.event (Run.event hstart (.receive 0 .newGame) rfl)
    (.block 0 .nothing) rfl) (.block 0 (.uuid "0123456789ab")) rfl
  have hnew := Run.event (Run.event (Run.event hchosen
    (.block 0 (.game (some ("A hall.", ⟨10, by decide⟩)))) rfl) (.block 0 .nothing) rfl)
    (.block 0 .nothing) rfl
  have hplayed := Run.event (Run.event (Run.event hnew
    (.receive 1 (.step "0123456789ab" "take lamp")) rfl) (.block 1 .nothing) rfl)
    (.block 1 (.play (.played "Taken." false ⟨5, by decide⟩))) rfl
  have hclosing := Run.event (Run.event hplayed (.receive 2 (.close "0123456789ab")) rfl)
    (.block 2 .nothing) rfl
  exact ⟨_, _, hclosing, by decide, rfl, rfl, rfl, rfl, rfl, rfl, rfl⟩

theorem appended_run : ∃ h s, Run (serverSystem twoGames) h s ∧
    (∀ p ∈ h, p.2.request ≤ 2 ∧ p.1.request p.2.request ≠ .closed) ∧
    s.sessions = [] ∧ s.history = [entryOf twoGames 0 lampGame] ∧ s.nextObject = 1 ∧
    (s.object 0).steps = lampGame.steps ∧ ∀ r, (s.request r).held = [] := by
  obtain ⟨h, s, hclosing, hevents, hsessions, hhistory, hnext, hobject, h0, h1, h2⟩ := closing_run
  have hsealed : Run (serverSystem twoGames) _ (archive twoGames s 2 0 .respond) :=
    Run.event hclosing (.block 2 .nothing) (by simp [apply, block, h2])
  have happended : Run (serverSystem twoGames) _
      (append (archive twoGames s 2 0 .respond) 2 (entryOf twoGames 0 lampGame) .respond) :=
    Run.event hsealed (.block 2 .nothing) (by simp [apply, block, archive, hobject])
  refine ⟨_, _, happended, ?_, hsessions, ?_, hnext, ?_, fun r => ?_⟩
  · simpa [Event.request, archive, h2] using hevents
  · simp [append, archive, State.goto, State.setObject, hhistory]
  · simp [append, archive, State.goto, State.setObject, hobject]
  · by_cases hr : r = 2
    · subst hr
      simp [append, After.rest]
    · have hsame : (append (archive twoGames s 2 0 .respond) 2 (entryOf twoGames 0 lampGame)
          .respond).request r = s.request r := by
        simp [append, archive, State.goto, State.setObject, hr]
      rw [hsame]
      by_cases hlarge : 2 < r
      · rw [Run.idle hclosing (fun p hp => ((hevents p hp).1.trans_lt hlarge).ne)]
        rfl
      · obtain rfl | rfl : r = 0 ∨ r = 1 := by omega
        · rw [h0]
          rfl
        · rw [h1]
          rfl

theorem archived_once_sample : ∃ h s, Run (serverSystem twoGames) h s ∧
    s.history = [entryOf twoGames 0 lampGame] ∧ (s.history.map Entry.object).Nodup := by
  obtain ⟨h, s, hrun, -, -, hhistory, -⟩ := appended_run
  exact ⟨h, s, hrun, hhistory, (archived_once hrun).2.2.1⟩

end A3sBench.GameServer
