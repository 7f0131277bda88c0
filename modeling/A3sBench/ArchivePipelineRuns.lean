import A3sBench.ArchivePipeline
import A3sBench.Library.Runs
import Mathlib

/-!
# Every schedule of the archive pipeline

For an archive that is too long the pump always stops with `Limit`. What the
pipeline reports depends on the monitor: a poll that meets a child the dropped
pipes made fail, before the channel is asked, reports that failure instead.
-/

namespace A3sBench.ArchivePipeline

open Library Library.System

/-- Every schedule of one pipeline, on an archive that arrives in these reads. -/
def pipelineSystem (c : Config) (reads : List Nat) : System State Event where
  init s := s = start reads
  step s e s' := apply c s e = some s'

/-- The archive is longer than the limit; a read fills at most the buffer. -/
structure Oversized (c : Config) (reads : List Nat) : Prop where
  bounded : ∀ n ∈ reads, 0 < n ∧ n ≤ bufferLength
  longer : c.maxBytes < reads.sum

/-- The pump has returned, and so dropped both pipe ends. -/
def pumpStopped (s : State) : Bool :=
  match s.pump with
  | .running _ _ => false
  | _ => true

def pumpSent (s : State) : Bool :=
  match s.pump with
  | .sent _ | .received => true
  | _ => false

/-- The deadline is not reached, no operation of the pump or the monitor itself
fails, and no child fails before the pump stopped. -/
def Undisturbed (s : State) : Event → Prop
  | .expire => False
  | .pump readFault writeFault => readFault = none ∧ writeFault = none
  | .send => True
  | .copyExit success | .extractExit success => success = true ∨ pumpStopped s = true
  | .monitor fault => fault = none

/-- The monitor polls no child that has failed. -/
def SeesNoFailure (s : State) (e : Event) : Prop :=
  ∀ fault, e = .monitor fault →
    (s.monitor = .copy → s.copy ≠ .exited false) ∧
      (s.monitor = .extract → s.extract ≠ .exited false)

/-- The pump's limit error, which counts at most one buffer too many. -/
def LimitError (c : Config) (error : ArchivePumpError) : Prop :=
  ∃ consumed, consumed ≤ c.maxBytes + bufferLength ∧ error = .limit c.maxBytes consumed

/-- The pump of an oversized archive: it still has too much to read, or it has
stopped at the limit. -/
def PumpHealthy (c : Config) : Pump → Prop
  | .running transferred reads => transferred ≤ c.maxBytes ∧
      (∀ n ∈ reads, 0 < n ∧ n ≤ bufferLength) ∧ c.maxBytes < transferred + reads.sum
  | .stopped result | .sent result => ∃ error, result = .error error ∧ LimitError c error
  | .received => True

def inLoop : Monitor → Bool
  | .closing _ | .returned _ => false
  | _ => true

/-- In its loop the monitor has not taken the result, and the statuses it knows
are those of the children. -/
structure LoopHealthy (s : State) : Prop where
  untaken : s.pump ≠ .received
  result : s.pumpResult = none
  copy : ∀ b, s.copyStatus = some b → s.copy = .exited b
  extract : ∀ b, s.extractStatus = some b → s.extract = .exited b

structure Healthy (c : Config) (s : State) : Prop where
  clock : s.expired = false
  pump : PumpHealthy c s.pump
  loop : inLoop s.monitor = true → LoopHealthy s

/-- The monitor is in its loop or has received the limit error. -/
def Winning (c : Config) : Monitor → Prop
  | .closing abort => ∃ error, abort = some (.pump error) ∧ LimitError c error
  | .returned result => ∃ error, result = .error (.pump error) ∧ LimitError c error
  | _ => True

/-- The monitor has given up on a child that failed. -/
def Lost : Monitor → Prop
  | .closing abort => abort = some .copyFailed ∨ abort = some .extractFailed
  | .returned result => ∃ text, result = .error (.message text)
  | _ => False

/-- What an undisturbed step does: the state stays healthy, the monitor goes on
winning unless it sees a failure, and what it has lost stays lost. -/
structure Advances (c : Config) (s : State) (e : Event) (s' : State) : Prop where
  healthy : Healthy c s'
  wins : SeesNoFailure s e → Winning c s.monitor → Winning c s'.monitor
  loses : ¬ SeesNoFailure s e → Lost s'.monitor
  lost : Lost s.monitor → Lost s'.monitor

theorem not_lost_of_inLoop {m : Monitor} (h : inLoop m = true) : ¬ Lost m := by
  cases m <;> simp_all [Lost, inLoop]

theorem winning_of_inLoop {c : Config} {m : Monitor} (h : inLoop m = true) : Winning c m := by
  cases m <;> simp_all [Winning, inLoop]

theorem Advances.ofLoop {c : Config} {s s' : State} {e : Event} (hm : inLoop s.monitor = true)
    (hs' : Healthy c s') (hsees : SeesNoFailure s e) (hwin : Winning c s'.monitor) :
    Advances c s e s' :=
  ⟨hs', fun _ _ => hwin, fun h => absurd hsees h, fun h => absurd h (not_lost_of_inLoop hm)⟩

theorem Advances.ofOther {c : Config} {s s' : State} {e : Event} (he : ∀ fault, e ≠ .monitor fault)
    (hm : s'.monitor = s.monitor) (hs' : Healthy c s') : Advances c s e s' := by
  refine ⟨hs', fun _ h => hm ▸ h, fun h => absurd ?_ h, fun h => hm ▸ h⟩
  exact fun fault heq => absurd heq (he fault)

theorem pumpArchive_healthy {c : Config} {transferred : Nat} {reads : List Nat}
    (h : PumpHealthy c (.running transferred reads)) :
    PumpHealthy c (pumpArchive c.maxBytes false none none transferred reads) ∧
      pumpArchive c.maxBytes false none none transferred reads ≠ .received := by
  obtain ⟨htrans, hbounded, hlonger⟩ := h
  cases reads with
  | nil =>
    rw [List.sum_nil] at hlonger
    omega
  | cons count rest =>
    obtain ⟨⟨_, hcount⟩, hrest⟩ := List.forall_mem_cons.mp hbounded
    simp only [pumpArchive, Bool.false_eq_true, if_false]
    split_ifs with h64 hlimit
    · exact ⟨⟨_, rfl, u64Max, by omega, rfl⟩, by simp⟩
    · exact ⟨⟨_, rfl, transferred + count, by omega, rfl⟩, by simp⟩
    · refine ⟨⟨by omega, hrest, ?_⟩, by simp⟩
      rw [List.sum_cons] at hlonger
      omega

theorem healthy_start {c : Config} {reads : List Nat} (h : Oversized c reads) :
    Healthy c (start reads) := by
  refine ⟨rfl, ⟨Nat.zero_le _, h.bounded, ?_⟩, fun _ => ⟨by simp [start], rfl, ?_, ?_⟩⟩
  · rw [Nat.zero_add]
    exact h.longer
  · simp [start]
  · simp [start]

theorem pollChild_none {child : Child} {status : Option Bool}
    (hstatus : ∀ b, status = some b → child = .exited b) :
    pollChild none child status = .ok child.tryWait := by
  cases status with
  | none => rfl
  | some b => rw [hstatus b rfl]; rfl

theorem tryWait_eq_some {child : Child} {b : Bool} (h : child.tryWait = some b) :
    child = .exited b := by
  cases child with
  | running => cases h
  | exited success => rw [Child.tryWait, Option.some.injEq] at h; rw [h]

theorem advances_copy {c : Config} {s s' : State} (hs : Healthy c s) (hm : s.monitor = .copy)
    (hstep : monitorStep c none s = some s') : Advances c s (.monitor none) s' := by
  have hloop : inLoop s.monitor = true := by rw [hm]; rfl
  obtain ⟨huntaken, hresult, hcopy, hextract⟩ := hs.loop hloop
  simp only [monitorStep, hm, pollChild_none hcopy, Option.some.injEq] at hstep
  subst hstep
  by_cases hfail : s.copy.tryWait = some false
  · refine ⟨⟨hs.clock, hs.pump, by simp [hfail, inLoop]⟩, fun hsees _ => ?_,
      fun _ => by simp [hfail, Lost], fun h => absurd h (not_lost_of_inLoop hloop)⟩
    exact absurd (tryWait_eq_some hfail) ((hsees none rfl).1 hm)
  · refine .ofLoop hloop ⟨hs.clock, hs.pump, fun _ =>
      ⟨huntaken, hresult, fun b => tryWait_eq_some, hextract⟩⟩ ?_ (by simp [hfail, Winning])
    refine fun _ _ => ⟨fun _ hc => hfail (by rw [hc]; rfl), fun he => ?_⟩
    rw [hm] at he
    cases he

theorem advances_extract {c : Config} {s s' : State} (hs : Healthy c s) (hm : s.monitor = .extract)
    (hstep : monitorStep c none s = some s') : Advances c s (.monitor none) s' := by
  have hloop : inLoop s.monitor = true := by rw [hm]; rfl
  obtain ⟨huntaken, hresult, hcopy, hextract⟩ := hs.loop hloop
  simp only [monitorStep, hm, pollChild_none hextract, Option.some.injEq] at hstep
  subst hstep
  by_cases hfail : s.extract.tryWait = some false
  · refine ⟨⟨hs.clock, hs.pump, by simp [hfail, inLoop]⟩, fun hsees _ => ?_,
      fun _ => by simp [hfail, Lost], fun h => absurd h (not_lost_of_inLoop hloop)⟩
    exact absurd (tryWait_eq_some hfail) ((hsees none rfl).2 hm)
  · refine .ofLoop hloop ⟨hs.clock, hs.pump, fun _ =>
      ⟨huntaken, hresult, hcopy, fun b => tryWait_eq_some⟩⟩ ?_ (by simp [hfail, Winning])
    refine fun _ _ => ⟨fun he => ?_, fun _ hc => hfail (by rw [hc]; rfl)⟩
    rw [hm] at he
    cases he

theorem advances_channel {c : Config} {s s' : State} (hs : Healthy c s) (hm : s.monitor = .channel)
    (hstep : monitorStep c none s = some s') : Advances c s (.monitor none) s' := by
  have hloop : inLoop s.monitor = true := by rw [hm]; rfl
  have hsees : SeesNoFailure s (.monitor none) := by simp [SeesNoFailure, hm]
  obtain ⟨huntaken, hresult, hcopy, hextract⟩ := hs.loop hloop
  simp only [monitorStep, hm, hresult] at hstep
  cases hp : s.pump with
  | running transferred reads | stopped result =>
    simp only [hp, Option.some.injEq] at hstep
    subst hstep
    exact .ofLoop hloop ⟨hs.clock, hp ▸ hs.pump, fun _ => ⟨by simp, rfl, hcopy, hextract⟩⟩
      hsees trivial
  | sent result =>
    obtain ⟨error, rfl, hlimit⟩ : PumpHealthy c (.sent result) := hp ▸ hs.pump
    simp only [hp, Option.some.injEq] at hstep
    subst hstep
    exact .ofLoop hloop ⟨hs.clock, trivial, nofun⟩ hsees ⟨error, rfl, hlimit⟩
  | received => exact absurd hp huntaken

theorem advances_closing {c : Config} {s s' : State} (hs : Healthy c s)
    {abort : Option PipelineAbort} (hm : s.monitor = .closing abort)
    (hstep : monitorStep c none s = some s') : Advances c s (.monitor none) s' := by
  have hnext : s' = { s with monitor := .returned (finish c s abort) } := by
    simp only [monitorStep, hm] at hstep
    split at hstep
    · exact (Option.some.inj hstep).symm
    · exact (Option.some.inj hstep).symm
    · cases hstep
  subst hnext
  refine ⟨⟨hs.clock, hs.pump, nofun⟩, ?_, fun h => absurd (by simp [SeesNoFailure, hm]) h, ?_⟩
  · rw [hm]
    rintro _ ⟨error, rfl, hlimit⟩
    exact ⟨error, rfl, hlimit⟩
  · rw [hm]
    rintro (rfl | rfl)
    · exact ⟨_, rfl⟩
    · exact ⟨_, rfl⟩

theorem advances_monitor {c : Config} {s s' : State} (hs : Healthy c s)
    (hstep : monitorStep c none s = some s') : Advances c s (.monitor none) s' := by
  cases hm : s.monitor with
  | deadline =>
    have hloop : inLoop s.monitor = true := by rw [hm]; rfl
    simp only [monitorStep, hm, hs.clock, Bool.false_eq_true, if_false, Option.some.injEq] at hstep
    subst hstep
    exact .ofLoop hloop ⟨rfl, hs.pump, fun _ => { hs.loop hloop with }⟩
      (by simp [SeesNoFailure, hm]) trivial
  | copy => exact advances_copy hs hm hstep
  | extract => exact advances_extract hs hm hstep
  | channel => exact advances_channel hs hm hstep
  | complete =>
    have hloop : inLoop s.monitor = true := by rw [hm]; rfl
    have hresult := (hs.loop hloop).result
    simp only [monitorStep, hm, hresult, Option.isSome_none, Bool.false_eq_true, and_false,
      if_false, Option.some.injEq] at hstep
    subst hstep
    exact .ofLoop hloop ⟨hs.clock, hs.pump, fun _ => { hs.loop hloop with result := rfl }⟩
      (by simp [SeesNoFailure, hm]) trivial
  | closing abort => exact advances_closing hs hm hstep
  | returned result =>
    simp only [monitorStep, hm] at hstep
    cases hstep

theorem advances_apply {c : Config} {s s' : State} {e : Event} (hs : Healthy c s)
    (hund : Undisturbed s e) (hstep : apply c s e = some s') : Advances c s e s' := by
  cases e with
  | expire => exact hund.elim
  | pump readFault writeFault =>
    obtain ⟨rfl, rfl⟩ := hund
    cases hp : s.pump with
    | running transferred reads =>
      simp only [apply, hp, hs.clock, Option.some.injEq] at hstep
      subst hstep
      obtain ⟨hpump, huntaken⟩ := pumpArchive_healthy (hp ▸ hs.pump)
      exact .ofOther (by simp) rfl
        ⟨rfl, hpump, fun hloop => { hs.loop hloop with untaken := huntaken }⟩
    | stopped result | sent result | received => simp [apply, hp] at hstep
  | send =>
    cases hp : s.pump with
    | stopped result =>
      simp only [apply, hp, Option.some.injEq] at hstep
      subst hstep
      have hpump : PumpHealthy c (.stopped result) := hp ▸ hs.pump
      exact .ofOther (by simp) rfl
        ⟨hs.clock, hpump, fun hloop => { hs.loop hloop with untaken := by simp }⟩
    | running transferred reads | sent result | received => simp [apply, hp] at hstep
  | copyExit success =>
    simp only [apply] at hstep
    split_ifs at hstep with hrunning
    obtain rfl := Option.some.inj hstep
    refine .ofOther (by simp) rfl ⟨hs.clock, hs.pump, fun hloop => ?_⟩
    obtain ⟨huntaken, hresult, hcopy, hextract⟩ := hs.loop hloop
    refine ⟨huntaken, hresult, fun b hb => ?_, hextract⟩
    rw [hcopy b hb] at hrunning
    cases hrunning
  | extractExit success =>
    simp only [apply] at hstep
    split_ifs at hstep with hrunning
    obtain rfl := Option.some.inj hstep
    refine .ofOther (by simp) rfl ⟨hs.clock, hs.pump, fun hloop => ?_⟩
    obtain ⟨huntaken, hresult, hcopy, hextract⟩ := hs.loop hloop
    refine ⟨huntaken, hresult, hcopy, fun b hb => ?_⟩
    rw [hextract b hb] at hrunning
    cases hrunning
  | monitor fault =>
    obtain rfl : fault = none := hund
    exact advances_monitor hs hstep

/-- An undisturbed run wins or loses by whether the monitor saw a failure. -/
theorem verdict_of_run {c : Config} {reads : List Nat} (harchive : Oversized c reads)
    {h : List (State × Event)} {s : State} (hrun : Run (pipelineSystem c reads) h s)
    (hund : Guarded Undisturbed h) : Healthy c s ∧
      (Guarded SeesNoFailure h → Winning c s.monitor) ∧
      (¬ Guarded SeesNoFailure h → Lost s.monitor) := by
  induction hrun with
  | start hinit =>
    obtain rfl := hinit
    exact ⟨healthy_start harchive, fun _ => trivial, fun hnot => absurd (guarded_nil _) hnot⟩
  | next hr hstep ih =>
    obtain ⟨hund₀, hundh⟩ := (guarded_cons ..).mp hund
    obtain ⟨hs, hwin, hlost⟩ := ih hundh
    obtain ⟨hs', hwins, hloses, hstays⟩ := advances_apply hs hund₀ hstep
    refine ⟨hs', fun hsees => ?_, fun hnot => ?_⟩
    · obtain ⟨hsees₀, hseesh⟩ := (guarded_cons ..).mp hsees
      exact hwins hsees₀ (hwin hseesh)
    · rw [guarded_cons, not_and_or] at hnot
      rcases hnot with hnot | hnot
      · exact hloses hnot
      · exact hstays (hlost hnot)

/-- Turns the pump thread can still take, its send included. -/
def turnsLeft : Pump → Nat
  | .running _ reads => reads.length + 2
  | .stopped _ => 1
  | .sent _ | .received => 0

/-- Steps the monitor can still take once the result is in the channel. -/
def pollsLeft : Monitor → Nat
  | .complete => 6
  | .deadline => 5
  | .copy => 4
  | .extract => 3
  | .channel => 2
  | .closing _ => 1
  | .returned _ => 0

def isPumpTurn : Event → Bool
  | .pump _ _ | .send => true
  | _ => false

def isPoll : Event → Bool
  | .monitor _ => true
  | _ => false

theorem turnsLeft_pumpArchive (maxBytes : Nat) (expired : Bool) (readFault writeFault : Option String)
    (transferred : Nat) (reads : List Nat) :
    turnsLeft (pumpArchive maxBytes expired readFault writeFault transferred reads) <
      turnsLeft (.running transferred reads) := by
  cases expired with
  | true => simp [pumpArchive, turnsLeft]
  | false =>
    cases readFault with
    | some error => simp [pumpArchive, turnsLeft]
    | none =>
      cases reads with
      | nil => cases writeFault <;> simp [pumpArchive, turnsLeft]
      | cons count rest =>
        simp only [pumpArchive, Bool.false_eq_true, if_false]
        split_ifs
        · simp [turnsLeft]
        · simp [turnsLeft]
        · cases writeFault <;> simp [turnsLeft]

/-- The monitor only ever takes the result from the channel, and comes closer to
its end unless it finds the channel empty. -/
theorem monitorStep_moves {c : Config} {fault : Option String} {s s' : State}
    (hstep : monitorStep c fault s = some s') :
    (s'.pump = s.pump ∨ pumpSent s = true ∧ s'.pump = .received) ∧
      (pollsLeft s'.monitor < pollsLeft s.monitor ∨ s.monitor = .channel) := by
  cases hm : s.monitor with
  | deadline =>
    simp only [monitorStep, hm, Option.some.injEq] at hstep
    subst hstep
    exact ⟨.inl rfl, .inl (by dsimp only; split <;> simp [pollsLeft])⟩
  | copy | extract =>
    simp only [monitorStep, hm] at hstep
    split at hstep
    · obtain rfl := Option.some.inj hstep
      exact ⟨.inl rfl, .inl (by simp [pollsLeft])⟩
    · obtain rfl := Option.some.inj hstep
      exact ⟨.inl rfl, .inl (by dsimp only; split <;> simp [pollsLeft])⟩
  | channel =>
    refine ⟨?_, .inr rfl⟩
    simp only [monitorStep, hm] at hstep
    split at hstep
    · obtain rfl := Option.some.inj hstep
      exact .inl rfl
    · rename_i hp
      obtain rfl := Option.some.inj hstep
      exact .inr ⟨by simp [pumpSent, hp], rfl⟩
    · rename_i hp
      obtain rfl := Option.some.inj hstep
      exact .inr ⟨by simp [pumpSent, hp], rfl⟩
    · obtain rfl := Option.some.inj hstep
      exact .inl rfl
    · obtain rfl := Option.some.inj hstep
      exact .inl rfl
  | complete =>
    simp only [monitorStep, hm, Option.some.injEq] at hstep
    subst hstep
    exact ⟨.inl rfl, .inl (by dsimp only; split <;> simp [pollsLeft])⟩
  | closing abort =>
    simp only [monitorStep, hm] at hstep
    split at hstep
    · obtain rfl := Option.some.inj hstep
      exact ⟨.inl rfl, .inl (by simp [pollsLeft])⟩
    · obtain rfl := Option.some.inj hstep
      exact ⟨.inl rfl, .inl (by simp [pollsLeft])⟩
    · cases hstep
  | returned result =>
    simp only [monitorStep, hm] at hstep
    cases hstep

theorem turnsLeft_of_pumpSent {s : State} (h : pumpSent s = true) : turnsLeft s.pump = 0 := by
  cases hp : s.pump <;> simp_all [pumpSent, turnsLeft]

/-- The pump thread takes finitely many turns. -/
theorem turnsLeft_apply {c : Config} {s s' : State} {e : Event} (hstep : apply c s e = some s') :
    (if isPumpTurn e then 1 else 0) + turnsLeft s'.pump ≤ turnsLeft s.pump := by
  cases e with
  | expire =>
    obtain rfl := Option.some.inj hstep
    simp [isPumpTurn]
  | copyExit success | extractExit success =>
    simp only [apply] at hstep
    split_ifs at hstep
    obtain rfl := Option.some.inj hstep
    simp [isPumpTurn]
  | pump readFault writeFault =>
    cases hp : s.pump with
    | running transferred reads =>
      simp only [apply, hp, Option.some.injEq] at hstep
      subst hstep
      have hless := turnsLeft_pumpArchive c.maxBytes s.expired readFault writeFault transferred reads
      simp only [isPumpTurn, if_true]
      omega
    | stopped result | sent result | received => simp [apply, hp] at hstep
  | send =>
    cases hp : s.pump with
    | stopped result =>
      simp only [apply, hp, Option.some.injEq] at hstep
      subst hstep
      simp [isPumpTurn, turnsLeft]
    | running transferred reads | sent result | received => simp [apply, hp] at hstep
  | monitor fault =>
    rcases (monitorStep_moves hstep).1 with hsame | ⟨_, htaken⟩
    · simp [isPumpTurn, hsame]
    · simp [isPumpTurn, htaken, turnsLeft]

/-- Once the result is sent, every step of the monitor brings it closer to its
end, and no other step moves it. -/
theorem pollsLeft_apply {c : Config} {s s' : State} {e : Event} (hs : Healthy c s)
    (hund : Undisturbed s e) (hsent : pumpSent s = true) (hstep : apply c s e = some s') :
    pumpSent s' = true ∧
      (if isPoll e then 1 else 0) + pollsLeft s'.monitor ≤ pollsLeft s.monitor := by
  cases e with
  | expire => exact hund.elim
  | copyExit success | extractExit success =>
    simp only [apply] at hstep
    split_ifs at hstep
    obtain rfl := Option.some.inj hstep
    exact ⟨hsent, by simp [isPoll]⟩
  | pump readFault writeFault | send =>
    cases hp : s.pump <;> simp [apply, hp, pumpSent] at hstep hsent
  | monitor fault =>
    obtain ⟨hpump, hpolls⟩ := monitorStep_moves hstep
    have hsent' : pumpSent s' = true := by
      rcases hpump with hsame | ⟨_, htaken⟩
      · rwa [pumpSent, hsame]
      · rw [pumpSent, htaken]
    refine ⟨hsent', ?_⟩
    rcases hpolls with hless | hm
    · simp only [isPoll, if_true]
      omega
    · obtain rfl : fault = none := hund
      obtain ⟨huntaken, hresult, _, _⟩ := hs.loop (by rw [hm]; rfl)
      cases hp : s.pump with
      | sent result =>
        obtain ⟨error, rfl, _⟩ : PumpHealthy c (.sent result) := hp ▸ hs.pump
        simp only [apply, monitorStep, hm, hresult, hp, Option.some.injEq] at hstep
        subst hstep
        simp [isPoll, pollsLeft, hm]
      | received => exact absurd hp huntaken
      | running transferred reads | stopped result => simp [pumpSent, hp] at hsent

/-- Someone can always move on: the pump until it has sent its result, the
monitor from then until it returns. -/
def Live (c : Config) (s : State) : Prop :=
  (∃ r, s.monitor = .returned r) ∨
    (pumpSent s = false ∧ ∃ e, isPumpTurn e = true ∧ Undisturbed s e ∧ (apply c s e).isSome) ∨
    (pumpSent s = true ∧ (apply c s (.monitor none)).isSome)

theorem live (c : Config) (s : State) : Live c s := by
  cases hp : s.pump with
  | running transferred reads =>
    exact .inr (.inl ⟨by simp [pumpSent, hp], .pump none none, rfl, ⟨rfl, rfl⟩, by simp [apply, hp]⟩)
  | stopped result =>
    exact .inr (.inl ⟨by simp [pumpSent, hp], .send, rfl, trivial, by simp [apply, hp]⟩)
  | sent result | received =>
    by_cases hr : ∃ r, s.monitor = .returned r
    · exact .inl hr
    · refine .inr (.inr ⟨by simp [pumpSent, hp], ?_⟩)
      simp only [apply, monitorStep]
      repeat' split
      all_goals first | rfl | simp_all

/-- A step of the monitor taken when the result is in the channel. -/
def isLatePoll (p : State × Event) : Bool := pumpSent p.1 && isPoll p.2

theorem turns_of_run {c : Config} {reads : List Nat} {h : List (State × Event)} {s : State}
    (hrun : Run (pipelineSystem c reads) h s) :
    h.countP (fun p => isPumpTurn p.2) + turnsLeft s.pump ≤ reads.length + 2 := by
  induction hrun with
  | start hinit =>
    obtain rfl := hinit
    simp [start, turnsLeft]
  | next _ hstep ih =>
    have hturn := turnsLeft_apply hstep
    rw [List.countP_cons]
    dsimp only
    omega

theorem polls_of_run {c : Config} {reads : List Nat} (harchive : Oversized c reads)
    {h : List (State × Event)} {s : State} (hrun : Run (pipelineSystem c reads) h s)
    (hund : Guarded Undisturbed h) :
    h.countP isLatePoll + (if pumpSent s then pollsLeft s.monitor else 6) ≤ 6 := by
  induction hrun with
  | start hinit =>
    obtain rfl := hinit
    simp [start, pumpSent]
  | @next h s s' e hr hstep ih =>
    obtain ⟨hund₀, hundh⟩ := (guarded_cons ..).mp hund
    have hcount := ih hundh
    rw [List.countP_cons, isLatePoll]
    cases hsent : pumpSent s with
    | true =>
      obtain ⟨hsent', hpolls⟩ :=
        pollsLeft_apply (verdict_of_run harchive hr hundh).1 hund₀ hsent hstep
      simp only [hsent, hsent', if_true, Bool.true_and] at hcount ⊢
      omega
    | false =>
      have hmost : (if pumpSent s' then pollsLeft s'.monitor else 6) ≤ 6 := by
        split
        · cases s'.monitor <;> simp [pollsLeft]
        · exact le_rfl
      simp only [hsent, Bool.false_eq_true, if_false, Bool.false_and] at hcount ⊢
      omega

/-- The export loop skips the file and carries on. -/
def Skips (c : Config) (remaining : Nat) (result : Except Failure Nat) : Prop :=
  ∃ left, afterExtraction remaining c.maxBytes c.maxBytes result = .ok (left, false)

theorem skips_of_limit {c : Config} {remaining : Nat} {error : ArchivePumpError}
    (hlimit : LimitError c error) (hbudget : c.maxBytes + bufferLength ≤ remaining) :
    Skips c remaining (.error (.pump error)) := by
  obtain ⟨consumed, hconsumed, rfl⟩ := hlimit
  exact ⟨remaining - consumed, by simp [afterExtraction, hconsumed.trans hbudget]⟩

theorem not_skips_message (c : Config) (remaining : Nat) (text : String) :
    ¬ Skips c remaining (.error (.message text)) := by
  rintro ⟨left, h⟩
  simp [afterExtraction] at h

/-- What is asked of a run on an oversized archive: it reports the limit, and
the export skips the file, exactly when `seen` is met; and it ends. -/
structure Reported (c : Config) (reads : List Nat) (seen : Prop) (h : List (State × Event))
    (s : State) : Prop where
  outcome : ∀ r, s.monitor = .returned r →
    ((∃ consumed, r = .error (.pump (.limit c.maxBytes consumed))) ↔ seen)
  skipped : ∀ r remaining, s.monitor = .returned r → c.maxBytes + bufferLength ≤ remaining →
    (Skips c remaining r ↔ seen)
  turns : h.countP (fun p => isPumpTurn p.2) ≤ reads.length + 2
  polls : h.countP isLatePoll ≤ 6
  live : Live c s

/-- On every schedule an oversized archive is reported as such exactly when the
monitor polls no child that has failed. -/
theorem reported_iff_seesNoFailure (c : Config) (reads : List Nat) (harchive : Oversized c reads)
    {h : List (State × Event)} {s : State} (hrun : Run (pipelineSystem c reads) h s)
    (hund : Guarded Undisturbed h) : Reported c reads (Guarded SeesNoFailure h) h s := by
  obtain ⟨_, hwin, hlost⟩ := verdict_of_run harchive hrun hund
  have hturns := turns_of_run hrun
  have hpolls := polls_of_run harchive hrun hund
  refine ⟨fun r hr => ?_, fun r remaining hr hbudget => ?_, by omega, by omega, live c s⟩
  · rw [hr] at hwin hlost
    constructor
    · rintro ⟨consumed, rfl⟩
      by_contra hnot
      obtain ⟨text, htext⟩ := hlost hnot
      cases htext
    · intro hsees
      obtain ⟨error, rfl, consumed, _, rfl⟩ := hwin hsees
      exact ⟨consumed, rfl⟩
  · rw [hr] at hwin hlost
    constructor
    · intro hskips
      by_contra hnot
      obtain ⟨text, rfl⟩ := hlost hnot
      exact not_skips_message c remaining text hskips
    · intro hsees
      obtain ⟨error, rfl, hlimit⟩ := hwin hsees
      exact skips_of_limit hlimit hbudget

theorem Run.event {c : Config} {reads : List Nat} {h : List (State × Event)} {s s' : State}
    (hrun : Run (pipelineSystem c reads) h s) (e : Event) (hstep : apply c s e = some s') :
    Run (pipelineSystem c reads) ((s, e) :: h) s' :=
  hrun.next hstep

/-- A limit of five bytes. -/
private def narrow : Config :=
  { maxBytes := 5, timeout := "1800s", copySuffix := "", extractSuffix := "" }

private theorem oversized_narrow : Oversized narrow [4, 4] := ⟨by decide, by decide⟩

/-- Eight bytes, reported before the failed copy is polled. -/
theorem reported_iff_seesNoFailure_narrow : ∃ h s r, s.monitor = .returned r ∧
    Guarded SeesNoFailure h ∧ Reported narrow [4, 4] (Guarded SeesNoFailure h) h s := by
  have hstart : Run (pipelineSystem narrow [4, 4]) [] (start [4, 4]) := .start rfl
  have hlimit := Run.event (Run.event hstart (.pump none none) rfl) (.pump none none) rfl
  have hsent := Run.event hlimit .send rfl
  have hpolled := Run.event (Run.event (Run.event hsent (.monitor none) rfl) (.monitor none) rfl)
    (.monitor none) rfl
  have hfailed := Run.event hpolled (.copyExit false) rfl
  have hrun := Run.event (Run.event hfailed (.monitor none) rfl) (.monitor none) rfl
  refine ⟨_, _, _, rfl, ?_, reported_iff_seesNoFailure narrow [4, 4] oversized_narrow hrun ?_⟩
  · simp [SeesNoFailure, start, Child.tryWait]
  · simp [Undisturbed, pumpStopped, start, pumpArchive, narrow, u64Max]

/-- The same bytes with the copy polled first: the pipeline blames the copy, and
the export fails. -/
theorem oversized_reported_unavailable : ∃ h s, Run (pipelineSystem narrow [4, 4]) h s ∧
    Guarded Undisturbed h ∧ s.monitor =
      .returned (.error (.message "workspace OCI source_path is unavailable")) ∧
    afterExtraction (32 * 1024 * 1024 * 1024) 5 5
      (.error (.message "workspace OCI source_path is unavailable")) =
        .error (.message "workspace OCI source_path is unavailable") := by
  have hstart : Run (pipelineSystem narrow [4, 4]) [] (start [4, 4]) := .start rfl
  have hlimit := Run.event (Run.event hstart (.pump none none) rfl) (.pump none none) rfl
  have hfailed := Run.event hlimit (.copyExit false) rfl
  have hpolled := Run.event (Run.event hfailed (.monitor none) rfl) (.monitor none) rfl
  have hrun := Run.event (Run.event hpolled .send rfl) (.monitor none) rfl
  refine ⟨_, _, hrun, ?_, rfl, rfl⟩
  simp [Undisturbed, pumpStopped, start, pumpArchive, narrow, u64Max]

end A3sBench.ArchivePipeline
