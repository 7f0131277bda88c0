import A3sBench.CodexDocker

/-!
# The steps of the cleanup

Everything the cleanup does is calm: it makes nothing, so an object that is new
under a name is another program's, or comes of a creation that outlived its client.
Every removal and every check of absence ends with a look at the name.
-/

namespace A3sBench.CodexDocker

open Library Library.Action StaleSweep
open CodexCleanup (Round StableZeroWindow containerCleanupRetryTimeout pendingMutationStableZero)

def DockerCommand.creates : DockerCommand → Bool
  | .create _ _ => true
  | _ => false

/-- An object that was not made by an answered command, and did not land before this world. -/
def NewSince (w : World) (object : DockerObject) : Prop :=
  object.arrival = .foreign ∨ ∃ killed landed, object.arrival = .late killed landed ∧
    w.clock ≤ landed ∧ ∃ command, (command, killed) ∈ w.inFlight ∧ command.creates = true

structure Calm (w w' : World) : Prop where
  clock : w.clock ≤ w'.clock
  mark : w'.pendingMutation = w.pendingMutation
  inFlight : ∀ p ∈ w'.inFlight, p.1.creates = true → p ∈ w.inFlight
  objects : ∀ key object, w'.objects key = some object →
    w.objects key = some object ∨ NewSince w object

theorem Calm.refl (w : World) : Calm w w where
  clock := le_rfl
  mark := rfl
  inFlight _ hp _ := hp
  objects _ _ h := .inl h

theorem NewSince.earlier {w w' : World} (h : Calm w w') {object : DockerObject}
    (hnew : NewSince w' object) : NewSince w object := by
  rcases hnew with hforeign | ⟨killed, landed, harrival, hlanded, command, hmem, hcreates⟩
  · exact .inl hforeign
  · exact .inr ⟨killed, landed, harrival, h.clock.trans hlanded, command,
      h.inFlight _ hmem hcreates, hcreates⟩

theorem Calm.trans {w w' w'' : World} (h : Calm w w') (h' : Calm w' w'') : Calm w w'' where
  clock := h.clock.trans h'.clock
  mark := h'.mark.trans h.mark
  inFlight p hp hcreates := h.inFlight p (h'.inFlight p hp hcreates) hcreates
  objects key object hobject := by
    rcases h'.objects key object hobject with hold | hnew
    · exact h.objects key object hold
    · exact .inr (hnew.earlier h)

/-! ## Docker's own steps -/

theorem makeVolumes_frame (arrival : Arrival) (volumes : List String) (w : World) :
    (w.makeVolumes arrival volumes).clock = w.clock ∧
      (w.makeVolumes arrival volumes).turn = w.turn ∧
      (w.makeVolumes arrival volumes).inFlight = w.inFlight ∧
      (w.makeVolumes arrival volumes).pendingMutation = w.pendingMutation ∧
      (w.makeVolumes arrival volumes).guard = w.guard := by
  induction volumes generalizing w with
  | nil => exact ⟨rfl, rfl, rfl, rfl, rfl⟩
  | cons volume volumes ih =>
    unfold World.makeVolumes
    split
    · exact ih _
    · exact ih w

theorem make_objects {w : World} {key key' : Key} {owner : String} {internal : Bool}
    {arrival : Arrival} {object : DockerObject}
    (h : (w.make key owner internal arrival).objects key' = some object) :
    w.objects key' = some object ∨ object.arrival = arrival := by
  by_cases hkey : key' = key
  · subst hkey
    simp only [World.make, Function.update_self, Option.some.injEq] at h
    subst h
    exact .inr rfl
  · simp only [World.make, Function.update_of_ne hkey] at h
    exact .inl h

theorem makeVolumes_objects {arrival : Arrival} {volumes : List String} {w : World} {key : Key}
    {object : DockerObject} (h : (w.makeVolumes arrival volumes).objects key = some object) :
    w.objects key = some object ∨ object.arrival = arrival := by
  induction volumes generalizing w with
  | nil => exact .inl h
  | cons volume volumes ih =>
    unfold World.makeVolumes at h
    split at h
    · rcases ih h with hmade | harrival
      · exact make_objects hmade
      · exact .inr harrival
    · exact ih h

theorem clear_objects {w : World} {key key' : Key} {object : DockerObject}
    (h : (w.clear key).objects key' = some object) : w.objects key' = some object := by
  by_cases hkey : key' = key
  · subst hkey
    simp [World.clear] at h
  · simpa only [World.clear, Function.update_of_ne hkey] using h

/-- A command moves nothing but objects. -/
theorem perform_frame (w : World) (arrival : Arrival) (command : DockerCommand) :
    (w.perform arrival command).1.clock = w.clock ∧
      (w.perform arrival command).1.turn = w.turn ∧
      (w.perform arrival command).1.inFlight = w.inFlight ∧
      (w.perform arrival command).1.pendingMutation = w.pendingMutation ∧
      (w.perform arrival command).1.guard = w.guard := by
  cases command with
  | inspect key =>
    simp only [World.perform]
    split <;> exact ⟨rfl, rfl, rfl, rfl, rfl⟩
  | create key volumes =>
    simp only [World.perform]
    split
    · exact makeVolumes_frame arrival volumes w
    · split_ifs <;> exact ⟨rfl, rfl, rfl, rfl, rfl⟩
  | remove key id =>
    simp only [World.perform]
    split
    · exact ⟨rfl, rfl, rfl, rfl, rfl⟩
    · split_ifs <;> exact ⟨rfl, rfl, rfl, rfl, rfl⟩
  | other => exact ⟨rfl, rfl, rfl, rfl, rfl⟩

/-- What a command makes carries its arrival, and only a creation makes something. -/
theorem perform_objects {w : World} {arrival : Arrival} {command : DockerCommand} {key : Key}
    {object : DockerObject} (h : (w.perform arrival command).1.objects key = some object) :
    w.objects key = some object ∨ object.arrival = arrival ∧ command.creates = true := by
  cases command with
  | inspect key' =>
    simp only [World.perform] at h
    split at h <;> exact .inl h
  | create key' volumes =>
    simp only [World.perform] at h
    split at h
    · rcases make_objects h with hmade | harrival
      · exact (makeVolumes_objects hmade).imp_right fun harrival => ⟨harrival, rfl⟩
      · exact .inr ⟨harrival, rfl⟩
    · split_ifs at h <;> exact .inl h
  | remove key' id =>
    simp only [World.perform] at h
    split at h
    · exact .inl h
    · split_ifs at h
      · exact .inl (clear_objects h)
      · exact .inl h
  | other => exact .inl h

theorem calm_happen (w : World) (event : Event) :
    Calm w (w.happen event) ∧ (w.happen event).guard = w.guard := by
  cases event with
  | passes time =>
    exact ⟨{ Calm.refl w with clock := Nat.le_add_right _ _ }, rfl⟩
  | lands i =>
    simp only [World.happen]
    split
    · exact ⟨.refl w, rfl⟩
    · next command killed hi =>
      obtain ⟨hclock, -, hinFlight, hmark, hguard⟩ :=
        perform_frame { w with inFlight := w.inFlight.eraseIdx i } (.late killed w.clock) command
      refine ⟨⟨hclock.ge, hmark, ?_, ?_⟩, hguard⟩
      · intro p hp _
        rw [hinFlight] at hp
        exact List.mem_of_mem_eraseIdx hp
      · intro key object hobject
        rcases perform_objects hobject with hold | ⟨harrival, hcreates⟩
        · exact .inl hold
        · exact .inr (.inr ⟨killed, w.clock, harrival, le_rfl, command,
            List.mem_of_getElem? hi, hcreates⟩)
  | drops i =>
    exact ⟨{ Calm.refl w with inFlight := fun p hp _ => List.mem_of_mem_eraseIdx hp }, rfl⟩
  | appears key owner internal =>
    simp only [World.happen]
    split
    · refine ⟨{ Calm.refl w with objects := ?_ }, rfl⟩
      intro key' object hobject
      exact (make_objects hobject).imp_right .inl
    · exact ⟨.refl w, rfl⟩
  | vanishes key =>
    exact ⟨{ Calm.refl w with objects := fun _ _ h => .inl (clear_objects h) }, rfl⟩

/-- Calm, and nothing about the guard. -/
def Quiet (w w' : World) : Prop := Calm w w' ∧ w'.guard = w.guard

theorem quiet_refl (w : World) : Quiet w w := ⟨.refl w, rfl⟩

theorem quiet_trans (w w' w'' : World) (h : Quiet w w') (h' : Quiet w' w'') : Quiet w w'' :=
  ⟨h.1.trans h'.1, h'.2.trans h.2⟩

theorem quiet_after (w : World) (events : List Event) : Quiet w (w.after events) := by
  induction events generalizing w with
  | nil => exact quiet_refl w
  | cons event events ih => exact quiet_trans _ _ _ (calm_happen w event) (ih _)

/-! ## What is calm -/

section Program

variable (env : Nat → Turn)

theorem quiet_of {α : Type} {x : Action World String α} (h : Keeps Quiet x) {w w' : World}
    {r : Result α} (hx : x w = (w', r)) : Quiet w w' := by
  have hquiet := h w
  rwa [hx] at hquiet

theorem keeps_pure {α : Type} (a : α) : Keeps Quiet (pure a : Action World String α) :=
  quiet_refl

theorem keeps_wait : Keeps Quiet (wait env) := fun w => by
  have hturn : Quiet w { w with turn := w.turn + 1 } := ⟨{ Calm.refl w with }, rfl⟩
  exact quiet_trans _ _ _ hturn (quiet_after _ _)

theorem keeps_instant : Keeps Quiet (instant env) :=
  (keeps_wait env).bind quiet_trans fun _ => quiet_refl

theorem instant_ok {w w' : World} {now : Nat} (h : instant env w = (w', .ok now)) :
    now = w'.clock := by
  rw [instant, bind_ok_iff] at h
  obtain ⟨_, m, -, h⟩ := h
  obtain ⟨rfl, rfl⟩ := Prod.ext_iff.mp (effect_ok_iff.mp h)
  rfl

theorem keeps_sleep (time : Nat) : Keeps Quiet (sleep time) := fun w =>
  ⟨{ Calm.refl w with clock := Nat.le_add_right _ _ }, rfl⟩

theorem quiet_perform {command : DockerCommand} (h : command.creates = false) (w : World) :
    Quiet w (w.perform .answered command).1 := by
  obtain ⟨hclock, -, hinFlight, hmark, hguard⟩ := perform_frame w .answered command
  refine ⟨⟨hclock.ge, hmark, fun p hp _ => hinFlight ▸ hp, fun key object hobject => ?_⟩, hguard⟩
  rcases perform_objects hobject with hold | ⟨-, hcreates⟩
  · exact .inl hold
  · simp [h] at hcreates

theorem keeps_outputWithTimeout {command : DockerCommand} (h : command.creates = false) :
    Keeps Quiet (outputWithTimeout env command) := by
  refine (keeps_wait env).bind quiet_trans fun turn => ?_
  split
  · exact keeps_effect (quiet_perform h)
  · exact keeps_pure _
  · refine keeps_effect fun w => ⟨{ Calm.refl w with inFlight := fun p hp hcreates => ?_ }, rfl⟩
    rcases List.mem_append.mp hp with hp | hp
    · exact hp
    · rw [List.mem_singleton.mp hp, h] at hcreates
      cases hcreates
  · exact (keeps_effect (quiet_perform h)).bind quiet_trans fun _ => keeps_raise quiet_refl _
  · exact keeps_raise quiet_refl _

theorem keeps_read {β : Type} {command : DockerCommand} (h : command.creates = false)
    (message : String) {next : CommandOutput × Bool → Action World String β}
    (hnext : ∀ p, Keeps Quiet (next p)) :
    Keeps Quiet (within message (outputWithTimeout env command) >>= next) :=
  ((keeps_outputWithTimeout env h).relabel _).bind quiet_trans hnext

theorem keeps_ownedContainerId (container : String) :
    Keeps Quiet (ownedContainerId env container) :=
  keeps_read env rfl _ fun _ => keeps_lift quiet_refl _

theorem keeps_ownedInternalNetworkExists (network : String) :
    Keeps Quiet (ownedInternalNetworkExists env network) :=
  keeps_read env rfl _ fun _ => keeps_lift quiet_refl _

theorem keeps_ownedVolumeExists (volume : String) : Keeps Quiet (ownedVolumeExists env volume) :=
  keeps_read env rfl _ fun _ => keeps_lift quiet_refl _

theorem keeps_containerExists (container : String) :
    Keeps Quiet (Option.isSome <$> ownedContainerId env container) := by
  rw [map_eq_pure_bind]
  exact (keeps_ownedContainerId env container).bind quiet_trans fun _ => keeps_pure _

theorem keeps_removeContainer (container : String) :
    Keeps Quiet (removeContainer env container) := by
  refine (keeps_ownedContainerId env container).bind quiet_trans fun found => ?_
  cases found with
  | none => exact keeps_pure _
  | some id =>
    refine keeps_read env rfl _ fun _ => (keeps_ownedContainerId env container).bind quiet_trans ?_
    rintro (_ | _)
    · exact keeps_pure _
    · exact keeps_lift quiet_refl _

theorem keeps_removeNamed {what stillThere : String} {ownedExists : Action World String Bool}
    (h : Keeps Quiet ownedExists) (key : Key) :
    Keeps Quiet (removeNamed env what stillThere ownedExists key) := by
  refine h.bind quiet_trans fun found => ?_
  cases found with
  | false => exact keeps_pure _
  | true =>
    refine keeps_read env rfl _ fun _ => h.bind quiet_trans ?_
    rintro (_ | _)
    · exact keeps_pure _
    · exact keeps_lift quiet_refl _

theorem keeps_absentAmong {present : String → Action World String Bool}
    (h : ∀ name, Keeps Quiet (present name)) (names : List String) :
    Keeps Quiet (absentAmong present names) := by
  induction names with
  | nil => exact keeps_pure _
  | cons name names ih =>
    refine (h name).bind quiet_trans ?_
    rintro (_ | _)
    · exact ih
    · exact keeps_pure _

theorem keeps_allResourcesAbsent (resources : CodexResources) :
    Keeps Quiet (allResourcesAbsent env resources) := by
  refine (keeps_absentAmong (keeps_containerExists env) _).bind quiet_trans ?_
  rintro (_ | _)
  · exact keeps_pure _
  refine (keeps_absentAmong (keeps_ownedInternalNetworkExists env) _).bind quiet_trans ?_
  rintro (_ | _)
  · exact keeps_pure _
  · exact keeps_absentAmong (keeps_ownedVolumeExists env) _

theorem keeps_absentAfter (resources : CodexResources) (removal : Result Unit) :
    Keeps Quiet (absentAfter env resources removal) := by
  cases removal with
  | ok _ => exact (keeps_allResourcesAbsent env resources).tried
  | error error => exact keeps_pure _

theorem keeps_retry {κ α : Type} {step : κ → Action World String (α ⊕ κ)}
    {expired : κ → Action World String α} (hstep : ∀ state, Keeps Quiet (step state))
    (hexpired : ∀ state, Keeps Quiet (expired state)) (timeout deadline : Nat) (state : κ) :
    Keeps Quiet (retry env timeout deadline step expired state) :=
  keeps_untilDeadline quiet_refl quiet_trans (keeps_instant env) (keeps_sleep _) hstep hexpired _ _

/-- The rounds of a loop reach: with any number more of them it does the same. -/
theorem retry_enough {κ α : Type} {step : κ → Action World String (α ⊕ κ)}
    {expired : κ → Action World String α} (hstep : ∀ state, Keeps Quiet (step state))
    {timeout deadline : Nat} {state : κ} {w : World} (h : deadline ≤ w.clock + timeout)
    (extra : Nat) :
    untilDeadline (instant env) (sleep containerCleanupRetryInterval)
        "the loop outlasted its deadline" deadline step expired (roundsOf timeout + extra) state w =
      retry env timeout deadline step expired state w := by
  have hsleep : ∀ w w', sleep containerCleanupRetryInterval w = (w', .ok ()) →
      w.clock + containerCleanupRetryInterval ≤ w'.clock := by
    intro w w' hslept
    obtain ⟨rfl, -⟩ := Prod.ext_iff.mp (effect_ok_iff.mp hslept)
    exact le_rfl
  have hrounds : timeout ≤
      (timeout / containerCleanupRetryInterval + 1) * containerCleanupRetryInterval := by
    have hdivision := Nat.div_add_mod timeout containerCleanupRetryInterval
    have hmod := Nat.mod_lt timeout (show 0 < containerCleanupRetryInterval by decide)
    rw [Nat.add_mul, Nat.one_mul, Nat.mul_comm]
    omega
  exact untilDeadline_enough World.clock
    (fun w w' now hnow => ⟨(quiet_of (keeps_instant env) hnow).1.clock.trans
      (instant_ok env hnow).ge, instant_ok env hnow⟩)
    hsleep (fun state w w' next hnext => (quiet_of (hstep state) hnext).1.clock)
    (h.trans (Nat.add_le_add_left hrounds _)) extra

theorem keeps_removeEach {remove : String → Action World String Unit}
    (h : ∀ name, Keeps Quiet (remove name)) (names : List String) :
    Keeps Quiet (removeEach remove names) := by
  induction names with
  | nil => exact keeps_pure _
  | cons name names ih =>
    refine (h name).tried.bind quiet_trans fun removed => ih.bind quiet_trans fun failures => ?_
    rcases removed with _ | _ <;> exact keeps_pure _

theorem keeps_removeResourcesOnce (resources : CodexResources) :
    Keeps Quiet (removeResourcesOnce env resources) :=
  (keeps_removeEach (keeps_removeContainer env) _).bind quiet_trans fun _ =>
    (keeps_removeEach (fun network =>
      keeps_removeNamed env (keeps_ownedInternalNetworkExists env network) _) _).bind quiet_trans
      fun _ => (keeps_removeEach (fun volume =>
        keeps_removeNamed env (keeps_ownedVolumeExists env volume) _) _).bind quiet_trans fun _ =>
          keeps_lift quiet_refl _

/-! ## Looking last -/

def missing : Kind → CommandOutput → Bool
  | .container => missingContainer
  | .network => missingNetwork
  | .volume => missingVolume

/-- Docker says that something is missing only where it is. -/
def Plain : Prop := ∀ n status diagnostics, (env n).outcome = .refuses status diagnostics →
  ∀ kind, missing kind (.failed status diagnostics) = false

/-- A command whose client came back, by the way in which it did. -/
theorem outputWithTimeout_ok {command : DockerCommand} {w w' : World} {output : CommandOutput}
    {timedOut : Bool} (h : outputWithTimeout env command w = (w', .ok (output, timedOut))) :
    ∃ m, wait env w = (m, .ok (env w.turn)) ∧
      ((∃ stdoutTruncated stderrTruncated,
          (env w.turn).outcome = .completes stdoutTruncated stderrTruncated ∧
            w' = (m.perform .answered command).1 ∧
            output = { (m.perform .answered command).2 with stdoutTruncated, stderrTruncated } ∧
            timedOut = false) ∨
        (∃ status diagnostics, (env w.turn).outcome = .refuses status diagnostics ∧ w' = m ∧
          output = .failed status diagnostics ∧ timedOut = false) ∨
        ((env w.turn).outcome = .timesOut ∧ timedOut = true ∧
          w' = { m with inFlight := m.inFlight ++ [(command, m.clock)] })) := by
  refine ⟨_, rfl, ?_⟩
  rw [outputWithTimeout, bind_ok_iff] at h
  obtain ⟨turn, m, hwait, hend⟩ := h
  obtain ⟨rfl, rfl⟩ := Prod.ext_iff.mp (effect_ok_iff.mp hwait)
  cases houtcome : (env w.turn).outcome with
  | completes stdoutTruncated stderrTruncated =>
    simp only [houtcome, effect_ok_iff, Prod.mk.injEq] at hend
    obtain ⟨rfl, rfl, rfl⟩ := hend
    exact .inl ⟨_, _, rfl, rfl, rfl, rfl⟩
  | refuses status diagnostics =>
    simp only [houtcome, pure_ok_iff, Prod.mk.injEq] at hend
    obtain ⟨rfl, rfl, rfl⟩ := hend
    exact .inr (.inl ⟨_, _, rfl, rfl, rfl, rfl⟩)
  | timesOut =>
    simp only [houtcome, effect_ok_iff, Prod.mk.injEq] at hend
    obtain ⟨rfl, -, rfl⟩ := hend
    exact .inr (.inr ⟨rfl, rfl, rfl⟩)
  | unavailable error done =>
    cases done with
    | true =>
      simp only [houtcome, bind_ok_iff, effect_ok_iff, raise_ok_iff] at hend
      obtain ⟨_, _, _, hend⟩ := hend
      exact hend.elim
    | false => simp [houtcome] at hend

variable {env} (hplain : Plain env)

include hplain

theorem vacant_of_missing {key : Key} {w w' : World} {output : CommandOutput}
    (h : outputWithTimeout env (.inspect key) w = (w', .ok (output, false)))
    (hfailed : output.success = false) (kind : Kind) (hmissing : missing kind output = true) :
    w'.objects key = none := by
  obtain ⟨m, -, ⟨_, _, -, rfl, rfl, -⟩ | ⟨status, diagnostics, houtcome, -, rfl, -⟩ | ⟨-, ht, -⟩⟩ :=
    outputWithTimeout_ok env h
  · cases hobject : m.objects key with
    | none => simp [World.perform, hobject]
    | some object =>
      simp [World.perform, hobject, CommandOutput.succeeded] at hfailed
  · rw [hplain _ _ _ houtcome kind] at hmissing
    cases hmissing
  · cases ht

theorem vacant_of_ownedContainerId {container : String} {w w' : World}
    (h : ownedContainerId env container w = (w', .ok none)) :
    w'.objects (.container, container) = none := by
  simp only [ownedContainerId, within, bind_ok_iff, relabel_ok_iff, lift_ok_iff] at h
  obtain ⟨⟨output, timedOut⟩, m, houtput, rfl, hread⟩ := h
  simp only [readContainerOwner, Result.bind_ok_iff, Result.exists_unit_iff,
    Result.ensure_ok_iff] at hread
  obtain ⟨rfl, hread⟩ := hread
  split_ifs at hread with hfailed hmissing
  · exact vacant_of_missing hplain houtput hfailed .container hmissing
  · simp only [Result.bind_ok_iff, Result.pure_ok_iff, reduceCtorEq, and_false,
      exists_false] at hread

theorem vacant_of_ownedInternalNetworkExists {network : String} {w w' : World}
    (h : ownedInternalNetworkExists env network w = (w', .ok false)) :
    w'.objects (.network, network) = none := by
  simp only [ownedInternalNetworkExists, within, bind_ok_iff, relabel_ok_iff, lift_ok_iff] at h
  obtain ⟨⟨output, timedOut⟩, m, houtput, rfl, hread⟩ := h
  simp only [readNetworkOwner, Result.bind_ok_iff, Result.exists_unit_iff,
    Result.ensure_ok_iff] at hread
  obtain ⟨rfl, hread⟩ := hread
  split_ifs at hread with hfailed hmissing
  · exact vacant_of_missing hplain houtput hfailed .network hmissing
  · simp at hread

theorem vacant_of_ownedVolumeExists {volume : String} {w w' : World}
    (h : ownedVolumeExists env volume w = (w', .ok false)) :
    w'.objects (.volume, volume) = none := by
  simp only [ownedVolumeExists, within, bind_ok_iff, relabel_ok_iff, lift_ok_iff] at h
  obtain ⟨⟨output, timedOut⟩, m, houtput, rfl, hread⟩ := h
  simp only [readVolumeOwner, Result.bind_ok_iff, Result.exists_unit_iff,
    Result.ensure_ok_iff] at hread
  obtain ⟨rfl, hread⟩ := hread
  split_ifs at hread with hfailed hmissing
  · exact vacant_of_missing hplain houtput hfailed .volume hmissing
  · simp at hread

/-- A removal that succeeds has seen last that nothing is there. -/
theorem vacant_of_removeContainer {container : String} {w w' : World}
    (h : removeContainer env container w = (w', .ok ())) :
    w'.objects (.container, container) = none := by
  rw [removeContainer, bind_ok_iff] at h
  obtain ⟨found, m, hfound, h⟩ := h
  cases found with
  | none =>
    obtain ⟨rfl, -⟩ := pure_ok_iff.mp h
    exact vacant_of_ownedContainerId hplain hfound
  | some id =>
    simp only [bind_ok_iff] at h
    obtain ⟨_, m₁, -, again, m₂, hagain, h⟩ := h
    cases again with
    | none =>
      obtain ⟨rfl, -⟩ := pure_ok_iff.mp h
      exact vacant_of_ownedContainerId hplain hagain
    | some _ => simp at h

omit hplain in
theorem vacant_of_removeNamed {what stillThere : String} {ownedExists : Action World String Bool}
    {key key' : Key} (hexists : ∀ w w', ownedExists w = (w', .ok false) → w'.objects key' = none)
    {w w' : World} (h : removeNamed env what stillThere ownedExists key w = (w', .ok ())) :
    w'.objects key' = none := by
  rw [removeNamed, bind_ok_iff] at h
  obtain ⟨found, m, hfound, h⟩ := h
  cases found with
  | false =>
    obtain ⟨rfl, -⟩ := pure_ok_iff.mp h
    exact hexists _ _ hfound
  | true =>
    simp only [bind_ok_iff] at h
    obtain ⟨_, m₁, -, again, m₂, hagain, h⟩ := h
    cases again with
    | false =>
      obtain ⟨rfl, -⟩ := pure_ok_iff.mp h
      exact hexists _ _ hagain
    | true => simp [removalVerdict] at h

end Program

end A3sBench.CodexDocker
