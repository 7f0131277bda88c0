import A3sBench.CodexCleanupSteps

/-!
# What a Codex run leaves behind

The cleanup clears all names of the run. What may come up under one afterwards is
told by the last look at it, and the window of five seconds keeps that look away
from the clients that were killed. The guard removes the private home only where
the names are settled in this sense.
-/

namespace A3sBench.CodexDocker

open Library Library.Action StaleSweep
open CodexCleanup (Round StableZeroWindow containerCleanupRetryTimeout pendingMutationStableZero)

/-! ## Clearing the names of a run -/

/-- Whatever is under the name came after the first world. -/
def Cleared (w₀ w : World) (key : Key) : Prop :=
  ∀ object, w.objects key = some object → NewSince w₀ object

theorem cleared_of_vacant {w₀ w : World} {key : Key} (h : w.objects key = none) :
    Cleared w₀ w key := by
  intro object hobject
  rw [h] at hobject
  cases hobject

theorem Cleared.later {w₀ w w' : World} {key : Key} (h : Cleared w₀ w key) (hbefore : Calm w₀ w)
    (hafter : Calm w w') : Cleared w₀ w' key := by
  intro object hobject
  rcases hafter.objects key object hobject with hold | hnew
  · exact h object hold
  · exact hnew.earlier hbefore

theorem Cleared.earlier {w₀ w w' : World} {key : Key} (h : Cleared w w' key) (hbefore : Calm w₀ w) :
    Cleared w₀ w' key := fun object hobject => (h object hobject).earlier hbefore

theorem cleared_of_removeEach {remove : String → Action World String Unit} {kind : Kind}
    (hquiet : ∀ name, Keeps Quiet (remove name))
    (hvacant : ∀ name w w', remove name w = (w', .ok ()) → w'.objects (kind, name) = none)
    {names : List String} {w w' : World} (h : removeEach remove names w = (w', .ok [])) :
    ∀ name ∈ names, Cleared w w' (kind, name) := by
  induction names generalizing w with
  | nil => exact fun name hname => absurd hname List.not_mem_nil
  | cons name names ih =>
    simp only [removeEach, bind_ok_iff, tried_ok_iff] at h
    obtain ⟨removed, m, hremoved, failures, m', hrest, h⟩ := h
    cases removed with
    | error error => simp at h
    | ok _ =>
      obtain ⟨rfl, rfl⟩ := pure_ok_iff.mp h
      have hfirst : Calm w m := (quiet_of (hquiet name) hremoved).1
      have hsecond : Calm m m' := (quiet_of (keeps_removeEach hquiet names) hrest).1
      refine List.forall_mem_cons.mpr
        ⟨?_, fun other hother => (ih hrest other hother).earlier hfirst⟩
      exact (cleared_of_vacant (hvacant name w m hremoved)).later hfirst hsecond

theorem cleared_of_absentAmong {present : String → Action World String Bool} {kind : Kind}
    (hquiet : ∀ name, Keeps Quiet (present name))
    (hvacant : ∀ name w w', present name w = (w', .ok false) → w'.objects (kind, name) = none)
    {names : List String} {w w' : World} (h : absentAmong present names w = (w', .ok true)) :
    ∀ name ∈ names, Cleared w w' (kind, name) := by
  induction names generalizing w with
  | nil => exact fun name hname => absurd hname List.not_mem_nil
  | cons name names ih =>
    rw [absentAmong, bind_ok_iff] at h
    obtain ⟨found, m, hfound, h⟩ := h
    cases found with
    | true => simp at h
    | false =>
      have hfirst : Calm w m := (quiet_of (hquiet name) hfound).1
      have hsecond : Calm m w' := (quiet_of (keeps_absentAmong hquiet names) h).1
      refine List.forall_mem_cons.mpr ⟨?_, fun other hother => (ih h other hother).earlier hfirst⟩
      exact (cleared_of_vacant (hvacant name w m hfound)).later hfirst hsecond

/-- `container_name` is not empty, which `all_resources_absent` would take for no container. -/
def CodexResources.Named (resources : CodexResources) : Prop :=
  ∀ container ∈ resources.containers, container ≠ ""

theorem append_ne_empty {s : String} (h : s ≠ "") (t : String) : s ++ t ≠ "" := by
  intro happend
  have hlist := congrArg String.toList happend
  rw [String.toList_append] at hlist
  exact h (String.toList_inj.mp (List.append_eq_nil_iff.mp hlist).1)

theorem containerName_ne_empty (pid timestamp sequence : Nat) :
    containerName pid timestamp sequence ≠ "" := by
  unfold containerName
  repeat apply append_ne_empty
  decide

theorem named_withMetadata {mainContainer : String} (h : mainContainer ≠ "")
    (restrictedNetwork : Bool) :
    (CodexResources.withMetadata mainContainer restrictedNetwork).Named := by
  intro container hcontainer
  cases restrictedNetwork with
  | false =>
    simp only [CodexResources.containers, CodexResources.withMetadata, Bool.false_eq_true,
      if_false, Option.toList_none, List.append_nil, List.cons_append, List.nil_append,
      List.mem_cons, List.not_mem_nil, or_false] at hcontainer
    rcases hcontainer with rfl | rfl | rfl
    · exact h
    · exact append_ne_empty h _
    · exact append_ne_empty h _
  | true =>
    simp only [CodexResources.containers, CodexResources.withMetadata, if_true,
      Option.toList_some, List.cons_append, List.nil_append, List.mem_cons, List.not_mem_nil,
      or_false] at hcontainer
    rcases hcontainer with rfl | rfl | rfl | rfl
    · exact h
    · exact append_ne_empty h _
    · exact append_ne_empty h _
    · exact append_ne_empty h _

theorem forall_keys {resources : CodexResources} {p : Key → Prop}
    (hcontainers : ∀ container ∈ resources.containers, p (.container, container))
    (hnetworks : ∀ network ∈ resources.internalNetwork.toList, p (.network, network))
    (hvolumes : ∀ volume ∈ resources.volumes, p (.volume, volume)) :
    ∀ key ∈ resources.keys, p key := by
  simpa [CodexResources.keys, or_imp, forall_and] using ⟨hcontainers, by simpa using hnetworks,
    hvolumes⟩

section Program

variable {env : Nat → Turn} {resources : CodexResources} {w w' : World}

theorem cleared_of_removeResourcesOnce (hplain : Plain env)
    (h : removeResourcesOnce env resources w = (w', .ok ())) :
    ∀ key ∈ resources.keys, Cleared w w' key := by
  simp only [removeResourcesOnce, bind_ok_iff, lift_ok_iff, Result.ensure_ok_iff,
    List.append_eq_nil_iff] at h
  obtain ⟨_, w₁, hcontainers, _, w₂, hnetworks, _, w₃, hvolumes, rfl, ⟨rfl, rfl⟩, rfl⟩ := h
  have hquiet₁ := keeps_removeContainer env
  have hquiet₂ : ∀ network, Keeps Quiet (removeInternalNetwork env network) := fun network =>
    keeps_removeNamed env (keeps_ownedInternalNetworkExists env network) _
  have hquiet₃ : ∀ volume, Keeps Quiet (removeVolume env volume) := fun volume =>
    keeps_removeNamed env (keeps_ownedVolumeExists env volume) _
  have hcalm₁ : Calm w w₁ := (quiet_of (keeps_removeEach hquiet₁ _) hcontainers).1
  have hcalm₂ : Calm w₁ w₂ := (quiet_of (keeps_removeEach hquiet₂ _) hnetworks).1
  have hcalm₃ : Calm w₂ w₃ := (quiet_of (keeps_removeEach hquiet₃ _) hvolumes).1
  refine forall_keys (fun container hmem => ?_) (fun network hmem => ?_) (fun volume hmem => ?_)
  · exact (cleared_of_removeEach hquiet₁ (fun name _ _ => vacant_of_removeContainer hplain)
      hcontainers container hmem).later hcalm₁ (hcalm₂.trans hcalm₃)
  · exact ((cleared_of_removeEach hquiet₂ (fun name _ _ => vacant_of_removeNamed
      fun _ _ => vacant_of_ownedInternalNetworkExists hplain) hnetworks network hmem).earlier
        hcalm₁).later (hcalm₁.trans hcalm₂) hcalm₃
  · exact (cleared_of_removeEach hquiet₃ (fun name _ _ => vacant_of_removeNamed
      fun _ _ => vacant_of_ownedVolumeExists hplain) hvolumes volume hmem).earlier
        (hcalm₁.trans hcalm₂)

theorem vacant_of_containerExists (hplain : Plain env) {container : String}
    (h : (Option.isSome <$> ownedContainerId env container) w = (w', .ok false)) :
    w'.objects (.container, container) = none := by
  rw [map_eq_pure_bind, bind_ok_iff] at h
  obtain ⟨found, m, hfound, h⟩ := h
  obtain ⟨rfl, hnone⟩ := pure_ok_iff.mp h
  rw [Option.isSome_eq_false_iff, Option.isNone_iff_eq_none] at hnone
  rw [hnone] at hfound
  exact vacant_of_ownedContainerId hplain hfound

theorem mem_checked (hnamed : resources.Named) {container : String}
    (h : container ∈ resources.containers) :
    container ∈ [resources.mainContainer, resources.proxyContainer.getD "",
      resources.stagingContainer, resources.exportContainer].filter (· ≠ "") := by
  refine List.mem_filter.mpr ⟨?_, by simpa using hnamed container h⟩
  rcases hproxy : resources.proxyContainer with _ | proxy <;>
    simp only [CodexResources.containers, hproxy] at h <;> simp at h ⊢ <;> tauto

theorem cleared_of_allResourcesAbsent (hplain : Plain env) (hnamed : resources.Named)
    (h : allResourcesAbsent env resources w = (w', .ok true)) :
    ∀ key ∈ resources.keys, Cleared w w' key := by
  rw [allResourcesAbsent, bind_ok_iff] at h
  obtain ⟨containers, w₁, hcontainers, h⟩ := h
  cases containers with
  | false => simp at h
  | true =>
    rw [bind_ok_iff] at h
    obtain ⟨networks, w₂, hnetworks, hvolumes⟩ := h
    cases networks with
    | false => simp at hvolumes
    | true =>
      have hcalm₁ : Calm w w₁ :=
        (quiet_of (keeps_absentAmong (keeps_containerExists env) _) hcontainers).1
      have hcalm₂ : Calm w₁ w₂ :=
        (quiet_of (keeps_absentAmong (keeps_ownedInternalNetworkExists env) _) hnetworks).1
      have hcalm₃ : Calm w₂ w' :=
        (quiet_of (keeps_absentAmong (keeps_ownedVolumeExists env) _) hvolumes).1
      refine forall_keys (fun container hmem => ?_) (fun network hmem => ?_)
        (fun volume hmem => ?_)
      · exact (cleared_of_absentAmong (keeps_containerExists env)
          (fun name _ _ => vacant_of_containerExists hplain) hcontainers container
          (mem_checked hnamed hmem)).later hcalm₁ (hcalm₂.trans hcalm₃)
      · exact ((cleared_of_absentAmong (keeps_ownedInternalNetworkExists env)
          (fun name _ _ => vacant_of_ownedInternalNetworkExists hplain) hnetworks network
          hmem).earlier hcalm₁).later (hcalm₁.trans hcalm₂) hcalm₃
      · exact (cleared_of_absentAmong (keeps_ownedVolumeExists env)
          (fun name _ _ => vacant_of_ownedVolumeExists hplain) hvolumes volume hmem).earlier
          (hcalm₁.trans hcalm₂)

end Program

/-! ## How long a check takes -/

def Event.time : Event → Nat
  | .passes time => time
  | _ => 0

def Turn.time (turn : Turn) : Nat := (turn.events.map Event.time).sum

theorem clock_happen (w : World) (event : Event) :
    (w.happen event).clock = w.clock + event.time := by
  cases event with
  | passes time => rfl
  | lands i =>
    simp only [World.happen]
    split
    · rfl
    · exact (perform_frame _ _ _).1
  | appears key owner internal =>
    simp only [World.happen]
    split <;> rfl
  | drops | vanishes => rfl

theorem clock_after (w : World) (events : List Event) :
    (w.after events).clock = w.clock + (events.map Event.time).sum := by
  induction events generalizing w with
  | nil => rfl
  | cons event events ih =>
    rw [List.map_cons, List.sum_cons, ← Nat.add_assoc, ← clock_happen]
    exact ih _

/-- At most so many waits. -/
def Lasts {α : Type} (d n : Nat) (x : Action World String α) : Prop :=
  ∀ w, (x w).1.clock ≤ w.clock + n * d

theorem Lasts.bind {α β : Type} {d m n : Nat} {x : Action World String α}
    {f : α → Action World String β} (hx : Lasts d m x) (hf : ∀ a, Lasts d n (f a)) :
    Lasts d (m + n) (x >>= f) := by
  intro w
  have hfirst := hx w
  rw [Nat.add_mul]
  refine fst_bind (Q := fun w' : World => w'.clock ≤ w.clock + (m * d + n * d)) ?_ fun a t h => ?_
  · omega
  · have hsecond := hf a t
    rw [h] at hfirst
    exact hsecond.trans (by rw [← Nat.add_assoc]; exact Nat.add_le_add_right hfirst _)

theorem Lasts.mono {α : Type} {d m n : Nat} {x : Action World String α} (h : Lasts d m x)
    (hle : m ≤ n) : Lasts d n x :=
  fun w => (h w).trans (Nat.add_le_add_left (Nat.mul_le_mul_right d hle) _)

theorem lasts_zero {α : Type} {d : Nat} {x : Action World String α}
    (h : ∀ w, (x w).1.clock = w.clock) : Lasts d 0 x := fun w => by
  rw [h w]
  omega

section Program

variable {env : Nat → Turn} {d : Nat} (htime : ∀ n, (env n).time ≤ d)

include htime

theorem lasts_wait : Lasts d 1 (wait env) := fun w => by
  have hturn := htime w.turn
  change (World.after { w with turn := w.turn + 1 } (env w.turn).events).clock ≤ _
  rw [clock_after]
  unfold Turn.time at hturn
  dsimp only
  omega

theorem lasts_instant : Lasts d 1 (instant env) :=
  (lasts_wait htime).bind fun _ => lasts_zero fun _ => rfl

theorem lasts_outputWithTimeout (command : DockerCommand) :
    Lasts d 1 (outputWithTimeout env command) := by
  refine (lasts_wait htime).bind (n := 0) fun turn => ?_
  split
  · exact lasts_zero fun w => (perform_frame w _ _).1
  · exact lasts_zero fun _ => rfl
  · exact lasts_zero fun _ => rfl
  · exact lasts_zero fun w => (perform_frame w _ _).1
  · exact lasts_zero fun _ => rfl

theorem lasts_read {α : Type} {command : DockerCommand} (message : String)
    {next : CommandOutput × Bool → Action World String α}
    (hnext : ∀ p w, (next p w).1.clock = w.clock) :
    Lasts d 1 (within message (outputWithTimeout env command) >>= next) := by
  have hread : Lasts d 1 (within message (outputWithTimeout env command)) :=
    lasts_outputWithTimeout htime command
  exact hread.bind fun p => lasts_zero (hnext p)

theorem lasts_containerExists (container : String) :
    Lasts d 1 (Option.isSome <$> ownedContainerId env container) := by
  rw [map_eq_pure_bind]
  exact (lasts_read htime _ fun _ _ => rfl : Lasts d 1 (ownedContainerId env container)).bind
    fun _ => lasts_zero fun _ => rfl

omit htime in
theorem lasts_absentAmong {present : String → Action World String Bool}
    (h : ∀ name, Lasts d 1 (present name)) (names : List String) :
    Lasts d names.length (absentAmong present names) := by
  induction names with
  | nil => exact lasts_zero fun _ => rfl
  | cons name names ih =>
    rw [List.length_cons, Nat.add_comm]
    refine (h name).bind ?_
    rintro (_ | _)
    · exact ih
    · exact (lasts_zero fun _ => rfl : Lasts d 0 (pure false)).mono (Nat.zero_le _)

/-- Four containers, a network and four volumes. -/
theorem lasts_allResourcesAbsent (resources : CodexResources) :
    Lasts d 9 (allResourcesAbsent env resources) := by
  have hcontainers : Lasts d 4 (absentAmong
      (fun container => Option.isSome <$> ownedContainerId env container)
      ([resources.mainContainer, resources.proxyContainer.getD "", resources.stagingContainer,
        resources.exportContainer].filter (· ≠ ""))) :=
    (lasts_absentAmong (lasts_containerExists htime) _).mono (List.length_filter_le _ _)
  have hnetworks : Lasts d 1 (absentAmong (ownedInternalNetworkExists env)
      resources.internalNetwork.toList) := by
    refine (lasts_absentAmong (fun network => lasts_read htime _ fun _ _ => rfl) _).mono ?_
    cases resources.internalNetwork <;> simp
  have hvolumes : Lasts d 4 (absentAmong (ownedVolumeExists env) resources.volumes) := by
    refine (lasts_absentAmong (fun volume => lasts_read htime _ fun _ _ => rfl) _).mono ?_
    cases hproxy : resources.proxyVolume <;> simp [CodexResources.volumes, hproxy]
  refine hcontainers.bind (n := 5) ?_
  rintro (_ | _)
  · exact (lasts_zero fun _ => rfl : Lasts d 0 (pure false)).mono (Nat.zero_le _)
  refine hnetworks.bind (n := 4) ?_
  rintro (_ | _)
  · exact (lasts_zero fun _ => rfl : Lasts d 0 (pure false)).mono (Nat.zero_le _)
  · exact hvolumes

end Program

/-! ## The window -/

theorem observe_done {round : Round} {stable stable' : StableZeroWindow}
    {iterationError : Option String} (h : round.observe stable = (stable', true, iterationError)) :
    round.removal = .ok () ∧ round.absentAfter = .ok true ∧
      stable.required ≤ round.observedAt - stable.since.getD round.observedAt := by
  unfold Round.observe at h
  cases hremoval : round.removal with
  | error error => simp [hremoval] at h
  | ok _ =>
    cases hafter : round.absentAfter with
    | error error => simp [hremoval, hafter] at h
    | ok absentAfter =>
      simp only [hremoval, hafter, StableZeroWindow.observe, Prod.mk.injEq] at h
      obtain ⟨-, hdone, -⟩ := h
      split_ifs at hdone with hpresent
      simp only [Bool.not_eq_eq_eq_not, Bool.not_true, Bool.not_eq_false, Bool.and_eq_true]
        at hpresent
      exact ⟨rfl, by rw [hpresent.2], by simpa using hdone⟩

/-- What a window that goes on remembers: it began when it had begun, or now. -/
theorem observe_goes_on {round : Round} {stable stable' : StableZeroWindow}
    {iterationError : Option String} (h : round.observe stable = (stable', false, iterationError)) :
    stable'.required = stable.required ∧
      ∀ since, stable'.since = some since →
        stable.since = some since ∨ since = round.observedAt := by
  have hwindow : ∀ absent, (stable.observe round.observedAt absent).1 = stable' →
      stable'.required = stable.required ∧ ∀ since, stable'.since = some since →
        stable.since = some since ∨ since = round.observedAt := by
    rintro absent rfl
    unfold StableZeroWindow.observe
    split_ifs
    · exact ⟨rfl, fun since hsince => by cases hsince⟩
    · refine ⟨rfl, fun since hsince => ?_⟩
      cases hbegun : stable.since with
      | none => simp [hbegun] at hsince; exact .inr hsince.symm
      | some begun => simp [hbegun] at hsince; exact .inl (congrArg some hsince)
  unfold Round.observe at h
  cases hremoval : round.removal with
  | error error =>
    simp only [hremoval, Prod.mk.injEq] at h
    exact hwindow false h.1
  | ok _ =>
    cases hafter : round.absentAfter with
    | error error =>
      simp only [hremoval, hafter, Prod.mk.injEq] at h
      exact hwindow false h.1
    | ok absentAfter =>
      simp only [hremoval, hafter, Prod.mk.injEq] at h
      exact hwindow _ h.1

section Program

variable {env : Nat → Turn} {resources : CodexResources} {d : Nat} {w w' : World}

theorem keeps_pollStep (state : StableZeroWindow × Option String) :
    Keeps Quiet (pollStep env resources state) := by
  refine (keeps_allResourcesAbsent env resources).tried.bind quiet_trans fun absentBefore =>
    (keeps_removeResourcesOnce env resources).tried.bind quiet_trans fun removal =>
      (keeps_absentAfter env resources removal).bind quiet_trans fun absentAfter =>
        (keeps_instant env).bind quiet_trans fun observedAt => ?_
  dsimp only
  generalize Round.observe _ state.1 = observation
  obtain ⟨stable, done, iterationError⟩ := observation
  cases done <;> exact keeps_pure _

/-- The window of the polling: it began after the polling did. -/
def Polls (w₀ : World) (state : StableZeroWindow × Option String) (w : World) : Prop :=
  Calm w₀ w ∧ state.1.required = pendingMutationStableZero ∧
    ∀ since, state.1.since = some since → w₀.clock ≤ since

theorem Polls.later {w₀ : World} {state : StableZeroWindow × Option String}
    (h : Polls w₀ state w) (hcalm : Calm w w') : Polls w₀ state w' :=
  ⟨h.1.trans hcalm, h.2⟩

/-- A round that goes on. -/
theorem polls_of_pollStep {w₀ : World} {state state' : StableZeroWindow × Option String}
    (h : Polls w₀ state w) (hstep : pollStep env resources state w = (w', .ok (.inr state'))) :
    Polls w₀ state' w' := by
  have hcalm : Calm w w' := (quiet_of (keeps_pollStep state) hstep).1
  simp only [pollStep, bind_ok_iff] at hstep
  obtain ⟨_, w₁, _, _, w₂, _, _, w₃, _, observedAt, w₄, hobserved, hstep⟩ := hstep
  generalize hround : Round.observe _ state.1 = observation at hstep
  obtain ⟨stable, done, iterationError⟩ := observation
  cases done with
  | true => simp at hstep
  | false =>
    obtain ⟨rfl, heq⟩ := pure_ok_iff.mp hstep
    obtain rfl := Sum.inr.inj heq
    obtain ⟨hsame, hremembers⟩ := observe_goes_on hround
    refine ⟨h.1.trans hcalm, hsame.trans h.2.1, fun since hsince => ?_⟩
    rcases hremembers since hsince with hbefore | rfl
    · exact h.2.2 since hbefore
    · exact (h.1.trans hcalm).clock.trans (instant_ok env hobserved).ge

/-- A round that ends the polling: a last check of absence, over five seconds after the polling
began. -/
theorem cleared_of_pollStep (hplain : Plain env) (hnamed : resources.Named)
    (htime : ∀ n, (env n).time ≤ d) {w₀ : World} {state : StableZeroWindow × Option String}
    (h : Polls w₀ state w) (hstep : pollStep env resources state w = (w', .ok (.inl ()))) :
    ∃ c, Calm w₀ c ∧ Calm c w' ∧ (∀ key ∈ resources.keys, Cleared c w' key) ∧
      w₀.clock + pendingMutationStableZero ≤ c.clock + 10 * d := by
  simp only [pollStep, bind_ok_iff, tried_ok_iff] at hstep
  obtain ⟨absentBefore, w₁, hbefore, removal, w₂, hremoval, absentAfter, w₃, hafter, observedAt,
    w₄, hobserved, hstep⟩ := hstep
  generalize hround : Round.observe _ state.1 = observation at hstep
  obtain ⟨stable, done, iterationError⟩ := observation
  cases done with
  | false => simp at hstep
  | true =>
    obtain ⟨rfl, -⟩ := pure_ok_iff.mp hstep
    obtain ⟨hok, habsent, hlong⟩ := observe_done hround
    dsimp only at hok habsent hlong
    subst hok habsent
    have hcheck : allResourcesAbsent env resources w₂ = (w₃, .ok true) := tried_ok_iff.mp hafter
    have hcalm₂ : Calm w₀ w₂ := h.1.trans
      ((quiet_of (keeps_allResourcesAbsent env resources) hbefore).1.trans
        (quiet_of (keeps_removeResourcesOnce env resources) hremoval).1)
    have hcalm₃ : Calm w₂ w₃ := (quiet_of (keeps_allResourcesAbsent env resources) hcheck).1
    have hcalm₄ : Calm w₃ w₄ := (quiet_of (keeps_instant env) hobserved).1
    refine ⟨w₂, hcalm₂, hcalm₃.trans hcalm₄, fun key hkey => ?_, ?_⟩
    · exact (cleared_of_allResourcesAbsent hplain hnamed hcheck key hkey).later hcalm₃ hcalm₄
    · have hlast := lasts_allResourcesAbsent htime resources w₂
      have hinstant := lasts_instant htime w₃
      rw [hcheck] at hlast
      rw [hobserved] at hinstant
      have hnow := instant_ok env hobserved
      cases hbegun : state.1.since with
      | none => simp [hbegun, h.2.1, pendingMutationStableZero] at hlong
      | some since =>
        have hfirst := h.2.2 since hbegun
        rw [hbegun, h.2.1, Option.getD_some] at hlong
        have hpos : 0 < pendingMutationStableZero := by decide
        dsimp only at hlast hinstant
        omega

theorem polling_ok (hplain : Plain env) (hnamed : resources.Named)
    (htime : ∀ n, (env n).time ≤ d) {timeout deadline : Nat}
    (h : retry env timeout deadline (pollStep env resources) pollExpired
      (.new pendingMutationStableZero, none) w = (w', .ok ())) :
    ∃ c, Calm w c ∧ Calm c w' ∧ (∀ key ∈ resources.keys, Cleared c w' key) ∧
      w.clock + pendingMutationStableZero ≤ c.clock + 10 * d := by
  have hstart : Polls w (.new pendingMutationStableZero, none) w :=
    ⟨.refl w, rfl, fun since hsince => by cases hsince⟩
  refine untilDeadline_ok (I := Polls w)
    (Q := fun _ w' => ∃ c, Calm w c ∧ Calm c w' ∧ (∀ key ∈ resources.keys, Cleared c w' key) ∧
      w.clock + pendingMutationStableZero ≤ c.clock + 10 * d) ?_ ?_ ?_ ?_ ?_ hstart h
  · exact fun state s t time hpolls hnow => hpolls.later (quiet_of (keeps_instant env) hnow).1
  · exact fun state s t hpolls hslept => hpolls.later (quiet_of (keeps_sleep _) hslept).1
  · exact fun state s t _ hpolls hdone => cleared_of_pollStep hplain hnamed htime hpolls hdone
  · exact fun state s t state' hpolls hmore => polls_of_pollStep hpolls hmore
  · exact fun state s t _ _ hexpired => by simp [pollExpired] at hexpired

theorem keeps_cleanupStep {cleanup : Action World String Unit} (hquiet : Keeps Quiet cleanup)
    (state : String) : Keeps Quiet (cleanupStep cleanup state) := by
  refine hquiet.tried.bind quiet_trans ?_
  rintro (_ | _) <;> exact keeps_pure _

/-- Retrying ends with a cleanup that succeeds. -/
theorem retrying_ok {cleanup : Action World String Unit} (hquiet : Keeps Quiet cleanup)
    {timeout deadline : Nat} {state : String}
    (h : retry env timeout deadline (cleanupStep cleanup) raise state w = (w', .ok ())) :
    ∃ m, Calm w m ∧ cleanup m = (w', .ok ()) := by
  refine untilDeadline_ok (I := fun _ m => Calm w m)
    (Q := fun _ w' => ∃ m, Calm w m ∧ cleanup m = (w', .ok ())) ?_ ?_ ?_ ?_ ?_ (.refl w) h
  · exact fun _ s t time hcalm hnow => hcalm.trans (quiet_of (keeps_instant env) hnow).1
  · exact fun _ s t hcalm hslept => hcalm.trans (quiet_of (keeps_sleep _) hslept).1
  · intro _ s t _ hcalm hdone
    simp only [cleanupStep, bind_ok_iff, tried_ok_iff] at hdone
    obtain ⟨outcome, m, hcleanup, hdone⟩ := hdone
    cases outcome with
    | ok _ =>
      obtain ⟨rfl, -⟩ := pure_ok_iff.mp hdone
      exact ⟨s, hcalm, hcleanup⟩
    | error error => simp at hdone
  · exact fun state s t _ hcalm hmore =>
      hcalm.trans (quiet_of (keeps_cleanupStep hquiet state) hmore).1
  · exact fun _ s t _ _ hexpired => by simp at hexpired

end Program

/-! ## The guard -/

/-- A creation in flight has set the mark, and its client was killed before now. -/
def Marked (w : World) : Prop :=
  ∀ p ∈ w.inFlight, p.1.creates = true → p.2 ≤ w.clock ∧ w.pendingMutation = true

theorem Marked.calm {w w' : World} (h : Marked w) (hcalm : Calm w w') : Marked w' := by
  intro p hp hcreates
  obtain ⟨hkilled, hmark⟩ := h p (hcalm.inFlight p hp hcreates) hcreates
  exact ⟨hkilled.trans hcalm.clock, hcalm.mark.trans hmark⟩

/-- Nothing of the run is left, now or later, but what lands five seconds after its client was
killed, less the time of ten waits. -/
structure Settled (resources : CodexResources) (d : Nat) (w : World) : Prop where
  objects : ∀ key ∈ resources.keys, ∀ object, w.objects key = some object →
    object.arrival = .foreign ∨ ∃ killed landed, object.arrival = .late killed landed ∧
      killed + pendingMutationStableZero ≤ landed + 10 * d
  inFlight : ∀ p ∈ w.inFlight, p.1.creates = true →
    p.2 + pendingMutationStableZero ≤ w.clock + 10 * d

theorem Settled.calm {resources : CodexResources} {d : Nat} {w w' : World}
    (h : Settled resources d w) (hcalm : Calm w w') : Settled resources d w' where
  objects key hkey object hobject := by
    rcases hcalm.objects key object hobject with hold | hforeign |
      ⟨killed, landed, harrival, hlanded, command, hmem, hcreates⟩
    · exact h.objects key hkey object hold
    · exact .inl hforeign
    · have hflight := h.inFlight _ hmem hcreates
      exact .inr ⟨killed, landed, harrival, by dsimp only at hflight; omega⟩
  inFlight p hp hcreates := by
    have hflight := h.inFlight p (hcalm.inFlight p hp hcreates) hcreates
    have hclock := hcalm.clock
    omega

structure GuardSound (resources : CodexResources) (d : Nat) (w : World) : Prop where
  marked : Marked w
  settled : w.guard.resourcesRemoved = true ∨ w.guard.homeTouched = true → Settled resources d w

def Safe (resources : CodexResources) (d : Nat) (w : World) : Prop :=
  Marked w ∧ Settled resources d w

section Program

variable {env : Nat → Turn} {resources : CodexResources} {d : Nat}

theorem Safe.guardSound {w : World} (h : Safe resources d w) : GuardSound resources d w :=
  ⟨h.1, fun _ => h.2⟩

theorem GuardSound.quiet {w w' : World} (h : GuardSound resources d w) (hquiet : Quiet w w') :
    GuardSound resources d w' where
  marked := h.marked.calm hquiet.1
  settled hguard := by
    rw [hquiet.2] at hguard
    exact (h.settled hguard).calm hquiet.1

theorem safe_of_quiet {w w' : World} (hquiet : Quiet w w') (h : Safe resources d w) :
    Safe resources d w' := ⟨h.1.calm hquiet.1, h.2.calm hquiet.1⟩

theorem keeps_safe_bind {α β : Type} {x : Action World String α} {f : α → Action World String β}
    (hx : Keeps (fun w w' => Safe resources d w → Safe resources d w') x)
    (hf : ∀ a, Keeps (fun w w' => Safe resources d w → Safe resources d w') (f a)) :
    Keeps (fun w w' => Safe resources d w → Safe resources d w') (x >>= f) :=
  hx.bind (fun _ _ _ h h' hs => h' (h hs)) hf

/-- Once the names are settled the guard may note what it likes. -/
theorem keeps_safe_changeGuard (f : RunGuard → RunGuard) :
    Keeps (fun w w' => Safe resources d w → Safe resources d w') (changeGuard f) :=
  fun _ h => ⟨h.1, ⟨h.2.objects, h.2.inFlight⟩⟩

theorem keeps_safe_cleanupHome :
    Keeps (fun w w' => Safe resources d w → Safe resources d w') (cleanupHome env) := by
  refine keeps_safe_bind (fun _ h => h) fun guard => ?_
  split_ifs
  · exact fun _ h => h
  · refine keeps_safe_bind (fun w => safe_of_quiet (keeps_wait env w)) fun turn =>
      keeps_safe_bind (keeps_safe_changeGuard _) fun _ => ?_
    split
    · exact keeps_safe_changeGuard _
    · exact fun _ h => h
    · exact fun _ h => h
    · exact fun _ h => h

theorem keeps_safe_cleanupPrivateHome :
    Keeps (fun w w' => Safe resources d w → Safe resources d w') (cleanupPrivateHome env) :=
  keeps_safe_bind (fun _ h => h) fun _ => keeps_safe_bind (fun _ h => h) fun _ =>
    keeps_safe_bind keeps_safe_cleanupHome fun _ => keeps_safe_changeGuard _

theorem keeps_safe_dropHome :
    Keeps (fun w w' => Safe resources d w → Safe resources d w') (dropHome env) := by
  refine keeps_safe_bind (fun _ h => h) fun guard => ?_
  split_ifs
  · exact keeps_safe_bind keeps_safe_cleanupHome.tried fun _ => fun _ h => h
  · exact fun _ h => h

theorem keeps_removeResources : Keeps Quiet (removeResources env resources) := by
  refine (keeps_effect fun w => quiet_refl w).bind quiet_trans ?_
  rintro (_ | _)
  · exact (keeps_instant env).bind quiet_trans fun start => keeps_retry env
      (keeps_cleanupStep (keeps_removeResourcesOnce env resources)) (keeps_raise quiet_refl) _ _ _
  · exact (keeps_instant env).bind quiet_trans fun start => keeps_retry env keeps_pollStep
      (fun _ => keeps_raise quiet_refl _) _ _ _

/-- A removal that is confirmed settles the names of the run. Without the mark no creation is in
flight; with it the last check of absence was long after every client was killed. -/
theorem settled_of_removeResources (hplain : Plain env) (hnamed : resources.Named)
    (htime : ∀ n, (env n).time ≤ d) {w w' : World} (hmarked : Marked w)
    (h : removeResources env resources w = (w', .ok ())) : Settled resources d w' := by
  have hcalm : Calm w w' := (quiet_of keeps_removeResources h).1
  rw [removeResources, bind_ok_iff] at h
  obtain ⟨marked, m, hmark, h⟩ := h
  obtain ⟨rfl, rfl⟩ := Prod.ext_iff.mp (effect_ok_iff.mp hmark)
  cases hpending : w.pendingMutation with
  | false =>
    have hnone : ∀ p ∈ w.inFlight, p.1.creates = true → False := by
      intro p hp hcreates
      have hset := (hmarked p hp hcreates).2
      rw [hpending] at hset
      cases hset
    simp only [hpending, retryCleanup, bind_ok_iff] at h
    obtain ⟨start, m, hstart, h⟩ := h
    obtain ⟨m', hlater, hremoved⟩ := retrying_ok (keeps_removeResourcesOnce env resources) h
    have hbefore : Calm w m' := (quiet_of (keeps_instant env) hstart).1.trans hlater
    refine ⟨fun key hkey object hobject => ?_, fun p hp hcreates => ?_⟩
    · rcases (cleared_of_removeResourcesOnce hplain hremoved key hkey object hobject).earlier
        hbefore with hforeign | ⟨killed, landed, -, -, command, hmem, hcreates⟩
      · exact .inl hforeign
      · exact (hnone _ hmem hcreates).elim
    · exact (hnone p (hcalm.inFlight p hp hcreates) hcreates).elim
  | true =>
    simp only [hpending, bind_ok_iff] at h
    obtain ⟨start, m, hstart, h⟩ := h
    have hbase : Calm w m := (quiet_of (keeps_instant env) hstart).1
    obtain ⟨c, hpolled, hafter, hcleared, hlong⟩ := polling_ok hplain hnamed htime h
    have hbefore : Calm w c := hbase.trans hpolled
    have hclock₀ := hbase.clock
    refine ⟨fun key hkey object hobject => ?_, fun p hp hcreates => ?_⟩
    · rcases hcleared key hkey object hobject with hforeign |
        ⟨killed, landed, harrival, hlanded, command, hmem, hcreates⟩
      · exact .inl hforeign
      · have hkilled := (hmarked _ (hbefore.inFlight _ hmem hcreates) hcreates).1
        dsimp only at hkilled
        exact .inr ⟨killed, landed, harrival, by omega⟩
    · have hkilled := (hmarked p (hcalm.inFlight p hp hcreates) hcreates).1
      have hclock := hafter.clock
      omega

section Confirmed

variable (hplain : Plain env) (hnamed : resources.Named) (htime : ∀ n, (env n).time ≤ d)

include hplain hnamed htime

theorem confirm_sound {w : World} (h : GuardSound resources d w) :
    GuardSound resources d (confirmContainerRemoved env resources w).1 ∧
      ((confirmContainerRemoved env resources w).2 = .ok () →
        Safe resources d (confirmContainerRemoved env resources w).1) := by
  generalize hconfirm : confirmContainerRemoved env resources w = p
  obtain ⟨w', result⟩ := p
  cases hremoved : w.guard.resourcesRemoved with
  | true =>
    have hsame : confirmContainerRemoved env resources w = (w, .ok ()) := by
      rw [confirmContainerRemoved, bind_of_ok (show theGuard w = (w, .ok w.guard) from rfl)]
      simp only [hremoved, if_true]
      rfl
    rw [hsame] at hconfirm
    obtain ⟨rfl, rfl⟩ := Prod.ext_iff.mp hconfirm
    exact ⟨h, fun _ => ⟨h.marked, h.settled (.inl hremoved)⟩⟩
  | false =>
    rw [confirmContainerRemoved, bind_of_ok (show theGuard w = (w, .ok w.guard) from rfl)]
      at hconfirm
    simp only [hremoved, Bool.false_eq_true, if_false] at hconfirm
    generalize hremoval : removeResources env resources w = q at hconfirm
    obtain ⟨m, outcome⟩ := q
    have hquiet : Quiet w m := quiet_of keeps_removeResources hremoval
    cases outcome with
    | error error =>
      have hwithin : within "could not remove Codex Docker resources"
          (removeResources env resources) w =
            (m, .error ("could not remove Codex Docker resources" ++ ": " ++ error)) := by
        rw [within, relabel, hremoval]
        rfl
      rw [bind_of_error hwithin] at hconfirm
      obtain ⟨rfl, rfl⟩ := Prod.ext_iff.mp hconfirm
      exact ⟨h.quiet hquiet, fun hok => by cases hok⟩
    | ok _ =>
      have hwithin : within "could not remove Codex Docker resources"
          (removeResources env resources) w = (m, .ok ()) := by
        rw [within, relabel, hremoval]
        rfl
      rw [bind_of_ok hwithin] at hconfirm
      obtain ⟨rfl, rfl⟩ := Prod.ext_iff.mp hconfirm
      have hsafe : Safe resources d m := ⟨h.marked.calm hquiet.1,
        settled_of_removeResources hplain hnamed htime h.marked hremoval⟩
      have hnoted := @keeps_safe_changeGuard resources d
        (fun guard => { guard with resourcesRemoved := true }) m hsafe
      exact ⟨hnoted.guardSound, fun _ => hnoted⟩

theorem dropGuard_sound {w : World} (h : GuardSound resources d w) :
    GuardSound resources d (dropGuard env resources w).1 := by
  rw [dropGuard, bind_of_ok (show theGuard w = (w, .ok w.guard) from rfl)]
  split_ifs
  · exact h
  obtain ⟨hsound, hsafe⟩ := confirm_sound hplain hnamed htime h
  generalize hconfirm : confirmContainerRemoved env resources w = p at hsound hsafe
  obtain ⟨m, outcome⟩ := p
  rw [bind_of_ok (tried_ok_iff.mpr hconfirm)]
  cases outcome with
  | error error =>
    -- The home is retained, and its own `Drop` leaves it alone.
    exact ⟨hsound.marked, fun hguard => ⟨(hsound.settled hguard).objects,
      (hsound.settled hguard).inFlight⟩⟩
  | ok _ =>
    have hcleaned : Keeps (fun w w' => Safe resources d w → Safe resources d w')
        (do let _ ← tried (cleanupPrivateHome env); dropHome env : Action World String Unit) :=
      keeps_safe_bind keeps_safe_cleanupPrivateHome.tried fun _ => keeps_safe_dropHome
    exact (hcleaned m (hsafe rfl)).guardSound

theorem finish_sound {w : World} (h : GuardSound resources d w) :
    GuardSound resources d (finish env resources w).1 := by
  have hfinished : GuardSound resources d
      ((do confirmContainerRemoved env resources; cleanupPrivateHome env :
        Action World String Unit) w).1 := by
    obtain ⟨hsound, hsafe⟩ := confirm_sound hplain hnamed htime h
    refine fst_bind (Q := GuardSound resources d) hsound fun _ m hconfirm => ?_
    rw [hconfirm] at hsafe
    exact (keeps_safe_cleanupPrivateHome m (hsafe rfl)).guardSound
  refine fst_bind (Q := GuardSound resources d) hfinished fun finished m htried => ?_
  have hm : GuardSound resources d m := by
    rw [tried_ok_iff] at htried
    rwa [htried] at hfinished
  have hdropped := dropGuard_sound hplain hnamed htime hm
  refine fst_bind (Q := GuardSound resources d) hdropped fun _ m' hdrop => ?_
  rw [hdrop] at hdropped
  exact hdropped

end Confirmed

end Program

end A3sBench.CodexDocker
