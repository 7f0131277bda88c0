import A3sBench.CodexExecution
import A3sBench.CodexTeardown

/-!
# The life of a Codex run

Whatever a Candidate gets done before it fails, returns or unwinds, each creation
that outlives its client has set the mark when the guard comes to remove the
resources. So the private home goes only after the names of the run are settled.
-/

namespace A3sBench.CodexDocker

open Library Library.Action StaleSweep
open CodexCleanup (pendingMutationStableZero)

/-- A step of the Candidate: the guard is not touched and no creation stays unmarked. -/
def Prepares (w w' : World) : Prop := w'.guard = w.guard ∧ (Marked w → Marked w')

theorem prepares_refl (w : World) : Prepares w w := ⟨rfl, id⟩

theorem prepares_trans (w w' w'' : World) (h : Prepares w w') (h' : Prepares w' w'') :
    Prepares w w'' := ⟨h'.1.trans h.1, fun hmarked => h'.2 (h.2 hmarked)⟩

theorem Quiet.prepares {w w' : World} (h : Quiet w w') : Prepares w w' :=
  ⟨h.2, fun hmarked => hmarked.calm h.1⟩

theorem prepares_of_quiet {α : Type} {x : Action World String α} (h : Keeps Quiet x) :
    Keeps Prepares x := fun w => (h w).prepares

theorem prepares_lift {α : Type} (x : Result α) : Keeps Prepares (lift x : Action World String α) :=
  keeps_lift prepares_refl x

theorem prepares_raise {α : Type} (e : String) :
    Keeps Prepares (raise e : Action World String α) := keeps_raise prepares_refl e

theorem prepares_pure {α : Type} (a : α) : Keeps Prepares (pure a : Action World String α) :=
  prepares_refl

theorem prepares_bind {α β : Type} {x : Action World String α} {f : α → Action World String β}
    (hx : Keeps Prepares x) (hf : ∀ a, Keeps Prepares (f a)) : Keeps Prepares (x >>= f) :=
  hx.bind prepares_trans hf

theorem prepares_mark : Keeps Prepares markPendingMutation :=
  fun _ => ⟨rfl, fun h p hp hcreates => ⟨(h p hp hcreates).1, rfl⟩⟩

section Program

variable (env : Nat → Turn)

theorem prepares_retry {κ α : Type} {step : κ → Action World String (α ⊕ κ)}
    {expired : κ → Action World String α} (hstep : ∀ state, Keeps Prepares (step state))
    (hexpired : ∀ state, Keeps Prepares (expired state)) (timeout deadline : Nat) (state : κ) :
    Keeps Prepares (retry env timeout deadline step expired state) :=
  keeps_untilDeadline prepares_refl prepares_trans (prepares_of_quiet (keeps_instant env))
    (prepares_of_quiet (keeps_sleep _)) hstep hexpired _ _

theorem prepares_waitForDelayedExistence {present : Action World String Bool}
    (h : Keeps Prepares present) : Keeps Prepares (waitForDelayedExistence env present) :=
  prepares_bind (prepares_of_quiet (keeps_instant env)) fun _ =>
    prepares_retry env (fun _ => prepares_bind h fun _ => prepares_pure _)
      (fun _ => prepares_pure _) _ _ _

theorem prepares_perform (w : World) (command : DockerCommand) :
    Prepares w (w.perform .answered command).1 := by
  obtain ⟨hclock, -, hinFlight, hmark, hguard⟩ := perform_frame w .answered command
  refine ⟨hguard, fun hmarked p hp hcreates => ?_⟩
  rw [hinFlight] at hp
  rw [hclock, hmark]
  exact hmarked p hp hcreates

/-- A command whose client was not killed leaves nothing in flight. -/
theorem prepares_outputWithTimeout {command : DockerCommand} {w w' : World}
    {r : Result (CommandOutput × Bool)} (h : outputWithTimeout env command w = (w', r))
    (hanswered : ∀ output, r ≠ .ok (output, true)) : Prepares w w' := by
  have hwait : Prepares w (wait env w).1 := (keeps_wait env w).prepares
  rw [outputWithTimeout, bind_of_ok (show wait env w = ((wait env w).1, .ok (env w.turn)) from rfl)]
    at h
  cases houtcome : (env w.turn).outcome with
  | completes stdoutTruncated stderrTruncated =>
    simp only [houtcome] at h
    obtain ⟨rfl, -⟩ := Prod.ext_iff.mp h
    exact prepares_trans _ _ _ hwait (prepares_perform _ command)
  | refuses status diagnostics =>
    simp only [houtcome] at h
    obtain ⟨rfl, -⟩ := Prod.ext_iff.mp h
    exact hwait
  | timesOut =>
    simp only [houtcome] at h
    obtain ⟨-, rfl⟩ := Prod.ext_iff.mp h
    exact absurd rfl (hanswered _)
  | unavailable error done =>
    cases done with
    | true =>
      simp only [houtcome] at h
      obtain ⟨rfl, -⟩ := Prod.ext_iff.mp h
      exact prepares_trans _ _ _ hwait (prepares_perform _ command)
    | false =>
      simp only [houtcome] at h
      obtain ⟨rfl, -⟩ := Prod.ext_iff.mp h
      exact hwait

/-- A creation, and the mark where its client was killed. -/
theorem prepares_createObject {key : Key} {volumes : List String}
    {couldNot timedOutText failed : String} {present : Action World String Bool}
    (h : Keeps Prepares present) :
    Keeps Prepares
      (createObject env key volumes couldNot timedOutText failed present) := by
  intro w
  unfold createObject
  generalize hcommand : outputWithTimeout env (.create key volumes) w = p
  obtain ⟨m, outcome⟩ := p
  rcases outcome with error | ⟨output, timedOut⟩
  · have hwithin : within couldNot (outputWithTimeout env (.create key volumes)) w =
        (m, .error (couldNot ++ ": " ++ error)) := by
      rw [within, relabel, hcommand]
      rfl
    rw [bind_of_error hwithin]
    exact prepares_outputWithTimeout env hcommand fun _ hok => by cases hok
  · have hwithin : within couldNot (outputWithTimeout env (.create key volumes)) w =
        (m, .ok (output, timedOut)) := by
      rw [within, relabel, hcommand]
      rfl
    rw [bind_of_ok hwithin]
    cases timedOut with
    | false =>
      have hanswered := prepares_outputWithTimeout env hcommand fun _ hok => by cases hok
      exact prepares_trans _ _ _ hanswered (prepares_lift _ m)
    | true =>
      obtain ⟨m', hwait, ⟨_, _, -, -, -, htimed⟩ | ⟨_, _, -, -, -, htimed⟩ | ⟨-, -, rfl⟩⟩ :=
        outputWithTimeout_ok env hcommand
      · cases htimed
      · cases htimed
      · -- The mark is set before the run looks at Docker again.
        have hrest : Keeps Prepares (do waitForDelayedExistence env present; raise timedOutText :
            Action World String Unit) :=
          prepares_bind (prepares_waitForDelayedExistence env h) fun _ => prepares_raise _
        have hquiet : Quiet w m' := quiet_of (keeps_wait env) hwait
        have hmarked : Prepares w { m' with
            inFlight := m'.inFlight ++ [(.create key volumes, m'.clock)]
            pendingMutation := true } := by
          refine ⟨hquiet.2, fun hmarked p hp hcreates => ?_⟩
          rcases List.mem_append.mp hp with hp | hp
          · exact ⟨((hmarked.calm hquiet.1) p hp hcreates).1, rfl⟩
          · rw [List.mem_singleton.mp hp]
            exact ⟨le_rfl, rfl⟩
        exact prepares_trans _ _ _ hmarked (hrest _)

theorem prepares_read {β : Type} {command : DockerCommand} (h : command.creates = false)
    (message : String) {next : CommandOutput × Bool → Action World String β}
    (hnext : ∀ p, Keeps Prepares (next p)) :
    Keeps Prepares (within message (outputWithTimeout env command) >>= next) :=
  prepares_bind (prepares_of_quiet ((keeps_outputWithTimeout env h).relabel _)) hnext

theorem prepares_containerExists (container : String) :
    Keeps Prepares (containerExists env container) :=
  prepares_of_quiet (keeps_containerExists env container)

/-! ## The Candidate -/

theorem prepares_createInternalNetwork (network : String) :
    Keeps Prepares (createInternalNetwork env network) :=
  prepares_bind (prepares_createObject env
    (prepares_of_quiet (keeps_ownedInternalNetworkExists env network))) fun _ =>
      prepares_bind (prepares_of_quiet (keeps_ownedInternalNetworkExists env network))
        fun _ => prepares_lift _

theorem prepares_createVolume (volume : String) : Keeps Prepares (createVolume env volume) :=
  prepares_bind (prepares_createObject env
    (prepares_of_quiet (keeps_ownedVolumeExists env volume))) fun _ =>
      prepares_bind (prepares_of_quiet (keeps_ownedVolumeExists env volume))
        fun _ => prepares_lift _

/-- The creation of a container, and the look at it afterwards. -/
theorem prepares_createContainer {container : String} {volumes : List String}
    {couldNot timedOutText failed disappeared : String} :
    Keeps Prepares (do
      createObject env (.container, container) volumes couldNot timedOutText failed
        (containerExists env container)
      let found ← containerExists env container
      lift (ensure (found = true) disappeared) : Action World String Unit) :=
  prepares_bind (prepares_createObject env (prepares_containerExists env container)) fun _ =>
    prepares_bind (prepares_containerExists env container) fun _ => prepares_lift _

theorem prepares_attend (couldNot timedOutText failed : String) :
    Keeps Prepares (attend env couldNot timedOutText failed) :=
  prepares_read env rfl _ fun _ => prepares_lift _

theorem prepares_ask (couldNot timedOutText failed : String) :
    Keeps Prepares (ask env couldNot timedOutText failed) :=
  prepares_bind (prepares_attend env _ _ _) fun _ => fun w => prepares_refl w

theorem prepares_connectCandidateToGameNetwork :
    Keeps Prepares (connectCandidateToGameNetwork env) := by
  refine prepares_bind (prepares_ask env _ _ _) fun internal =>
    prepares_bind (prepares_lift _) fun _ => prepares_read env rfl _ fun p => ?_
  obtain ⟨output, _ | _⟩ := p
  · exact prepares_bind (prepares_lift _) fun _ => prepares_bind (prepares_ask env _ _ _) fun _ =>
      prepares_bind (prepares_lift _) fun _ => prepares_lift _
  · exact prepares_bind prepares_mark fun _ => prepares_raise _

theorem prepares_connectProxyToBridge : Keeps Prepares (connectProxyToBridge env) := by
  refine prepares_read env rfl _ fun p => ?_
  obtain ⟨output, _ | _⟩ := p
  · exact prepares_bind (prepares_lift _) fun _ => prepares_bind (prepares_ask env _ _ _) fun _ =>
      prepares_lift _
  · exact prepares_bind prepares_mark fun _ => prepares_raise _

theorem prepares_probeStep (state : CommandOutput) : Keeps Prepares (probeStep env state) :=
  prepares_bind (prepares_ask env _ _ _) fun _ => prepares_bind (prepares_lift _) fun _ =>
    prepares_read env rfl _ fun _ => prepares_pure _

theorem prepares_startProxySidecar (proxy tools : String) :
    Keeps Prepares (startProxySidecar env proxy tools) :=
  prepares_bind (prepares_createContainer env) fun _ =>
    prepares_bind (prepares_connectProxyToBridge env) fun _ =>
      prepares_bind (prepares_attend env _ _ _) fun _ =>
        prepares_bind (prepares_attend env _ _ _) fun _ =>
          prepares_bind (prepares_of_quiet (keeps_instant env)) fun _ =>
            prepares_retry env (prepares_probeStep env) (fun _ => prepares_raise _) _ _ _

theorem prepares_stopContainerProcess (container : String) :
    Keeps Prepares (stopContainerProcess env container) := by
  refine prepares_bind (prepares_of_quiet (keeps_ownedContainerId env container)) ?_
  rintro (_ | id)
  · exact prepares_raise _
  refine prepares_bind (prepares_ask env _ _ _) ?_
  rintro (_ | _)
  · exact prepares_pure _
  refine prepares_read env rfl _ fun p => prepares_bind (prepares_lift _) fun _ => ?_
  split
  · exact prepares_bind (prepares_ask env _ _ _) fun _ => prepares_lift _
  · exact prepares_bind (prepares_ask env _ _ _) fun _ => prepares_bind (prepares_lift _) fun _ =>
      prepares_bind (prepares_ask env _ _ _) fun _ => prepares_lift _

theorem prepares_enumerateContainerWorkspaceFiles (resources : CodexResources) :
    Keeps Prepares (enumerateContainerWorkspaceFiles env resources) := by
  refine prepares_bind (prepares_createObject env (prepares_containerExists env _)) fun _ =>
    prepares_bind (prepares_containerExists env _) fun _ => prepares_bind (prepares_lift _)
      fun _ => prepares_read env rfl _ fun p => ?_
  obtain ⟨output, _ | _⟩ := p
  · exact prepares_lift _
  · exact prepares_bind prepares_mark fun _ =>
      prepares_bind (prepares_stopContainerProcess env _) fun _ => prepares_raise _

theorem prepares_candidate (request : CodexRequest) (resources : CodexResources) :
    Keeps Prepares (candidate env request resources) := by
  have hforM : ∀ {α : Type} {f : α → Action World String Unit} (l : List α),
      (∀ a, Keeps Prepares (f a)) → Keeps Prepares (l.forM f) :=
    fun l hf => keeps_forM prepares_refl prepares_trans hf l
  have hnetwork : Keeps Prepares (prepareNetwork env resources) := by
    unfold prepareNetwork
    split
    · exact prepares_pure _
    · exact prepares_bind (prepares_attend env _ _ _) fun _ =>
        prepares_createInternalNetwork env _
  have hconnect : Keeps Prepares (connectNetworks env request resources) :=
    prepares_bind (hforM _ fun _ => prepares_connectCandidateToGameNetwork env) fun _ =>
      hforM _ fun _ => prepares_startProxySidecar env _ _
  have hstop : ∀ timedOut, Keeps Prepares (stopIfTimedOut env resources timedOut) := by
    rintro (_ | _)
    · exact prepares_pure _
    · exact prepares_stopContainerProcess env _
  have hread : ∀ output timedOut, Keeps Prepares (readOutcome env output timedOut) := by
    rintro output (_ | _)
    · exact prepares_bind (prepares_lift _) fun _ => prepares_bind (prepares_lift _) fun _ =>
        prepares_bind (prepares_attend env _ _ _) fun _ => prepares_pure _
    · exact prepares_pure _
  exact prepares_bind (prepares_attend env _ _ _) fun _ => prepares_bind hnetwork fun _ =>
    prepares_bind (hforM _ (prepares_createVolume env)) fun _ =>
    prepares_bind (prepares_createContainer env) fun _ =>
    prepares_bind (prepares_containerExists env _) fun _ => prepares_bind (prepares_lift _) fun _ =>
    prepares_bind (prepares_attend env _ _ _) fun _ =>
    prepares_bind (prepares_createContainer env) fun _ => prepares_bind hconnect fun _ =>
    prepares_read env rfl _ fun p => prepares_bind (hstop p.2) fun _ =>
    prepares_bind (prepares_enumerateContainerWorkspaceFiles env resources) fun _ =>
    prepares_bind (prepares_attend env _ _ _) fun _ => hread p.1 p.2

end Program

section Execute

variable {env : Nat → Turn} {d : Nat}

/-- Where the guard begins: nothing removed yet, and no creation of an earlier run in flight. -/
structure Fresh (w : World) : Prop where
  inFlight : ∀ p ∈ w.inFlight, p.1.creates = false
  resourcesRemoved : w.guard.resourcesRemoved = false
  homeTouched : w.guard.homeTouched = false

theorem execute_sound {resources : CodexResources} (hplain : Plain env) (hnamed : resources.Named)
    (htime : ∀ n, (env n).time ≤ d) {w : World} (hfresh : Fresh w) (request : CodexRequest)
    (unwinds : Bool) : GuardSound resources d (execute env request resources unwinds w).1 := by
  have hmarked : Marked w := by
    intro p hp hcreates
    rw [hfresh.inFlight p hp] at hcreates
    cases hcreates
  generalize hcandidate : candidate env request resources w = p
  obtain ⟨m, result⟩ := p
  have hprepared := prepares_candidate env request resources w
  rw [hcandidate] at hprepared
  have hsound : GuardSound resources d m := by
    refine ⟨hprepared.2 hmarked, fun hguard => ?_⟩
    rw [hprepared.1, hfresh.resourcesRemoved, hfresh.homeTouched] at hguard
    rcases hguard with hguard | hguard <;> cases hguard
  rw [execute, bind_of_ok (tried_ok_iff.mpr hcandidate)]
  cases unwinds with
  | true =>
    have hdropped := dropGuard_sound hplain hnamed htime hsound
    refine fst_bind (Q := GuardSound resources d) hdropped fun _ m' hdrop => ?_
    rw [hdrop] at hdropped
    exact hdropped
  | false =>
    have hfinished := finish_sound hplain hnamed htime hsound
    refine fst_bind (Q := GuardSound resources d) hfinished fun cleanup m' hfinish => ?_
    rw [tried_ok_iff] at hfinish
    rw [hfinish] at hfinished
    rcases result with error | outcome <;> rcases cleanup with cleanupError | _ <;>
      exact hfinished

end Execute

section Sample

def sampleTurn (outcome : Outcome) : Turn where
  events := [.passes (3 * 10 ^ 8)]
  outcome := outcome
  answer := true

/-- The creation of the first volume outlives its client, and the look for it fails. -/
def sampleEnv : Nat → Turn
  | 1 => sampleTurn .timesOut
  | 3 => sampleTurn (.unavailable "no client" false)
  | _ => sampleTurn (.completes false false)

def sampleWorld : World where
  clock := 0
  turn := 0
  nextId := 0
  objects _ := none
  inFlight := []
  pendingMutation := false
  guard :=
    { resourcesRemoved := false, finished := false, cleanupOnDrop := true, cleaned := false,
      homeTouched := false }

def sampleRequest : CodexRequest where
  restrictedNetwork := false
  seeded := false
  gameNetwork := none

theorem sampleEnv_plain : Plain sampleEnv := by
  intro n status diagnostics houtcome
  unfold sampleEnv sampleTurn at houtcome
  split at houtcome <;> cases houtcome

theorem sampleEnv_time (n : Nat) : (sampleEnv n).time ≤ 3 * 10 ^ 8 := by
  unfold sampleEnv sampleTurn
  split <;> exact le_rfl

theorem sampleWorld_fresh : Fresh sampleWorld where
  inFlight _ hp := absurd hp List.not_mem_nil
  resourcesRemoved := rfl
  homeTouched := rfl

end Sample

end A3sBench.CodexDocker
