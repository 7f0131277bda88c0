import A3sBench.ImportMounts

/-!
# The deadline of a Candidate

Three Candidate paths start a child, add the time limit of the Task to the clock
and poll until the child ends or the sum has passed. An instant counts seconds
up to a limit, and adding to one panics above it.
-/

namespace A3sBench.CandidateDeadline

/-- What a function of the source does: it panics, still waits, or returns. -/
inductive Outcome (α : Type) where
  | panicked
  | waiting
  | returned (result : Result α)

/-- `Instant + Duration` in seconds, with the greatest instant given. -/
def addDuration (greatest start duration : Nat) : Option Nat :=
  if start + duration ≤ greatest then some (start + duration) else none

/-- What one round of polling meets: the answers about the child and the clock. -/
structure Poll where
  tryWait : Result (Option Nat)
  now : Nat
  kill : Result Unit
  /-- `try_wait` once more, where the child could not be killed. -/
  tryWaitAgain : Result (Option Nat)
  /-- `wait` after the child has ended or was killed. -/
  wait : Result Nat

variable {α : Type}

/-- The loop of the three paths, which differ in what they do with an exit status and at the
deadline. -/
def awaitChild (exited : Poll → Nat → Result α) (expired : Poll → Result α) (deadline : Nat) :
    List Poll → Outcome α
  | [] => .waiting
  | poll :: polls =>
    match poll.tryWait with
    | .error error => .returned (.error error)
    | .ok (some status) => .returned (exited poll status)
    | .ok none =>
      if deadline ≤ poll.now then .returned (expired poll)
      else awaitChild exited expired deadline polls

/-- From the spawned child on: the deadline and the loop. -/
def runUntil (exited : Poll → Nat → Result α) (expired : Poll → Result α)
    (greatest start timeout : Nat) (polls : List Poll) : Outcome α :=
  match addDuration greatest start timeout with
  | none => .panicked
  | some deadline => awaitChild exited expired deadline polls

section Paths

variable (greatest start : Nat)

/-- `output_with_timeout` of the Docker Candidate: the status, and whether time ran out. -/
def outputWithTimeout (timeout : Nat) (polls : List Poll) : Outcome (Nat × Bool) :=
  runUntil
    (fun poll _ => do
      let status ← poll.wait
      pure (status, false))
    (fun poll => do
      poll.kill
      let status ← poll.wait
      pure (status, true))
    greatest start timeout polls

/-- `output_with_timeout_limits` of the Codex Candidate: a child that cannot be killed may have
ended. -/
def outputWithTimeoutLimits (timeout : Nat) (polls : List Poll) : Outcome (Nat × Bool) :=
  runUntil
    (fun poll _ => do
      let status ← poll.wait
      pure (status, false))
    (fun poll => do
      match poll.kill with
      | .ok () => pure ()
      | .error error =>
        let ended ← poll.tryWaitAgain
        ensure (ended.isSome = true) error
      let status ← poll.wait
      pure (status, true))
    greatest start timeout polls

inductive A3sCodeOutcome (α : Type) where
  | completed (model : α)
  | timedOut

/-- `execute` of the A3S Code Candidate, with what it makes of an exit status given. -/
def executeA3sCode (finish : Nat → Result α) (timeout : Nat) (polls : List Poll) :
    Outcome (A3sCodeOutcome α) :=
  runUntil
    (fun _ status => do
      let model ← finish status
      pure (.completed model))
    (fun poll => do
      poll.kill
      let _ ← poll.wait
      pure .timedOut)
    greatest start timeout polls

end Paths

theorem returned_ne_panicked (result : Result α) : Outcome.returned result ≠ .panicked := by
  intro h
  cases h

theorem awaitChild_ne_panicked (exited : Poll → Nat → Result α) (expired : Poll → Result α)
    (deadline : Nat) (polls : List Poll) : awaitChild exited expired deadline polls ≠ .panicked := by
  induction polls with
  | nil =>
    intro h
    cases h
  | cons poll polls ih =>
    rw [awaitChild]
    split
    · exact returned_ne_panicked _
    · exact returned_ne_panicked _
    · split
      · exact returned_ne_panicked _
      · exact ih

theorem runUntil_ne_panicked_iff (exited : Poll → Nat → Result α) (expired : Poll → Result α)
    (greatest start timeout : Nat) (polls : List Poll) :
    runUntil exited expired greatest start timeout polls ≠ .panicked ↔ start + timeout ≤ greatest := by
  rw [runUntil, addDuration]
  split
  · rename_i hnone
    have hover : ¬ start + timeout ≤ greatest := fun hle => by rw [if_pos hle] at hnone; cases hnone
    exact ⟨fun h => absurd rfl h, fun hle => absurd hle hover⟩
  · rename_i deadline hsome
    refine ⟨fun _ => ?_, fun _ => awaitChild_ne_panicked exited expired deadline polls⟩
    by_contra hover
    rw [if_neg hover] at hsome
    cases hsome

/-- The integers that a time limit may be written as, and what becomes of them. -/
theorem toU64_eq_some_iff {value : F64} {n : UInt64} :
    TaskSource.toU64 value = some n ↔
      ∃ k : Nat, value = .finite k ∧ 1 ≤ k ∧ k ≤ 2 ^ 64 ∧ n.toNat = min k (2 ^ 64 - 1) := by
  have hclamp : ∀ k : Nat, (UInt64.ofNat (min k (2 ^ 64 - 1))).toNat = min k (2 ^ 64 - 1) := by
    intro k
    exact UInt64.toNat_ofNat_of_lt' (lt_of_le_of_lt (min_le_right ..) (by decide))
  constructor
  · intro h
    cases value with
    | finite q =>
      obtain ⟨⟨hlow, hhigh, hden⟩, hn⟩ := Option.ite_none_right_eq_some.mp h
      have hq : (q.num.toNat : ℚ) = q := by
        have hnum : (0 : ℤ) ≤ q.num := Rat.num_nonneg.mpr (zero_le_one.trans hlow)
        have hcast : ((q.num.toNat : ℤ) : ℚ) = q.num := by rw [Int.toNat_of_nonneg hnum]
        rw [← Int.cast_natCast, hcast, Rat.coe_int_num_of_den_eq_one hden]
      refine ⟨q.num.toNat, by rw [hq], ?_, ?_, ?_⟩
      · rw [← hq] at hlow
        exact_mod_cast hlow
      · rw [← hq] at hhigh
        exact_mod_cast hhigh
      · rw [← Option.some.inj hn, hclamp]
    | _ => cases h
  · rintro ⟨k, rfl, hlow, hhigh, hn⟩
    have hrange : (1 : ℚ) ≤ k ∧ (k : ℚ) ≤ 2 ^ 64 ∧ (k : ℚ).den = 1 :=
      ⟨by exact_mod_cast hlow, by exact_mod_cast hhigh, Rat.den_natCast k⟩
    refine Option.ite_none_right_eq_some.mpr ⟨hrange, congrArg some (UInt64.toNat_inj.mp ?_)⟩
    rw [Rat.num_natCast, Int.toNat_natCast, hclamp, hn]

/-- A Task that `load_local` accepts. -/
abbrev LoadedTask := {task : TaskInfo //
  ∃ loader files, TaskSource.loadLocal loader files = .ok task}

/-- The time limit of the three paths: `Duration::from_secs(task.candidate_timeout_sec)`. -/
def LoadedTask.timeout (task : LoadedTask) : Nat := task.1.candidateTimeoutSec.toNat

theorem LoadedTask.exists_timeout (task : LoadedTask) :
    ∃ judge limit, TaskSource.optionalPositiveInteger judge "solution_timeout_sec" = .ok limit ∧
      task.timeout = (limit.getD 300).toNat := by
  obtain ⟨task, loader, files, h⟩ := task
  simp only [TaskSource.loadLocal, Result.bind_ok_iff, Result.pure_ok_iff] at h
  obtain ⟨_, _, _, _, header, hheader, _, _, _, _, _, _, _, _, _, _, _, _, _, _, _, _, _, _,
    rfl⟩ := h
  simp only [TaskSource.loadHeader, Result.bind_ok_iff, Result.pure_ok_iff] at hheader
  obtain ⟨_, _, _, _, _, _, _, _, judge, _, _, _, limit, hlimit, _, _, _, _, _, _, _, _, _, _, _,
    _, _, _, rfl⟩ := hheader
  exact ⟨judge, limit, hlimit, rfl⟩

theorem LoadedTask.timeout_pos (task : LoadedTask) : 1 ≤ task.timeout := by
  obtain ⟨judge, limit, hlimit, htimeout⟩ := task.exists_timeout
  rw [htimeout]
  cases limit with
  | none => decide
  | some n =>
    rw [TaskSource.optionalPositiveInteger] at hlimit
    split at hlimit
    · cases hlimit
    · obtain ⟨number, hnumber, hn⟩ := Result.bind_ok_iff.mp hlimit
      cases hn
      obtain ⟨value, -, hvalue⟩ := Option.bind_eq_some_iff.mp (Result.okOr_ok_iff.mp hnumber)
      obtain ⟨k, -, hlow, -, hclamp⟩ := toU64_eq_some_iff.mp hvalue
      rw [Option.getD_some, hclamp]
      exact le_min hlow (by decide)

/-- None of the three paths panics, whatever the child and the clock do. -/
def NeverPanics (greatest start : Nat) (task : LoadedTask) : Prop :=
  ∀ polls : List Poll,
    outputWithTimeout greatest start task.timeout polls ≠ .panicked ∧
      outputWithTimeoutLimits greatest start task.timeout polls ≠ .panicked ∧
      ∀ (model : Type) (finish : Nat → Result model),
        executeA3sCode greatest start finish task.timeout polls ≠ .panicked

/-- The paths are safe up to the greatest instant, which no check keeps the limit below. -/
theorem neverPanics_iff (greatest start : Nat) (task : LoadedTask) :
    NeverPanics greatest start task ↔ start + task.timeout ≤ greatest := by
  constructor
  · intro h
    exact (runUntil_ne_panicked_iff ..).mp (h []).1
  · intro hle polls
    exact ⟨(runUntil_ne_panicked_iff ..).mpr hle, (runUntil_ne_panicked_iff ..).mpr hle,
      fun _ _ => (runUntil_ne_panicked_iff ..).mpr hle⟩

/-! ### A Task with the greatest limit -/

def farFiles : TaskSource.TaskFiles :=
  { document := .ok ⟨[.mk "bench" ["t"]
      [("schema", .string "a3s-bench/task/v1"), ("version", .string "1"), ("name", .string "T"),
        ("category", .string "c")]
      [.mk "work" [] [] [.mk "image" [] [("ref", .string "alpine")] []],
        .mk "judge" []
          [("asset", .string "oci://j"), ("solution_timeout_sec", .number "18446744073709551616")] [],
        .mk "metric" ["m"]
          [("role", .string "primary"), ("min", .number "0"), ("max", .number "1")] []]]⟩
    legacyJudge := .ok none
    hasAssetAcl := fun _ => false }

def farTask : TaskInfo := { Lock.sampleTask with candidateTimeoutSec := 18446744073709551615 }

/-- Instants of 63 bits, as on Unix, and of 64 bits. -/
theorem far_deadline_panics :
    (¬∀ (task : LoadedTask) (start : Nat), start ≤ 2 ^ 63 - 1 →
        NeverPanics (2 ^ 63 - 1) start task) ∧
      ¬∀ (task : LoadedTask) (start : Nat), start ≤ 2 ^ 64 - 1 →
        NeverPanics (2 ^ 64 - 1) start task := by
  have hload : TaskSource.loadLocal Workspace.sampleLoader farFiles = .ok farTask := by
    decide +kernel
  have hover : ¬ 1 + farTask.candidateTimeoutSec.toNat ≤ 2 ^ 64 - 1 := by decide
  constructor
  · intro hclaim
    have hsafe := hclaim ⟨farTask, _, _, hload⟩ 1 (by decide)
    have hle := (runUntil_ne_panicked_iff ..).mp (hsafe []).1
    exact hover (hle.trans (by decide))
  · intro hclaim
    have hsafe := hclaim ⟨farTask, _, _, hload⟩ 1 (by decide)
    exact hover ((runUntil_ne_panicked_iff ..).mp (hsafe []).1)

end A3sBench.CandidateDeadline
