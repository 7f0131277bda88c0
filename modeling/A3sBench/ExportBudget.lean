import A3sBench.ArchiveBudget
import A3sBench.ArchivePump
import A3sBench.Library.Action
import A3sBench.Submission

/-!
# The transfer budget of an export

`export_selected_container_files` copies one file after the other through the
archive pipeline, each with what is left of a fixed budget. The invariant of its
loop is that what is left and what was read make up the budget.
-/

namespace A3sBench.ArchivePipeline

open Library Library.System Library.Action Submission

def containerTreeExportMaxBytes : Nat := 32 * 1024 * 1024 * 1024

def containerFileTarOverhead : Nat := 1024 * 1024

/-- What `extract_container_file` may do under a cap: fail before the pump is
started, or run the pipeline on one of its schedules. -/
inductive Extraction (cap : Nat) where
  | unstarted (text : String)
  | ran (c : Config) (reads : List Nat) (history : List (State × Event)) (final : State)
      (result : Except Failure Nat) (capped : c.maxBytes = cap)
      (bounded : ∀ n ∈ reads, n ≤ bufferLength) (run : Run (pipelineSystem c reads) history final)
      (returned : final.monitor = .returned result)

def Extraction.result {cap : Nat} : Extraction cap → Except Failure Nat
  | .unstarted text => .error (.message text)
  | .ran _ _ _ _ result _ _ _ _ => result

/-- The bytes read from the archive. -/
def Extraction.transferred {cap : Nat} : Extraction cap → Nat
  | .unstarted _ => 0
  | .ran _ _ history _ _ _ _ _ _ => bytesRead history

/-- What the loop meets at one candidate. -/
structure FileAttempt where
  /-- The candidate, relative to the workspace. -/
  relative : Path
  /-- `deadline.checked_duration_since(Instant::now())`. -/
  timeLeft : Option Nat
  /-- `replace_directory` and `secure_directory` of the probe. -/
  reset : Result Unit
  secured : Result Unit
  extraction : (cap : Nat) → Extraction cap
  /-- `only_regular_file`, and what `metadata` of it says. -/
  onlyFile : Result FileData
  inspected : Result Unit
  /-- `secure_directory` of the parent of the target, and the rename to it. -/
  parent : Result Unit
  renamed : Result Unit
  display : String

/-- What the loop carries, the staging directory, and the bytes that were read
altogether. -/
structure ExportState where
  remaining : Nat
  limits : TerminalLimits
  staging : Directory
  transferred : Nat

abbrev Export := Action ExportState Failure

def ExportState.start : ExportState where
  remaining := containerTreeExportMaxBytes
  limits := { selected := 0, total := 0 }
  staging := .empty
  transferred := 0

/-- A step that leaves the state alone. -/
def told {α : Type} (x : Result α) : Export α := Action.lift (x.mapError .message)

section Loop

variable (policy : SubmissionPolicy)

def policyCap : Nat := min u64Max (policy.maxFileBytes.toNat + containerFileTarOverhead)

def copyCap (s : ExportState) : Nat := min s.remaining (policyCap policy)

/-- The checks before the copy of a file. -/
def prepare (attempt : FileAttempt) : Result Unit := do
  let timeLeft ← okOr attempt.timeLeft "workspace OCI export exceeded its fixed deadline"
  ensure (timeLeft ≠ 0) "workspace OCI export exceeded its fixed deadline"
  context "could not reset workspace export probe" attempt.reset
  context "could not secure workspace export probe" attempt.secured

/-- The copy of a file, and whether there is one to select. -/
def transfer (attempt : FileAttempt) : Export Bool := fun s =>
  if s.remaining = 0 then
    (s, .error (.message "workspace archive exceeded its fixed cumulative transfer limit"))
  else
    let extraction := attempt.extraction (copyCap policy s)
    let transferred := s.transferred + extraction.transferred
    match afterExtraction s.remaining (copyCap policy s) (policyCap policy) extraction.result with
    | .ok (remaining, extracted) =>
      ({ s with remaining := remaining, transferred := transferred }, .ok extracted)
    | .error error => ({ s with transferred := transferred }, .error error)

def select (size : Nat) : Export Bool := fun s =>
  match s.limits.select policy size with
  | some limits => ({ s with limits := limits }, .ok true)
  | none => (s, .ok false)

/-- The rename into the staging directory. -/
def place (relative : Path) (file : FileData) : Export Unit := fun s =>
  ({ s with staging := s.staging.insertFile file relative }, .ok ())

/-- What becomes of a file that was copied. -/
def retain (attempt : FileAttempt) : Export Unit := do
  let file ← told (context "could not validate workspace export probe" attempt.onlyFile)
  told (context "could not inspect exported terminal file" attempt.inspected)
  let selected ← select policy file.content.length
  if selected then
    told (context "could not secure exported terminal file parent" attempt.parent)
    told (context ("could not retain exported submission file " ++ attempt.display)
      attempt.renamed)
    place attempt.relative file

def exportFile (attempt : FileAttempt) : Export Unit := do
  told (prepare attempt)
  let extracted ← transfer policy attempt
  if extracted then retain policy attempt

/-- The loop over the candidates. -/
def exportFiles : List FileAttempt → Export Unit
  | [] => pure ()
  | attempt :: rest => fun s =>
    if s.limits.isFull policy then (s, .ok ())
    else (do exportFile policy attempt; exportFiles rest) s

/-- `export_selected_container_files`: the probe is removed whatever happens. -/
def exportSelectedContainerFiles (probe : Result Unit) (attempts : List FileAttempt)
    (cleanup : Result Unit) : Export Unit := do
  told (context "could not create workspace export probe" probe)
  exportFiles policy attempts
  told (context "could not clean workspace export probe" cleanup)

end Loop

/-! ## The budget -/

/-- What an extraction tells counts the bytes it read. -/
theorem Extraction.counted {cap : Nat} (e : Extraction cap) :
    e.transferred ≤ cap + bufferLength ∧
      (∀ n, e.result = .ok n → n = e.transferred ∧ n ≤ cap) ∧
      ∀ l consumed, e.result = .error (.pump (.limit l consumed)) →
        consumed = min u64Max e.transferred := by
  cases e with
  | unstarted text =>
    exact ⟨Nat.zero_le _, fun n hn => (by cases hn), fun l consumed hl => (by cases hl)⟩
  | ran c reads history final result capped bounded run returned =>
    have hcounted := counted_of_run bounded run
    have hmonitor := hcounted.monitor
    rw [returned] at hmonitor
    refine ⟨capped ▸ hcounted.within, fun n hn => ?_, fun l consumed hl => ?_⟩
    · obtain rfl : result = .ok n := hn
      exact ⟨hmonitor.2.1, capped ▸ hmonitor.2.2⟩
    · obtain rfl : result = .error (.pump (.limit l consumed)) := hl
      exact hmonitor.2 l consumed rfl

/-- What is left and what was read make up the budget. -/
def Balanced (s : ExportState) : Prop := s.remaining + s.transferred = containerTreeExportMaxBytes

/-- At most one buffer is read beyond the budget. -/
def Bounded (s : ExportState) : Prop :=
  s.transferred ≤ containerTreeExportMaxBytes + bufferLength

theorem Balanced.bounded {s : ExportState} (h : Balanced s) : Bounded s := by
  unfold Balanced at h
  unfold Bounded
  omega

section Loop

variable {policy : SubmissionPolicy} {attempt : FileAttempt}

theorem afterExtraction_ok {remaining copyCap policyCap left : Nat} {extracted : Bool}
    {result : Except Failure Nat}
    (h : afterExtraction remaining copyCap policyCap result = .ok (left, extracted)) :
    ∃ n, left = remaining - n ∧ n ≤ remaining ∧
      (result = .ok n ∨ ∃ l, result = .error (.pump (.limit l n))) := by
  unfold afterExtraction at h
  split at h
  · rename_i n
    split_ifs at h with hle
    cases h
    exact ⟨n, rfl, hle, .inl rfl⟩
  · split_ifs at h
    split at h
    · rename_i l consumed
      split_ifs at h with hle
      cases h
      exact ⟨consumed, rfl, hle, .inr ⟨l, rfl⟩⟩
    · cases h

/-- One copy: its cap keeps it within the budget, and it takes off what it read. -/
theorem maintains_transfer : Maintains Balanced Bounded (transfer policy attempt) := by
  intro s hs
  have hbalance : s.remaining + s.transferred = containerTreeExportMaxBytes := hs
  obtain ⟨hread, hok, hlimit⟩ := (attempt.extraction (copyCap policy s)).counted
  have hcap : copyCap policy s ≤ s.remaining := Nat.min_le_left _ _
  have hbound : s.transferred + (attempt.extraction (copyCap policy s)).transferred ≤
      containerTreeExportMaxBytes + bufferLength := by omega
  unfold transfer
  split_ifs with hzero
  · exact ⟨hs.bounded, fun _ hb => by cases hb⟩
  · dsimp only
    split
    · rename_i left extracted hafter
      refine ⟨hbound, fun _ _ => ?_⟩
      obtain ⟨n, rfl, hle, hresult⟩ := afterExtraction_ok hafter
      have hn : n = (attempt.extraction (copyCap policy s)).transferred := by
        rcases hresult with hresult | ⟨l, hresult⟩
        · exact (hok n hresult).1
        · -- The caps are far from the end of a word, so the count is not cut off.
          have hword : containerTreeExportMaxBytes + bufferLength ≤ u64Max := by decide
          rw [hlimit l n hresult, Nat.min_eq_right (by omega)]
      unfold Balanced
      dsimp only
      omega
    · exact ⟨hbound, fun _ hb => by cases hb⟩

theorem maintains_told {α : Type} (x : Result α) : Maintains Balanced Bounded (told x) :=
  maintains_lift (fun _ => Balanced.bounded) _

theorem maintains_select (size : Nat) : Maintains Balanced Bounded (select policy size) := by
  intro s hs
  unfold select
  split
  · exact ⟨hs.bounded, fun _ _ => hs⟩
  · exact ⟨hs.bounded, fun _ _ => hs⟩

theorem maintains_place (relative : Path) (file : FileData) :
    Maintains Balanced Bounded (place relative file) :=
  fun _ hs => ⟨Balanced.bounded hs, fun _ _ => hs⟩

theorem maintains_retain : Maintains Balanced Bounded (retain policy attempt) := by
  refine (maintains_told _).bind fun file => (maintains_told _).bind fun _ => ?_
  refine (maintains_select _).bind fun selected => maintains_ite ?_ (maintains_told (.ok ()))
  exact (maintains_told _).bind fun _ => (maintains_told _).bind fun _ => maintains_place _ _

theorem maintains_exportFile : Maintains Balanced Bounded (exportFile policy attempt) := by
  refine (maintains_told _).bind fun _ => maintains_transfer.bind fun extracted => ?_
  exact maintains_ite maintains_retain (maintains_told (.ok ()))

/-- By induction on the candidates. -/
theorem maintains_exportFiles (policy : SubmissionPolicy) (attempts : List FileAttempt) :
    Maintains Balanced Bounded (exportFiles policy attempts) := by
  induction attempts with
  | nil => exact maintains_told (.ok ())
  | cons attempt rest ih =>
    intro s hs
    simp only [exportFiles]
    split_ifs
    · exact ⟨hs.bounded, fun _ _ => hs⟩
    · exact maintains_exportFile.bind (fun _ => ih) s hs

theorem balanced_start : Balanced .start := rfl

end Loop

/-- What is asked of the budget of an export: at every candidate that is reached
nothing was lost from it, and no copy takes off more than is left. -/
structure BudgetExact (policy : SubmissionPolicy) (probe : Result Unit)
    (attempts : List FileAttempt) (cleanup : Result Unit) : Prop where
  reached : ∀ before attempt after s, attempts = before ++ attempt :: after →
    exportFiles policy before .start = (s, .ok ()) →
    s.remaining + s.transferred = containerTreeExportMaxBytes ∧
      ∀ n, (attempt.extraction (copyCap policy s)).result = .ok n → n ≤ s.remaining
  within : (exportSelectedContainerFiles policy probe attempts cleanup .start).1.transferred ≤
    containerTreeExportMaxBytes + bufferLength

theorem budget_exact (policy : SubmissionPolicy) (probe : Result Unit)
    (attempts : List FileAttempt) (cleanup : Result Unit) :
    BudgetExact policy probe attempts cleanup where
  reached before attempt after s _ hbefore := by
    have hbalanced : Balanced s := by
      have h := (maintains_exportFiles policy before .start balanced_start).2
      rw [hbefore] at h
      exact h () rfl
    refine ⟨hbalanced, fun n hn => ?_⟩
    obtain ⟨-, hok, -⟩ := (attempt.extraction (copyCap policy s)).counted
    exact (hok n hn).2.trans (Nat.min_le_left _ _)
  within := by
    have h : Maintains Balanced Bounded
        (exportSelectedContainerFiles policy probe attempts cleanup) :=
      (maintains_told _).bind fun _ => (maintains_exportFiles policy attempts).bind fun _ =>
        maintains_told _
    exact (h .start balanced_start).1

/-- The pump is exact on every stream, and so the budget of every export is. -/
theorem transfers_exact :
    (∀ maxBytes ≤ u64Max, ∀ turns source, PumpExact maxBytes turns source) ∧
      ∀ policy probe attempts cleanup, BudgetExact policy probe attempts cleanup :=
  ⟨fun _ hword turns source => pump_exact hword turns source, budget_exact⟩

/-! ## A stream longer than a word can count -/

/-- So many full buffers of zeros. -/
def zeros : Nat → Feed Byte bufferLength
  | 0 => .done
  | n + 1 =>
    .piece (List.replicate bufferLength 0) (by rw [ne_eq, List.replicate_eq_nil_iff]; decide)
      (List.length_replicate).le (zeros n)

theorem length_zeros (n : Nat) : (zeros n).stream.length = n * bufferLength := by
  induction n with
  | zero => simp [zeros, Feed.stream]
  | succ n ih =>
    rw [zeros, Feed.stream, List.length_append, ih, List.length_replicate, Nat.succ_mul, Nat.add_comm]

theorem ending_zeros (n : Nat) : (zeros n).ending = .ok () := by
  induction n with
  | zero => rfl
  | succ n ih => exact ih

/-- The count saturates, so that at the greatest limit it does not exceed it. -/
theorem saturated_count : ¬ ∀ maxBytes ≤ u64Max, ∀ turns source, Quiet turns source →
    maxBytes < source.stream.length → ∃ consumed,
      (pump maxBytes turns source).result = .error (.limit maxBytes consumed) ∧
        maxBytes < consumed ∧ consumed ≤ maxBytes + bufferLength := by
  intro hclaim
  obtain ⟨n, hn⟩ : ∃ n, u64Max < n * bufferLength := ⟨2 ^ 48, by decide⟩
  have hover : u64Max < (zeros n).stream.length := hn.trans_eq (length_zeros n).symm
  have hquiet : Quiet (fun _ => { expired := false, fault := none }) (zeros n) :=
    ⟨fun _ => rfl, ending_zeros n⟩
  obtain ⟨consumed, hlimit, hgreater, -⟩ := hclaim u64Max le_rfl _ _ hquiet hover
  obtain ⟨-, -, hresult⟩ := (pump_exact le_rfl _ _).oversized hquiet hover
  rw [hresult] at hlimit
  cases hlimit
  exact absurd hgreater (Nat.not_lt.mpr (Nat.min_le_left _ _))

end A3sBench.ArchivePipeline
