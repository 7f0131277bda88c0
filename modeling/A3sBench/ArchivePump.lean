import A3sBench.ArchivePipelineRuns
import A3sBench.FileTree
import A3sBench.Library.Feed

/-!
# The bytes of the archive pump

`pump_archive` with the bytes it moves: what it reads, what it writes and what
it returns, for every way the archive is cut into reads. One turn of it is the
turn of the pipeline on the lengths of the reads.
-/

namespace A3sBench.ArchivePipeline

open Library

/-- What a turn of the loop meets besides its read. -/
structure PumpTurn where
  /-- `Instant::now() >= deadline`. -/
  expired : Bool
  /-- How many bytes `write_all` gets out before it fails, and the error of it or of `flush`. -/
  fault : Option (Nat × String)

structure Pumped where
  written : Bytes
  /-- How many bytes were read. -/
  consumed : Nat
  result : Except ArchivePumpError Nat

def Pumped.failed (error : ArchivePumpError) : Pumped :=
  { written := [], consumed := 0, result := .error error }

/-- The loop of `pump_archive`, from a turn on. -/
def pumpFrom (maxBytes : Nat) (turns : Nat → PumpTurn) :
    Nat → Nat → Feed Byte bufferLength → Pumped
  | turn, transferred, .done =>
    if (turns turn).expired then .failed .deadline
    else
      match (turns turn).fault with
      | some (_, error) => .failed (.io error)
      | none => { written := [], consumed := 0, result := .ok transferred }
  | turn, _, .fault error =>
    if (turns turn).expired then .failed .deadline else .failed (.io error)
  | turn, transferred, .piece bytes _ _ rest =>
    if (turns turn).expired then .failed .deadline
    else
      let count := bytes.length
      let next := transferred + count
      if u64Max < next then
        { written := [], consumed := count, result := .error (.limit maxBytes u64Max) }
      else if maxBytes < next then
        { written := [], consumed := count, result := .error (.limit maxBytes next) }
      else
        match (turns turn).fault with
        | some (out, error) =>
          { written := bytes.take out, consumed := count, result := .error (.io error) }
        | none =>
          let after := pumpFrom maxBytes turns (turn + 1) next rest
          { after with written := bytes ++ after.written, consumed := count + after.consumed }

/-- `pump_archive`. -/
def pump (maxBytes : Nat) (turns : Nat → PumpTurn) (source : Feed Byte bufferLength) : Pumped :=
  pumpFrom maxBytes turns 0 0 source

section Turn

variable {maxBytes turn transferred : Nat} {turns : Nat → PumpTurn}

/-- The error of the next read. -/
def readFault : Feed Byte bufferLength → Option String
  | .fault error => some error
  | _ => none

/-- One turn of the loop is the turn of the pipeline on the lengths of the reads. -/
theorem pumpFrom_turn (feed : Feed Byte bufferLength) :
    match pumpArchive maxBytes (turns turn).expired (readFault feed)
      ((turns turn).fault.map Prod.snd) transferred feed.lengths with
    | .running next reads => ∃ bytes nonempty fits rest, feed = .piece bytes nonempty fits rest ∧
        reads = rest.lengths ∧ (pumpFrom maxBytes turns turn transferred feed).result =
          (pumpFrom maxBytes turns (turn + 1) next rest).result
    | .stopped result => (pumpFrom maxBytes turns turn transferred feed).result = result
    | _ => False := by
  cases feed with
  | done =>
    simp only [pumpArchive, readFault, Feed.lengths, pumpFrom]
    cases (turns turn).expired <;> cases (turns turn).fault <;> rfl
  | fault error =>
    simp only [pumpArchive, readFault, pumpFrom]
    cases (turns turn).expired <;> rfl
  | piece bytes nonempty fits rest =>
    simp only [pumpArchive, readFault, Feed.lengths, pumpFrom]
    cases (turns turn).expired with
    | true => rfl
    | false =>
      simp only [Bool.false_eq_true, if_false]
      by_cases hword : u64Max < transferred + bytes.length
      · simp only [if_pos hword]
      · by_cases hlimit : maxBytes < transferred + bytes.length
        · simp only [if_neg hword, if_pos hlimit]
        · simp only [if_neg hword, if_neg hlimit]
          cases (turns turn).fault with
          | some fault => rfl
          | none => exact ⟨bytes, nonempty, fits, rest, rfl, rfl, rfl⟩

end Turn

/-- What holds of the pump from a turn on, whatever it meets. -/
structure Accounted (maxBytes transferred : Nat) (stream : Bytes) (p : Pumped) : Prop where
  written : p.written <+: stream
  within : transferred + p.written.length ≤ maxBytes
  ok : ∀ n, p.result = .ok n → p.written = stream ∧ n = transferred + stream.length
  limit : ∀ l consumed, p.result = .error (.limit l consumed) →
    l = maxBytes ∧ consumed = min u64Max (transferred + p.consumed) ∧
      maxBytes < transferred + p.consumed
  read : transferred + p.consumed ≤ maxBytes + bufferLength
  consumed : p.consumed ≤ stream.length

theorem accounted_failed {maxBytes transferred : Nat} {error : ArchivePumpError} (stream : Bytes)
    (h : transferred ≤ maxBytes) (herror : ∀ l consumed, error ≠ .limit l consumed) :
    Accounted maxBytes transferred stream (.failed error) where
  written := List.nil_prefix
  within := h
  ok _ hok := by cases hok
  limit l consumed hlimit := absurd (Except.error.inj hlimit) (herror l consumed)
  read := h.trans (Nat.le_add_right _ _)
  consumed := Nat.zero_le _

/-- A turn that passes its piece on. -/
theorem Accounted.piece {maxBytes transferred : Nat} {bytes stream : Bytes} {p : Pumped}
    (h : Accounted maxBytes (transferred + bytes.length) stream p) :
    Accounted maxBytes transferred (bytes ++ stream)
      { p with written := bytes ++ p.written, consumed := bytes.length + p.consumed } where
  written := (List.prefix_append_right_inj bytes).mpr h.written
  within := by
    have hwithin := h.within
    rw [List.length_append]
    omega
  ok n hok := by
    obtain ⟨hwritten, rfl⟩ := h.ok n hok
    exact ⟨congrArg (bytes ++ ·) hwritten, by rw [List.length_append]; omega⟩
  limit l consumed hlimit := by
    obtain ⟨rfl, rfl, hover⟩ := h.limit l consumed hlimit
    exact ⟨rfl, by rw [Nat.add_assoc], by rwa [Nat.add_assoc] at hover⟩
  read := by
    have hread := h.read
    rwa [Nat.add_assoc] at hread
  consumed := by
    rw [List.length_append]
    exact Nat.add_le_add_left h.consumed _

/-- By induction on the reads: what was passed on so far never exceeds the limit. -/
theorem accounted_pumpFrom {maxBytes : Nat} (hword : maxBytes ≤ u64Max) (turns : Nat → PumpTurn)
    (feed : Feed Byte bufferLength) (turn transferred : Nat) (h : transferred ≤ maxBytes) :
    Accounted maxBytes transferred feed.stream (pumpFrom maxBytes turns turn transferred feed) := by
  induction feed generalizing turn transferred with
  | done =>
    simp only [pumpFrom]
    split_ifs
    · exact accounted_failed _ h (by simp)
    · split
      · exact accounted_failed _ h (by simp)
      · exact
          { written := List.nil_prefix
            within := h
            ok := fun n hok => ⟨rfl, (Except.ok.inj hok).symm⟩
            limit := fun _ _ hlimit => by cases hlimit
            read := h.trans (Nat.le_add_right _ _)
            consumed := Nat.le_refl _ }
  | fault error =>
    simp only [pumpFrom]
    split_ifs
    · exact accounted_failed _ h (by simp)
    · exact accounted_failed _ h (by simp)
  | piece bytes nonempty fits rest ih =>
    have hread : transferred + bytes.length ≤ maxBytes + bufferLength := by omega
    have hconsumed : bytes.length ≤ (Feed.piece bytes nonempty fits rest).stream.length := by
      rw [Feed.stream, List.length_append]
      omega
    simp only [pumpFrom]
    split_ifs with hexpired hcarry hlimit
    · exact accounted_failed _ h (by simp)
    · refine ⟨List.nil_prefix, h, fun _ hok => ?_, fun l consumed hl => ?_, hread, hconsumed⟩
      · cases hok
      · cases hl
        exact ⟨rfl, (Nat.min_eq_left hcarry.le).symm, hword.trans_lt hcarry⟩
    · refine ⟨List.nil_prefix, h, fun _ hok => ?_, fun l consumed hl => ?_, hread, hconsumed⟩
      · cases hok
      · cases hl
        exact ⟨rfl, (Nat.min_eq_right (Nat.le_of_not_lt hcarry)).symm, hlimit⟩
    · split
      · rename_i out error _
        exact
          { written := (List.take_prefix out bytes).trans (List.prefix_append _ _)
            within := by
              have hout := List.length_take_le' out bytes
              dsimp only
              omega
            ok := fun _ hok => by cases hok
            limit := fun _ _ hl => by cases hl
            read := hread
            consumed := hconsumed }
      · exact (ih (turn + 1) (transferred + bytes.length) (Nat.le_of_not_lt hlimit)).piece

/-- The deadline is not reached, and neither end fails. -/
structure Quiet (turns : Nat → PumpTurn) (source : Feed Byte bufferLength) : Prop where
  turns : ∀ turn, turns turn = { expired := false, fault := none }
  ending : source.ending = .ok ()

/-- Undisturbed, the pump ends in one of two ways. -/
theorem pumpFrom_quiet {maxBytes : Nat} {turns : Nat → PumpTurn} {feed : Feed Byte bufferLength}
    (h : Quiet turns feed) (turn transferred : Nat) :
    (pumpFrom maxBytes turns turn transferred feed).result =
        .ok (transferred + feed.stream.length) ∨
      ∃ consumed, (pumpFrom maxBytes turns turn transferred feed).result =
        .error (.limit maxBytes consumed) := by
  induction feed generalizing turn transferred with
  | done => simp [pumpFrom, h.turns, Feed.stream]
  | fault error => cases h.ending
  | piece bytes nonempty fits rest ih =>
    simp only [pumpFrom, h.turns, Bool.false_eq_true, if_false]
    split_ifs with hcarry hlimit
    · exact .inr ⟨u64Max, rfl⟩
    · exact .inr ⟨transferred + bytes.length, rfl⟩
    · have hrest := ih ⟨h.turns, h.ending⟩ (turn + 1) (transferred + bytes.length)
      rwa [Feed.stream, List.length_append, ← Nat.add_assoc]

/-- What is asked of `pump_archive` on a stream, however it is read. -/
structure PumpExact (maxBytes : Nat) (turns : Nat → PumpTurn) (source : Feed Byte bufferLength) :
    Prop where
  written : (pump maxBytes turns source).written <+: source.stream
  within : (pump maxBytes turns source).written.length ≤ maxBytes
  returned : ∀ n, (pump maxBytes turns source).result = .ok n →
    n = source.stream.length ∧ n ≤ maxBytes ∧ (pump maxBytes turns source).written = source.stream
  fits : Quiet turns source → source.stream.length ≤ maxBytes →
    (pump maxBytes turns source).result = .ok source.stream.length
  oversized : Quiet turns source → maxBytes < source.stream.length →
    maxBytes < (pump maxBytes turns source).consumed ∧
      (pump maxBytes turns source).consumed ≤ maxBytes + bufferLength ∧
      (pump maxBytes turns source).result =
        .error (.limit maxBytes (min u64Max (pump maxBytes turns source).consumed))

theorem pump_exact {maxBytes : Nat} (hword : maxBytes ≤ u64Max) (turns : Nat → PumpTurn)
    (source : Feed Byte bufferLength) : PumpExact maxBytes turns source := by
  have haccounted := accounted_pumpFrom hword turns source 0 0 (Nat.zero_le maxBytes)
  have hwithin : (pump maxBytes turns source).written.length ≤ maxBytes := by
    have h := haccounted.within
    rwa [Nat.zero_add] at h
  have hreturned : ∀ n, (pump maxBytes turns source).result = .ok n →
      n = source.stream.length ∧ n ≤ maxBytes ∧
        (pump maxBytes turns source).written = source.stream := by
    intro n hok
    obtain ⟨hwritten, hn⟩ := haccounted.ok n hok
    rw [Nat.zero_add] at hn
    refine ⟨hn, ?_, hwritten⟩
    rw [hn, ← hwritten]
    exact hwithin
  refine ⟨haccounted.written, hwithin, hreturned, fun hquiet hfits => ?_, fun hquiet hover => ?_⟩
  · rcases pumpFrom_quiet hquiet 0 0 with hok | ⟨consumed, hlimit⟩
    · rwa [Nat.zero_add] at hok
    · obtain ⟨-, -, hmore⟩ := haccounted.limit maxBytes consumed hlimit
      have hconsumed := haccounted.consumed
      omega
  · rcases pumpFrom_quiet hquiet 0 0 with hok | ⟨consumed, hlimit⟩
    · rw [Nat.zero_add] at hok
      obtain ⟨-, hle, -⟩ := hreturned _ hok
      omega
    · obtain ⟨-, rfl, hmore⟩ := haccounted.limit maxBytes consumed hlimit
      have hread := haccounted.read
      rw [Nat.zero_add] at hlimit hmore hread
      exact ⟨hmore, hread, hlimit⟩

end A3sBench.ArchivePipeline
