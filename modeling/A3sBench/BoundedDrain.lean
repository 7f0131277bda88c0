import A3sBench.FileTree
import A3sBench.Library.Feed
import A3sBench.Result

/-!
# The bounded drains

`drain_bounded` keeps the output of a Codex process, `read_bounded_stderr` that
of the two ends of an archive pipeline. Both read on past their limit, so that
the process at the other end is never blocked.
-/

namespace A3sBench.BoundedDrain

open Library

/-- The buffer of `drain_bounded`. -/
def drainBuffer : Nat := 64 * 1024

/-- The buffer of `read_bounded_stderr`. -/
def stderrBuffer : Nat := 8 * 1024

structure BoundedCapture where
  bytes : Bytes
  truncated : Bool
  deriving DecidableEq

structure BoundedStderr where
  bytes : Bytes
  truncated : Bool
  deriving DecidableEq

/-- The body of the loop of `drain_bounded`. -/
def drainPiece (limit : Nat) (capture : BoundedCapture) (piece : Bytes) : BoundedCapture :=
  if capture.bytes.length < limit then
    let keep := min (limit - capture.bytes.length) piece.length
    { bytes := capture.bytes ++ piece.take keep
      truncated := capture.truncated || decide (keep < piece.length) }
  else { capture with truncated := true }

def drainBounded (reader : Feed Byte drainBuffer) (limit : Nat) :
    Result BoundedCapture × Feed Byte drainBuffer :=
  reader.drain (drainPiece limit) { bytes := [], truncated := false }

/-- The body of the loop of `read_bounded_stderr`. -/
def stderrPiece (limit : Nat) (output : BoundedStderr) (piece : Bytes) : BoundedStderr :=
  let retained := min (limit - output.bytes.length) piece.length
  { bytes := output.bytes ++ piece.take retained
    truncated := output.truncated || decide (retained < piece.length) }

def readBoundedStderr (stderr : Feed Byte stderrBuffer) (limit : Nat) :
    Result BoundedStderr × Feed Byte stderrBuffer :=
  stderr.drain (stderrPiece limit) { bytes := [], truncated := false }

/-- The bytes and the flag kept of everything read so far. -/
structure Retained (limit : Nat) (seen bytes : Bytes) (truncated : Bool) : Prop where
  bytes : bytes = seen.take limit
  truncated : truncated = decide (limit < seen.length)

theorem retained_nil (limit : Nat) : Retained limit [] [] false where
  bytes := List.take_nil.symm
  truncated := (decide_eq_false (Nat.not_lt_zero limit)).symm

/-- The next piece is kept as far as the limit allows. -/
theorem Retained.append {limit : Nat} {seen bytes : Bytes} {truncated : Bool}
    (h : Retained limit seen bytes truncated) (piece : Bytes) :
    Retained limit (seen ++ piece)
      (bytes ++ piece.take (min (limit - bytes.length) piece.length))
      (truncated || decide (min (limit - bytes.length) piece.length < piece.length)) where
  bytes := by
    rw [h.bytes]
    exact take_append_take_min limit seen piece
  truncated := by
    have hlength : bytes.length = min limit seen.length := by rw [h.bytes, List.length_take]
    rw [h.truncated, hlength, ← Bool.decide_or, decide_eq_decide, List.length_append]
    omega

/-- Once the limit is reached, any further piece is cut off. -/
theorem Retained.past {limit : Nat} {seen bytes piece : Bytes} {truncated : Bool}
    (h : Retained limit seen bytes truncated) (hfull : limit ≤ bytes.length) (hpiece : piece ≠ []) :
    Retained limit (seen ++ piece) bytes true where
  bytes := by
    have hlength : limit ≤ seen.length := by
      rw [h.bytes, List.length_take] at hfull
      omega
    rw [h.bytes, List.take_append_of_le_length hlength]
  truncated := by
    rw [h.bytes, List.length_take] at hfull
    have hpos := List.length_pos_of_ne_nil hpiece
    rw [eq_comm, decide_eq_true_eq, List.length_append]
    omega

theorem retained_drainPiece {limit : Nat} {seen : Bytes} {capture : BoundedCapture}
    {piece : Bytes} (hpiece : piece ≠ []) (h : Retained limit seen capture.bytes capture.truncated) :
    Retained limit (seen ++ piece) (drainPiece limit capture piece).bytes
      (drainPiece limit capture piece).truncated := by
  unfold drainPiece
  split_ifs with hroom
  · exact h.append piece
  · exact h.past (Nat.le_of_not_lt hroom) hpiece

/-- What is asked of a drain of a stream. -/
structure Exact (limit : Nat) (stream bytes : Bytes) (truncated : Bool) : Prop where
  kept : bytes = stream.take (min limit stream.length)
  flag : truncated = true ↔ limit < stream.length

theorem Retained.exact {limit : Nat} {stream bytes : Bytes} {truncated : Bool}
    (h : Retained limit stream bytes truncated) : Exact limit stream bytes truncated where
  kept := by rw [h.bytes, ← List.take_eq_take_min]
  flag := by rw [h.truncated, decide_eq_true_eq]

theorem drainBounded_retained (reader : Feed Byte drainBuffer) (limit : Nat) :
    ∃ capture, Retained limit reader.stream capture.bytes capture.truncated ∧
      drainBounded reader limit = (reader.ending.map (fun _ => capture), .done) :=
  Feed.drain_invariant
    (I := fun seen (capture : BoundedCapture) => Retained limit seen capture.bytes capture.truncated)
    (fun _ _ _ hpiece h => retained_drainPiece hpiece h) (retained_nil limit) reader

theorem readBoundedStderr_retained (stderr : Feed Byte stderrBuffer) (limit : Nat) :
    ∃ output, Retained limit stderr.stream output.bytes output.truncated ∧
      readBoundedStderr stderr limit = (stderr.ending.map (fun _ => output), .done) :=
  Feed.drain_invariant
    (I := fun seen (output : BoundedStderr) => Retained limit seen output.bytes output.truncated)
    (fun _ _ piece _ h => h.append piece) (retained_nil limit) stderr

/-- Two drains of one stream, cut into reads in any two ways, read to its end
and keep the same. -/
structure Agree (limit : Nat) (reader : Feed Byte drainBuffer) (stderr : Feed Byte stderrBuffer)
    (capture : BoundedCapture) (output : BoundedStderr) : Prop where
  drained : drainBounded reader limit = (reader.ending.map (fun _ => capture), .done)
  read : readBoundedStderr stderr limit = (reader.ending.map (fun _ => output), .done)
  drainExact : Exact limit reader.stream capture.bytes capture.truncated
  readExact : Exact limit reader.stream output.bytes output.truncated
  bytes : capture.bytes = output.bytes
  truncated : capture.truncated = output.truncated

theorem bounded_drains_agree {reader : Feed Byte drainBuffer} {stderr : Feed Byte stderrBuffer}
    (hstream : stderr.stream = reader.stream) (hending : stderr.ending = reader.ending)
    (limit : Nat) : ∃ capture output, Agree limit reader stderr capture output := by
  obtain ⟨capture, hcapture, hdrained⟩ := drainBounded_retained reader limit
  obtain ⟨output, houtput, hread⟩ := readBoundedStderr_retained stderr limit
  rw [hstream] at houtput
  rw [hending] at hread
  exact ⟨capture, output,
    { drained := hdrained
      read := hread
      drainExact := hcapture.exact
      readExact := houtput.exact
      bytes := hcapture.bytes.trans houtput.bytes.symm
      truncated := hcapture.truncated.trans houtput.truncated.symm }⟩

/-- Five bytes, read at once by the one drain and in two reads by the other. -/
theorem bounded_drains_agree_sample : ∃ capture output, Agree 4
    (.piece [1, 2, 3, 4, 5] (by decide) (by decide) .done)
    (.piece [1, 2] (by decide) (by decide) (.piece [3, 4, 5] (by decide) (by decide) .done))
    capture output :=
  bounded_drains_agree rfl rfl 4

end A3sBench.BoundedDrain
