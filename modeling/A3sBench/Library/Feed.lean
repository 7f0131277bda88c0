import Mathlib

/-!
# Streams that arrive in pieces

A feed is one way in which the reads of a stream return it: pieces that are not
empty and fit the buffer, then the end of the stream or an error. What a loop
over the reads computes is stated of the stream alone.
-/

namespace A3sBench.Library

universe u v

/-- The reads still to come, into a buffer of the given length. -/
inductive Feed (α : Type u) (buffer : Nat) where
  | done
  | fault (error : String)
  | piece (bytes : List α) (nonempty : bytes ≠ []) (fits : bytes.length ≤ buffer)
      (rest : Feed α buffer)

namespace Feed

variable {α : Type u} {β : Type v} {buffer : Nat}

/-- What all the reads return, one after the other. -/
def stream : Feed α buffer → List α
  | .done => []
  | .fault _ => []
  | .piece bytes _ _ rest => bytes ++ rest.stream

/-- What comes after the last piece. -/
def ending : Feed α buffer → Except String Unit
  | .done => .ok ()
  | .fault error => .error error
  | .piece _ _ _ rest => rest.ending

/-- The length of each piece. -/
def lengths : Feed α buffer → List Nat
  | .done => []
  | .fault _ => []
  | .piece bytes _ _ rest => bytes.length :: rest.lengths

theorem sum_lengths (feed : Feed α buffer) : feed.lengths.sum = feed.stream.length := by
  induction feed with
  | done => rfl
  | fault error => rfl
  | piece bytes nonempty fits rest ih => simp [lengths, stream, ih]

/-- A loop that reads until nothing is left, with its body and the reads that
are left when it returns. -/
def drain (body : β → List α → β) : β → Feed α buffer → Except String β × Feed α buffer
  | b, .done => (.ok b, .done)
  | _, .fault error => (.error error, .done)
  | b, .piece bytes _ _ rest => drain body (body b bytes) rest

theorem drain_from {f : β → List α → β} {I : List α → β → Prop}
    (hstep : ∀ seen b piece, piece ≠ [] → I seen b → I (seen ++ piece) (f b piece))
    {seen : List α} {b : β} (h : I seen b) (feed : Feed α buffer) :
    ∃ c, I (seen ++ feed.stream) c ∧
      drain f b feed = (feed.ending.map (fun _ => c), .done) := by
  induction feed generalizing seen b with
  | done => exact ⟨b, by rwa [stream, List.append_nil], rfl⟩
  | fault error => exact ⟨b, by rwa [stream, List.append_nil], rfl⟩
  | piece bytes nonempty fits rest ih =>
    obtain ⟨c, hc, hdrain⟩ := ih (hstep seen b bytes nonempty h)
    refine ⟨c, ?_, hdrain⟩
    rwa [List.append_assoc] at hc

/-- What the body keeps of everything read so far holds of the whole stream
when the loop returns. -/
theorem drain_invariant {f : β → List α → β} {I : List α → β → Prop}
    (hstep : ∀ seen b piece, piece ≠ [] → I seen b → I (seen ++ piece) (f b piece))
    {b : β} (h : I [] b) (feed : Feed α buffer) :
    ∃ c, I feed.stream c ∧ drain f b feed = (feed.ending.map (fun _ => c), .done) :=
  drain_from hstep h feed

end Feed

/-- The first elements up to a limit, of a stream and of what follows it. -/
theorem take_append_take_min {α : Type u} (limit : Nat) (seen piece : List α) :
    seen.take limit ++ piece.take (min (limit - (seen.take limit).length) piece.length) =
      (seen ++ piece).take limit := by
  rw [List.take_append, List.length_take, List.take_eq_take_min (l := piece) (i := limit - seen.length)]
  congr 2
  omega

end A3sBench.Library
