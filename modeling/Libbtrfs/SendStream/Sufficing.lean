import Libbtrfs.SendStream.Receiving
import Libbtrfs.SendStream.Refinement

/-! Which bytes are enough for a receive to end by itself, without asking for more. -/

namespace Libbtrfs

/-- Why no frame can be taken behind the frames of an input. -/
def leftover (crc : Bytes → UInt32) (input : Bytes) : Failure :=
  match _ : takeFrame crc input with
  | .error failure => failure
  | .ok (_, rest) => leftover crc rest
termination_by input.length
decreasing_by exact takeFrame_shorter ‹takeFrame crc input = .ok _›

/-- An input without a frame at its front is left over as it is. -/
theorem leftover_error {crc : Bytes → UInt32} {input : Bytes} {failure : Failure}
    (refused : takeFrame crc input = .error failure) : leftover crc input = failure := by
  -- The recursion ends at once.
  rw [leftover]
  split
  · rename_i found
    rw [refused] at found
    cases found
    rfl
  · rename_i found
    rw [refused] at found
    cases found

/-- Behind the first frame there is the same left over as before it. -/
theorem leftover_ok {crc : Bytes → UInt32} {input rest : Bytes} {frame : Frame}
    (taken : takeFrame crc input = .ok (frame, rest)) :
    leftover crc input = leftover crc rest := by
  -- The recursion goes on behind the frame.
  rw [leftover]
  split
  · rename_i found
    rw [taken] at found
    cases found
  · rename_i found
    rw [taken] at found
    cases found
    rfl

namespace HandleCmd

variable {σ : Type}

/-- The handler ends the loop of `read_and_handle` at one of the frames. -/
def Stops (handler : HandleCmd σ) (version : UInt32) : List Frame → σ → Prop
  | [], _ => False
  | frame :: rest, state =>
    match handler frame.command frame.payload version state with
    | (.ok (some ()), state) => handler.Stops version rest state
    | _ => True

/--
One of the frames ends the loop of `read_and_handle_buffered`.

That is the last command, or the frame behind one that the handler refuses: only then does the
reader look at the answer.
-/
def Halts (handler : HandleCmd σ) (version : UInt32) : List Frame → σ → Prop
  | [], _ => False
  | frame :: rest, state =>
    frame.command = SendCmd.key EndCmd ∨
      match handler frame.command frame.payload version state with
      | (.ok _, state) => handler.Halts version rest state
      | (.error _, _) => rest ≠ []

end HandleCmd

/-- The receive of a stream ends by itself, with these bytes and no more of them. -/
def Suffices {σ : Type} (crc : Bytes → UInt32) (handler : HandleCmd σ) (buffered : Bool)
    (input : Bytes) (state : σ) : Prop :=
  match takeHeader input with
  | .error failure => failure ≠ eof
  | .ok (version, rest) =>
    leftover crc rest ≠ eof ∨
      if buffered then handler.Halts version (frames crc rest) state
      else handler.Stops version (frames crc rest) state

section Plain

variable {σ : Type} {crc : Bytes → UInt32} {handler : HandleCmd σ}

/-- The receive is between two commands, and is to end at one of those that have arrived. -/
def PlainFed (crc : Bytes → UInt32) (handler : HandleCmd σ) (stream : SendStream) (state : σ) :
    Prop :=
  Ready stream ∧ (leftover crc stream.reader ≠ eof ∨
    handler.Stops stream.version (frames crc stream.reader) state)

/-- Behind a round of the loop the rest of the stream is still enough. -/
theorem PlainFed.round {stream : SendStream} {state : σ} (fed : PlainFed crc handler stream state) :
    ∃ next, Receiving.round crc handler stream state = .moves next ∧
      ((∃ result, next = .done result) ∨
        ∃ read later, next = .plain read later ∧ PlainFed crc handler read later) := by
  obtain ⟨ready, enough⟩ := fed
  rw [Receiving.round]
  obtain ⟨failure, after, taken, refused⟩ | ⟨frame, rest, after, taken, read, holds⟩ :=
    readCmd_cases crc ready
  · -- The input does not end here, as there is no frame left for the handler to stop at.
    have other : failure ≠ eof := by
      rw [leftover_error taken, frames_error taken] at enough
      exact enough.resolve_right id
    simp only [refused, if_neg other]
    exact ⟨_, rfl, Or.inl ⟨_, rfl⟩⟩
  · rw [leftover_ok taken, frames_ok taken, HandleCmd.Stops] at enough
    simp only [read, holds.payload, holds.command, holds.version]
    rcases answered : handler frame.command frame.payload stream.version state with ⟨_ | _ | _, later⟩
    · exact ⟨_, rfl, Or.inl ⟨_, rfl⟩⟩
    · exact ⟨_, rfl, Or.inl ⟨_, rfl⟩⟩
    · -- The handler goes on, with what is left of the stream.
      rw [answered] at enough
      refine ⟨_, rfl, Or.inr ⟨after, later, rfl, holds.ready, ?_⟩⟩
      rw [holds.reader, holds.version]
      exact enough

/-- A round of the loop is one of `read_and_handle`, as far as its input has arrived. -/
theorem round_handleLoop {stream : SendStream} (ready : Ready stream) (state : σ) :
    (Receiving.round crc handler stream state = .hungry ∧
        (handleLoop crc handler stream state).1 = .error eof) ∨
      Receiving.round crc handler stream state =
        .moves (.done (handleLoop crc handler stream state).1) ∨
      ∃ read later, Receiving.round crc handler stream state = .moves (.plain read later) ∧
        Ready read ∧ read.reader.length < stream.reader.length ∧
        handleLoop crc handler stream state = handleLoop crc handler read later := by
  -- Both read the same command first, and both go by the answer of the handler.
  rw [Receiving.round]
  cases found : readCmd crc stream with
  | error failure after =>
    rw [handleLoop_error found]
    by_cases dry : failure = eof
    · simp only [if_pos dry]
      exact Or.inl ⟨trivial, by rw [dry]⟩
    · simp only [if_neg dry]
      exact Or.inr (Or.inl trivial)
  | ok done read =>
    obtain ⟨frame, rest, taken, holds⟩ := readCmd_ok ready found
    rw [handleLoop_ok found holds.payload]
    simp only [holds.payload]
    rcases answered : handler read.command frame.payload read.version state with ⟨_ | _ | _, later⟩
    · exact Or.inr (Or.inl rfl)
    · exact Or.inr (Or.inl rfl)
    · -- The frame has been taken off the input.
      have shorter := takeFrame_shorter taken
      rw [← holds.reader] at shorter
      exact Or.inr (Or.inr ⟨read, later, rfl, holds.ready, shorter, rfl⟩)

end Plain

end Libbtrfs
