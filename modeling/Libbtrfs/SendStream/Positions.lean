import Libbtrfs.SendStream.Reporting

/-! What a receive reports of its position while it runs and once it is done, in both modes. -/

namespace Libbtrfs

/-- The frames behind the header of a stream. -/
def streamFrames (crc : Bytes → UInt32) (input : Bytes) : List Frame :=
  match takeHeader input with
  | .error _ => []
  | .ok (_, rest) => frames crc rest

/--
What the position and the counter are at each of the moments between two frames, and what they are
now: the position is the size of the frames accepted so far, and the counter lags and never falls.
-/
structure Progress (all : List Frame) (moments : List SendStream) (now : SendStream) : Prop where
  positions : ∀ (count : Nat) (moment : SendStream), moments[count]? = some moment →
    moment.streamPos = framesSize (all.take count)
  position : now.streamPos = framesSize (all.take (moments.length - 1))
  enough : moments.length ≤ all.length + 1
  lags : ∀ moment ∈ moments ++ [now], moment.Lags
  rises : (moments ++ [now]).Pairwise fun earlier later => earlier.published ≤ later.published

/-- How many bytes of the input a receiver has consumed. -/
def SendStream.consumed (input : Bytes) (stream : SendStream) : Nat :=
  input.length - stream.reader.length

/-- The reported position is an offset into the input, and so is that between two frames. -/
structure ReportsOffset (input : Bytes) (moments : List SendStream) (final : SendStream) :
    Prop where
  final : final.atomicPos = some (final.consumed input)
  between : ∀ moment ∈ moments, moment.streamPos = moment.consumed input

/-- All positions fall short of the offset by the header of the stream. -/
structure FallsShort (input : Bytes) (moments : List SendStream) (final : SendStream) :
    Prop where
  final : ∃ position, final.atomicPos = some position ∧
    position + streamHeaderSize = final.consumed input
  between : ∀ moment ∈ moments, moment.streamPos + streamHeaderSize = moment.consumed input

/-- A position that falls short is no offset. -/
theorem FallsShort.not_reportsOffset {input : Bytes} {moments : List SendStream}
    {final : SendStream} (short : FallsShort input moments final) :
    ¬ ReportsOffset input moments final := by
  intro reports
  obtain ⟨position, stored, behind⟩ := short.final
  -- The same counter would have two values.
  rw [reports.final] at stored
  cases stored
  rw [streamHeaderSize] at behind
  omega

/-- Reading the header leaves the position and the counter alone. -/
theorem readHeader_samePos {stream after : SendStream}
    (ended : readHeader stream = .ok () after ∨
      ∃ failure, readHeader stream = .error failure after) : SamePos stream after := by
  rw [readHeader_eq] at ended
  cases filledEq : readExact 0 streamHeaderSize stream with
  | error failure filled =>
    rw [filledEq] at ended
    have same := (readExact_samePos (Or.inr ⟨failure, filledEq⟩)).1
    obtain impossible | ⟨other, failed⟩ := ended
    · cases impossible
    · cases failed
      exact same
  | ok done filled =>
    rw [filledEq] at ended
    have same := (readExact_samePos (Or.inl filledEq)).1
    simp only at ended
    -- The magic string and the version are only looked at.
    split at ended
    · obtain impossible | ⟨other, failed⟩ := ended
      · cases impossible
      · cases failed
        exact same
    · split at ended
      · obtain impossible | ⟨other, failed⟩ := ended
        · cases impossible
        · cases failed
          exact same
      · obtain accepted | ⟨other, impossible⟩ := ended
        · cases accepted
          exact ⟨same.streamPos, same.atomicPos, same.start⟩
        · cases impossible

/-- A header that is taken takes its room from the input. -/
theorem takeHeader_size {input rest : Bytes} {version : UInt32}
    (taken : takeHeader input = .ok (version, rest)) :
    input.length = streamHeaderSize + rest.length := by
  unfold takeHeader at taken
  split at taken
  · -- A header that is too short, or of another format or version, is refused.
    cases taken
  · rename_i whole
    split at taken
    · cases taken
    · simp only at taken
      split at taken
      · cases taken
      · cases taken
        rw [List.length_drop]
        omega

/-- The frames of an input take no more room than there is. -/
theorem framesSize_frames_le (crc : Bytes → UInt32) (input : Bytes) :
    framesSize (frames crc input) ≤ input.length := by
  -- The induction is on the frames that are taken, each of which takes its room from the input.
  fun_induction frames crc input with
  | case1 input failure refused => exact Nat.zero_le _
  | case2 input frame rest taken ih =>
    have room := takeFrame_size taken
    rw [framesSize, List.map_cons, List.sum_cons]
    rw [framesSize] at ih
    omega

/-- The same holds of the frames behind the header of a stream. -/
theorem framesSize_streamFrames_le (crc : Bytes → UInt32) (input : Bytes) :
    framesSize (streamFrames crc input) ≤ input.length := by
  unfold streamFrames
  split
  · -- Behind a header that is refused there are no frames.
    exact Nat.zero_le _
  · rename_i version rest taken
    have header := takeHeader_size taken
    have behind := framesSize_frames_le crc rest
    omega

/-- A position behind some of the frames lies within the input. -/
theorem framesSize_take_le (crc : Bytes → UInt32) (input : Bytes) (count : Nat) :
    framesSize ((streamFrames crc input).take count) ≤ input.length := by
  -- The frames that are not taken only add to the room.
  have split := framesSize_append ((streamFrames crc input).take count)
    ((streamFrames crc input).drop count)
  rw [List.take_append_drop] at split
  have whole := framesSize_streamFrames_le crc input
  omega

/-- A receiver that makes progress never counts more bytes than its input has. -/
theorem Progress.inside {crc : Bytes → UInt32} {input : Bytes} {moments : List SendStream}
    {now : SendStream} (progress : Progress (streamFrames crc input) moments now) :
    ∀ moment ∈ moments ++ [now], moment.streamPos ≤ input.length := by
  intro moment member
  -- Each of the positions is the room of some of the frames.
  rcases List.mem_append.mp member with earlier | last
  · obtain ⟨count, within, same⟩ := List.mem_iff_getElem.mp earlier
    have found : moments[count]? = some moment := by
      rw [← same]
      exact List.getElem?_eq_getElem within
    rw [progress.positions count moment found]
    exact framesSize_take_le crc input count
  · rw [List.mem_singleton.mp last, progress.position]
    exact framesSize_take_le crc input _

/--
The 64 bits that the position and the counter have hold them, at all moments of a receive.

The addition to the position wraps only for a stream of `2 ^ 64` bytes or more.
-/
theorem Progress.fits {crc : Bytes → UInt32} {input : Bytes} {moments : List SendStream}
    {now : SendStream} (progress : Progress (streamFrames crc input) moments now)
    (short : input.length < UInt64.size) :
    ∀ moment ∈ moments ++ [now], moment.streamPos < UInt64.size ∧
      moment.published < UInt64.size := by
  intro moment member
  have inside := progress.inside moment member
  obtain ⟨published, shared, behind, _⟩ := progress.lags moment member
  -- The counter is at most the position, and the position is at most the length.
  rw [SendStream.published, shared, Option.getD_some]
  omega

/-- A receiver behind the header of its input. -/
structure PastHeader (crc : Bytes → UInt32) (input : Bytes) (atomicPos : Option Nat)
    (first : SendStream) : Prop where
  start : first.data.start = cmdHeaderSize
  streamPos : first.streamPos = 0
  atomicPos : first.atomicPos = atomicPos
  frames : streamFrames crc input = frames crc first.reader
  size : input.length = streamHeaderSize + first.reader.length

/-- A header that is accepted opens the input. -/
theorem readHeader_pastHeader (crc : Bytes → UInt32) {input : Bytes} {atomicPos : Option Nat}
    {first : SendStream} (read : readHeader (.new input atomicPos) = .ok () first) :
    PastHeader crc input atomicPos first := by
  have same := readHeader_samePos (Or.inl read)
  obtain ⟨failure, after, _, refused⟩ | ⟨version, rest, after, taken, again, _, reader, _⟩ :=
    readHeader_cases input atomicPos
  · rw [read] at refused
    cases refused
  · rw [read] at again
    cases again
    -- What is left of the input is what is behind its header.
    refine ⟨same.start, same.streamPos, same.atomicPos, ?_, ?_⟩
    · rw [streamFrames, taken, reader]
    · rw [reader]
      exact takeHeader_size taken

/-- A counter that has just been stored is the position. -/
theorem SendStream.storePos_atomicPos {stream : SendStream} {published : Nat}
    (shared : stream.atomicPos = some published) :
    stream.storePos.atomicPos = some stream.streamPos := by
  -- Storing replaces what is shared.
  rw [SendStream.storePos, shared]
  rfl

section Follows

variable {crc : Bytes → UInt32} {input : Bytes} {first last now : SendStream}
  {moments : List SendStream}

/-- A counter that starts at 0 behind the header lags behind the frames from then on. -/
theorem PastHeader.lagging (opened : PastHeader crc input (some 0) first)
    (follows : Follows crc first moments last) : Lagging moments last := by
  -- Behind the header neither has moved yet.
  have checkpointed : first.Checkpointed := by
    refine ⟨0, opened.atomicPos, ?_⟩
    rw [opened.streamPos]
    exact .current _ _
  exact follows.lagging opened.start checkpointed

/-- Where the position is that behind the last frame, there is progress if the counter lags. -/
theorem PastHeader.progress (opened : PastHeader crc input (some 0) first)
    (follows : Follows crc first moments last) (position : now.streamPos = last.streamPos)
    (lags : now.Lags) (higher : last.published ≤ now.published) :
    Progress (streamFrames crc input) moments now := by
  have located := follows.located opened.start opened.streamPos
  have lagging := opened.lagging follows
  obtain ⟨accepted, split, counted, size⟩ := located.accepted
  rw [opened.frames]
  refine ⟨fun count moment found => (located.each count moment found).1, ?_, ?_, ?_, ?_⟩
  · rw [position, size, split, counted, Nat.add_sub_cancel, List.take_left]
  · rw [split, counted, List.length_append]
    omega
  · intro moment member
    rcases List.mem_append.mp member with earlier | same
    · exact (lagging.each moment earlier).1.lags
    · rw [List.mem_singleton.mp same]
      exact lags
  · -- The counter has not fallen so far, and it is not lower now.
    rw [List.pairwise_append]
    refine ⟨lagging.rises, List.pairwise_singleton _ _, fun moment member other found => ?_⟩
    rw [List.mem_singleton.mp found]
    exact Nat.le_trans (lagging.each moment member).2 higher

/-- A receiver with the position and the counter of the one behind the last frame. -/
theorem PastHeader.progress_same (opened : PastHeader crc input (some 0) first)
    (follows : Follows crc first moments last) (same : SamePos last now) :
    Progress (streamFrames crc input) moments now := by
  -- The counter is the same, so it has not fallen.
  have kept := (opened.lagging follows).checkpointed
  have published : last.published ≤ now.published := by
    rw [SendStream.published, SendStream.published, same.atomicPos]
  exact opened.progress follows same.streamPos (kept.of_same same).lags published

/-- A receiver that has stored its position behind the last frame. -/
theorem PastHeader.progress_stored (opened : PastHeader crc input (some 0) first)
    (follows : Follows crc first moments last) :
    Progress (streamFrames crc input) moments last.storePos ∧
      last.storePos.atomicPos = some last.storePos.streamPos := by
  obtain ⟨published, shared, checkpoint⟩ := (opened.lagging follows).checkpointed
  have stored := SendStream.storePos_atomicPos shared
  -- The stored counter lags by nothing.
  refine ⟨opened.progress follows rfl ⟨_, stored, Nat.le_refl _, ?_⟩ ?_, stored⟩
  · show last.streamPos - last.streamPos < blockSize
    rw [Nat.sub_self]
    decide
  · rw [SendStream.published, SendStream.published, shared, stored]
    exact checkpoint.behind

/-- A receiver behind the frames of an input has consumed the header of the stream as well. -/
theorem PastHeader.fallsShort {position : Nat} (opened : PastHeader crc input (some position) first)
    (follows : Follows crc first moments last)
    (shared : ∃ published, last.atomicPos = some published) :
    FallsShort input moments last.storePos := by
  have located := follows.located opened.start opened.streamPos
  have size := opened.size
  obtain ⟨published, stored⟩ := shared
  -- The offset is known for each of the moments, and for the last receiver.
  refine ⟨⟨last.streamPos, SendStream.storePos_atomicPos stored, ?_⟩, fun moment member => ?_⟩
  · have offset := located.offset
    show last.streamPos + streamHeaderSize = input.length - last.reader.length
    omega
  · obtain ⟨count, inside, same⟩ := List.mem_iff_getElem.mp member
    have found : moments[count]? = some moment := by
      rw [← same]
      exact List.getElem?_eq_getElem inside
    have offset := (located.each count moment found).2
    rw [SendStream.consumed]
    omega

/-- A shared counter stays shared. -/
theorem Follows.shared (follows : Follows crc first moments last)
    (shared : ∃ published, first.atomicPos = some published) :
    ∃ published, last.atomicPos = some published := by
  induction follows with
  | start => exact shared
  | swap before buf ih => exact ih
  | read before done ih =>
    obtain ⟨published, stored⟩ := ih
    obtain ⟨filled, command, same, _, _, equal⟩ := readCmd_advance done
    rw [← same.atomicPos] at stored
    rw [equal]
    -- The position is stored, or the counter stays as it was.
    unfold SendStream.advance
    simp only
    split
    · exact ⟨_, SendStream.storePos_atomicPos stored⟩
    · exact ⟨published, stored⟩

end Follows

/-- Where the header is refused, the position and the counter stay at 0. -/
theorem progress_refused {stream now : SendStream} (same : SamePos stream now) (all : List Frame)
    (front : stream.streamPos = 0) (shared : stream.atomicPos = some 0) :
    Progress all [] now := by
  -- There is no moment, so that all that is asked for is about the receiver that is left.
  refine ⟨fun count moment found => ?_, ?_, Nat.zero_le _, fun moment member => ?_,
    List.pairwise_singleton _ _⟩
  · cases found
  · rw [same.streamPos, front]
    rfl
  · rw [List.mem_singleton.mp member]
    refine ⟨0, same.atomicPos.trans shared, Nat.zero_le _, ?_⟩
    rw [same.streamPos, front]
    decide

/--
The shared counter lags behind the position by less than 4 MiB, and is the position in the end.

The stream, the checksum and the handler are arbitrary, and so is the schedule of a buffered receive.
-/
theorem receive_progress {σ : Type} (crc : Bytes → UInt32) (handler : HandleCmd σ) (input : Bytes)
    (state : σ) :
    (Progress (streamFrames crc input) (receiveMoments crc handler (.new input (some 0)) state)
        (readAndHandle crc handler (.new input (some 0)) state).2.1 ∧
      ((readAndHandle crc handler (.new input (some 0)) state).1 = .ok () →
        (readAndHandle crc handler (.new input (some 0)) state).2.1.atomicPos =
          some (readAndHandle crc handler (.new input (some 0)) state).2.1.streamPos)) ∧
    ∀ (bufCountArgs : Nat) (first : Buffered σ (clampBufs bufCountArgs)),
      Buffered.start bufCountArgs (.new input (some 0)) state = .ok first →
      ∀ (schedule : List Actor) (now : Buffered σ (clampBufs bufCountArgs)),
        now = (Buffered.system crc handler).run schedule first →
        Progress (streamFrames crc input)
            (first.stream :: Buffered.readTrace crc handler schedule first) now.stream ∧
          (now.returned = some (.ok ()) → now.stream.atomicPos = some now.stream.streamPos) := by
  refine ⟨?_, fun bufCountArgs first started schedule now reached => ?_⟩
  · cases read : readHeader (.new input (some 0)) with
    | error failure after =>
      have same := readHeader_samePos (Or.inr ⟨failure, read⟩)
      rw [receiveMoments, readAndHandle, read]
      refine ⟨progress_refused same _ rfl rfl, fun impossible => ?_⟩
      cases impossible
    | ok done first =>
      have opened := readHeader_pastHeader crc read
      obtain ⟨last, follows, stored, kept⟩ := @readAndHandle_follows σ crc handler _ _ read state
      by_cases finished : (readAndHandle crc handler (.new input (some 0)) state).1 = .ok ()
      · -- The position was stored behind the last frame.
        rw [stored finished]
        obtain ⟨progress, current⟩ := opened.progress_stored follows
        exact ⟨progress, fun _ => current⟩
      · exact ⟨opened.progress_same follows (kept finished), fun other => absurd other finished⟩
  · subst reached
    have opened := readHeader_pastHeader crc (Buffered.start_stream started).1
    obtain ⟨last, follows, either, stored⟩ :=
      (@Buffered.run_tracks σ crc handler _ _ _ _ started schedule).cases
    obtain ⟨progress, current⟩ := opened.progress_stored follows
    refine ⟨?_, fun finished => ?_⟩
    · rcases either with same | same
      · rw [same]
        exact progress
      · exact opened.progress_same follows same
    · rw [stored finished]
      exact current

/-- The one frame of a stream goes to a handler that asks for no more, and the receive is done. -/
theorem readAndHandle_endFrame (atomicPos : Option Nat) :
    (readAndHandle (fun _ => 0) Buffered.decliningHandler
      (.new (Buffered.plainStream [Buffered.endFrame]) atomicPos) ()).1 = .ok () := by
  have written : Buffered.plainStream [Buffered.endFrame] =
      streamHeader 2 ++ (Buffered.endFrame.bytes (fun _ => 0) ++ []) := rfl
  rw [(readAndHandle_decodeWith (fun _ => 0) Buffered.decliningHandler _ atomicPos ()).1, written,
    decode, takeHeader_bytes (by decide)]
  -- The frame is the next one behind the header.
  simp only
  rw [decodeFrames_ok (takeFrame_bytes _ (by decide) _)]
  rfl

/-- Of a stream of one frame either receive reports its position in the end. -/
theorem receive_progress_endFrame :
    (readAndHandle (fun _ => 0) Buffered.decliningHandler
        (.new (Buffered.plainStream [Buffered.endFrame]) (some 0)) ()).2.1.atomicPos =
      some (readAndHandle (fun _ => 0) Buffered.decliningHandler
        (.new (Buffered.plainStream [Buffered.endFrame]) (some 0)) ()).2.1.streamPos ∧
    ∃ first, Buffered.start 2 (.new (Buffered.plainStream [Buffered.endFrame]) (some 0)) () =
        .ok first ∧
      ((Buffered.system (fun _ => 0) Buffered.eagerHandler).run Buffered.losingSchedule
          first).stream.atomicPos =
        some ((Buffered.system (fun _ => 0) Buffered.eagerHandler).run Buffered.losingSchedule
          first).stream.streamPos := by
  -- Both receives return `Ok`, so the theorem applies to them.
  obtain ⟨first, started, finished, _⟩ := Buffered.losingSchedule_run_with (some 0)
  refine ⟨(receive_progress (fun _ => 0) Buffered.decliningHandler _ ()).1.2
    (readAndHandle_endFrame (some 0)), first, started, ?_⟩
  exact ((receive_progress (fun _ => 0) Buffered.eagerHandler _ ()).2 2 first started
    Buffered.losingSchedule _ rfl).2 finished

/-- A receive in one thread that returns `Ok` falls short of the offset. -/
theorem readAndHandle_fallsShort {σ : Type} {crc : Bytes → UInt32} {handler : HandleCmd σ}
    {input : Bytes} {position : Nat} {state : σ}
    (finished : (readAndHandle crc handler (.new input (some position)) state).1 = .ok ()) :
    FallsShort input (receiveMoments crc handler (.new input (some position)) state)
      (readAndHandle crc handler (.new input (some position)) state).2.1 := by
  cases read : readHeader (.new input (some position)) with
  | error failure after =>
    -- A receive does not return `Ok` without a header.
    rw [readAndHandle, read] at finished
    cases finished
  | ok done first =>
    have opened := readHeader_pastHeader crc read
    obtain ⟨last, follows, stored, _⟩ := @readAndHandle_follows σ crc handler _ _ read state
    rw [stored finished]
    exact opened.fallsShort follows (follows.shared ⟨position, opened.atomicPos⟩)

/--
The position that a receive reports is no offset into its stream, whatever that is, and neither is
the position between two frames: the bytes of the header of the stream are not counted.
-/
theorem receive_fallsShort {σ : Type} (crc : Bytes → UInt32) (handler : HandleCmd σ)
    (input : Bytes) (position : Nat) (state : σ) :
    ((readAndHandle crc handler (.new input (some position)) state).1 = .ok () →
      FallsShort input (receiveMoments crc handler (.new input (some position)) state)
          (readAndHandle crc handler (.new input (some position)) state).2.1 ∧
        ¬ ReportsOffset input (receiveMoments crc handler (.new input (some position)) state)
          (readAndHandle crc handler (.new input (some position)) state).2.1) ∧
    ∀ (bufCountArgs : Nat) (first : Buffered σ (clampBufs bufCountArgs)),
      Buffered.start bufCountArgs (.new input (some position)) state = .ok first →
      ∀ (schedule : List Actor) (now : Buffered σ (clampBufs bufCountArgs)),
        now = (Buffered.system crc handler).run schedule first →
        now.returned = some (.ok ()) →
        FallsShort input (first.stream :: Buffered.readTrace crc handler schedule first)
            now.stream ∧
          ¬ ReportsOffset input (first.stream :: Buffered.readTrace crc handler schedule first)
            now.stream := by
  -- Both ways of receiving follow the frames of the input, and each falls short of it by the
  -- header.
  refine ⟨fun finished => ?_, fun bufCountArgs first started schedule now reached finished => ?_⟩
  · have short := readAndHandle_fallsShort finished
    exact ⟨short, short.not_reportsOffset⟩
  · subst reached
    have opened := readHeader_pastHeader crc (Buffered.start_stream started).1
    obtain ⟨last, follows, _, stored⟩ :=
      (@Buffered.run_tracks σ crc handler _ _ _ _ started schedule).cases
    have short := opened.fallsShort follows (follows.shared ⟨position, opened.atomicPos⟩)
    rw [stored finished]
    exact ⟨short, short.not_reportsOffset⟩

/-- For either receive that is no offset into the stream. -/
theorem receive_fallsShort_endFrame :
    ¬ ReportsOffset (Buffered.plainStream [Buffered.endFrame])
        (receiveMoments (fun _ => 0) Buffered.decliningHandler
          (.new (Buffered.plainStream [Buffered.endFrame]) (some 0)) ())
        (readAndHandle (fun _ => 0) Buffered.decliningHandler
          (.new (Buffered.plainStream [Buffered.endFrame]) (some 0)) ()).2.1 ∧
    ∃ first, Buffered.start 2 (.new (Buffered.plainStream [Buffered.endFrame]) (some 0)) () =
        .ok first ∧
      ¬ ReportsOffset (Buffered.plainStream [Buffered.endFrame])
        (first.stream :: Buffered.readTrace (fun _ => 0) Buffered.eagerHandler
          Buffered.losingSchedule first)
        ((Buffered.system (fun _ => 0) Buffered.eagerHandler).run Buffered.losingSchedule
          first).stream := by
  -- Both receives return `Ok`, so the theorem applies to them.
  obtain ⟨first, started, finished, _⟩ := Buffered.losingSchedule_run_with (some 0)
  refine ⟨((receive_fallsShort (fun _ => 0) Buffered.decliningHandler _ 0 ()).1
    (readAndHandle_endFrame (some 0))).2, first, started, ?_⟩
  exact ((receive_fallsShort (fun _ => 0) Buffered.eagerHandler _ 0 ()).2 2 first started
    Buffered.losingSchedule _ rfl finished).2

/-- A stream of one frame is read to its end, and the position that is reported is not its length. -/
theorem endFrame_misreported :
    (readAndHandle (fun _ => 0) Buffered.decliningHandler
        (.new (Buffered.plainStream [Buffered.endFrame]) (some 0)) ()).1 = .ok () ∧
      ¬ ReportsOffset (Buffered.plainStream [Buffered.endFrame])
        (receiveMoments (fun _ => 0) Buffered.decliningHandler
          (.new (Buffered.plainStream [Buffered.endFrame]) (some 0)) ())
        (readAndHandle (fun _ => 0) Buffered.decliningHandler
          (.new (Buffered.plainStream [Buffered.endFrame]) (some 0)) ()).2.1 :=
  ⟨readAndHandle_endFrame (some 0),
    (readAndHandle_fallsShort (readAndHandle_endFrame (some 0))).not_reportsOffset⟩

end Libbtrfs
