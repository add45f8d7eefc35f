import Libbtrfs.Core.Checkpoint
import Libbtrfs.SendStream.Refinement

/-! What the position of a receiver and the shared counter are after any number of frames. -/

namespace Libbtrfs

/-- The size of the blocks after which the counter is updated: 4 MiB. -/
def blockSize : Nat := 4 * 1024 * 1024

/-- The room that a frame takes in a stream. -/
def Frame.size (frame : Frame) : Nat := cmdHeaderSize + frame.payload.length

/-- The room that some frames take in a stream. -/
def framesSize (frames : List Frame) : Nat := (frames.map Frame.size).sum

/-- The value of the shared counter, if there is one. -/
def SendStream.published (stream : SendStream) : Nat := stream.atomicPos.getD 0

/-- The shared counter is at most the position, and less than a block behind it. -/
def SendStream.Lags (stream : SendStream) : Prop :=
  ∃ published, stream.atomicPos = some published ∧ published ≤ stream.streamPos ∧
    stream.streamPos - published < blockSize

/-- The shared counter is a checkpoint of the position. -/
def SendStream.Checkpointed (stream : SendStream) : Prop :=
  ∃ published, stream.atomicPos = some published ∧
    Checkpoint blockSize published stream.streamPos

/-- Neither the position nor the counter nor the place of the payloads has changed. -/
structure SamePos (one other : SendStream) : Prop where
  streamPos : other.streamPos = one.streamPos
  atomicPos : other.atomicPos = one.atomicPos
  start : other.data.start = one.data.start

/-- Every stream has the position of its own. -/
theorem SamePos.refl (stream : SendStream) : SamePos stream stream := ⟨rfl, rfl, rfl⟩

/-- A position that two steps keep is kept by both together. -/
theorem SamePos.trans {one other third : SendStream} (first : SamePos one other)
    (second : SamePos other third) : SamePos one third :=
  ⟨second.streamPos.trans first.streamPos, second.atomicPos.trans first.atomicPos,
    second.start.trans first.start⟩

/-- Positions that the mask takes to the same block differ by whole turns of 64 bits at most. -/
theorem block_of_mask {one other : Nat} (same : one &&& blockMask = other &&& blockMask) :
    one / blockSize % 2 ^ 42 = other / blockSize % 2 ^ 42 := by
  -- Behind the lower 22 bits, the mask has 42 bits that are all set.
  have upper : blockMask >>> 22 = 2 ^ 42 - 1 := by decide
  have shifted := congrArg (· >>> 22) same
  simp only [Nat.shiftRight_and_distrib, upper] at shifted
  rw [Nat.and_two_pow_sub_one_eq_mod, Nat.and_two_pow_sub_one_eq_mod,
    Nat.shiftRight_eq_div_pow, Nat.shiftRight_eq_div_pow] at shifted
  exact shifted

/-- A position that moves by less than a turn stays in its block if the mask says so. -/
theorem same_block {one other : Nat} (same : one &&& blockMask = other &&& blockMask)
    (behind : one ≤ other) (near : other < one + 2 ^ 63) :
    one / blockSize = other / blockSize := by
  have turns := block_of_mask same
  unfold blockSize at turns ⊢
  -- Two blocks less than a whole turn apart are the same if they are the same in a turn.
  omega

/-- Moving the position behind a frame keeps the counter a checkpoint, and does not lower it. -/
theorem SendStream.Checkpointed.advance {stream : SendStream} (checkpointed : stream.Checkpointed)
    (short : stream.data.stop < 2 ^ 63) :
    stream.advance.Checkpointed ∧ stream.published ≤ stream.advance.published := by
  obtain ⟨published, shared, checkpoint⟩ := checkpointed
  have moves : stream.streamPos ≤ stream.streamPos + stream.data.stop := Nat.le_add_right _ _
  rw [SendStream.published, shared, Option.getD_some]
  unfold SendStream.advance
  by_cases entered : stream.streamPos &&& blockMask ≠
      (stream.streamPos + stream.data.stop) &&& blockMask
  · -- Another block is entered, so that the position is stored as it is now.
    simp only [if_pos entered, SendStream.storePos, shared, Option.map_some]
    exact ⟨⟨_, rfl, .current _ _⟩, Nat.le_trans checkpoint.behind moves⟩
  · simp only [if_neg entered]
    have same := same_block (not_not.mp entered) moves (by omega)
    refine ⟨⟨published, shared, checkpoint.stay moves same⟩, ?_⟩
    rw [SendStream.published, shared, Option.getD_some]

/-- A counter that is a checkpoint lags by less than a block. -/
theorem SendStream.Checkpointed.lags {stream : SendStream} (checkpointed : stream.Checkpointed) :
    stream.Lags := by
  -- A checkpoint is less than a block behind.
  obtain ⟨published, shared, checkpoint⟩ := checkpointed
  exact ⟨published, shared, checkpoint.behind, checkpoint.lag (by decide)⟩

/-- Whether the counter is a checkpoint does not depend on anything else. -/
theorem SendStream.Checkpointed.of_same {one other : SendStream} (checkpointed : one.Checkpointed)
    (same : SamePos one other) : other.Checkpointed := by
  -- Only the counter and the position are looked at.
  obtain ⟨published, shared, checkpoint⟩ := checkpointed
  refine ⟨published, same.atomicPos.trans shared, ?_⟩
  rw [same.streamPos]
  exact checkpoint

/-- A read of the input leaves the position and the range of the payload alone. -/
theorem readExact_samePos {start stop : Nat} {stream after : SendStream}
    (ended : readExact start stop stream = .ok () after ∨
      ∃ failure, readExact start stop stream = .error failure after) :
    SamePos stream after ∧ after.data = stream.data := by
  -- Only the input and the buffer are written to, in each of the three ways out.
  rw [readExact_eq] at ended
  split at ended
  · obtain impossible | ⟨failure, failed⟩ := ended
    · cases impossible
    · cases failed
      exact ⟨.refl _, rfl⟩
  · split at ended
    · obtain impossible | ⟨failure, failed⟩ := ended
      · cases impossible
      · cases failed
        exact ⟨⟨rfl, rfl, rfl⟩, rfl⟩
    · obtain done | ⟨failure, impossible⟩ := ended
      · cases done
        exact ⟨⟨rfl, rfl, rfl⟩, rfl⟩
      · cases impossible

/-- A read that succeeds is into a range that the buffer has. -/
theorem readExact_room {start stop : Nat} {stream after : SendStream}
    (done : readExact start stop stream = .ok () after) : stop ≤ stream.buf.length := by
  -- Otherwise taking the range would have panicked.
  rw [readExact_eq] at done
  split at done
  · cases done
  · rename_i inside
    exact (not_not.mp inside).2

/-- Emptying the range of the payload does not move the position. -/
theorem SendStream.emptied_samePos (stream : SendStream) :
    SamePos stream { stream with data := { stream.data with stop := 0 } } := ⟨rfl, rfl, rfl⟩

/-- Taking the header off the buffer and making room for its payload does not move the position. -/
theorem SendStream.expect_samePos (stream : SendStream) (length : UInt32) :
    SamePos stream (stream.takeHeader.2.expect length) := ⟨rfl, rfl, rfl⟩

/-- A frame that fails does not move the position. -/
theorem readCmd_error_samePos {crc : Bytes → UInt32} {stream after : SendStream}
    {failure : Failure} (failed : readCmd crc stream = .error failure after) :
    SamePos stream after := by
  rw [readCmd_eq] at failed
  split at failed
  · rename_i refused
    cases failed
    exact stream.emptied_samePos.trans (readExact_samePos (Or.inr ⟨_, refused⟩)).1
  · rename_i opened openedEq
    have opening := stream.emptied_samePos.trans (readExact_samePos (Or.inl openedEq)).1
    have ready := opening.trans (opened.expect_samePos opened.takeHeader.1.length)
    simp only at failed
    split at failed
    · rename_i refused
      cases failed
      exact ready.trans (readExact_samePos (Or.inr ⟨_, refused⟩)).1
    · rename_i filled filledEq
      -- The checksum is wrong, with the frame in the buffer already.
      split at failed
      · cases failed
        exact ready.trans (readExact_samePos (Or.inl filledEq)).1
      · cases failed

/-- A frame that is read moves the position by what its header announces. -/
theorem readCmd_advance {crc : Bytes → UInt32} {stream after : SendStream}
    (done : readCmd crc stream = .ok () after) :
    ∃ filled command, SamePos stream filled ∧ filled.data.stop < stream.data.start + 2 ^ 32 ∧
      cmdHeaderSize ≤ stream.buf.length ∧ after = { filled.advance with command := command } := by
  rw [readCmd_eq] at done
  split at done
  · cases done
  · rename_i opened openedEq
    have room := readExact_room openedEq
    have opening := stream.emptied_samePos.trans (readExact_samePos (Or.inl openedEq)).1
    -- The two reads and the header between them leave the position alone.
    have ready := opening.trans (opened.expect_samePos opened.takeHeader.1.length)
    simp only at done
    split at done
    · cases done
    · rename_i filled filledEq
      split at done
      · cases done
      · cases done
        have keeps := readExact_samePos (Or.inl filledEq)
        have announced : filled.data.stop =
            stream.data.start + opened.takeHeader.1.length.toNat := by
          rw [keeps.2, ← opening.start]
          rfl
        have width := opened.takeHeader.1.length.toNat_lt
        exact ⟨filled, _, ready.trans keeps.1, by omega, room, rfl⟩

/-- What a frame that is read makes of the receiver. -/
structure Accepts (crc : Bytes → UInt32) (before : SendStream) (frame : Frame)
    (after : SendStream) : Prop where
  taken : takeFrame crc before.reader = .ok (frame, after.reader)
  streamPos : after.streamPos = before.streamPos + frame.size
  start : after.data.start = cmdHeaderSize
  checkpointed : before.Checkpointed → after.Checkpointed ∧ before.published ≤ after.published

/-- Where payloads start behind the header, a frame that is read is one of the input. -/
theorem readCmd_accepts {crc : Bytes → UInt32} {stream after : SendStream}
    (start : stream.data.start = cmdHeaderSize) (done : readCmd crc stream = .ok () after) :
    ∃ frame, Accepts crc stream frame after := by
  obtain ⟨filled, command, same, short, room, equal⟩ := readCmd_advance done
  obtain ⟨frame, rest, taken, holds⟩ := readCmd_ok ⟨start, room⟩ done
  obtain ⟨atomicPos, advanced⟩ := filled.advance_eq
  -- The payload that is taken ends where the header says.
  have stop : filled.data.stop = frame.size := by
    have width := getRange_length holds.slice
    rw [equal, advanced] at width
    have first : filled.data.start = cmdHeaderSize := same.start.trans start
    simp only [first] at width
    rw [Frame.size]
    omega
  refine ⟨frame, ?_, ?_, holds.ready.start, fun checkpointed => ?_⟩
  · rw [holds.reader]
    exact taken
  · rw [equal, advanced, ← stop, ← same.streamPos]
  · have near : filled.data.stop < 2 ^ 63 := by
      rw [start, cmdHeaderSize] at short
      omega
    obtain ⟨kept, rises⟩ := (checkpointed.of_same same).advance near
    have before : filled.published = stream.published := by
      rw [SendStream.published, SendStream.published, same.atomicPos]
    rw [before] at rises
    subst equal
    exact ⟨kept, rises⟩

/-- A frame that is taken takes its room from the input. -/
theorem takeFrame_size {crc : Bytes → UInt32} {input rest : Bytes} {frame : Frame}
    (taken : takeFrame crc input = .ok (frame, rest)) :
    input.length = frame.size + rest.length := by
  -- The header has ten bytes, and the payload is as long as there is input for it.
  unfold takeFrame at taken
  split at taken
  · cases taken
  · rename_i whole
    simp only at taken
    split at taken
    · cases taken
    · rename_i enough
      split at taken
      · cases taken
      · cases taken
        simp only [Frame.size, List.length_take, List.length_drop] at enough ⊢
        omega

/--
A receiver behind some frames, and the receivers it was in front of the first and behind each of them.

Between two frames it may have got another buffer, as it does where the handler has one of its own.
-/
inductive Follows (crc : Bytes → UInt32) (first : SendStream) : List SendStream → SendStream → Prop
  | start : Follows crc first [first] first
  | read {moments : List SendStream} {now after : SendStream} (before : Follows crc first moments now)
      (done : readCmd crc now = .ok () after) : Follows crc first (moments ++ [after]) after
  | swap {moments : List SendStream} {now : SendStream} (before : Follows crc first moments now)
      (buf : Bytes) : Follows crc first moments { now with buf := buf }

/-- Where a receiver stands in the input: behind the frames that it has accepted. -/
structure Located (crc : Bytes → UInt32) (first : SendStream) (moments : List SendStream)
    (now : SendStream) : Prop where
  start : now.data.start = cmdHeaderSize
  accepted : ∃ accepted, frames crc first.reader = accepted ++ frames crc now.reader ∧
    moments.length = accepted.length + 1 ∧ now.streamPos = framesSize accepted
  offset : now.reader.length + now.streamPos = first.reader.length
  each : ∀ (count : Nat) (moment : SendStream), moments[count]? = some moment →
    moment.streamPos = framesSize ((frames crc first.reader).take count) ∧
      moment.reader.length + moment.streamPos = first.reader.length

/-- The room that frames take is that of the first ones and that of the others. -/
theorem framesSize_append (one other : List Frame) :
    framesSize (one ++ other) = framesSize one + framesSize other := by
  -- The sizes are added up over the list.
  simp [framesSize]

/-- A receiver that starts at the front of its input stays where its position says. -/
theorem Follows.located {crc : Bytes → UInt32} {first now : SendStream} {moments : List SendStream}
    (follows : Follows crc first moments now) (start : first.data.start = cmdHeaderSize)
    (front : first.streamPos = 0) : Located crc first moments now := by
  -- The induction is on the frames, each of which is the next one of the input.
  induction follows with
  | start =>
    refine ⟨start, ⟨[], rfl, rfl, front⟩, by rw [front, Nat.add_zero], ?_⟩
    intro count moment found
    obtain ⟨inside, same⟩ := List.getElem?_eq_some_iff.mp found
    rw [List.length_singleton] at inside
    obtain rfl : count = 0 := by omega
    subst same
    rw [List.getElem_singleton, front, List.take_zero]
    exact ⟨rfl, Nat.add_zero _⟩
  | swap before buf ih => exact ⟨ih.start, ih.accepted, ih.offset, ih.each⟩
  | @read moments now after before done ih =>
    obtain ⟨frame, accepts⟩ := readCmd_accepts ih.start done
    obtain ⟨accepted, split, counted, position⟩ := ih.accepted
    have size := takeFrame_size accepts.taken
    have offset : after.reader.length + after.streamPos = first.reader.length := by
      rw [← ih.offset, accepts.streamPos, size]
      omega
    have more : frames crc first.reader = accepted ++ [frame] ++ frames crc after.reader := by
      rw [split, frames_ok accepts.taken, List.append_assoc, List.singleton_append]
    have moved : after.streamPos = framesSize (accepted ++ [frame]) := by
      rw [accepts.streamPos, position, framesSize_append]
      simp [framesSize]
    refine ⟨accepts.start, ⟨accepted ++ [frame], more, ?_, moved⟩, offset, ?_⟩
    · rw [List.length_append, List.length_append, counted]
      rfl
    · intro count moment found
      by_cases earlier : count < moments.length
      · rw [List.getElem?_append_left earlier] at found
        exact ih.each count moment found
      · -- The last of the moments is the one behind the new frame.
        obtain ⟨inside, same⟩ := List.getElem?_eq_some_iff.mp found
        rw [List.length_append, List.length_singleton] at inside
        obtain rfl : count = moments.length := by omega
        rw [List.getElem_concat_length rfl] at same
        subst same
        refine ⟨?_, offset⟩
        rw [moved, more, counted, List.take_left' (by rw [List.length_append]; rfl)]

/-- The counter at the moments so far: a checkpoint at each of them, and never lowered. -/
structure Lagging (moments : List SendStream) (now : SendStream) : Prop where
  start : now.data.start = cmdHeaderSize
  checkpointed : now.Checkpointed
  each : ∀ moment ∈ moments, moment.Checkpointed ∧ moment.published ≤ now.published
  rises : moments.Pairwise fun earlier later => earlier.published ≤ later.published

/-- A receiver whose counter starts as a checkpoint keeps it as one, and does not lower it. -/
theorem Follows.lagging {crc : Bytes → UInt32} {first now : SendStream} {moments : List SendStream}
    (follows : Follows crc first moments now) (start : first.data.start = cmdHeaderSize)
    (checkpointed : first.Checkpointed) : Lagging moments now := by
  -- The induction is on the frames, each of which moves the position or stores it.
  induction follows with
  | start =>
    refine ⟨start, checkpointed, fun moment member => ?_, List.pairwise_singleton _ _⟩
    rw [List.mem_singleton.mp member]
    exact ⟨checkpointed, Nat.le_refl _⟩
  | swap before buf ih => exact ⟨ih.start, ih.checkpointed, ih.each, ih.rises⟩
  | @read moments now after before done ih =>
    obtain ⟨frame, accepts⟩ := readCmd_accepts ih.start done
    obtain ⟨kept, rises⟩ := accepts.checkpointed ih.checkpointed
    have earlier : ∀ moment ∈ moments, moment.published ≤ after.published :=
      fun moment member => Nat.le_trans (ih.each moment member).2 rises
    refine ⟨accepts.start, kept, fun moment member => ?_, ?_⟩
    · rcases List.mem_append.mp member with old | new
      · exact ⟨(ih.each moment old).1, earlier moment old⟩
      · rw [List.mem_singleton.mp new]
        exact ⟨kept, Nat.le_refl _⟩
    · rw [List.pairwise_append]
      refine ⟨ih.rises, List.pairwise_singleton _ _, fun moment member last found => ?_⟩
      rw [List.mem_singleton.mp found]
      exact earlier moment member

end Libbtrfs
