import Libbtrfs.SendStream.Handler

/-! The receiver of a send stream: one reused buffer, filled frame by frame. -/

namespace Libbtrfs

/-- A `Range` of positions in a buffer. -/
structure Span where
  start : Nat
  stop : Nat
  deriving DecidableEq

/--
The state of a receiver, on a target whose `usize` has 64 bits.

The reader is the list of the bytes it still has to deliver. The position counts bytes, and is
a number here: `Progress.fits` shows that it stays within 64 bits where the length of the input does.
-/
structure SendStream where
  version : UInt32
  command : UInt16
  reader : Bytes
  buf : Bytes
  data : Span
  streamPos : Nat
  atomicPos : Option Nat

/-- A step of the receiver, which keeps its state also when it fails. -/
abbrev ReadM := EStateM Failure SendStream

/-- The magic string at the front of a stream. -/
def magic : Bytes :=
  [0x62, 0x74, 0x72, 0x66, 0x73, 0x2d, 0x73, 0x74, 0x72, 0x65, 0x61, 0x6d, 0x00]

/-- The highest version of a stream that is accepted. -/
def supportedVersion : UInt32 := 2

/-- The size of the first buffer. -/
def bufSzV1 : Nat := 64 * 1024

/-- `size_of::<StreamHeader>()`: the magic string and a 32-bit version. -/
def streamHeaderSize : Nat := 17

/-- `size_of::<CmdHeader>()`: a 32-bit length, a 16-bit command and a 32-bit checksum. -/
def cmdHeaderSize : Nat := 10

/-- The mask that leaves the 4 MiB block of a position. -/
def blockMask : Nat := 0xFFFFFFFFFFC00000

/-- The header in front of every command. -/
structure CmdHeader where
  length : UInt32
  command : UInt16
  checksum : UInt32

namespace SendStream

/-- `SendStream::new`. -/
def new (reader : Bytes) (atomicPos : Option Nat) : SendStream where
  reader := reader
  atomicPos := atomicPos
  buf := List.replicate bufSzV1 0
  data := { start := cmdHeaderSize, stop := 0 }
  version := 0
  streamPos := 0
  command := 0

/-- The progress counter is overwritten, if the caller shares one. -/
def storePos (stream : SendStream) : SendStream :=
  { stream with atomicPos := stream.atomicPos.map fun _ => stream.streamPos }

/-- `&self.buf[self.data]`: the payload of the frame that was read last. -/
def payload (stream : SendStream) : Outcome Bytes :=
  match getRange stream.buf stream.data.start stream.data.stop with
  | some data => .ok data
  | none => .error (.panic "range end index out of range for slice")

/-- The header at the front of the buffer, whose checksum field is then zeroed in place. -/
def takeHeader (stream : SendStream) : CmdHeader × SendStream :=
  ({ length := UInt32.ofNat (leNat (stream.buf.take 4))
     command := UInt16.ofNat (leNat ((stream.buf.drop 4).take 2))
     checksum := UInt32.ofNat (leNat ((stream.buf.drop 6).take 4)) },
   { stream with buf := stream.buf.take 6 ++ [0, 0, 0, 0] ++ stream.buf.drop cmdHeaderSize })

/-- The payload range takes the announced length, and the buffer grows to hold it. -/
def expect (stream : SendStream) (length : UInt32) : SendStream :=
  let stop := stream.data.start + length.toNat
  -- The buffer is resized upwards only, so that a longer frame leaves its bytes behind it.
  { stream with
    data := { stream.data with stop := stop }
    buf := stream.buf ++ List.replicate (stop - stream.buf.length) 0 }

/-- The position moves behind the frame, and is shared when it enters another 4 MiB block. -/
def advance (stream : SendStream) : SendStream :=
  let moved := { stream with streamPos := stream.streamPos + stream.data.stop }
  if stream.streamPos &&& blockMask ≠ moved.streamPos &&& blockMask then moved.storePos else moved

end SendStream

/-- `self.reader.read_exact(&mut self.buf[start..stop])`. -/
def readExact (start stop : Nat) : ReadM Unit := do
  let stream ← get
  if ¬ (start ≤ stop ∧ stop ≤ stream.buf.length) then
    throw (.panic "range end index out of range for slice")
  if stream.reader.length < stop - start then
    -- What is left of the input is written before its end is noticed.
    set { stream with
      reader := []
      buf := stream.buf.take start ++ stream.reader ++
        stream.buf.drop (start + stream.reader.length) }
    throw (.io (.kind .unexpectedEof))
  set { stream with
    reader := stream.reader.drop (stop - start)
    buf := stream.buf.take start ++ stream.reader.take (stop - start) ++ stream.buf.drop stop }

/-- `SendStream::read_header`. -/
def readHeader : ReadM Unit := do
  readExact 0 streamHeaderSize
  let stream ← get
  let (found, version) := (stream.buf.take streamHeaderSize).splitAt magic.length
  if found ≠ magic then
    throw (receiveError "Unexpected header")
  let version := UInt32.ofNat (leNat version)
  if version > supportedVersion then
    throw (receiveError "Unsuppored Version")
  modify fun stream => { stream with version := version }

/-- `SendStream::read_cmd`, with the checksum of the receiver as a parameter. -/
def readCmd (crc : Bytes → UInt32) : ReadM Unit := do
  modify fun stream => { stream with data := { stream.data with stop := 0 } }
  readExact 0 cmdHeaderSize
  let hdr ← modifyGet SendStream.takeHeader
  modify fun stream => stream.expect hdr.length
  let stream ← get
  readExact stream.data.start stream.data.stop
  let stream ← get
  if hdr.checksum ≠ crc (stream.buf.take stream.data.stop) then
    throw (receiveError "crc mismatch in command")
  modify fun stream => { stream.advance with command := hdr.command }

/-- Looking at the receiver leaves it as it is. -/
theorem ReadM.get_eq (stream : SendStream) : (get : ReadM SendStream) stream = .ok stream stream := rfl

/-- A step that takes something out of the receiver does not fail. -/
theorem ReadM.modifyGet_eq {α : Type} (change : SendStream → α × SendStream) (stream : SendStream) :
    (modifyGet change : ReadM α) stream = .ok (change stream).1 (change stream).2 := rfl

/-- A step that changes the receiver does not fail. -/
theorem ReadM.modify_eq (change : SendStream → SendStream) (stream : SendStream) :
    (modify change : ReadM Unit) stream = .ok () (change stream) := rfl

/-- What a read does to the receiver, in its three cases. -/
theorem readExact_eq (start stop : Nat) (stream : SendStream) :
    readExact start stop stream =
      if ¬ (start ≤ stop ∧ stop ≤ stream.buf.length) then
        .error (.panic "range end index out of range for slice") stream
      else if stream.reader.length < stop - start then
        .error (.io (.kind .unexpectedEof))
          { stream with
            reader := []
            buf := stream.buf.take start ++ stream.reader ++
              stream.buf.drop (start + stream.reader.length) }
      else
        .ok ()
          { stream with
            reader := stream.reader.drop (stop - start)
            buf := stream.buf.take start ++ stream.reader.take (stop - start) ++
              stream.buf.drop stop } := by
  -- The three cases are those of the definition, with the state passed along by hand.
  unfold readExact
  by_cases inside : start ≤ stop ∧ stop ≤ stream.buf.length
  · by_cases short : stream.reader.length < stop - start
    · rw [if_neg (not_not.mpr inside), if_pos short]
      simp only [bind, EStateM.bind, ReadM.get_eq, if_neg (not_not.mpr inside), if_pos short]
      rfl
    · rw [if_neg (not_not.mpr inside), if_neg short]
      simp only [bind, EStateM.bind, ReadM.get_eq, if_neg (not_not.mpr inside), if_neg short]
      rfl
  · rw [if_pos inside]
    simp only [bind, EStateM.bind, ReadM.get_eq, if_pos inside]
    rfl

/-- A read that succeeds consumes exactly the width of its part of the buffer. -/
theorem readExact_ok {start stop : Nat} {stream after : SendStream}
    (done : readExact start stop stream = .ok () after) :
    stop - start ≤ stream.reader.length ∧
      after.reader = stream.reader.drop (stop - start) := by
  -- Of the three ways out of a read, only the last one is a success.
  rw [readExact_eq] at done
  split at done
  · cases done
  · split at done
    · cases done
    · rename_i enough
      cases done
      refine ⟨by omega, rfl⟩

/-- The one read of the stream header, and the two checks behind it. -/
theorem readHeader_eq (stream : SendStream) :
    readHeader stream =
      match readExact 0 streamHeaderSize stream with
      | .error failure after => .error failure after
      | .ok () filled =>
        let (found, version) := (filled.buf.take streamHeaderSize).splitAt magic.length
        if found ≠ magic then .error (receiveError "Unexpected header") filled
        else if UInt32.ofNat (leNat version) > supportedVersion then
          .error (receiveError "Unsuppored Version") filled
        else .ok () { filled with version := UInt32.ofNat (leNat version) } := by
  -- The binds of the state monad are unfolded, and then both sides branch alike.
  unfold readHeader
  simp only [bind, EStateM.bind, ReadM.get_eq]
  cases readExact 0 streamHeaderSize stream with
  | error failure after => rfl
  | ok done filled =>
    simp only
    split
    · rfl
    · split
      · rfl
      · rfl

/-- The two reads of a frame, one after the other. -/
theorem readCmd_eq (crc : Bytes → UInt32) (stream : SendStream) :
    readCmd crc stream =
      match readExact 0 cmdHeaderSize
          { stream with data := { stream.data with stop := 0 } } with
      | .error failure after => .error failure after
      | .ok () opened =>
        let (hdr, zeroed) := opened.takeHeader
        let ready := zeroed.expect hdr.length
        match readExact ready.data.start ready.data.stop ready with
        | .error failure after => .error failure after
        | .ok () filled =>
          if hdr.checksum ≠ crc (filled.buf.take filled.data.stop) then
            .error (receiveError "crc mismatch in command") filled
          else .ok () { filled.advance with command := hdr.command } := by
  -- The binds of the state monad are unfolded, and then both sides branch alike.
  unfold readCmd
  simp only [bind, EStateM.bind, ReadM.get_eq, ReadM.modifyGet_eq, ReadM.modify_eq]
  cases readExact 0 cmdHeaderSize { stream with data := { stream.data with stop := 0 } } with
  | error failure after => rfl
  | ok done opened =>
    simp only
    cases readExact _ _ (opened.takeHeader.2.expect opened.takeHeader.1.length) with
    | error failure after => rfl
    | ok done filled =>
      simp only
      split <;> rfl

/-- Moving the position leaves everything else of the receiver as it was. -/
theorem SendStream.advance_eq (stream : SendStream) :
    ∃ atomicPos, stream.advance =
      { stream with streamPos := stream.streamPos + stream.data.stop, atomicPos := atomicPos } := by
  -- The shared counter is the only other field that the move can write to.
  unfold SendStream.advance
  by_cases entered : stream.streamPos &&& blockMask ≠
      (stream.streamPos + stream.data.stop) &&& blockMask
  · simp only [if_pos entered]
    exact ⟨_, rfl⟩
  · simp only [if_neg entered]
    exact ⟨_, rfl⟩

/-- A frame that was read has at least its header taken from the reader. -/
theorem readCmd_consumes {crc : Bytes → UInt32} {stream after : SendStream}
    (done : readCmd crc stream = .ok () after) :
    after.reader.length + cmdHeaderSize ≤ stream.reader.length := by
  -- Both reads shorten the reader, and nothing between or behind them touches it.
  rw [readCmd_eq] at done
  split at done
  · cases done
  · rename_i opened openedEq
    have header := readExact_ok openedEq
    simp only at done
    split at done
    · cases done
    · rename_i filled filledEq
      have body := readExact_ok filledEq
      split at done
      · cases done
      · cases done
        obtain ⟨atomicPos, advanced⟩ := filled.advance_eq
        have opening : opened.reader.length = stream.reader.length - cmdHeaderSize := by
          rw [header.2, List.length_drop, Nat.sub_zero]
        have filling : filled.reader.length ≤ opened.reader.length := by
          rw [body.2, List.length_drop]
          exact Nat.sub_le _ _
        have enough : cmdHeaderSize ≤ stream.reader.length := header.1
        rw [advanced]
        simp only
        omega

/-- The loop of `read_and_handle`. -/
def handleLoop {σ : Type} (crc : Bytes → UInt32) (handler : HandleCmd σ) (stream : SendStream)
    (state : σ) : Outcome Unit × SendStream × σ :=
  match _ : readCmd crc stream with
  | .error failure stream => (.error failure, stream, state)
  | .ok () read =>
    match read.payload with
    | .error failure => (.error failure, read, state)
    | .ok data =>
      match handler read.command data read.version state with
      | (.error failure, state) => (.error failure, read, state)
      -- An answer of `None` breaks the loop.
      | (.ok none, state) => (.ok (), read, state)
      | (.ok (some ()), state) => handleLoop crc handler read state
termination_by stream.reader.length
decreasing_by
  have shorter := readCmd_consumes ‹readCmd crc stream = .ok () _›
  simp only [cmdHeaderSize] at shorter
  omega

/-- `SendStream::read_and_handle`. -/
def readAndHandle {σ : Type} (crc : Bytes → UInt32) (handler : HandleCmd σ)
    (stream : SendStream) (state : σ) : Outcome Unit × SendStream × σ :=
  match readHeader stream with
  | .error failure stream => (.error failure, stream, state)
  | .ok () stream =>
    match handleLoop crc handler stream state with
    | (.ok (), stream, state) => (.ok (), stream.storePos, state)
    | failed => failed

end Libbtrfs
