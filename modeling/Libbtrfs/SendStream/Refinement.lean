import Libbtrfs.SendStream.Decoder

/-! The receiver with its one reused buffer does what the reference reading of the stream does. -/

namespace Libbtrfs

/-- A receiver between two frames: its buffer holds a header, and payloads start behind it. -/
structure Ready (stream : SendStream) : Prop where
  start : stream.data.start = cmdHeaderSize
  room : cmdHeaderSize ≤ stream.buf.length

/-- What reading a frame leaves in the receiver. -/
structure HoldsFrame (before : SendStream) (frame : Frame) (rest : Bytes) (after : SendStream) :
    Prop where
  ready : Ready after
  reader : after.reader = rest
  command : after.command = frame.command
  version : after.version = before.version
  slice : getRange after.buf after.data.start after.data.stop = some frame.payload

/-- An input that is long enough begins with ten bytes. -/
private theorem header_bytes {input : Bytes} (enough : cmdHeaderSize ≤ input.length) :
    ∃ l0 l1 l2 l3 c0 c1 s0 s1 s2 s3 body,
      input = l0 :: l1 :: l2 :: l3 :: c0 :: c1 :: s0 :: s1 :: s2 :: s3 :: body := by
  -- Every shorter list is ruled out by its length.
  match input with
  | l0 :: l1 :: l2 :: l3 :: c0 :: c1 :: s0 :: s1 :: s2 :: s3 :: body =>
    exact ⟨l0, l1, l2, l3, c0, c1, s0, s1, s2, s3, body, rfl⟩
  | [] | [_] | [_, _] | [_, _, _] | [_, _, _, _] | [_, _, _, _, _] | [_, _, _, _, _, _]
  | [_, _, _, _, _, _, _] | [_, _, _, _, _, _, _, _] | [_, _, _, _, _, _, _, _, _] =>
    simp [cmdHeaderSize] at enough

/-- Reading a frame into the buffer is taking it off the input. -/
theorem readCmd_takeFrame (crc : Bytes → UInt32) {stream : SendStream} (ready : Ready stream) :
    match takeFrame crc stream.reader with
    | .error failure => ∃ after, readCmd crc stream = .error failure after
    | .ok (frame, rest) =>
      ∃ after, readCmd crc stream = .ok () after ∧ HoldsFrame stream frame rest after := by
  rw [readCmd_eq, readExact_eq]
  have room := ready.room
  rw [if_neg (by simp only [not_not]; exact ⟨Nat.zero_le _, room⟩)]
  by_cases short : stream.reader.length < cmdHeaderSize
  · -- The input ends inside the header of a frame.
    rw [takeFrame, if_pos short]
    simp only [Nat.sub_zero, if_pos short]
    exact ⟨_, rfl⟩
  · obtain ⟨l0, l1, l2, l3, c0, c1, s0, s1, s2, s3, body, input⟩ :=
      header_bytes (Nat.le_of_not_lt short)
    rw [takeFrame, if_neg short]
    simp only [Nat.sub_zero, if_neg short]
    simp only [input, SendStream.takeHeader, SendStream.expect, cmdHeaderSize, ready.start,
      List.take_succ_cons, List.take_zero, List.drop_succ_cons, List.drop_zero, List.cons_append,
      List.nil_append]
    -- The announced length is a 32-bit number, and the grown buffer has room for it.
    have width : (UInt32.ofNat (leNat [l0, l1, l2, l3])).toNat = leNat [l0, l1, l2, l3] :=
      UInt32.toNat_ofNat_of_lt' (by simpa using leNat_lt [l0, l1, l2, l3])
    rw [width]
    generalize leNat [l0, l1, l2, l3] = length
    obtain ⟨back, backEq⟩ : ∃ back, back = List.drop 10 stream.buf ++ List.replicate
        (10 + length - (l0 :: l1 :: l2 :: l3 :: c0 :: c1 :: 0 :: 0 :: 0 :: 0 ::
          List.drop 10 stream.buf).length) 0 := ⟨_, rfl⟩
    rw [← backEq]
    have roomy : length ≤ back.length := by
      rw [backEq]
      simp only [List.length_append, List.length_replicate, List.length_cons]
      omega
    have inside : ¬ ¬ (10 ≤ 10 + length ∧ 10 + length ≤
        (l0 :: l1 :: l2 :: l3 :: c0 :: c1 :: 0 :: 0 :: 0 :: 0 :: back).length) := by
      simp only [not_not, List.length_cons]
      omega
    rw [readExact_eq, if_neg inside]
    simp only [Nat.add_sub_cancel_left]
    by_cases cut : body.length < length
    · -- The input ends inside the payload.
      rw [if_pos cut, if_pos cut]
      exact ⟨_, rfl⟩
    · rw [if_neg cut, if_neg cut]
      have filled : (List.take length body).length = length := by
        rw [List.length_take]
        omega
      -- Behind the new payload the buffer still holds what was there before.
      have covered : List.take (10 + length) (List.take 10 (l0 :: l1 :: l2 :: l3 :: c0 :: c1 ::
          0 :: 0 :: 0 :: 0 :: back) ++ List.take length body ++ List.drop (10 + length)
          (l0 :: l1 :: l2 :: l3 :: c0 :: c1 :: 0 :: 0 :: 0 :: 0 :: back)) =
          l0 :: l1 :: l2 :: l3 :: c0 :: c1 :: 0 :: 0 :: 0 :: 0 :: List.take length body := by
        rw [List.take_left' (by rw [List.length_append, filled]; rfl)]
        rfl
      simp only [covered]
      by_cases wrong : UInt32.ofNat (leNat [s0, s1, s2, s3]) ≠
          crc (l0 :: l1 :: l2 :: l3 :: c0 :: c1 :: 0 :: 0 :: 0 :: 0 :: List.take length body)
      · rw [if_pos wrong, if_pos wrong]
        exact ⟨_, rfl⟩
      · rw [if_neg wrong, if_neg wrong]
        refine ⟨_, rfl, ?_⟩
        obtain ⟨atomicPos, advanced⟩ := SendStream.advance_eq
          { version := stream.version, command := stream.command, reader := List.drop length body,
            buf := List.take 10 (l0 :: l1 :: l2 :: l3 :: c0 :: c1 :: 0 :: 0 :: 0 :: 0 :: back) ++
              List.take length body ++ List.drop (10 + length)
              (l0 :: l1 :: l2 :: l3 :: c0 :: c1 :: 0 :: 0 :: 0 :: 0 :: back),
            data := { start := 10, stop := 10 + length }, streamPos := stream.streamPos,
            atomicPos := stream.atomicPos }
        rw [advanced]
        refine ⟨⟨rfl, ?_⟩, rfl, rfl, rfl, ?_⟩
        · simp [cmdHeaderSize]
        · simp only [List.append_assoc]
          exact getRange_middle _ _ _ rfl (by rw [filled])

/-- Where no frame can be taken, the read fails for that reason, and else it is read. -/
theorem readCmd_cases (crc : Bytes → UInt32) {stream : SendStream} (ready : Ready stream) :
    (∃ failure after, takeFrame crc stream.reader = .error failure ∧
        readCmd crc stream = .error failure after) ∨
      ∃ frame rest after, takeFrame crc stream.reader = .ok (frame, rest) ∧
        readCmd crc stream = .ok () after ∧ HoldsFrame stream frame rest after := by
  have step := readCmd_takeFrame crc ready
  -- Each branch of the match becomes one of the two cases.
  cases taken : takeFrame crc stream.reader with
  | error failure =>
    rw [taken] at step
    obtain ⟨after, refused⟩ := step
    exact Or.inl ⟨failure, after, rfl, refused⟩
  | ok pair =>
    obtain ⟨frame, rest⟩ := pair
    rw [taken] at step
    obtain ⟨after, read, holds⟩ := step
    exact Or.inr ⟨frame, rest, after, rfl, read, holds⟩

/-- A read that fails does so for the reason for which no frame can be taken. -/
theorem readCmd_error {crc : Bytes → UInt32} {stream after : SendStream} {failure : Failure}
    (ready : Ready stream) (failed : readCmd crc stream = .error failure after) :
    takeFrame crc stream.reader = .error failure := by
  -- The decoder takes a frame exactly when the command is read.
  obtain ⟨other, left, taken, refused⟩ | ⟨frame, rest, left, _, read, _⟩ :=
    readCmd_cases crc ready
  · rw [failed] at refused
    cases refused
    exact taken
  · rw [failed] at read
    cases read

/-- A read that succeeds leaves the frame that can be taken in the receiver. -/
theorem readCmd_ok {crc : Bytes → UInt32} {stream after : SendStream} (ready : Ready stream)
    (done : readCmd crc stream = .ok () after) :
    ∃ frame rest, takeFrame crc stream.reader = .ok (frame, rest) ∧
      HoldsFrame stream frame rest after := by
  -- The decoder takes a frame exactly when the command is read.
  obtain ⟨other, left, _, refused⟩ | ⟨frame, rest, left, taken, read, holds⟩ :=
    readCmd_cases crc ready
  · rw [done] at refused
    cases refused
  · rw [done] at read
    cases read
    exact ⟨frame, rest, taken, holds⟩

/-- A frame that was written in front of the rest is read into the receiver. -/
theorem readCmd_bytes (crc : Bytes → UInt32) {stream : SendStream} (ready : Ready stream)
    {frame : Frame} (fits : frame.Fits) {rest : Bytes}
    (next : stream.reader = frame.bytes crc ++ rest) :
    ∃ filled, readCmd crc stream = .ok () filled ∧ HoldsFrame stream frame rest filled := by
  -- The decoder takes off the frame that was written.
  have step := readCmd_takeFrame crc ready
  rw [next, takeFrame_bytes crc fits rest] at step
  exact step

/-- A receiver is ready for the first frame once the header of the stream was read. -/
theorem readHeader_takeHeader (input : Bytes) (atomicPos : Option Nat) :
    match takeHeader input with
    | .error failure => ∃ after, readHeader (.new input atomicPos) = .error failure after
    | .ok (version, rest) =>
      ∃ after, readHeader (.new input atomicPos) = .ok () after ∧ Ready after ∧
        after.reader = rest ∧ after.version = version ∧ after.command = 0 := by
  have room : (SendStream.new input atomicPos).buf.length = bufSzV1 := List.length_replicate
  have inside : ¬ ¬ (0 ≤ streamHeaderSize ∧
      streamHeaderSize ≤ (SendStream.new input atomicPos).buf.length) := by
    rw [room]
    decide
  rw [readHeader_eq, readExact_eq, if_neg inside]
  have reader : (SendStream.new input atomicPos).reader = input := rfl
  by_cases short : input.length < streamHeaderSize
  · rw [takeHeader, if_pos short]
    simp only [Nat.sub_zero, reader, if_pos short]
    exact ⟨_, rfl⟩
  · rw [takeHeader, if_neg short]
    simp only [Nat.sub_zero, reader, if_neg short]
    generalize (SendStream.new input atomicPos).buf = buf at *
    -- The first part of the buffer is now the first part of the input.
    have front : List.take streamHeaderSize (List.take 0 buf ++ List.take streamHeaderSize input ++
        List.drop streamHeaderSize buf) = List.take streamHeaderSize input := by
      rw [List.take_zero, List.nil_append, List.take_left' (by rw [List.length_take]; omega)]
    have found : (List.take streamHeaderSize input).take magic.length =
        input.take magic.length := by
      rw [List.take_take]
      rfl
    have announced : (List.take streamHeaderSize input).drop magic.length =
        (input.drop magic.length).take 4 := by
      rw [List.drop_take]
      rfl
    simp only [front, List.splitAt_eq, found, announced]
    by_cases foreign : input.take magic.length ≠ magic
    · rw [if_pos foreign, if_pos foreign]
      exact ⟨_, rfl⟩
    · rw [if_neg foreign, if_neg foreign]
      generalize UInt32.ofNat (leNat ((input.drop magic.length).take 4)) = version
      by_cases newer : version > supportedVersion
      · rw [if_pos newer, if_pos newer]
        exact ⟨_, rfl⟩
      · rw [if_neg newer, if_neg newer]
        refine ⟨_, rfl, ⟨rfl, ?_⟩, rfl, rfl, rfl⟩
        simp only [List.length_append, List.length_take, List.length_drop]
        rw [room]
        simp only [cmdHeaderSize, bufSzV1, streamHeaderSize]
        omega

/-- The loop ends with a command that cannot be read. -/
theorem handleLoop_error {σ : Type} {crc : Bytes → UInt32} {handler : HandleCmd σ}
    {stream after : SendStream} {state : σ} {failure : Failure}
    (refused : readCmd crc stream = .error failure after) :
    handleLoop crc handler stream state = (.error failure, after, state) := by
  -- The loop matches on what reading the command comes to.
  rw [handleLoop]
  split
  · rename_i found
    rw [refused] at found
    cases found
    rfl
  · rename_i found
    rw [refused] at found
    cases found

/-- The loop goes by the answer to a command that is read. -/
theorem handleLoop_ok {σ : Type} {crc : Bytes → UInt32} {handler : HandleCmd σ}
    {stream after : SendStream} {state : σ} {data : Bytes}
    (read : readCmd crc stream = .ok () after) (sliced : after.payload = .ok data) :
    handleLoop crc handler stream state =
      match handler after.command data after.version state with
      | (.error failure, state) => (.error failure, after, state)
      | (.ok none, state) => (.ok (), after, state)
      | (.ok (some ()), state) => handleLoop crc handler after state := by
  rw [handleLoop]
  split
  · rename_i found
    rw [read] at found
    cases found
  · rename_i found
    rw [read] at found
    cases found
    -- The handler refuses, stops or asks for the next command.
    cases answered : handler after.command data after.version state with
    | mk outcome next =>
      cases outcome with
      | error failure => simp only [sliced, answered]
      | ok answer =>
        cases answer with
        | none => simp only [sliced, answered]
        | some _ => simp only [sliced, answered]

/-- The payload that is handed out is that of the frame, and nothing of a longer one before it. -/
theorem HoldsFrame.payload {before after : SendStream} {frame : Frame} {rest : Bytes}
    (holds : HoldsFrame before frame rest after) : after.payload = .ok frame.payload := by
  -- The range of the payload is that of the frame.
  rw [SendStream.payload, holds.slice]

/-- The loop over the reused buffer is the loop over the frames of the input. -/
theorem handleLoop_decodeFrames {σ : Type} (crc : Bytes → UInt32) (handler : HandleCmd σ) :
    ∀ {stream : SendStream}, Ready stream → ∀ state,
      (handleLoop crc handler stream state).1 =
          (decodeFrames crc handler stream.version stream.reader state).result ∧
        (handleLoop crc handler stream state).2.2 =
          (decodeFrames crc handler stream.version stream.reader state).state := by
  intro stream
  -- The induction is on what is left of the input, which every frame shortens.
  induction left : stream.reader.length using Nat.strongRecOn generalizing stream with
  | ind remaining ih =>
    intro ready state
    obtain ⟨failure, after, taken, refused⟩ | ⟨frame, rest, after, taken, read, holds⟩ :=
      readCmd_cases crc ready
    · rw [handleLoop_error refused, decodeFrames_error taken]
      exact ⟨rfl, rfl⟩
    · rw [handleLoop_ok read holds.payload, decodeFrames_ok taken, holds.command, holds.version]
      -- Both loops now look at the same answer of the handler.
      cases handler frame.command frame.payload stream.version state with
      | mk answer state =>
        cases answer with
        | error failure => exact ⟨rfl, rfl⟩
        | ok goes =>
          cases goes with
          | none => exact ⟨rfl, rfl⟩
          | some _ =>
            have shorter : after.reader.length < remaining := by
              rw [← left, holds.reader]
              exact takeFrame_shorter taken
            have later := ih after.reader.length shorter rfl holds.ready state
            rw [holds.reader, holds.version] at later
            exact later

/-- Writing down the calls changes neither what they answer nor where they lead. -/
theorem decodeFrames_recording {σ : Type} (crc : Bytes → UInt32) (handler : HandleCmd σ)
    (version : UInt32) (input : Bytes) (state : σ) (calls : List Call) :
    decodeFrames crc handler.recording version input (state, calls) =
      let receipt := decodeFrames crc handler version input state
      ⟨receipt.result, (receipt.state, calls ++ receipt.calls), receipt.calls⟩ := by
  -- The induction is on the frames of the input, up to the one that is refused.
  induction input using frames.induct crc generalizing state calls with
  | case1 input failure taken =>
    rw [decodeFrames_error taken, decodeFrames_error taken]
    simp only [List.append_nil]
  | case2 input frame rest taken ih =>
    rw [decodeFrames_ok taken, decodeFrames_ok taken]
    simp only [HandleCmd.recording]
    cases handler frame.command frame.payload version state with
    | mk answer state =>
      cases answer with
      | error failure => rfl
      | ok goes =>
        cases goes with
        | none => rfl
        | some _ =>
          have later := ih state (calls ++ [frame.call version])
          simp only [Frame.call] at later ⊢
          rw [later]
          simp only [List.append_assoc, List.cons_append, List.nil_append]

/-- A receive whose header is refused returns the reason. -/
private theorem readAndHandle_error {σ : Type} {crc : Bytes → UInt32} {handler : HandleCmd σ}
    {stream after : SendStream} {state : σ} {failure : Failure}
    (refused : readHeader stream = .error failure after) :
    readAndHandle crc handler stream state = (.error failure, after, state) := by
  -- There is nothing behind a header that is refused.
  rw [readAndHandle, refused]

/-- Behind its header a receive is the loop over the frames. -/
private theorem readAndHandle_ok {σ : Type} (crc : Bytes → UInt32) (handler : HandleCmd σ)
    {stream after : SendStream} (state : σ) (read : readHeader stream = .ok () after) :
    (readAndHandle crc handler stream state).1 = (handleLoop crc handler after state).1 ∧
      (readAndHandle crc handler stream state).2.2 =
        (handleLoop crc handler after state).2.2 := by
  rw [readAndHandle, read]
  -- Storing the position at the end touches neither the result nor the handler.
  cases ended : handleLoop crc handler after state with
  | mk result later =>
    cases result with
    | error failure => simp only [ended, and_self]
    | ok _ => simp only [ended, and_self]

/-- Where no header can be taken, the read fails for that reason, and else it is read. -/
theorem readHeader_cases (input : Bytes) (atomicPos : Option Nat) :
    (∃ failure after, takeHeader input = .error failure ∧
        readHeader (.new input atomicPos) = .error failure after) ∨
      ∃ version rest after, takeHeader input = .ok (version, rest) ∧
        readHeader (.new input atomicPos) = .ok () after ∧ Ready after ∧ after.reader = rest ∧
        after.version = version ∧ after.command = 0 := by
  have header := readHeader_takeHeader input atomicPos
  -- As for a frame, each branch of the match becomes a case.
  cases taken : takeHeader input with
  | error failure =>
    rw [taken] at header
    obtain ⟨after, refused⟩ := header
    exact Or.inl ⟨failure, after, rfl, refused⟩
  | ok pair =>
    obtain ⟨version, rest⟩ := pair
    rw [taken] at header
    obtain ⟨after, read, opened⟩ := header
    exact Or.inr ⟨version, rest, after, rfl, read, opened⟩

/-- The receive of a whole stream ends as the reference does, for one handler. -/
theorem readAndHandle_decodeWith {σ : Type} (crc : Bytes → UInt32) (handler : HandleCmd σ)
    (input : Bytes) (atomicPos : Option Nat) (state : σ) :
    (readAndHandle crc handler (.new input atomicPos) state).1 =
        (decode crc handler input state).result ∧
      (readAndHandle crc handler (.new input atomicPos) state).2.2 =
        (decode crc handler input state).state := by
  -- Behind the header the loop and the decoder have the same bytes to go through.
  rw [decode]
  obtain ⟨failure, after, taken, refused⟩ |
      ⟨version, rest, after, taken, read, ready, reader, announced, _⟩ :=
    readHeader_cases input atomicPos
  · rw [readAndHandle_error refused, taken]
    exact ⟨rfl, rfl⟩
  · rw [taken]
    have loop := handleLoop_decodeFrames crc handler ready state
    rw [reader, announced] at loop
    have whole := readAndHandle_ok crc handler state read
    exact ⟨whole.1.trans loop.1, whole.2.trans loop.2⟩

/-- A whole reference receive with the calls written down. -/
theorem decode_recording {σ : Type} (crc : Bytes → UInt32) (handler : HandleCmd σ)
    (input : Bytes) (state : σ) :
    decode crc handler.recording input (state, []) =
      let receipt := decode crc handler input state
      ⟨receipt.result, (receipt.state, receipt.calls), receipt.calls⟩ := by
  -- The record grows behind the header alone.
  unfold decode
  cases takeHeader input with
  | error failure => rfl
  | ok pair => exact decodeFrames_recording crc handler pair.1 pair.2 state []

/--
The receiver makes the calls of the reference reading and ends as it does.

The checksum and the handler are arbitrary, and so is every byte of the input.
-/
theorem readAndHandle_decode {σ : Type} (crc : Bytes → UInt32) (handler : HandleCmd σ)
    (input : Bytes) (atomicPos : Option Nat) (state : σ) :
    let receipt := decode crc handler input state
    let plain := readAndHandle crc handler (.new input atomicPos) state
    let noted := readAndHandle crc handler.recording (.new input atomicPos) (state, [])
    plain.1 = receipt.result ∧ plain.2.2 = receipt.state ∧
      noted.1 = receipt.result ∧ noted.2.2 = (receipt.state, receipt.calls) := by
  -- The recording handler is one handler among all, so the simulation covers it as well.
  obtain ⟨plainResult, plainState⟩ := readAndHandle_decodeWith crc handler input atomicPos state
  obtain ⟨notedResult, notedState⟩ :=
    readAndHandle_decodeWith crc handler.recording input atomicPos (state, [])
  have calls := decode_recording crc handler input state
  rw [calls] at notedResult notedState
  exact ⟨plainResult, plainState, notedResult, notedState⟩

end Libbtrfs
