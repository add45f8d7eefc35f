import Libbtrfs.SendStream.ReadStream

/-! The reference reading of a send stream: a header, and then frame after frame of it. -/

namespace Libbtrfs

/-- What a frame carries: the number of a command and the bytes of its attributes. -/
structure Frame where
  command : UInt16
  payload : Bytes
  deriving DecidableEq

namespace Frame

/-- The ten bytes in front of the payload, with the given checksum. -/
def header (frame : Frame) (checksum : UInt32) : Bytes :=
  leBytes 4 frame.payload.length ++ (leBytes 2 frame.command.toNat ++ leBytes 4 checksum.toNat)

/-- The checksum covers the header with its checksum field zeroed, and the payload. -/
def checksum (crc : Bytes → UInt32) (frame : Frame) : UInt32 :=
  crc (frame.header 0 ++ frame.payload)

/-- The bytes of a frame. -/
def bytes (crc : Bytes → UInt32) (frame : Frame) : Bytes :=
  frame.header (frame.checksum crc) ++ frame.payload

/-- The length of the payload fits the field that the header has for it. -/
def Fits (frame : Frame) : Prop := frame.payload.length < 2 ^ 32

instance (frame : Frame) : Decidable frame.Fits :=
  inferInstanceAs (Decidable (frame.payload.length < 2 ^ 32))

end Frame

/-- The frame at the front of the input, if it is complete and its checksum is right. -/
def takeFrame (crc : Bytes → UInt32) (input : Bytes) : Outcome (Frame × Bytes) :=
  if input.length < cmdHeaderSize then .error (.io (.kind .unexpectedEof))
  else
    let length := leNat (input.take 4)
    let command := UInt16.ofNat (leNat ((input.drop 4).take 2))
    let checksum := UInt32.ofNat (leNat ((input.drop 6).take 4))
    let body := input.drop cmdHeaderSize
    if body.length < length then .error (.io (.kind .unexpectedEof))
    else if checksum ≠ crc (input.take 6 ++ [0, 0, 0, 0] ++ body.take length) then
      .error (receiveError "crc mismatch in command")
    else .ok (⟨command, body.take length⟩, body.drop length)

/-- The version announced at the front of the input, if the magic string and it are accepted. -/
def takeHeader (input : Bytes) : Outcome (UInt32 × Bytes) :=
  if input.length < streamHeaderSize then .error (.io (.kind .unexpectedEof))
  else if input.take magic.length ≠ magic then .error (receiveError "Unexpected header")
  else
    let version := UInt32.ofNat (leNat ((input.drop magic.length).take 4))
    if version > supportedVersion then .error (receiveError "Unsuppored Version")
    else .ok (version, input.drop streamHeaderSize)

/-- The header of a stream of the given version. -/
def streamHeader (version : UInt32) : Bytes := magic ++ leBytes 4 version.toNat

/-- Taking a frame leaves less of the input. -/
theorem takeFrame_shorter {crc : Bytes → UInt32} {input rest : Bytes} {frame : Frame}
    (taken : takeFrame crc input = .ok (frame, rest)) : rest.length < input.length := by
  -- The header alone is ten bytes.
  unfold takeFrame at taken
  split at taken
  · cases taken
  · rename_i whole
    simp only at taken
    split at taken
    · cases taken
    · split at taken
      · cases taken
      · cases taken
        simp only [List.length_drop, cmdHeaderSize] at whole ⊢
        omega

/-- A frame is taken off three fields, its payload and what is behind it. -/
private theorem takeFrame_fields (crc : Bytes → UInt32) {lengthField commandField sumField : Bytes}
    (payload rest : Bytes) (lengthWidth : lengthField.length = 4)
    (commandWidth : commandField.length = 2) (sumWidth : sumField.length = 4)
    (length : leNat lengthField = payload.length)
    (matching : UInt32.ofNat (leNat sumField) =
      crc (lengthField ++ (commandField ++ [0, 0, 0, 0]) ++ payload)) :
    takeFrame crc (lengthField ++ (commandField ++ sumField) ++ payload ++ rest) =
      .ok (⟨UInt16.ofNat (leNat commandField), payload⟩, rest) := by
  -- With the three fields written out byte by byte, every cut computes.
  match lengthField, lengthWidth, commandField, commandWidth, sumField, sumWidth with
  | [l0, l1, l2, l3], _, [c0, c1], _, [s0, s1, s2, s3], _ =>
    have enough : ¬ (payload ++ rest).length < payload.length := by
      rw [List.length_append]
      omega
    simp only [List.cons_append, List.nil_append] at matching
    simp only [takeFrame, cmdHeaderSize, List.cons_append, List.nil_append, List.take_succ_cons,
      List.take_zero, List.drop_succ_cons, List.drop_zero, length, List.take_left,
      List.drop_left, matching, ne_eq, not_true_eq_false, if_false, if_neg enough]
    rw [if_neg (by simp only [List.length_cons]; omega)]

/-- Where no frame can be taken, the reason is an I/O error. -/
theorem takeFrame_io {crc : Bytes → UInt32} {input : Bytes} {failure : Failure}
    (refused : takeFrame crc input = .error failure) : ∃ error, failure = .io error := by
  -- The input is too short twice, or its checksum is wrong.
  unfold takeFrame at refused
  split at refused
  · cases refused
    exact ⟨_, rfl⟩
  · simp only at refused
    split at refused
    · cases refused
      exact ⟨_, rfl⟩
    · split at refused
      · cases refused
        exact ⟨_, rfl⟩
      · cases refused

/-- Where no header can be taken, the reason is an I/O error. -/
theorem takeHeader_io {input : Bytes} {failure : Failure}
    (refused : takeHeader input = .error failure) : ∃ error, failure = .io error := by
  -- The input is too short, it is no stream, or it is of a later version.
  unfold takeHeader at refused
  split at refused
  · cases refused
    exact ⟨_, rfl⟩
  · split at refused
    · cases refused
      exact ⟨_, rfl⟩
    · simp only at refused
      split at refused
      · cases refused
        exact ⟨_, rfl⟩
      · cases refused

/-- A frame in front of anything is taken off as it was written. -/
theorem takeFrame_bytes (crc : Bytes → UInt32) {frame : Frame} (fits : frame.Fits)
    (rest : Bytes) : takeFrame crc (frame.bytes crc ++ rest) = .ok (frame, rest) := by
  -- Each of the three fields stands for what it was written from.
  have length : leNat (leBytes 4 frame.payload.length) = frame.payload.length :=
    leNat_leBytes fits
  have command : UInt16.ofNat (leNat (leBytes 2 frame.command.toNat)) = frame.command := by
    rw [leNat_leBytes (show frame.command.toNat < 256 ^ 2 from frame.command.toNat_lt)]
    exact UInt16.ofNat_toNat
  have checksum : UInt32.ofNat (leNat (leBytes 4 (frame.checksum crc).toNat)) =
      frame.checksum crc := by
    rw [leNat_leBytes (show (frame.checksum crc).toNat < 256 ^ 4 from
      (frame.checksum crc).toNat_lt)]
    exact UInt32.ofNat_toNat
  have taken := takeFrame_fields crc frame.payload rest (leBytes_length 4 _) (leBytes_length 2 _)
    (leBytes_length 4 _) length checksum
  rw [command] at taken
  exact taken

/-- A header of an accepted version in front of anything is taken off as it was written. -/
theorem takeHeader_bytes {version : UInt32} (supported : version ≤ supportedVersion)
    (rest : Bytes) : takeHeader (streamHeader version ++ rest) = .ok (version, rest) := by
  -- The magic string is there, and the four bytes behind it stand for an accepted version.
  have value : UInt32.ofNat (leNat (leBytes 4 version.toNat)) = version := by
    rw [leNat_leBytes (show version.toNat < 256 ^ 4 from version.toNat_lt)]
    exact UInt32.ofNat_toNat
  have versionWidth : (leBytes 4 version.toNat).length = 4 := leBytes_length _ _
  have accepted : ¬ version > supportedVersion := UInt32.not_lt.mpr supported
  unfold streamHeader takeHeader
  generalize leBytes 4 version.toNat = versionField at *
  match versionField, versionWidth with
  | [v0, v1, v2, v3], _ =>
    simp [magic, streamHeaderSize, value, accepted]

/-- All frames of an input, up to the first place where none can be taken. -/
def frames (crc : Bytes → UInt32) (input : Bytes) : List Frame :=
  match _ : takeFrame crc input with
  | .error _ => []
  | .ok (frame, rest) => frame :: frames crc rest
termination_by input.length
decreasing_by exact takeFrame_shorter ‹takeFrame crc input = .ok _›

/-- An input that holds no frame at its front has no frames at all. -/
theorem frames_error {crc : Bytes → UInt32} {input : Bytes} {failure : Failure}
    (refused : takeFrame crc input = .error failure) : frames crc input = [] := by
  -- The first frame that is refused ends the list.
  rw [frames]
  split
  · rfl
  · rename_i found
    rw [refused] at found
    cases found

/-- The frames of an input are the one at its front and those of the rest. -/
theorem frames_ok {crc : Bytes → UInt32} {input rest : Bytes} {frame : Frame}
    (taken : takeFrame crc input = .ok (frame, rest)) :
    frames crc input = frame :: frames crc rest := by
  -- The first frame that is taken is the head of the list.
  rw [frames]
  split
  · rename_i found
    rw [taken] at found
    cases found
  · rename_i found
    rw [taken] at found
    cases found
    rfl

/-- The call that hands a frame to the handler. -/
def Frame.call (version : UInt32) (frame : Frame) : Call := ⟨frame.command, frame.payload, version⟩

/-- What a receive leaves behind: its result, the state of the handler, and the calls made. -/
structure Receipt (σ : Type) where
  result : Outcome Unit
  state : σ
  calls : List Call

/-- Frame after frame goes to the handler, until it answers `None` or something fails. -/
def decodeFrames {σ : Type} (crc : Bytes → UInt32) (handler : HandleCmd σ) (version : UInt32)
    (input : Bytes) (state : σ) : Receipt σ :=
  match _ : takeFrame crc input with
  | .error failure => ⟨.error failure, state, []⟩
  | .ok (frame, rest) =>
    match handler frame.command frame.payload version state with
    | (.error failure, state) => ⟨.error failure, state, [frame.call version]⟩
    | (.ok none, state) => ⟨.ok (), state, [frame.call version]⟩
    | (.ok (some ()), state) =>
      let later := decodeFrames crc handler version rest state
      ⟨later.result, later.state, frame.call version :: later.calls⟩
termination_by input.length
decreasing_by exact takeFrame_shorter ‹takeFrame crc input = .ok _›

/-- The reference receive of a whole stream. -/
def decode {σ : Type} (crc : Bytes → UInt32) (handler : HandleCmd σ) (input : Bytes) (state : σ) :
    Receipt σ :=
  match takeHeader input with
  | .error failure => ⟨.error failure, state, []⟩
  | .ok (version, rest) => decodeFrames crc handler version rest state

/-- An input that holds no frame at its front ends the receive. -/
theorem decodeFrames_error {σ : Type} {crc : Bytes → UInt32} {handler : HandleCmd σ}
    {version : UInt32} {input : Bytes} {state : σ} {failure : Failure}
    (refused : takeFrame crc input = .error failure) :
    decodeFrames crc handler version input state = ⟨.error failure, state, []⟩ := by
  -- The first frame that is refused ends the loop.
  rw [decodeFrames]
  split
  · rename_i found
    rw [refused] at found
    cases found
    rfl
  · rename_i found
    rw [refused] at found
    cases found

/-- A frame at the front of the input goes to the handler, whose answer decides how it goes on. -/
theorem decodeFrames_ok {σ : Type} {crc : Bytes → UInt32} {handler : HandleCmd σ}
    {version : UInt32} {input rest : Bytes} {state : σ} {frame : Frame}
    (taken : takeFrame crc input = .ok (frame, rest)) :
    decodeFrames crc handler version input state =
      match handler frame.command frame.payload version state with
      | (.error failure, state) => ⟨.error failure, state, [frame.call version]⟩
      | (.ok none, state) => ⟨.ok (), state, [frame.call version]⟩
      | (.ok (some ()), state) =>
        let later := decodeFrames crc handler version rest state
        ⟨later.result, later.state, frame.call version :: later.calls⟩ := by
  -- The first frame that is taken goes to the handler.
  rw [decodeFrames]
  split
  · rename_i found
    rw [taken] at found
    cases found
  · rename_i found
    rw [taken] at found
    cases found
    rfl

end Libbtrfs
