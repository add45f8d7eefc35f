import Libbtrfs.SendStream.Refinement

/-! A stream that was written from typed commands is received as the same commands. -/

namespace Libbtrfs

/-- What a sender puts into a payload: chosen attributes, and data without a length at the end. -/
structure Wire where
  schema : Schema
  slots : schema.Slots
  data : Option Bytes

/-- A command that the macro declared is written with all of its attributes. -/
def Wire.ofMacro {α : Type} [MacroCmd α] (cmd : α) : Wire where
  schema := MacroCmd.schema α
  slots := (MacroCmd.schema α).present (MacroCmd.values cmd)
  data := none

/-- How a command is written in a stream of the given version, if that version has it. -/
def SendCommand.wire (version : UInt32) : SendCommand → Option Wire
  | .subvol cmd => some (.ofMacro cmd)
  | .snapshot cmd => some (.ofMacro cmd)
  | .mkfile cmd => some (.ofMacro cmd)
  | .mkdir cmd => some (.ofMacro cmd)
  | .mknod cmd => some (.ofMacro cmd)
  | .mkfifo cmd => some (.ofMacro cmd)
  | .mksock cmd => some (.ofMacro cmd)
  | .symlink cmd => some (.ofMacro cmd)
  | .rename cmd => some (.ofMacro cmd)
  | .link cmd => some (.ofMacro cmd)
  | .unlink cmd => some (.ofMacro cmd)
  | .rmdir cmd => some (.ofMacro cmd)
  | .setXattr cmd => some (.ofMacro cmd)
  | .removeXattr cmd => some (.ofMacro cmd)
  | .write cmd =>
    if version = 2 then
      some ⟨WriteCmd.dataSchema, (some cmd.path, some cmd.fileOffset, ()), some cmd.data⟩
    else some (.ofMacro cmd)
  | .clone cmd => some (.ofMacro cmd)
  | .truncate cmd => some (.ofMacro cmd)
  | .chmod cmd => some (.ofMacro cmd)
  | .chown cmd => some (.ofMacro cmd)
  | .utimes cmd => some (.ofMacro cmd)
  | .endCmd _ => some ⟨[], (), none⟩
  | .updateExtent cmd => some (.ofMacro cmd)
  | .fallocate cmd => some (.ofMacro cmd)
  | .fileattr cmd => some (.ofMacro cmd)
  | .encodedWrite cmd =>
    if version = 2 then
      some ⟨EncodedWriteCmd.dataSchema,
        (some cmd.path, some cmd.fileOffset, some cmd.unencodedFileLen, some cmd.unencodedLen,
          some cmd.unencodedOffset, cmd.compression, cmd.encryption, ()), some cmd.data⟩
    else none

/--
A payload holds the chosen attributes in some order, and then the data if there is any.

Attributes that the command does not know may stand anywhere in between.
-/
def Wire.Encodes (wire : Wire) (payload : Bytes) : Prop :=
  wire.schema.Encodable wire.slots ∧ ∃ tlvs : List Tlv,
    ((tlvs.filter fun tlv => tlv.type ∈ wire.schema.codes).map Tlv.pair).Perm
      (wire.schema.encode wire.slots) ∧
    match wire.data with
    | none => payload = tlvBytes tlvs
    | some data =>
      -- What follows a type of this number is the data, so it cannot stand in between.
      (∀ tlv ∈ tlvs, tlv.type ≠ Attr.data.code) ∧
        payload = tlvBytes tlvs ++ (leBytes 2 Attr.data.code.toNat ++ data)

/-- A frame that carries a command in a stream of the given version. -/
def SendCommand.InFrame (version : UInt32) (command : SendCommand) (frame : Frame) : Prop :=
  frame.command = command.key ∧ frame.Fits ∧
    ∃ wire, command.wire version = some wire ∧ wire.Encodes frame.payload

/-- The bytes of a whole stream: its header, and one frame for each of its commands. -/
def IsStream (crc : Bytes → UInt32) (version : UInt32) (commands : List SendCommand)
    (input : Bytes) : Prop :=
  ∃ frames : List Frame, List.Forall₂ (SendCommand.InFrame version) commands frames ∧
    input = streamHeader version ++ frames.flatMap (Frame.bytes crc)

/-- Attributes in any order are scanned into the slots they were written from. -/
theorem Schema.scan_encodes (schema : Schema) (distinct : schema.codes.Nodup)
    (slots : schema.Slots) (encodable : schema.Encodable slots) (tlvs : List Tlv)
    (written : ((tlvs.filter fun tlv => tlv.type ∈ schema.codes).map Tlv.pair).Perm
      (schema.encode slots)) :
    schema.scan (tlvBytes tlvs) schema.empty = .ok slots := by
  -- The payload splits into exactly the triples that were written, with nothing behind them.
  have split := @splitTlvs_append (fun _ => false) tlvs [] (fun _ _ => rfl)
  rw [List.append_nil, @splitTlvs_none (fun _ => false) [] rfl, List.append_nil] at split
  rw [Schema.scan, split, assignAll_encode schema distinct slots encodable tlvs written]
  rfl

/-- The loop over a payload is a scan of it. -/
private theorem tlvLoop_scan (schema : Schema) (payload : Bytes) :
    tlvLoop schema payload 0 4 schema.empty = schema.scan payload schema.empty :=
  tlvLoop_eq schema payload 0 schema.empty (Nat.zero_le _)

/-- The loop of `parse_tlv_v2` scans the whole payload. -/
theorem dataLoop_scan (schema : Schema) (payload : Bytes) :
    dataLoop schema payload 0 2 schema.empty = schema.scanData payload schema.empty :=
  dataLoop_eq schema payload 0 schema.empty (Nat.zero_le _)

/-- A payload that holds all attributes of a macro command is parsed into that command. -/
theorem parseTlv_encodes {α : Type} [MacroCmd α] (cmd : α) {payload : Bytes}
    (encodes : (Wire.ofMacro cmd).Encodes payload) : SendCmd.parseTlv payload = .ok cmd := by
  -- The loop fills every slot, so that nothing is missing and the struct is built back.
  obtain ⟨encodable, tlvs, written, rfl⟩ := encodes
  have filled : tlvLoop (MacroCmd.schema α) (tlvBytes tlvs) 0 4 (MacroCmd.schema α).empty =
      .ok ((MacroCmd.schema α).present (MacroCmd.values cmd)) := by
    rw [tlvLoop_scan]
    exact Schema.scan_encodes _ MacroCmd.distinct _ encodable tlvs written
  have parsed : (MacroCmd.schema α).parseTlv (tlvBytes tlvs) = .ok (MacroCmd.values cmd) := by
    rw [Schema.parseTlv, filled]
    simp only [bind, Except.bind, Schema.complete_present]
  simp only [SendCmd.parseTlv, parsed]
  exact congrArg Except.ok (MacroCmd.ofValues_values cmd)

/-- No triple is split off the data. -/
private theorem splitTlvs_data (data : Bytes) :
    splitTlvs isData (leBytes 2 Attr.data.code.toNat ++ data) =
      ([], leBytes 2 Attr.data.code.toNat ++ data) := by
  -- Whatever the data looks like, a triple in front of it has the number that stops the split.
  cases taken : takeTlv (leBytes 2 Attr.data.code.toNat ++ data) with
  | none => exact splitTlvs_none taken
  | some pair =>
    obtain ⟨tlv, rest⟩ := pair
    have stops : isData tlv.type = true := by
      match data with
      | [] | [_] => cases taken
      | llo :: lhi :: tail =>
        simp only [leBytes, List.cons_append, List.nil_append, takeTlv] at taken
        split at taken
        · cases taken
          rfl
        · cases taken
    exact splitTlvs_stop taken stops

/-- In front of the data all triples are split off that are no data themselves. -/
theorem splitTlvs_grammar {tlvs : List Tlv} (before : ∀ tlv ∈ tlvs, tlv.type ≠ Attr.data.code)
    (data : Bytes) :
    splitTlvs isData (tlvBytes tlvs ++ (leBytes 2 Attr.data.code.toNat ++ data)) =
      (tlvs, leBytes 2 Attr.data.code.toNat ++ data) := by
  -- The split takes all triples and stops at the number of the data.
  have goes : ∀ tlv ∈ tlvs, isData tlv.type = false := by
    intro tlv member
    simpa [isData] using before tlv member
  have split := splitTlvs_append (leBytes 2 Attr.data.code.toNat ++ data) goes
  rwa [splitTlvs_data data, List.append_nil] at split

/-- Behind its number the data takes all that is left. -/
theorem dataEnd_data (data : Bytes) :
    dataEnd (leBytes 2 Attr.data.code.toNat ++ data) = .ok (some data) := by
  -- The number is that of the data.
  obtain ⟨lo, hi, number, back⟩ := u16FromLeBytes_leBytes Attr.data.code
  rw [number, List.cons_append, List.cons_append, List.nil_append, dataEnd, if_pos back]

/-- Attributes in any order with data behind them are scanned into what they were written from. -/
theorem Schema.scanData_encodes (schema : Schema) (distinct : schema.codes.Nodup)
    (slots : schema.Slots) (encodable : schema.Encodable slots) (tlvs : List Tlv)
    (written : ((tlvs.filter fun tlv => tlv.type ∈ schema.codes).map Tlv.pair).Perm
      (schema.encode slots))
    (before : ∀ tlv ∈ tlvs, tlv.type ≠ Attr.data.code) (data : Bytes) :
    schema.scanData (tlvBytes tlvs ++ (leBytes 2 Attr.data.code.toNat ++ data)) schema.empty =
      .ok (slots, some data) := by
  -- The triples are assigned, and the data behind them takes the rest.
  rw [Schema.scanData, splitTlvs_grammar before data,
    assignAll_encode schema distinct slots encodable tlvs written]
  simp only [bind, Except.bind, dataEnd_data]
  rfl

/-- A version 2 payload of a write is parsed into that write. -/
theorem WriteCmd.parseTlvV2_encodes (cmd : WriteCmd) {payload : Bytes}
    (encodes : Wire.Encodes ⟨WriteCmd.dataSchema, (some cmd.path, some cmd.fileOffset, ()),
      some cmd.data⟩ payload) : WriteCmd.parseTlvV2 payload = .ok cmd := by
  -- The loop reads the triples in front of the data one after the other.
  obtain ⟨encodable, tlvs, written, before, rfl⟩ := encodes
  rw [WriteCmd.parseTlvV2, dataLoop_scan,
    WriteCmd.dataSchema.scanData_encodes (by decide) _ encodable tlvs written before cmd.data]
  rfl

/-- A version 2 payload of an encoded write is parsed into that encoded write. -/
theorem EncodedWriteCmd.parseTlvV2_encodes (cmd : EncodedWriteCmd) {payload : Bytes}
    (encodes : Wire.Encodes ⟨EncodedWriteCmd.dataSchema,
      (some cmd.path, some cmd.fileOffset, some cmd.unencodedFileLen, some cmd.unencodedLen,
        some cmd.unencodedOffset, cmd.compression, cmd.encryption, ()), some cmd.data⟩ payload) :
    EncodedWriteCmd.parseTlvV2 payload = .ok cmd := by
  -- The loop reads the triples in front of the data one after the other.
  obtain ⟨encodable, tlvs, written, before, rfl⟩ := encodes
  rw [EncodedWriteCmd.parseTlvV2, dataLoop_scan, EncodedWriteCmd.dataSchema.scanData_encodes
    (by decide) _ encodable tlvs written before cmd.data]
  rfl

/-- A command of the macro is parsed from its payload, and then named by its constructor. -/
private theorem parseTlv_tagged {α : Type} [MacroCmd α] (tag : α → SendCommand) (cmd : α)
    {payload : Bytes} (encodes : (Wire.ofMacro cmd).Encodes payload) :
    tag <$> (SendCmd.parseTlv payload : Outcome α) = .ok (tag cmd) :=
  congrArg (tag <$> ·) (parseTlv_encodes cmd encodes)

/-- The payload of a frame is parsed into the command that the frame was written from. -/
theorem parseStage_inFrame {version : UInt32} {command : SendCommand} {frame : Frame}
    (carried : command.InFrame version frame) :
    parseStage frame.command frame.payload version = .ok command := by
  obtain ⟨key, fits, wire, chosen, encodes⟩ := carried
  rw [key]
  -- The two writes are parsed by the version, and all other commands by the macro.
  cases command with
  | subvol cmd | snapshot cmd | mkfile cmd | mkdir cmd | mknod cmd | mkfifo cmd | mksock cmd
  | symlink cmd | rename cmd | link cmd | unlink cmd | rmdir cmd | setXattr cmd
  | removeXattr cmd | clone cmd | truncate cmd | chmod cmd | chown cmd | utimes cmd
  | updateExtent cmd | fallocate cmd | fileattr cmd =>
    cases chosen
    exact parseTlv_tagged _ cmd encodes
  | endCmd cmd => rfl
  | write cmd =>
    simp only [SendCommand.wire] at chosen
    by_cases second : version = 2
    · rw [if_pos second] at chosen
      cases chosen
      have parsed := cmd.parseTlvV2_encodes encodes
      simp only [parseStage, SendCommand.key, SendCmd.key, MacroCmd.key, if_pos second, parsed]
      rfl
    · rw [if_neg second] at chosen
      cases chosen
      have parsed := parseTlv_encodes cmd encodes
      simp only [parseStage, SendCommand.key, SendCmd.key, MacroCmd.key, if_neg second, parsed]
      rfl
  | encodedWrite cmd =>
    simp only [SendCommand.wire] at chosen
    by_cases second : version = 2
    · rw [if_pos second] at chosen
      cases chosen
      have parsed := cmd.parseTlvV2_encodes encodes
      simp only [parseStage, SendCommand.key, SendCmd.key, if_pos second, parsed]
      rfl
    · rw [if_neg second] at chosen
      cases chosen

namespace StreamHandler

variable {σ : Type}

/-- Every method wants the next command, except that the end of the stream stops the receive. -/
def StopsAtEnd (handler : StreamHandler σ) : Prop :=
  ∀ command state, (handler.method command state).1 =
    match command with
    | .endCmd _ => .ok none
    | _ => .ok (some ())

/-- The state of a handler after a sequence of method calls. -/
def after (handler : StreamHandler σ) (commands : List SendCommand) (state : σ) : σ :=
  commands.foldl (fun state command => (handler.method command state).2) state

/-- A frame that carries a command goes to the method of that command. -/
theorem handleCmd_inFrame (handler : StreamHandler σ) {version : UInt32} {command : SendCommand}
    {frame : Frame} (carried : command.InFrame version frame) (state : σ) :
    handler.handleCmd frame.command frame.payload version state =
      ((handler.method command state).1.mapError .io, (handler.method command state).2) := by
  -- The command parses to itself, and then its method is called.
  rw [handleCmd, parseStage_inFrame carried]

end StreamHandler

/-- The frames of some commands are decoded into these commands, up to the one that stops. -/
private theorem decodeFrames_commands {σ : Type} (crc : Bytes → UInt32)
    {handler : StreamHandler σ} (stops : handler.StopsAtEnd) {version : UInt32}
    {commands : List SendCommand} {frames : List Frame}
    (carried : List.Forall₂ (SendCommand.InFrame version) (commands ++ [.endCmd {}]) frames)
    (inside : ∀ command ∈ commands, command ≠ .endCmd {}) (state : σ)
    (calls : List SendCommand) :
    let receipt := decodeFrames crc handler.recording.handleCmd version
      (frames.flatMap (Frame.bytes crc)) (state, calls)
    receipt.result = .ok () ∧ receipt.state =
      (handler.after (commands ++ [.endCmd {}]) state, calls ++ (commands ++ [.endCmd {}])) := by
  -- The induction peels off one command and its frame at a time, up to the end of the stream.
  induction commands generalizing frames state calls with
  | nil =>
    cases carried with
    | cons carries nothing =>
      cases nothing
      have taken := takeFrame_bytes crc carries.2.1 []
      have answer := stops (.endCmd {}) state
      simp only [List.flatMap_cons, List.flatMap_nil]
      rw [decodeFrames_ok taken, StreamHandler.handleCmd_inFrame _ carries]
      simp only [StreamHandler.recording, answer, Except.mapError]
      exact ⟨trivial, rfl⟩
  | cons command commands ih =>
    cases carried with
    | cons carries rest =>
      rename_i frame frames
      have taken := takeFrame_bytes crc carries.2.1 (frames.flatMap (Frame.bytes crc))
      have goes : (handler.method command state).1 = .ok (some ()) := by
        rw [stops command state]
        cases command with
        | endCmd cmd => exact absurd rfl (inside _ List.mem_cons_self)
        | _ => rfl
      have later := ih rest (fun other member => inside other (List.mem_cons_of_mem _ member))
        (handler.method command state).2 (calls ++ [command])
      simp only [List.flatMap_cons]
      rw [decodeFrames_ok taken, StreamHandler.handleCmd_inFrame _ carries]
      simp only [StreamHandler.recording, goes, Except.mapError]
      refine ⟨later.1, later.2.trans ?_⟩
      simp only [List.append_assoc, List.cons_append, List.nil_append]
      rfl

/--
What was written as a sequence of commands is received as the same sequence of method calls.

The order of the attributes, the unknown attributes between them, the checksum and the handler
are arbitrary.
-/
theorem readAndHandle_commands {σ : Type} (crc : Bytes → UInt32) (handler : StreamHandler σ)
    (stops : handler.StopsAtEnd) (version : UInt32) (known : version = 1 ∨ version = 2)
    (commands : List SendCommand) (inside : ∀ command ∈ commands, command ≠ .endCmd {})
    (input : Bytes) (written : IsStream crc version (commands ++ [.endCmd {}]) input)
    (atomicPos : Option Nat) (state : σ) :
    let received := readAndHandle crc handler.recording.handleCmd (.new input atomicPos) (state, [])
    received.1 = .ok () ∧ received.2.2 =
      (handler.after (commands ++ [.endCmd {}]) state, commands ++ [.endCmd {}]) := by
  -- The reference reading takes the header off and then sees the frames one by one.
  obtain ⟨frames, carried, rfl⟩ := written
  have supported : version ≤ supportedVersion := by
    rcases known with rfl | rfl
    · decide
    · decide
  have refined := readAndHandle_decodeWith crc handler.recording.handleCmd
    (streamHeader version ++ frames.flatMap (Frame.bytes crc)) atomicPos (state, [])
  rw [decode, takeHeader_bytes supported] at refined
  have decoded := decodeFrames_commands crc stops carried inside state []
  exact ⟨refined.1.trans decoded.1, refined.2.trans decoded.2⟩

/-- A handler without a state that stops at the end of the stream. -/
def acceptingHandler : StreamHandler Unit where
  method
    | .endCmd _, state => (.ok none, state)
    | _, state => (.ok (some ()), state)

/-- A write of three bytes. -/
def reversedWrite : WriteCmd := { path := [0x61], fileOffset := 7, data := [1, 2, 3] }

/-- Its payload with an unknown attribute in front, and the known ones in reverse order. -/
def reversedPayload : Bytes :=
  [99, 0, 1, 0, 5] ++ [18, 0, 8, 0, 7, 0, 0, 0, 0, 0, 0, 0] ++ [15, 0, 1, 0, 0x61] ++
    [19, 0, 1, 2, 3]

/-- The version 2 stream of that write alone, with the length of a frame as its checksum. -/
def reversedStream : Bytes :=
  streamHeader 2 ++ [⟨15, reversedPayload⟩, ⟨21, []⟩].flatMap
    (Frame.bytes fun bytes => UInt32.ofNat bytes.length)

/-- The write is received as it was, although its attributes do not stand in their order. -/
theorem readAndHandle_commands_reversed :
    (readAndHandle (fun bytes => UInt32.ofNat bytes.length) acceptingHandler.recording.handleCmd
        (.new reversedStream none) ((), [])).1 = .ok () ∧
      (readAndHandle (fun bytes => UInt32.ofNat bytes.length) acceptingHandler.recording.handleCmd
        (.new reversedStream none) ((), [])).2.2 =
          (acceptingHandler.after ([.write reversedWrite] ++ [.endCmd {}]) (),
            [.write reversedWrite] ++ [.endCmd {}]) := by
  -- The stream has the fields in another order, and one that is unknown.
  have answers : acceptingHandler.StopsAtEnd := by
    intro command state
    cases command <;> rfl
  have encodes : Wire.Encodes ⟨WriteCmd.dataSchema, (some [0x61], some 7, ()), some [1, 2, 3]⟩
      reversedPayload := by
    refine ⟨⟨fun _ _ => trivial, fun _ _ => trivial, trivial⟩,
      [⟨99, [5], by decide⟩, ⟨18, [7, 0, 0, 0, 0, 0, 0, 0], by decide⟩, ⟨15, [0x61], by decide⟩],
      ?_, ?_, rfl⟩
    · exact List.Perm.swap _ _ _
    · decide
  have first : (SendCommand.write reversedWrite).InFrame 2 ⟨15, reversedPayload⟩ :=
    ⟨rfl, by decide, _, rfl, encodes⟩
  have last : (SendCommand.endCmd {}).InFrame 2 ⟨21, []⟩ :=
    ⟨rfl, by decide, _, rfl, trivial, [], List.Perm.refl _, rfl⟩
  exact readAndHandle_commands _ acceptingHandler answers 2 (Or.inr rfl) [.write reversedWrite]
    (by simp) reversedStream ⟨_, .cons first (.cons last .nil), rfl⟩ none ()

end Libbtrfs
