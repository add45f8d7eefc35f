import Libbtrfs.SendStream.RoundTrip

/-! Which bytes make the receiver panic, and that all others never do. -/

namespace Libbtrfs

/-- A payload without a length-less data attribute is scanned to a value or to an error. -/
theorem Schema.scan_not_panics (schema : Schema) (payload : Bytes) (slots : schema.Slots) :
    ¬ (schema.scan payload slots).Panics := by
  -- Assigning does not panic, and the check of the end goes through the error macro.
  intro panics
  rw [Schema.scan, Outcome.panics_bind] at panics
  rcases panics with assigning | ⟨filled, _, ending⟩
  · exact schema.assignAll_not_panics _ slots assigning
  · split at ending
    · exact Outcome.not_panics_ok _ ending
    · exact Outcome.not_panics_receiveError _ ending

/-- The parser of a macro command answers or refuses, for every payload. -/
theorem parseTlv_not_panics {α : Type} [MacroCmd α] (payload : Bytes) :
    ¬ Outcome.Panics (SendCmd.parseTlv payload : Outcome α) := by
  -- Neither the scan nor the check for missing fields panics.
  intro panics
  simp only [SendCmd.parseTlv, Outcome.panics_map, Schema.parseTlv, Outcome.panics_bind] at panics
  rcases panics with scanning | ⟨filled, _, completing⟩
  · rw [tlvLoop_eq _ payload 0 _ (Nat.zero_le _)] at scanning
    exact Schema.scan_not_panics _ _ _ scanning
  · split at completing
    · exact Outcome.not_panics_ok _ completing
    · exact Outcome.not_panics_receiveError _ completing

/--
A version 2 data payload that ends inside the length of an attribute.

In front of the cut stand only complete attributes, all of them of the width they should have.
-/
def CutLength (schema : Schema) (payload : Bytes) : Prop :=
  ∃ tlvs lo hi tail, payload = tlvBytes tlvs ++ lo :: hi :: tail ∧ tail.length < 2 ∧
    u16FromLeBytes lo hi ≠ Attr.data.code ∧
    ∀ tlv ∈ tlvs, tlv.type ≠ Attr.data.code ∧ schema.Accepts tlv

/-- Behind a number that is not that of the data, a length that is cut off makes taking the data
panic. -/
private theorem dataEnd_panics_iff (payload : Bytes) :
    (dataEnd payload).Panics ↔
      ∃ lo hi tail, payload = lo :: hi :: tail ∧ tail.length < 2 ∧
        u16FromLeBytes lo hi ≠ Attr.data.code := by
  rcases payload with _ | ⟨lo, _ | ⟨hi, tail⟩⟩
  · -- Without two bytes there is no type, and the loop simply ends.
    refine ⟨fun panics => absurd panics (Outcome.not_panics_ok _), ?_⟩
    rintro ⟨lo, hi, tail, same, _⟩
    cases same
  · refine ⟨fun panics => absurd panics (Outcome.not_panics_ok _), ?_⟩
    rintro ⟨lo, hi, tail, same, _⟩
    cases same
  · by_cases data : u16FromLeBytes lo hi = Attr.data.code
    · rw [dataEnd, if_pos data]
      refine ⟨fun panics => absurd panics (Outcome.not_panics_ok _), ?_⟩
      rintro ⟨lo', hi', tail', same, _, other⟩
      cases same
      exact absurd data other
    · by_cases cut : tail.length < 2
      · rw [dataEnd, if_neg data, if_pos cut]
        exact ⟨fun _ => ⟨lo, hi, tail, rfl, cut, data⟩, fun _ => Outcome.panics_panic _⟩
      · rw [dataEnd, if_neg data, if_neg cut]
        refine ⟨fun panics => absurd panics (Outcome.not_panics_ok _), ?_⟩
        rintro ⟨lo', hi', tail', same, short, _⟩
        cases same
        exact absurd short cut

/-- The only payloads that make the version 2 loop panic are those with a cut length. -/
theorem scanData_panics_iff (schema : Schema) (distinct : schema.codes.Nodup) (payload : Bytes) :
    (schema.scanData payload schema.empty).Panics ↔ CutLength schema payload := by
  have parts := splitTlvs_bytes isData payload
  rw [Schema.scanData, Outcome.panics_bind]
  constructor
  · intro panics
    -- The assignment cannot panic, so it succeeded and the end of the payload did.
    rcases panics with assigning | ⟨filled, assigned, ending⟩
    · exact absurd assigning (schema.assignAll_not_panics _ _)
    · rw [Outcome.panics_bind] at ending
      rcases ending with cutting | ⟨data, _, returning⟩
      · obtain ⟨lo, hi, tail, last, short, other⟩ := (dataEnd_panics_iff _).mp cutting
        have accepted := (schema.assignAll_ok_iff distinct _ _).mp ⟨filled, assigned⟩
        refine ⟨_, lo, hi, tail, last ▸ parts, short, other, ?_⟩
        intro tlv member
        have goes := splitTlvs_goes isData payload tlv member
        exact ⟨by simpa [isData] using goes, accepted tlv member⟩
      · exact absurd returning (Outcome.not_panics_ok _)
  · rintro ⟨tlvs, lo, hi, tail, whole, short, other, complete⟩
    -- The split gives back the complete attributes and the cut one, which holds no triple.
    have incomplete : takeTlv (lo :: hi :: tail) = none := by
      rcases tail with _ | ⟨_, _ | ⟨_, tail⟩⟩
      · rfl
      · rfl
      · simp only [List.length_cons] at short
        omega
    have goes : ∀ tlv ∈ tlvs, isData tlv.type = false := by
      intro tlv member
      simpa [isData] using (complete tlv member).1
    have split := splitTlvs_append (lo :: hi :: tail) goes
    rw [splitTlvs_none incomplete, List.append_nil, ← whole] at split
    obtain ⟨filled, assigned⟩ := (schema.assignAll_ok_iff distinct tlvs schema.empty).mpr
      fun tlv member => (complete tlv member).2
    rw [split]
    refine Or.inr ⟨filled, assigned, ?_⟩
    rw [Outcome.panics_bind]
    exact Or.inl ((dataEnd_panics_iff _).mpr ⟨lo, hi, tail, rfl, short, other⟩)

/-- The frames that no version of the parser is prepared for. -/
def Unparsable (version : UInt32) (frame : Frame) : Prop :=
  frame.command = SendCmd.key EncodedWriteCmd ∧ version ≠ 2 ∨
    version = 2 ∧
      (frame.command = SendCmd.key WriteCmd ∧ CutLength WriteCmd.dataSchema frame.payload ∨
        frame.command = SendCmd.key EncodedWriteCmd ∧
          CutLength EncodedWriteCmd.dataSchema frame.payload)

/-- A version 2 parser panics exactly where the length of a triple is cut off. -/
private theorem parseTlvV2_panics_iff {α : Type} (schema : Schema) (distinct : schema.codes.Nodup)
    (payload : Bytes) (build : schema.Slots × Option Bytes → Outcome α)
    (safe : ∀ read, ¬ (build read).Panics) :
    (dataLoop schema payload 0 2 schema.empty >>= build).Panics ↔ CutLength schema payload := by
  -- What is built from the fields never panics, so the panic is one of the loop.
  rw [Outcome.panics_bind, dataLoop_eq schema payload 0 _ (Nat.zero_le _), List.drop_zero,
    scanData_panics_iff schema distinct]
  constructor
  · intro panics
    rcases panics with cut | ⟨read, _, building⟩
    · exact cut
    · exact absurd building (safe read)
  · exact Or.inl

/-- A version 2 write panics on a cut length only. -/
theorem WriteCmd.parseTlvV2_panics_iff (payload : Bytes) :
    (WriteCmd.parseTlvV2 payload).Panics ↔ CutLength WriteCmd.dataSchema payload := by
  -- The check for missing fields does not panic.
  apply Libbtrfs.parseTlvV2_panics_iff WriteCmd.dataSchema (by decide)
  intro read
  split
  · exact Outcome.not_panics_ok _
  · exact Outcome.not_panics_receiveError _

/-- A version 2 encoded write panics on a cut length only. -/
theorem EncodedWriteCmd.parseTlvV2_panics_iff (payload : Bytes) :
    (EncodedWriteCmd.parseTlvV2 payload).Panics ↔
      CutLength EncodedWriteCmd.dataSchema payload := by
  -- The check for missing fields does not panic.
  apply Libbtrfs.parseTlvV2_panics_iff EncodedWriteCmd.dataSchema (by decide)
  intro read
  split
  · exact Outcome.not_panics_ok _
  · exact Outcome.not_panics_receiveError _

/-- Only the two write commands are ever unparsable. -/
private theorem not_unparsable {version : UInt32} {cmd : UInt16} {payload : Bytes}
    (noWrite : cmd ≠ 15) (noEncodedWrite : cmd ≠ 25) : ¬ Unparsable version ⟨cmd, payload⟩ := by
  -- The condition names the two write commands alone.
  intro unparsable
  rcases unparsable with ⟨encoded, _⟩ | ⟨_, ⟨write, _⟩ | ⟨encoded, _⟩⟩
  · exact noEncodedWrite encoded
  · exact noWrite write
  · exact noEncodedWrite encoded

/-- The stage of any other command does not panic, and it is not unparsable. -/
private theorem macro_stage {α : Type} [MacroCmd α] (tag : α → SendCommand) {version : UInt32}
    {cmd : UInt16} (payload : Bytes) (noWrite : cmd ≠ 15) (noEncodedWrite : cmd ≠ 25) :
    Outcome.Panics (tag <$> (SendCmd.parseTlv payload : Outcome α)) ↔
      Unparsable version ⟨cmd, payload⟩ := by
  -- Neither side is ever true of such a command.
  refine ⟨fun panics => ?_, fun unparsable => ?_⟩
  · rw [Outcome.panics_map] at panics
    exact absurd panics (parseTlv_not_panics payload)
  · exact absurd unparsable (not_unparsable noWrite noEncodedWrite)

/-- The parse stage panics on exactly the frames that no parser is prepared for. -/
theorem parseStage_panics_iff (cmd : UInt16) (payload : Bytes) (version : UInt32) :
    (parseStage cmd payload version).Panics ↔ Unparsable version ⟨cmd, payload⟩ := by
  have different : SendCmd.key WriteCmd ≠ SendCmd.key EncodedWriteCmd := by decide
  unfold parseStage
  split
  case h_15 =>
    -- Only a version 2 write goes through the parser that can panic.
    rw [Outcome.panics_map]
    by_cases second : version = 2
    · rw [if_pos second, WriteCmd.parseTlvV2_panics_iff]
      refine ⟨fun cut => Or.inr ⟨second, Or.inl ⟨rfl, cut⟩⟩, fun unparsable => ?_⟩
      rcases unparsable with ⟨encoded, _⟩ | ⟨_, ⟨_, cut⟩ | ⟨encoded, _⟩⟩
      · exact absurd encoded different
      · exact cut
      · exact absurd encoded different
    · rw [if_neg second]
      refine ⟨fun panics => absurd panics (parseTlv_not_panics payload), fun unparsable => ?_⟩
      rcases unparsable with ⟨encoded, _⟩ | ⟨known, _⟩
      · exact absurd encoded different
      · exact absurd known second
  case h_25 =>
    -- An encoded write panics outright in the versions that do not have it.
    rw [Outcome.panics_map]
    by_cases second : version = 2
    · rw [if_pos second, EncodedWriteCmd.parseTlvV2_panics_iff]
      refine ⟨fun cut => Or.inr ⟨second, Or.inr ⟨rfl, cut⟩⟩, fun unparsable => ?_⟩
      rcases unparsable with ⟨_, older⟩ | ⟨_, ⟨write, _⟩ | ⟨_, cut⟩⟩
      · exact absurd second older
      · exact absurd write different.symm
      · exact cut
    · rw [if_neg second]
      exact ⟨fun _ => Or.inl ⟨rfl, second⟩, fun _ => Outcome.panics_panic _⟩
  case h_26 =>
    rename_i others
    refine ⟨fun panics => absurd panics (Outcome.not_panics_receiveError _), fun unparsable => ?_⟩
    exact absurd unparsable (not_unparsable (by assumption) (by assumption))
  case h_21 =>
    refine ⟨fun panics => absurd panics (Outcome.not_panics_ok _), fun unparsable => ?_⟩
    exact absurd unparsable (not_unparsable (by decide) (by decide))
  all_goals exact macro_stage _ payload (by decide) (by decide)

namespace StreamHandler

variable {σ : Type}

/-- Every one of the frames is parsed, and the handler asks for the next one after it. -/
def Continues (handler : StreamHandler σ) (version : UInt32) : List Frame → σ → Prop
  | [], _ => True
  | frame :: rest, state =>
    ∃ command, parseStage frame.command frame.payload version = .ok command ∧
      (handler.method command state).1 = .ok (some ()) ∧
      handler.Continues version rest (handler.method command state).2

/-- The receive gets as far as a frame of the input, which is announced with a version. -/
def Delivers (handler : StreamHandler σ) (crc : Bytes → UInt32) (input : Bytes) (state : σ)
    (version : UInt32) (frame : Frame) : Prop :=
  ∃ rest before after, takeHeader input = .ok (version, rest) ∧
    frames crc rest = before ++ frame :: after ∧ handler.Continues version before state

end StreamHandler

/-- What the receive gets to is the first frame, or it is behind that. -/
private theorem reaches_cons {σ : Type} (handler : StreamHandler σ) (version : UInt32)
    (first : Frame) (rest : List Frame) (state : σ) :
    (∃ before frame after, first :: rest = before ++ frame :: after ∧
        handler.Continues version before state ∧ Unparsable version frame) ↔
      Unparsable version first ∨
        ∃ command, parseStage first.command first.payload version = .ok command ∧
          (handler.method command state).1 = .ok (some ()) ∧
          ∃ before frame after, rest = before ++ frame :: after ∧
            handler.Continues version before (handler.method command state).2 ∧
            Unparsable version frame := by
  constructor
  · intro ⟨before, frame, after, split, continues, unparsable⟩
    -- The frame in question is the first one, or the handler went on behind the first one.
    cases before with
    | nil =>
      cases split
      exact Or.inl unparsable
    | cons passed before =>
      cases split
      obtain ⟨command, parsed, wanted, later⟩ := continues
      exact Or.inr ⟨command, parsed, wanted, before, frame, after, rfl, later, unparsable⟩
  · intro found
    rcases found with unparsable | ⟨command, parsed, wanted, before, frame, after, split, later⟩
    · exact ⟨[], first, rest, rfl, trivial, unparsable⟩
    · exact ⟨first :: before, frame, after, by rw [split]; rfl,
        ⟨command, parsed, wanted, later.1⟩, later.2⟩

/-- The frames of an input make the receive panic if it gets as far as an unparsable one. -/
theorem decodeFrames_panics_iff {σ : Type} (crc : Bytes → UInt32) (handler : StreamHandler σ)
    (version : UInt32) (input : Bytes) (state : σ) :
    (decodeFrames crc handler.handleCmd version input state).result.Panics ↔
      ∃ before frame after, frames crc input = before ++ frame :: after ∧
        handler.Continues version before state ∧ Unparsable version frame := by
  -- The induction is on the frames of the input, up to the one that is refused.
  induction input using frames.induct crc generalizing state with
  | case1 input failure taken =>
    rw [decodeFrames_error taken, frames_error taken]
    refine ⟨fun panics => ?_, fun found => ?_⟩
    · obtain ⟨error, rfl⟩ := takeFrame_io taken
      exact absurd panics (Outcome.not_panics_io _)
    · obtain ⟨before, frame, after, split, _⟩ := found
      exact absurd split (by simp)
  | case2 input first rest taken ih =>
    rw [decodeFrames_ok taken, frames_ok taken, reaches_cons]
    have stage := parseStage_panics_iff first.command first.payload version
    cases parsed : parseStage first.command first.payload version with
    | error failure =>
      -- The receive ends with the failure of the parser, whatever kind it has.
      rw [parsed] at stage
      simp only [StreamHandler.handleCmd, parsed, reduceCtorEq, false_and, exists_false, or_false]
      exact Outcome.panics_error.trans stage
    | ok command =>
      have parsable : ¬ Unparsable version first := by
        rw [parsed] at stage
        exact fun unparsable => Outcome.not_panics_ok _ (stage.mpr unparsable)
      simp only [StreamHandler.handleCmd, parsed, parsable, false_or, Except.ok.injEq]
      cases answer : (handler.method command state).1 with
      | error error =>
        simp only [Except.mapError]
        refine ⟨fun panics => absurd panics (Outcome.not_panics_io _), fun found => ?_⟩
        obtain ⟨other, rfl, wanted, _⟩ := found
        rw [answer] at wanted
        cases wanted
      | ok goes =>
        cases goes with
        | none =>
          simp only [Except.mapError]
          refine ⟨fun panics => absurd panics (Outcome.not_panics_ok _), fun found => ?_⟩
          obtain ⟨other, rfl, wanted, _⟩ := found
          rw [answer] at wanted
          cases wanted
        | some _ =>
          have later := ih (handler.method command state).2
          simp only [Except.mapError]
          rw [later]
          refine ⟨fun found => ⟨command, rfl, answer, found⟩, fun found => ?_⟩
          obtain ⟨other, rfl, _, deeper⟩ := found
          exact deeper

/-- The receive panics exactly if it gets as far as an unparsable frame. -/
theorem readAndHandle_panics_iff {σ : Type} (crc : Bytes → UInt32) (handler : StreamHandler σ)
    (input : Bytes) (atomicPos : Option Nat) (state : σ) :
    (readAndHandle crc handler.handleCmd (.new input atomicPos) state).1.Panics ↔
      ∃ version frame, handler.Delivers crc input state version frame ∧
        Unparsable version frame := by
  -- A refused header ends the receive before there is a frame.
  rw [(readAndHandle_decodeWith crc handler.handleCmd input atomicPos state).1, decode]
  cases taken : takeHeader input with
  | error failure =>
    refine ⟨fun panics => ?_, fun found => ?_⟩
    · obtain ⟨error, rfl⟩ := takeHeader_io taken
      exact absurd panics (Outcome.not_panics_io _)
    · obtain ⟨version, frame, ⟨rest, before, after, header, _⟩, _⟩ := found
      rw [taken] at header
      cases header
  | ok pair =>
    obtain ⟨version, rest⟩ := pair
    simp only
    rw [decodeFrames_panics_iff]
    constructor
    · rintro ⟨before, frame, after, split, continues, unparsable⟩
      exact ⟨version, frame, ⟨rest, before, after, taken, split, continues⟩, unparsable⟩
    · rintro ⟨announced, frame, ⟨behind, before, after, header, split, continues⟩, unparsable⟩
      rw [taken] at header
      cases header
      exact ⟨before, frame, after, split, continues, unparsable⟩

/--
The receive never panics, for the inputs that deliver no unparsable frame and for no others.

The same holds of the parse stage on its own, with any command, payload and version.
-/
theorem receive_not_panics_iff {σ : Type} (crc : Bytes → UInt32) (handler : StreamHandler σ)
    (input : Bytes) (atomicPos : Option Nat) (state : σ) :
    (¬ (readAndHandle crc handler.handleCmd (.new input atomicPos) state).1.Panics ↔
        ∀ version frame, handler.Delivers crc input state version frame →
          ¬ Unparsable version frame) ∧
      ∀ (cmd : UInt16) (payload : Bytes) (version : UInt32),
        (¬ (parseStage cmd payload version).Panics ↔ ¬ Unparsable version ⟨cmd, payload⟩) := by
  -- The second part is about a single frame, and the first one about a stream of them.
  refine ⟨?_, fun cmd payload version => not_congr (parseStage_panics_iff cmd payload version)⟩
  rw [readAndHandle_panics_iff]
  constructor
  · intro never version frame delivered unparsable
    exact never ⟨version, frame, delivered, unparsable⟩
  · intro parsable ⟨version, frame, delivered, unparsable⟩
    exact parsable version frame delivered unparsable

/-- A version 2 stream with one write frame, whose payload ends behind the number of an attribute. -/
def cutStream : Bytes :=
  streamHeader 2 ++ Frame.bytes (fun bytes => UInt32.ofNat bytes.length) ⟨15, [1, 0]⟩

/-- A frame with a correct checksum makes the receive panic. -/
theorem receive_panics_cutStream :
    (readAndHandle (fun bytes => UInt32.ofNat bytes.length) acceptingHandler.handleCmd
      (.new cutStream none) ()).1 = .error (.panic "parsing write tlv") := by
  -- The header and the only frame of the stream are taken off by hand.
  have header : takeHeader cutStream =
      .ok (2, Frame.bytes (fun bytes => UInt32.ofNat bytes.length) ⟨15, [1, 0]⟩) :=
    takeHeader_bytes (by decide) _
  have taken := takeFrame_bytes (fun bytes => UInt32.ofNat bytes.length)
    (show Frame.Fits ⟨15, [1, 0]⟩ by decide) []
  rw [List.append_nil] at taken
  rw [(readAndHandle_decodeWith _ _ cutStream none ()).1, decode, header]
  simp only
  rw [decodeFrames_ok taken]
  have parsed : parseStage 15 [1, 0] 2 = .error (.panic "parsing write tlv") := by
    have stops : splitTlvs isData [1, 0] = ([], [1, 0]) := splitTlvs_none rfl
    have read : dataLoop WriteCmd.dataSchema [1, 0] 0 2 WriteCmd.dataSchema.empty =
        .error (.panic "parsing write tlv") := by
      rw [dataLoop_eq _ _ _ _ (Nat.zero_le _), List.drop_zero, Schema.scanData, stops]
      rfl
    simp only [parseStage, WriteCmd.parseTlvV2, read]
    rfl
  simp only [StreamHandler.handleCmd, parsed]

end Libbtrfs
