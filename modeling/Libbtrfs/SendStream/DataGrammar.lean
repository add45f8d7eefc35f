import Libbtrfs.SendStream.Grammar

/-! The grammar of a version 2 payload with data at its end, and that the parsers accept just that. -/

namespace Libbtrfs

/--
A payload of the grammar: complete triples, none of them data, then the number of the data, and the
data itself.

Every triple has the width of its attribute, and the slots hold the last value of each attribute.
-/
structure DataGrammar (schema : Schema) (payload : Bytes) (slots : schema.Slots) (data : Bytes)
    (tlvs : List Tlv) : Prop where
  whole : payload = tlvBytes tlvs ++ (leBytes 2 Attr.data.code.toNat ++ data)
  before : ∀ tlv ∈ tlvs, tlv.type ≠ Attr.data.code
  widths : ∀ tlv ∈ tlvs, schema.Accepts tlv
  values : schema.HoldsLast tlvs slots

/-- A payload in which a triple in front of the data is longer than what is left. -/
def Overruns (payload : Bytes) : Prop :=
  ∃ tlvs tlo thi llo lhi tail, payload = tlvBytes tlvs ++ tlo :: thi :: llo :: lhi :: tail ∧
    (∀ tlv ∈ tlvs, tlv.type ≠ Attr.data.code) ∧ u16FromLeBytes tlo thi ≠ Attr.data.code ∧
    tail.length < (u16FromLeBytes llo lhi).toNat

/-- The end of a payload is data exactly when it begins with the number of the data. -/
theorem dataEnd_some {payload data : Bytes} :
    dataEnd payload = .ok (some data) ↔ payload = leBytes 2 Attr.data.code.toNat ++ data := by
  constructor
  · intro found
    rcases payload with _ | ⟨lo, _ | ⟨hi, tail⟩⟩
    · cases found
    · cases found
    · -- Of the three branches for a type only one has data.
      rw [dataEnd] at found
      split at found
      · rename_i number
        cases found
        rw [← number, leBytes_u16FromLeBytes]
        rfl
      · split at found
        · cases found
        · cases found
  · rintro rfl
    exact dataEnd_data data

/-- A payload is scanned into slots and data exactly when it is one of the grammar for them. -/
theorem Schema.scanData_eq_iff {schema : Schema} (distinct : schema.codes.Nodup) (payload : Bytes)
    (slots : schema.Slots) (data : Bytes) :
    schema.scanData payload schema.empty = .ok (slots, some data) ↔
      ∃ tlvs, DataGrammar schema payload slots data tlvs := by
  constructor
  · intro scanned
    have parts := splitTlvs_bytes isData payload
    have goes := splitTlvs_goes isData payload
    rw [Schema.scanData] at scanned
    cases assigned : schema.assignAll (splitTlvs isData payload).1 schema.empty with
    | error failure =>
      rw [assigned] at scanned
      cases scanned
    | ok filled =>
      cases ends : dataEnd (splitTlvs isData payload).2 with
      | error failure =>
        rw [assigned, ends] at scanned
        cases scanned
      | ok found =>
        rw [assigned, ends] at scanned
        cases scanned
        obtain ⟨widths, values⟩ := (schema.assignAll_eq_iff distinct _ _).mp assigned
        refine ⟨_, ?_, fun tlv member => ?_, widths, values⟩
        · rwa [← dataEnd_some.mp ends]
        · simpa [isData] using goes tlv member
  · rintro ⟨tlvs, rfl, before, widths, values⟩
    -- The split gives back the triples, which are assigned to the slots they hold.
    have assigned := (schema.assignAll_eq_iff distinct tlvs slots).mpr ⟨widths, values⟩
    rw [Schema.scanData, splitTlvs_grammar before data, assigned]
    simp only [bind, Except.bind, dataEnd_data]
    rfl

/-- A payload of the grammar has no triple that is too long. -/
theorem DataGrammar.not_overruns {schema : Schema} {payload : Bytes} {slots : schema.Slots}
    {data : Bytes} {tlvs : List Tlv} (grammar : DataGrammar schema payload slots data tlvs) :
    ¬Overruns payload := by
  rintro ⟨others, tlo, thi, llo, lhi, tail, whole, before, type, long⟩
  -- The split of the payload ends at the data, and it ends at the triple that is too long.
  have incomplete : takeTlv (tlo :: thi :: llo :: lhi :: tail) = none := by
    rw [takeTlv, if_neg (Nat.not_le.mpr long)]
  have goes : ∀ tlv ∈ others, isData tlv.type = false := by
    intro tlv member
    simpa [isData] using before tlv member
  have one := splitTlvs_append (tlo :: thi :: llo :: lhi :: tail) goes
  rw [splitTlvs_none incomplete, ← whole, grammar.whole, splitTlvs_grammar grammar.before] at one
  obtain ⟨lo, hi, number, back⟩ := u16FromLeBytes_leBytes Attr.data.code
  have same := congrArg Prod.snd one
  rw [number] at same
  cases same
  exact type back

/-- The slots from which a write is made. -/
def WriteCmd.slots (cmd : WriteCmd) : WriteCmd.dataSchema.Slots :=
  (some cmd.path, some cmd.fileOffset, ())

/-- The slots from which an encoded write is made, of which the last two may be empty. -/
def EncodedWriteCmd.slots (cmd : EncodedWriteCmd) : EncodedWriteCmd.dataSchema.Slots :=
  (some cmd.path, some cmd.fileOffset, some cmd.unencodedFileLen, some cmd.unencodedLen,
    some cmd.unencodedOffset, cmd.compression, cmd.encryption, ())

/-- A write is parsed exactly from the payloads of its grammar. -/
theorem WriteCmd.parseTlvV2_ok_iff (payload : Bytes) (cmd : WriteCmd) :
    WriteCmd.parseTlvV2 payload = .ok cmd ↔
      ∃ tlvs, DataGrammar WriteCmd.dataSchema payload cmd.slots cmd.data tlvs := by
  rw [← Schema.scanData_eq_iff (by decide), WriteCmd.parseTlvV2, dataLoop_scan]
  cases scanned : WriteCmd.dataSchema.scanData payload WriteCmd.dataSchema.empty with
  | error failure =>
    refine iff_of_false (fun impossible => ?_) fun impossible => ?_
    · cases impossible
    · cases impossible
  | ok read =>
    constructor
    · -- Both attributes and the data are there, or the match fails.
      intro parsed
      rcases read with ⟨⟨_ | path, _ | fileOffset, ⟨⟩⟩, _ | data⟩ <;> cases parsed
      rfl
    · intro same
      cases same
      rfl

/-- An encoded write is parsed exactly from the payloads of its grammar. -/
theorem EncodedWriteCmd.parseTlvV2_ok_iff (payload : Bytes) (cmd : EncodedWriteCmd) :
    EncodedWriteCmd.parseTlvV2 payload = .ok cmd ↔
      ∃ tlvs, DataGrammar EncodedWriteCmd.dataSchema payload cmd.slots cmd.data tlvs := by
  rw [← Schema.scanData_eq_iff (by decide), EncodedWriteCmd.parseTlvV2, dataLoop_scan]
  cases scanned :
      EncodedWriteCmd.dataSchema.scanData payload EncodedWriteCmd.dataSchema.empty with
  | error failure =>
    refine iff_of_false (fun impossible => ?_) fun impossible => ?_
    · cases impossible
    · cases impossible
  | ok read =>
    constructor
    · -- The five mandatory attributes and the data are there, or the match fails.
      intro parsed
      obtain ⟨⟨path, fileOffset, fileLen, len, offset, compression, encryption, ⟨⟩⟩, data⟩ := read
      rcases path with _ | path
      · cases parsed
      rcases fileOffset with _ | fileOffset
      · cases parsed
      rcases fileLen with _ | fileLen
      · cases parsed
      rcases len with _ | len
      · cases parsed
      rcases offset with _ | offset
      · cases parsed
      rcases data with _ | data
      · cases parsed
      cases parsed
      rfl
    · intro same
      cases same
      rfl

/--
The version 2 parsers accept exactly the payloads of their grammar, and read the last value of each
attribute from them.

A payload in which a triple is too long is never accepted.
-/
theorem parseTlvV2_grammar (payload : Bytes) :
    (∀ cmd : WriteCmd, WriteCmd.parseTlvV2 payload = .ok cmd ↔
      ∃ tlvs, DataGrammar WriteCmd.dataSchema payload cmd.slots cmd.data tlvs) ∧
    (∀ cmd : EncodedWriteCmd, EncodedWriteCmd.parseTlvV2 payload = .ok cmd ↔
      ∃ tlvs, DataGrammar EncodedWriteCmd.dataSchema payload cmd.slots cmd.data tlvs) ∧
    (Overruns payload → (∀ cmd, WriteCmd.parseTlvV2 payload ≠ .ok cmd) ∧
      ∀ cmd, EncodedWriteCmd.parseTlvV2 payload ≠ .ok cmd) := by
  -- The first two are known, and no payload that overruns is in a grammar.
  refine ⟨WriteCmd.parseTlvV2_ok_iff payload, EncodedWriteCmd.parseTlvV2_ok_iff payload,
    fun overruns => ⟨fun cmd parsed => ?_, fun cmd parsed => ?_⟩⟩
  · obtain ⟨tlvs, grammar⟩ := (WriteCmd.parseTlvV2_ok_iff payload cmd).mp parsed
    exact grammar.not_overruns overruns
  · obtain ⟨tlvs, grammar⟩ := (EncodedWriteCmd.parseTlvV2_ok_iff payload cmd).mp parsed
    exact grammar.not_overruns overruns

end Libbtrfs
