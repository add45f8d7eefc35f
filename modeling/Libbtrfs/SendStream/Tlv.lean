import Libbtrfs.SendStream.Attribute

/-! The two loops that read the attributes of a command out of its payload. -/

namespace Libbtrfs

/-- One declared attribute of a command. -/
structure Field where
  attr : Attr
  type : AttrType

/-- The attributes of a command, in the order in which they are declared. -/
abbrev Schema := List Field

namespace Schema

/-- The numbers of the attributes that a command knows. -/
def codes (schema : Schema) : List UInt16 := schema.map fun field => field.attr.code

/-- One optional value for every attribute, filled in while the payload is read. -/
@[reducible] def Slots : Schema → Type
  | [] => Unit
  | field :: rest => Option field.type.Value × Slots rest

/-- One value for every attribute. -/
@[reducible] def Values : Schema → Type
  | [] => Unit
  | field :: rest => field.type.Value × Values rest

/-- The slots before anything was read. -/
def empty : (schema : Schema) → schema.Slots
  | [] => ()
  | _ :: rest => (none, empty rest)

/-- The slots in which every attribute was found. -/
def present : (schema : Schema) → schema.Values → schema.Slots
  | [], () => ()
  | _ :: rest, (value, values) => (some value, present rest values)

/-- All values, once every slot is filled. -/
def complete : (schema : Schema) → schema.Slots → Option schema.Values
  | [], () => some ()
  | _ :: rest, (slot, slots) => do
    let value ← slot
    let values ← complete rest slots
    return (value, values)

/-- The match over the attribute numbers: a known attribute is parsed, any other is passed over. -/
def assign : (schema : Schema) → UInt16 → Bytes → schema.Slots → Outcome schema.Slots
  | [], _, _, () => .ok ()
  | field :: rest, tlvType, val, (slot, slots) =>
    if tlvType = field.attr.code then do
      let value ← field.type.parse val
      return (some value, slots)
    else do
      let slots ← assign rest tlvType val slots
      return (slot, slots)

end Schema

/-- `u16::from_le_bytes` of two bytes. -/
def u16FromLeBytes (low high : UInt8) : UInt16 := UInt16.ofNat (leNat [low, high])

/-- The loop of `parse_tlv`: a four-byte header, then as many bytes as the header says. -/
def tlvLoop (schema : Schema) (payload : Bytes) (start stop : Nat) (slots : schema.Slots) :
    Outcome schema.Slots :=
  match _ : getRange payload start stop with
  | some [tlo, thi, llo, lhi] =>
    let tlvType := u16FromLeBytes tlo thi
    let tlvLen := (u16FromLeBytes llo lhi).toNat
    match getRange payload stop (stop + tlvLen) with
    | some val => do
      let slots ← schema.assign tlvType val slots
      tlvLoop schema payload (stop + tlvLen) (stop + tlvLen + 4) slots
    | none => .error (receiveError "send stream is trucated")
  | _ => .ok slots
termination_by payload.length - start
decreasing_by
  -- The header lies inside the payload, and the next one starts behind it.
  have bounds := getRange_length ‹getRange payload start stop = some _›
  simp only [List.length_cons, List.length_nil] at bounds
  omega

/-- `parse_tlv` as the macro generates it for a command with attributes. -/
def Schema.parseTlv (schema : Schema) (payload : Bytes) : Outcome schema.Values := do
  let slots ← tlvLoop schema payload 0 4 schema.empty
  match schema.complete slots with
  | some values => .ok values
  | none => .error (receiveError "tlv missing attributes")

/--
The loop of `parse_tlv_v2`, where the data attribute has no length and ends the payload.

The two commands that have such a loop differ only in the attributes they look for.
-/
def dataLoop (schema : Schema) (payload : Bytes) (start stop : Nat) (slots : schema.Slots) :
    Outcome (schema.Slots × Option Bytes) :=
  match _ : getRange payload start stop with
  | some [lo, hi] =>
    let ty := u16FromLeBytes lo hi
    if ty = Attr.data.code then
      .ok (slots, getRange payload stop payload.length)
    else
      match getRange payload (start + 2) (stop + 2) with
      | some [lo, hi] =>
        let len := (u16FromLeBytes lo hi).toNat
        -- A value that overruns the payload is passed over here, and ends the loop below.
        match getRange payload (stop + 2) (stop + 2 + len) with
        | some val => do
          let slots ← schema.assign ty val slots
          dataLoop schema payload (stop + 2 + len) (stop + 2 + len + 2) slots
        | none => dataLoop schema payload (stop + 2 + len) (stop + 2 + len + 2) slots
      | _ => .error (.panic "parsing write tlv")
  | _ => .ok (slots, none)
termination_by payload.length - start
decreasing_by
  all_goals
    -- The type lies inside the payload, and the next one starts behind it.
    have bounds := getRange_length ‹getRange payload start stop = some _›
    simp only [List.length_cons, List.length_nil] at bounds
    omega

end Libbtrfs
