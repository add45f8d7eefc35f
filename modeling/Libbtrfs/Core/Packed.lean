import Libbtrfs.Core.Bytes

/-! Packed records: named fields of fixed widths, one behind the other and without padding. -/

namespace Libbtrfs.Packed

/-- The type of a field: a little-endian integer, or an array of bytes. -/
inductive Scalar
  | u8
  | le16
  | le32
  | le64
  | array (count : Nat)
  deriving DecidableEq

/-- What a field holds. -/
inductive Value
  | int (value : Nat)
  | bytes (bytes : Bytes)
  deriving DecidableEq

/-- The integer of 8 bits at the front of the memory. -/
def u8 (memory : Bytes) : UInt8 := UInt8.ofNat (leNat (memory.take 1))

/-- The integer of 16 bits at the front of the memory. -/
def le16 (memory : Bytes) : UInt16 := UInt16.ofNat (leNat (memory.take 2))

/-- The integer of 32 bits at the front of the memory. -/
def le32 (memory : Bytes) : UInt32 := UInt32.ofNat (leNat (memory.take 4))

/-- The integer of 64 bits at the front of the memory. -/
def le64 (memory : Bytes) : UInt64 := UInt64.ofNat (leNat (memory.take 8))

/-- As many bytes as a width, or fewer, stand for a number of that width. -/
theorem leNat_take_lt (memory : Bytes) (width : Nat) : leNat (memory.take width) < 256 ^ width :=
  (leNat_lt _).trans_le (Nat.pow_le_pow_right (by omega) (List.length_take_le _ _))

/-- Different bytes of the same length stand for different numbers. -/
theorem leNat_inj {one other : Bytes} (lengths : one.length = other.length)
    (same : leNat one = leNat other) : one = other := by
  -- The bytes are written back from the number.
  rw [← leBytes_leNat one, ← leBytes_leNat other, lengths, same]

namespace Scalar

/-- The bytes that a field takes. -/
def size : Scalar → Nat
  | u8 => 1
  | le16 => 2
  | le32 => 4
  | le64 => 8
  | array count => count

/-- Whether a field of the type can hold a value. -/
def Accepts : Scalar → Value → Prop
  | array count, .bytes bytes => bytes.length = count
  | array _, .int _ => False
  | _, .bytes _ => False
  | scalar, .int value => value < 256 ^ scalar.size

instance : (scalar : Scalar) → (value : Value) → Decidable (scalar.Accepts value)
  | array count, .bytes bytes => inferInstanceAs (Decidable (bytes.length = count))
  | array _, .int _ => inferInstanceAs (Decidable False)
  | u8, .bytes _ => inferInstanceAs (Decidable False)
  | le16, .bytes _ => inferInstanceAs (Decidable False)
  | le32, .bytes _ => inferInstanceAs (Decidable False)
  | le64, .bytes _ => inferInstanceAs (Decidable False)
  | u8, .int value => inferInstanceAs (Decidable (value < 256 ^ 1))
  | le16, .int value => inferInstanceAs (Decidable (value < 256 ^ 2))
  | le32, .int value => inferInstanceAs (Decidable (value < 256 ^ 4))
  | le64, .int value => inferInstanceAs (Decidable (value < 256 ^ 8))

/-- The bytes of a value in a field of the type. -/
def encode (scalar : Scalar) : Value → Bytes
  | .int value => leBytes scalar.size value
  | .bytes bytes => bytes

/-- The value of a field of the type at the front of the memory. -/
def decode : Scalar → Bytes → Value
  | u8, memory => .int (Packed.u8 memory).toNat
  | le16, memory => .int (Packed.le16 memory).toNat
  | le32, memory => .int (Packed.le32 memory).toNat
  | le64, memory => .int (Packed.le64 memory).toNat
  | array count, memory => .bytes (memory.take count)

/-- The value that the bytes of a field stand for. -/
def value : Scalar → Bytes → Value
  | array _, bytes => .bytes bytes
  | _, bytes => .int (leNat bytes)

/-- Only the bytes of the field matter. -/
theorem decode_eq (scalar : Scalar) (memory : Bytes) :
    scalar.decode memory = scalar.value (memory.take scalar.size) := by
  -- A number of the width is below the modulus of its type.
  have small := leNat_take_lt memory
  cases scalar with
  | u8 => exact congrArg Value.int (Nat.mod_eq_of_lt (small 1))
  | le16 => exact congrArg Value.int (Nat.mod_eq_of_lt (small 2))
  | le32 => exact congrArg Value.int (Nat.mod_eq_of_lt (small 4))
  | le64 => exact congrArg Value.int (Nat.mod_eq_of_lt (small 8))
  | array count => rfl

/-- A value takes the bytes of its field. -/
theorem encode_length {scalar : Scalar} {value : Value} (accepted : scalar.Accepts value) :
    (scalar.encode value).length = scalar.size := by
  -- A number is written with the bytes of its field, and bytes are taken as they are.
  cases value with
  | int value => exact leBytes_length scalar.size value
  | bytes bytes =>
    cases scalar with
    | array count => exact accepted
    | _ => exact accepted.elim

/-- The bytes of a value stand for it. -/
theorem value_encode {scalar : Scalar} {value : Value} (accepted : scalar.Accepts value) :
    scalar.value (scalar.encode value) = value := by
  -- A number that fits its field is read back, and bytes are read as they are.
  cases value with
  | int value =>
    cases scalar with
    | array count => exact accepted.elim
    | _ => exact congrArg Value.int (leNat_leBytes accepted)
  | bytes bytes =>
    cases scalar with
    | array count => rfl
    | _ => exact accepted.elim

/-- A value is read back from the front of the memory, whatever is behind it. -/
theorem decode_encode {scalar : Scalar} {value : Value} (accepted : scalar.Accepts value)
    (rest : Bytes) : scalar.decode (scalar.encode value ++ rest) = value := by
  -- Only the bytes of the field are looked at.
  rw [decode_eq, List.take_left' (encode_length accepted), value_encode accepted]

/-- Different bytes of a field stand for different values. -/
theorem value_inj {scalar : Scalar} {one other : Bytes} (lengths : one.length = other.length)
    (same : scalar.value one = scalar.value other) : one = other := by
  -- Bytes are their own value, and a number has one way to be written.
  cases scalar with
  | array count => exact Value.bytes.inj same
  | _ => exact leNat_inj lengths (Value.int.inj same)

section Beyond

variable {data : Bytes} {offset : Nat} {scalar : Scalar}

/-- A field that lies inside some data does not depend on what is behind the data. -/
theorem decode_append (inside : offset + scalar.size ≤ data.length) (rest : Bytes) :
    scalar.decode ((data ++ rest).drop offset) = scalar.decode (data.drop offset) := by
  -- Both the start of the field and its end lie in the data.
  have starts : offset ≤ data.length := (Nat.le_add_right _ _).trans inside
  have ends : scalar.size ≤ (data.drop offset).length := by
    rw [List.length_drop]
    omega
  rw [decode_eq, decode_eq, List.drop_append_of_le_length starts,
    List.take_append_of_le_length ends]

/-- What is missing between the end of some data and the last byte of a field. -/
def gap (scalar : Scalar) (data : Bytes) (offset : Nat) : Bytes :=
  List.replicate (offset + scalar.size - data.length - 1) 0

/-- A field that lies partly behind some data depends on the byte that ends it. -/
theorem decode_beyond (beyond : data.length < offset + scalar.size) (wide : 0 < scalar.size)
    (tail : Bytes) :
    scalar.decode ((data ++ (scalar.gap data offset ++ 0 :: tail)).drop offset) ≠
      scalar.decode ((data ++ (scalar.gap data offset ++ 1 :: tail)).drop offset) := by
  -- The field is the same bytes up to that one, which is its last.
  have length : (data ++ scalar.gap data offset).length = offset + scalar.size - 1 := by
    rw [List.length_append, gap, List.length_replicate]
    omega
  have starts : offset ≤ (data ++ scalar.gap data offset).length := by omega
  have front : ((data ++ scalar.gap data offset).drop offset).length = scalar.size - 1 := by
    rw [List.length_drop]
    omega
  have field : ∀ byte, ((data ++ (scalar.gap data offset ++ byte :: tail)).drop offset).take
      scalar.size = (data ++ scalar.gap data offset).drop offset ++ [byte] := by
    intro byte
    have width : scalar.size = ((data ++ scalar.gap data offset).drop offset).length + 1 := by
      omega
    rw [← List.append_assoc, List.drop_append_of_le_length starts, width,
      List.take_length_add_append]
    rfl
  intro same
  rw [decode_eq, decode_eq, field, field] at same
  have bytes := value_inj (by simp) same
  have last := List.append_cancel_left bytes
  revert last
  decide

end Beyond

end Scalar

/-- What is named in a member of a record, with names that start with the one of the member. -/
def under {M α : Type} (name : M) (inner : List (List M × α)) : List (List M × α) :=
  inner.map fun field => (name :: field.1, field.2)

/-- The layout of a record: its fields, in the order in which they lie in memory. -/
abbrev Struct (N : Type) := List (N × Scalar)

namespace Struct

section Names

variable {N : Type} [DecidableEq N]

/-- The size of a record. -/
def size (layout : Struct N) : Nat := (layout.map fun field => field.2.size).sum

/-- The offset of a field: the size of those in front of it. -/
def offset : Struct N → N → Nat
  | [], _ => 0
  | (other, scalar) :: rest, name => if name = other then 0 else scalar.size + offset rest name

/-- The type of the field with a name. -/
def scalarOf (layout : Struct N) (name : N) : Option Scalar := layout.lookup name

/-- What is read from a field of a record in memory. -/
def read (layout : Struct N) (memory : Bytes) (field : N × Scalar) : Value :=
  field.2.decode (memory.drop (layout.offset field.1))

/-- The bytes of a record with the given values. -/
def encode (layout : Struct N) (values : N → Value) : Bytes :=
  layout.flatMap fun field => field.2.encode (values field.1)

/-- A record: a value for each of the fields, which can hold it. -/
structure Record (layout : Struct N) where
  values : N → Value
  accepted : ∀ field ∈ layout, field.2.Accepts (values field.1)

/-- The bytes of a record. -/
def Record.bytes {layout : Struct N} (record : Record layout) : Bytes :=
  layout.encode record.values

omit [DecidableEq N] in
/-- The values take the size of the record. -/
theorem encode_length {layout : Struct N} {values : N → Value}
    (accepted : ∀ field ∈ layout, field.2.Accepts (values field.1)) :
    (layout.encode values).length = layout.size := by
  -- The induction is on the fields.
  induction layout with
  | nil => rfl
  | cons field rest ih =>
    have behind := ih fun other member => accepted other (List.mem_cons_of_mem _ member)
    have width := Scalar.encode_length (accepted field List.mem_cons_self)
    rw [encode, List.flatMap_cons, List.length_append, width]
    rw [encode] at behind
    rw [behind, size, size, List.map_cons, List.sum_cons]

/-- A field is read back as it was written, whatever is behind the record. -/
theorem read_encode {layout : Struct N} {values : N → Value}
    (accepted : ∀ field ∈ layout, field.2.Accepts (values field.1)) {name : N} {scalar : Scalar}
    (found : layout.scalarOf name = some scalar) (rest : Bytes) :
    layout.read (layout.encode values ++ rest) (name, scalar) = values name := by
  -- The induction is on the fields, of which the first either is the one or lies in front of it.
  induction layout with
  | nil => cases found
  | cons field behind ih =>
    obtain ⟨other, width⟩ := field
    have first := accepted (other, width) List.mem_cons_self
    rw [scalarOf, List.lookup_cons] at found
    rw [read, encode, List.flatMap_cons, List.append_assoc, offset]
    by_cases same : name = other
    · have this_one : (name == other) = true := beq_iff_eq.mpr same
      rw [this_one] at found
      cases found
      rw [if_pos same, List.drop_zero, same]
      exact Scalar.decode_encode first _
    · have another : (name == other) = false := beq_eq_false_iff_ne.mpr same
      rw [another] at found
      rw [if_neg same, ← List.drop_drop, List.drop_left' (Scalar.encode_length first)]
      exact ih (fun other member => accepted other (List.mem_cons_of_mem _ member)) found

end Names

section Nested

variable {M : Type} [DecidableEq M]

/-- The offset of a member, which is a field or a record inside this one. -/
def start : Struct (List M) → M → Nat
  | [], _ => 0
  | (path, scalar) :: rest, name =>
    if path.head? = some name then 0 else scalar.size + start rest name

/-- A member is a record with the given fields. -/
def Nests (outer : Struct (List M)) (name : M) (inner : Struct (List M)) : Prop :=
  ∀ field ∈ inner, outer.scalarOf (name :: field.1) = some field.2 ∧
    outer.offset (name :: field.1) = outer.start name + inner.offset field.1

instance (outer : Struct (List M)) (name : M) (inner : Struct (List M)) :
    Decidable (outer.Nests name inner) :=
  inferInstanceAs (Decidable (∀ field ∈ inner, _))

/-- A field of a record inside another one is read from the start of the record. -/
theorem Nests.read {outer inner : Struct (List M)} {name : M} (nests : outer.Nests name inner)
    {field : List M × Scalar} (member : field ∈ inner) (memory : Bytes) :
    inner.read (memory.drop (outer.start name)) field =
      outer.read memory (name :: field.1, field.2) := by
  -- The start of the field is counted from that of the record.
  rw [Struct.read, Struct.read, List.drop_drop, (nests field member).2]

end Nested

end Struct

end Libbtrfs.Packed
