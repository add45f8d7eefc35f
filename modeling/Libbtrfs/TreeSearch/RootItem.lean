import Libbtrfs.TreeSearch.Batch

/-! The `ROOT_ITEM` of a subvolume, and its fields as they are read from the buffer of a search. -/

namespace Libbtrfs.Search

/-- The bytes of a field lie inside its record, whatever is behind the record. -/
theorem field_append {data : Bytes} {offset width : Nat} (inside : offset + width ≤ data.length)
    (rest : Bytes) : ((data ++ rest).drop offset).take width = (data.drop offset).take width := by
  -- Both the start of the field and its end lie in the record.
  have starts : offset ≤ data.length := (Nat.le_add_right _ _).trans inside
  have ends : width ≤ (data.drop offset).length := by
    rw [List.length_drop]
    omega
  rw [List.drop_append_of_le_length starts, List.take_append_of_le_length ends]

/-- A field of a record is read from its own bytes. -/
theorem readLe_append {data : Bytes} {offset width : Nat} (inside : offset + width ≤ data.length)
    (rest : Bytes) : readLe (data ++ rest) offset width = readLe data offset width := by
  -- Its bytes are inside the data.
  rw [readLe, readLe, field_append inside]

/-- A `ROOT_ITEM` item of a search: a pointer to its data, as the memory from there on. -/
structure RootItem where
  memory : Bytes

namespace RootItem

/-- `RootItem::KEY`. -/
def key : UInt32 := 132

/-- The size of `btrfs_root_item`. -/
def size : Nat := 439

/-- Where the last field that is read ends, in front of the reserved room. -/
def fieldsEnd : Nat := 375

/-- A field of 64 bits. -/
def le64 (ri : RootItem) (offset : Nat) : UInt64 := UInt64.ofNat (readLe ri.memory offset 8)

/-- The bytes of an identifier. -/
def uuidBytes (ri : RootItem) (offset : Nat) : Bytes := (ri.memory.drop offset).take 16

/-- A `btrfs_timespec`, converted to the one of the ioctl. -/
def timespec (ri : RootItem) (offset : Nat) : IoctlTimespec where
  sec := ri.le64 offset
  nsec := UInt32.ofNat (readLe ri.memory (offset + 8) 4)

/-- `RootItem::generation`. -/
def generation (ri : RootItem) : UInt64 := ri.le64 160

/-- `RootItem::flags`. -/
def flags (ri : RootItem) : UInt64 := ri.le64 208

/-- `RootItem::uuid`. -/
def uuid (ri : RootItem) : Bytes := ri.uuidBytes 247

/-- `RootItem::parent_uuid`. -/
def parentUuid (ri : RootItem) : Bytes := ri.uuidBytes 263

/-- `RootItem::received_uuid`. -/
def receivedUuid (ri : RootItem) : Bytes := ri.uuidBytes 279

/-- `RootItem::ctransid`. -/
def ctransid (ri : RootItem) : UInt64 := ri.le64 295

/-- `RootItem::otransid`. -/
def otransid (ri : RootItem) : UInt64 := ri.le64 303

/-- `RootItem::stransid`. -/
def stransid (ri : RootItem) : UInt64 := ri.le64 311

/-- `RootItem::rtransid`. -/
def rtransid (ri : RootItem) : UInt64 := ri.le64 319

/-- `RootItem::ctime`. -/
def ctime (ri : RootItem) : IoctlTimespec := ri.timespec 327

/-- `RootItem::otime`. -/
def otime (ri : RootItem) : IoctlTimespec := ri.timespec 339

/-- `RootItem::stime`. -/
def stime (ri : RootItem) : IoctlTimespec := ri.timespec 351

/-- `RootItem::rtime`. -/
def rtime (ri : RootItem) : IoctlTimespec := ri.timespec 363

variable {data : Bytes} {offset : Nat} (rest : Bytes)

/-- A field of 64 bits inside the item does not depend on what is behind the item. -/
theorem le64_append (inside : offset + 8 ≤ data.length) :
    le64 ⟨data ++ rest⟩ offset = le64 ⟨data⟩ offset := by
  -- Its bytes are inside the data.
  rw [le64, le64, readLe_append inside]

/-- An identifier inside the item does not depend on what is behind the item. -/
theorem uuidBytes_append (inside : offset + 16 ≤ data.length) :
    uuidBytes ⟨data ++ rest⟩ offset = uuidBytes ⟨data⟩ offset := by
  -- Its bytes are inside the data.
  rw [uuidBytes, uuidBytes, field_append inside]

/-- A time inside the item does not depend on what is behind the item. -/
theorem timespec_append (inside : offset + 12 ≤ data.length) :
    timespec ⟨data ++ rest⟩ offset = timespec ⟨data⟩ offset := by
  -- Both of its fields are inside the data.
  have seconds : offset + 8 ≤ data.length := by omega
  have nanoseconds : offset + 8 + 4 ≤ data.length := by omega
  rw [timespec, timespec, le64_append rest seconds, readLe_append nanoseconds]

end RootItem

end Libbtrfs.Search
