import Libbtrfs.Error

/-! Attributes of a send command: their numbers, their types, and how one value is read. -/

namespace Libbtrfs

/-- The attributes that a send command can carry. -/
inductive Attr where
  | uuid | ctransid | ino | size | mode | uid | gid | rdev | ctime | mtime | atime | otime
  | xattrName | xattrData | path | pathTo | pathLink | fileOffset | data
  | cloneUuid | cloneCtransid | clonePath | cloneOffset | cloneLen
  -- Version 2
  | fallocateMode | fileattr | unencodedFileLen | unencodedLen | unencodedOffset
  | compression | encryption
  deriving DecidableEq, Repr

/-- The number by which the stream names an attribute. -/
def Attr.code : Attr → UInt16
  | .uuid => 1 | .ctransid => 2 | .ino => 3 | .size => 4 | .mode => 5 | .uid => 6 | .gid => 7
  | .rdev => 8 | .ctime => 9 | .mtime => 10 | .atime => 11 | .otime => 12 | .xattrName => 13
  | .xattrData => 14 | .path => 15 | .pathTo => 16 | .pathLink => 17 | .fileOffset => 18
  | .data => 19 | .cloneUuid => 20 | .cloneCtransid => 21 | .clonePath => 22
  | .cloneOffset => 23 | .cloneLen => 24
  | .fallocateMode => 25 | .fileattr => 26 | .unencodedFileLen => 27 | .unencodedLen => 28
  | .unencodedOffset => 29 | .compression => 30 | .encryption => 31

/-- A `uuid::Uuid`: sixteen bytes, and never any other number of them. -/
structure Uuid where
  bytes : Bytes
  width : bytes.length = 16
  deriving DecidableEq

/-- A `libc::timespec` of a 64-bit target. -/
structure Timespec where
  tvSec : Int64
  tvNsec : Int64
  deriving DecidableEq

/-- The types an attribute can be declared with. -/
inductive AttrType where
  | u8 | u16 | u32 | u64 | data | string | uuid | timespec
  deriving DecidableEq, Repr

namespace AttrType

/-- The Rust type of an attribute of each declared type. -/
@[reducible] def Value : AttrType → Type
  | u8 => UInt8
  | u16 => UInt16
  | u32 => UInt32
  | u64 => UInt64
  | data => Bytes
  | string => Bytes
  | uuid => Uuid
  | timespec => Timespec

/-- The one length at which a value of the type is accepted, where there is only one. -/
def width : AttrType → Option Nat
  | u8 => some 1
  | u16 => some 2
  | u32 => some 4
  | u64 => some 8
  | data => none
  | string => none
  | uuid => some 16
  | timespec => some 12

/-- Reading an integer accepts its exact width only. -/
def parseInt (width : Nat) (value : Bytes) : Outcome Nat :=
  if value.length = width then .ok (leNat value)
  else .error (receiveError "Invalid length for tlv(Int)")

/-- Reading the value of an attribute from the bytes of its TLV. -/
def parse : (type : AttrType) → Bytes → Outcome type.Value
  | u8, value => (parseInt 1 value).map UInt8.ofNat
  | u16, value => (parseInt 2 value).map UInt16.ofNat
  | u32, value => (parseInt 4 value).map UInt32.ofNat
  | u64, value => (parseInt 8 value).map UInt64.ofNat
  | data, value => .ok value
  | string, value => .ok value
  | uuid, value =>
    if width : value.length = 16 then .ok ⟨value, width⟩
    else .error (receiveError "Invalid length for tlv(uuid)")
  | timespec, value =>
    if value.length ≠ 12 then .error (receiveError "Invalid length for tlv(timespec)")
    else
      -- Seconds are reinterpreted as signed, nanoseconds are widened without a sign.
      let sec := value.take 8
      let nsec := value.drop 8
      .ok { tvSec := (UInt64.ofNat (leNat sec)).toInt64, tvNsec := Int64.ofNat (leNat nsec) }

/-- The bytes that a sender writes for a value. -/
def encode : (type : AttrType) → type.Value → Bytes
  | u8, value => leBytes 1 value.toNat
  | u16, value => leBytes 2 value.toNat
  | u32, value => leBytes 4 value.toNat
  | u64, value => leBytes 8 value.toNat
  | data, value => value
  | string, value => value
  | uuid, value => value.bytes
  | timespec, value =>
    leBytes 8 value.tvSec.toUInt64.toNat ++ leBytes 4 value.tvNsec.toUInt64.toNat

/-- Every value has an encoding, except that the stream has 32 bits for nanoseconds. -/
def Encodable : (type : AttrType) → type.Value → Prop
  | timespec, value => value.tvNsec.toUInt64.toNat < 2 ^ 32
  | _, _ => True

/-- An integer of the right width is read as the number its bytes stand for. -/
theorem parseInt_leBytes {width value : Nat} (fits : value < 256 ^ width) :
    parseInt width (leBytes width value) = .ok value := by
  -- The width check passes, and the bytes stand for the value they were written from.
  simp [parseInt, leNat_leBytes fits]

/-- A value that was encoded is read back unchanged. -/
theorem parse_encode (type : AttrType) (value : type.Value) (encodable : type.Encodable value) :
    type.parse (type.encode value) = .ok value := by
  cases type with
  | u8 => simp [parse, encode, parseInt_leBytes (show value.toNat < 256 ^ 1 from value.toNat_lt),
      Except.map]
  | u16 => simp [parse, encode, parseInt_leBytes (show value.toNat < 256 ^ 2 from value.toNat_lt),
      Except.map]
  | u32 => simp [parse, encode, parseInt_leBytes (show value.toNat < 256 ^ 4 from value.toNat_lt),
      Except.map]
  | u64 => simp [parse, encode, parseInt_leBytes (show value.toNat < 256 ^ 8 from value.toNat_lt),
      Except.map]
  | data => rfl
  | string => rfl
  | uuid => simp [parse, encode, value.width]
  | timespec =>
    -- Both halves are cut where they were joined, and neither loses bits on the way.
    have sec : value.tvSec.toUInt64.toNat < 256 ^ 8 := value.tvSec.toUInt64.toNat_lt
    have nsec : value.tvNsec.toUInt64.toNat < 256 ^ 4 := encodable
    have wide : Int64.ofNat value.tvNsec.toUInt64.toNat = value.tvNsec := by
      apply Int64.toBitVec_inj.mp
      simp [Int64.ofNat]
    simp [parse, encode, leNat_leBytes sec, leNat_leBytes nsec, wide]

/-- A value is accepted exactly when it has the width of its type. -/
theorem parse_ok_iff (type : AttrType) (value : Bytes) :
    (∃ parsed, type.parse value = .ok parsed) ↔
      ∀ width, type.width = some width → value.length = width := by
  -- The variable-length types take every value, and the others check one length.
  cases type <;> simp only [parse, width, parseInt] <;> try split
  all_goals simp_all [Except.map]

/-- Reading a value can fail, but it cannot panic. -/
theorem parse_not_panics (type : AttrType) (value : Bytes) : ¬ (type.parse value).Panics := by
  -- Every failing arm goes through the error macro.
  cases type <;> simp only [parse, parseInt] <;> try split
  all_goals simp [Except.map]

end AttrType

end Libbtrfs
