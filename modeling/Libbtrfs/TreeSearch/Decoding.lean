import Mathlib.Data.List.Forall2
import Libbtrfs.TreeSearch.View

/-! Items as they are stored, and exactly when their views show the fields that were stored. -/

namespace Libbtrfs.Search

open Packed

/-- What is stored in a union: the integer, or the range. -/
inductive Member
  | integer (value : UInt64)
  | range (low high : UInt32)
  deriving DecidableEq

namespace Member

/-- The bytes of a union. -/
def bytes : Member → Bytes
  | integer value => leBytes 8 value.toNat
  | range low high => leBytes 4 low.toNat ++ leBytes 4 high.toNat

/-- The flag that says which member of the union was stored. -/
def flag (integerFlag rangeFlag : UInt64) : Member → UInt64
  | integer _ => integerFlag
  | range _ _ => rangeFlag

/-- The accessor of the member that was stored returns it. -/
def Returned (integerResult : Outcome UInt64) (rangeResult : Outcome (UInt32 × UInt32)) :
    Member → Prop
  | integer value => integerResult = .ok value
  | range low high => rangeResult = .ok (low, high)

end Member

/-- An item as it is stored: a value for each of the fields, and the name behind them. -/
structure Stored (kind : Kind) where
  record : Struct.Record kind.struct
  name : Bytes
  clean : 0 ∉ name
  sized : kind.isNamed = true → record.values [.nameLen] = .int name.length
  usage : FieldName → Member
  limit : FieldName → Member
  usageKept : ∀ args ∈ kind.balanceArgs,
    record.values [args, .inner1] = .bytes (usage args).bytes
  limitKept : ∀ args ∈ kind.balanceArgs,
    record.values [args, .inner2] = .bytes (limit args).bytes

/-- The bytes of an item. -/
def Stored.bytes {kind : Kind} (stored : Stored kind) : Bytes := stored.record.bytes ++ stored.name

/-- Two conversions of a time denote the same seconds and nanoseconds. -/
def SameTime (time : IoctlTimespec × LibcTimespec) : Prop :=
  (time.1.sec.toNat : Int) = time.2.tvSec.toInt ∧ (time.1.nsec.toNat : Int) = time.2.tvNsec.toInt

/-- What is seen of an item is what was stored. -/
structure Decodes {kind : Kind} (stored : Stored kind) (seen : Observed) : Prop where
  fields : ∀ entry ∈ seen.table,
    entry.1 ∈ kind.struct.map Prod.fst ∧ entry.2 = stored.record.values entry.1
  times : ∀ time ∈ seen.times, SameTime time
  unions : List.Forall₂ (fun (unions : BalanceUnions) args =>
    (stored.usage args).Returned unions.usage unions.usageRange ∧
      (stored.limit args).Returned unions.limit unions.limitRange) seen.unions kind.balanceArgs
  name : kind.isNamed = true → seen.name = some (.ok stored.name)

/-- The flags in a field. -/
def flagsOf : Value → UInt64
  | .int flags => UInt64.ofNat flags
  | .bytes _ => 0

/-- The flags say which members of the unions were stored. -/
def Stored.Flagged {kind : Kind} (stored : Stored kind) (args : FieldName) : Prop :=
  let flags := flagsOf (stored.record.values [args, .flags])
  flags &&& (stored.usage args).flag balanceArgsUsage balanceArgsUsageRange ≠ 0 ∧
    flags &&& (stored.limit args).flag balanceArgsLimit balanceArgsLimitRange ≠ 0

/--
No accessor of the view goes wrong with the item.

It has no reference of an inode, its `sub_stripes` is the same as its `stripe_len`, its times have as
many seconds as nanoseconds, and with debug assertions the flags say what is in the unions.
-/
structure Stored.Readable {kind : Kind} (stored : Stored kind) (debugAssertions : Bool) : Prop where
  dataLen : kind ≠ .inodeRef ∧ kind ≠ .inodeExtref
  subStripes : kind = .chunkItem →
    stored.record.values [.stripeLen] = stored.record.values [.subStripes]
  times : ∀ time ∈ kind.times,
    stored.record.values (time ++ [.sec]) = stored.record.values (time ++ [.nsec])
  unions : debugAssertions = true → ∀ args ∈ kind.balanceArgs, stored.Flagged args

/-- What is read from a record are the values of its fields. -/
theorem readAll_bytes {layout : Struct Path} (record : Struct.Record layout) {reads : List Read}
    (found : ∀ read ∈ reads, layout.scalarOf read.2.1 = some read.2.2) (rest : Bytes) :
    readAll layout reads (record.bytes ++ rest) =
      reads.map fun read => (read.1, record.values read.2.1) := by
  -- Each of the fields is read back.
  apply List.map_congr_left
  intro read member
  exact congrArg (Prod.mk read.1) (Struct.read_encode record.accepted (found read member) rest)

section Reading

variable {kind : Kind} (stored : Stored kind) (rest : Bytes)

/-- A field is read back as it was stored. -/
theorem Stored.read {path : Path} {scalar : Scalar}
    (found : kind.struct.scalarOf path = some scalar) :
    kind.struct.read (stored.bytes ++ rest) (path, scalar) = stored.record.values path := by
  -- What is behind the fixed part is not read.
  rw [Stored.bytes, List.append_assoc]
  exact Struct.read_encode stored.record.accepted found _

/-- The accessors return the values of the fields that they read. -/
theorem Stored.table (debugAssertions : Bool) :
    (kind.observe debugAssertions (stored.bytes ++ rest)).table =
      kind.reads.map fun read => (read.1, stored.record.values read.2.1) := by
  -- What is behind the fixed part is not read.
  rw [Kind.observe_table, Stored.bytes, List.append_assoc]
  exact readAll_bytes stored.record kind.reads_found _

/-- The name is read back as it was stored. -/
theorem Stored.observe_name (debugAssertions : Bool) (isNamed : kind.isNamed = true) :
    (kind.observe debugAssertions (stored.bytes ++ rest)).name = some (.ok stored.name) := by
  have counted : kind.struct.scalarOf [.nameLen] = some .le16 := by
    cases kind <;> first | rfl | cases isNamed
  -- The length says how much of the memory behind the fixed part belongs to the name.
  have length : kind.nameLen (stored.bytes ++ rest) = stored.name.length :=
    Value.int.inj ((stored.read rest counted).trans (stored.sized isNamed))
  have fixed : stored.record.bytes.length = kind.struct.size :=
    Struct.encode_length stored.record.accepted
  have bytes : kind.nameBytes (stored.bytes ++ rest) = stored.name := by
    rw [Kind.nameBytes, length, Stored.bytes, List.append_assoc, List.drop_left' fixed,
      List.take_left]
  rw [Kind.observe_name, if_pos isNamed, Kind.name, bytes, if_neg stored.clean]

end Reading

section Fields

variable {kind : Kind} (stored : Stored kind) (rest : Bytes)

/-- The accessors read the fields that they are named after, but for three of them. -/
theorem Kind.reads_named (kind : Kind) (other : kind ≠ .chunkItem)
    (dataLen : kind ≠ .inodeRef ∧ kind ≠ .inodeExtref) :
    ∀ read ∈ kind.reads, read.1 ∈ kind.struct.map Prod.fst ∧ read.2.1 = read.1 := by
  -- The accessors are compared with the fields, one kind after the other.
  cases kind with
  | chunkItem => exact absurd rfl other
  | inodeRef => exact absurd rfl dataLen.1
  | inodeExtref => exact absurd rfl dataLen.2
  | _ => decide +kernel

/-- The accessors return the fields that they are named after exactly when those three do. -/
theorem Stored.fields_iff (debugAssertions : Bool) :
    (∀ entry ∈ (kind.observe debugAssertions (stored.bytes ++ rest)).table,
      entry.1 ∈ kind.struct.map Prod.fst ∧ entry.2 = stored.record.values entry.1) ↔
      (kind ≠ .inodeRef ∧ kind ≠ .inodeExtref) ∧
        (kind = .chunkItem →
          stored.record.values [.stripeLen] = stored.record.values [.subStripes]) := by
  rw [stored.table rest, List.forall_mem_map]
  constructor
  · intro returned
    refine ⟨⟨?_, ?_⟩, ?_⟩
    · rintro rfl
      -- There is no `data_len` among the fields.
      have missing : [.dataLen] ∉ inodeRef.map Prod.fst := by decide
      exact missing (returned ([.dataLen], le64Field .index) (by decide)).1
    · rintro rfl
      have missing : [.dataLen] ∉ inodeExtref.map Prod.fst := by decide
      exact missing (returned ([.dataLen], le64Field .index) (by decide)).1
    · rintro rfl
      exact (returned ([.subStripes], le64Field .stripeLen) (by decide)).2
  · intro readable read member
    obtain ⟨dataLen, subStripes⟩ := readable
    by_cases chunk_item : kind = .chunkItem
    · subst chunk_item
      have fields : ∀ read ∈ Kind.reads .chunkItem, read.1 ∈ chunk.map Prod.fst ∧
          (read.2.1 = read.1 ∨ (read.2.1 = [.stripeLen] ∧ read.1 = [.subStripes])) := by decide
      obtain ⟨field, same | ⟨this_one, sub_stripes⟩⟩ := fields read member
      · exact ⟨field, congrArg stored.record.values same⟩
      · refine ⟨field, ?_⟩
        rw [this_one, sub_stripes]
        exact subStripes rfl
    · obtain ⟨field, same⟩ := kind.reads_named chunk_item dataLen read member
      exact ⟨field, congrArg stored.record.values same⟩

end Fields

section Times

variable {kind : Kind} (stored : Stored kind) (rest : Bytes)

/-- The times lie in the structure. -/
theorem Kind.times_found (kind : Kind) : ∀ time ∈ kind.times,
    kind.struct.scalarOf (time ++ [.sec]) = some .le64 ∧
      kind.struct.scalarOf (time ++ [.nsec]) = some .le32 := by
  -- For each kind there are few of them.
  cases kind <;> decide +kernel

/-- A number of 32 bits is the same when it is converted into a signed one of 64 bits. -/
theorem toInt64_toInt (value : UInt32) : value.toUInt64.toInt64.toInt = value.toNat := by
  have small := value.toNat_lt
  have wide : value.toUInt64.toNat = value.toNat := UInt32.toNat_toUInt64 value
  -- It is below the half of those of 64 bits, where the signed ones are the same.
  calc
    value.toUInt64.toInt64.toInt = (UInt64.ofNat value.toNat).toInt64.toInt := by
      rw [← wide, UInt64.ofNat_toNat]
    _ = (Int64.ofNat value.toNat).toInt := by rw [UInt64.toInt64_ofNat']
    _ = value.toNat := Int64.toInt_ofNat_of_lt (by omega)

/-- The conversions, which exchange the fields, agree when both of them are the same. -/
theorem sameTime_iff (sec : UInt64) (nsec : UInt32) :
    SameTime (⟨sec, nsec⟩, { tvNsec := sec.toInt64, tvSec := nsec.toUInt64.toInt64 }) ↔
      sec.toNat = nsec.toNat := by
  have small := nsec.toNat_lt
  have nanoseconds := toInt64_toInt nsec
  constructor
  · rintro ⟨seconds, _⟩
    rw [nanoseconds] at seconds
    exact Int.ofNat.inj seconds
  · intro same
    -- Both are the same number of 64 bits, too.
    have converted : sec = nsec.toUInt64 := by
      apply UInt64.toNat_inj.mp
      rw [UInt32.toNat_toUInt64]
      exact same
    refine ⟨?_, ?_⟩
    · rw [nanoseconds]
      exact congrArg Int.ofNat same
    · rw [converted, nanoseconds]

/-- The conversions agree exactly when all times have as many seconds as nanoseconds. -/
theorem Stored.times_iff (debugAssertions : Bool) :
    (∀ time ∈ (kind.observe debugAssertions (stored.bytes ++ rest)).times, SameTime time) ↔
      ∀ time ∈ kind.times,
        stored.record.values (time ++ [.sec]) = stored.record.values (time ++ [.nsec]) := by
  rw [Kind.observe_times, List.forall_mem_map]
  apply forall_congr'
  intro time
  apply imp_congr_right
  intro member
  obtain ⟨sec, nsec⟩ := kind.times_found time member
  -- Both fields of a time are read back as they were stored.
  have seconds : Value.int (secAt kind.struct (stored.bytes ++ rest) time).toNat = _ :=
    stored.read rest sec
  have nanoseconds : Value.int (nsecAt kind.struct (stored.bytes ++ rest) time).toNat = _ :=
    stored.read rest nsec
  rw [← seconds, ← nanoseconds, Value.int.injEq]
  exact sameTime_iff _ _

end Times

section Unions

/-- The integer of a union is read back. -/
theorem Member.integer_read {memory : Bytes} {value : UInt64}
    (stored : memory.take 8 = (Member.integer value).bytes) : le64 memory = value := by
  -- The other way round it is written with these bytes.
  rw [le64, stored, Member.bytes, leNat_leBytes value.toNat_lt, UInt64.ofNat_toNat]

/-- Both bounds of the range of a union are read back. -/
theorem Member.range_read {memory : Bytes} {low high : UInt32}
    (stored : memory.take 8 = (Member.range low high).bytes) :
    le32 memory = low ∧ le32 (memory.drop 4) = high := by
  -- The first four bytes are the lower bound, and the four behind them the upper one.
  have front : memory.take 4 = leBytes 4 low.toNat := by
    have part := congrArg (List.take 4) stored
    rwa [List.take_take, Member.bytes, List.take_left' (leBytes_length 4 _)] at part
  have back : (memory.drop 4).take 4 = leBytes 4 high.toNat := by
    have part := congrArg (List.drop 4) stored
    rwa [List.drop_take, Member.bytes, List.drop_left' (leBytes_length 4 _)] at part
  constructor
  · rw [le32, front, leNat_leBytes low.toNat_lt, UInt32.ofNat_toNat]
  · rw [le32, back, leNat_leBytes high.toNat_lt, UInt32.ofNat_toNat]

/-- An assertion lets a value pass unless it is checked and the flag is missing. -/
theorem DiskBalanceArgs.asserted_iff {α : Type} (args : DiskBalanceArgs) (debugAssertions : Bool)
    (flag : UInt64) (name : String) (value : α) :
    args.asserted debugAssertions flag name value = .ok value ↔
      (debugAssertions = true → args.flags &&& flag ≠ 0) := by
  rw [asserted]
  -- The assertion either panics or lets the value pass.
  split
  · rename_i fails
    constructor
    · intro impossible
      cases impossible
    · intro passes
      exact absurd fails.2 (passes fails.1)
  · rename_i passes
    constructor
    · intro _ checked missing
      exact passes ⟨checked, missing⟩
    · intro _
      rfl

/-- What was stored in a union is returned exactly when the assertion in front of it passes. -/
theorem Member.returned_iff {memory : Bytes} {member : Member}
    (stored : memory.take 8 = member.bytes) (args : DiskBalanceArgs) (debugAssertions : Bool)
    (integerFlag rangeFlag : UInt64) (integerName rangeName : String) :
    member.Returned (args.asserted debugAssertions integerFlag integerName (le64 memory))
        (args.asserted debugAssertions rangeFlag rangeName
          (le32 memory, le32 (memory.drop 4))) ↔
      (debugAssertions = true → args.flags &&& member.flag integerFlag rangeFlag ≠ 0) := by
  -- What was stored is read back, so only the assertion is left.
  cases member with
  | integer value =>
    rw [Member.integer_read stored]
    exact args.asserted_iff debugAssertions integerFlag integerName value
  | range low high =>
    obtain ⟨front, back⟩ := Member.range_read stored
    rw [front, back]
    exact args.asserted_iff debugAssertions rangeFlag rangeName (low, high)

variable {kind : Kind} (stored : Stored kind) (rest : Bytes)

/-- The fields of the arguments of a balance are read back as they were stored. -/
theorem Stored.read_args {args : FieldName} (member : args ∈ kind.balanceArgs)
    {field : Path × Scalar} (inside : field ∈ diskBalanceArgs) :
    diskBalanceArgs.read (getMember kind.struct (stored.bytes ++ rest) args) field =
      stored.record.values (args :: field.1) := by
  -- They are a record inside the record.
  have nests := kind.balanceArgs_nests args member
  rw [getMember, nests.read inside]
  exact stored.read rest (nests field inside).1

/-- What is in the unions of some arguments is returned exactly when the flags say so. -/
theorem Stored.args_iff {args : FieldName} (member : args ∈ kind.balanceArgs)
    (debugAssertions : Bool) :
    let unions := DiskBalanceArgs.unions ⟨getMember kind.struct (stored.bytes ++ rest) args⟩
      debugAssertions
    (stored.usage args).Returned unions.usage unions.usageRange ∧
        (stored.limit args).Returned unions.limit unions.limitRange ↔
      (debugAssertions = true → stored.Flagged args) := by
  have flags := stored.read_args rest member (by decide : le64Field .flags ∈ diskBalanceArgs)
  have inner1 := stored.read_args rest member (by decide : arrayField .inner1 8 ∈ diskBalanceArgs)
  have inner2 := stored.read_args rest member (by decide : arrayField .inner2 8 ∈ diskBalanceArgs)
  have usage := Value.bytes.inj (inner1.trans (stored.usageKept args member))
  have limit := Value.bytes.inj (inner2.trans (stored.limitKept args member))
  -- The flags are read back, too, as the number that they are.
  have shown : flagsOf (stored.record.values [args, .flags]) =
      DiskBalanceArgs.flags ⟨getMember kind.struct (stored.bytes ++ rest) args⟩ :=
    (congrArg flagsOf flags.symm).trans UInt64.ofNat_toNat
  rw [Stored.Flagged, shown]
  constructor
  · rintro ⟨usage_returned, limit_returned⟩ checked
    exact ⟨(Member.returned_iff usage _ _ _ _ _ _).mp usage_returned checked,
      (Member.returned_iff limit _ _ _ _ _ _).mp limit_returned checked⟩
  · intro flagged
    exact ⟨(Member.returned_iff usage _ _ _ _ _ _).mpr fun checked => (flagged checked).1,
      (Member.returned_iff limit _ _ _ _ _ _).mpr fun checked => (flagged checked).2⟩

/-- The accessors return what is in the unions exactly when the flags say so, if asserted. -/
theorem Stored.unions_iff (debugAssertions : Bool) :
    List.Forall₂ (fun (unions : BalanceUnions) args =>
        (stored.usage args).Returned unions.usage unions.usageRange ∧
          (stored.limit args).Returned unions.limit unions.limitRange)
      (kind.observe debugAssertions (stored.bytes ++ rest)).unions kind.balanceArgs ↔
      (debugAssertions = true → ∀ args ∈ kind.balanceArgs, stored.Flagged args) := by
  rw [Kind.observe_unions, List.forall₂_map_left_iff, List.forall₂_same]
  -- Each of the arguments is on its own.
  constructor
  · intro returned checked args member
    exact (stored.args_iff rest member debugAssertions).mp (returned args member) checked
  · intro flagged args member
    exact (stored.args_iff rest member debugAssertions).mpr fun checked =>
      flagged checked args member

end Unions

/--
The accessors of every view return what was stored in the item, whatever is behind it in the buffer,
exactly when none of those that go wrong does with this item.
-/
theorem decodes_iff {kind : Kind} (stored : Stored kind) (debugAssertions : Bool) (rest : Bytes) :
    Decodes stored (kind.observe debugAssertions (stored.bytes ++ rest)) ↔
      stored.Readable debugAssertions := by
  have fields := stored.fields_iff rest debugAssertions
  have times := stored.times_iff rest debugAssertions
  have unions := stored.unions_iff rest debugAssertions
  -- The names are always read back, and each of the other parts decides on its own.
  constructor
  · intro decodes
    obtain ⟨dataLen, subStripes⟩ := fields.mp decodes.fields
    exact ⟨dataLen, subStripes, times.mp decodes.times, unions.mp decodes.unions⟩
  · intro readable
    exact ⟨fields.mpr ⟨readable.dataLen, readable.subStripes⟩, times.mpr readable.times,
      unions.mpr readable.unions, stored.observe_name rest debugAssertions⟩

/-- The accessors of a view that no item is cast into return all of what was stored. -/
theorem extentDataRef_table (record : Struct.Record extentDataRef) (rest : Bytes) :
    ExtentDataRef.table ⟨record.bytes ++ rest⟩ =
      (named extentDataRef []).map fun read => (read.1, record.values read.1) := by
  -- Each of its accessors is for a field of the structure.
  have found : ∀ read ∈ named extentDataRef [],
      extentDataRef.scalarOf read.2.1 = some read.2.2 := by decide
  exact readAll_bytes record found rest

/-- The accessor of the other such view returns what was stored, too. -/
theorem sharedDataRef_table (record : Struct.Record sharedDataRef) (rest : Bytes) :
    SharedDataRef.table ⟨record.bytes ++ rest⟩ =
      (named sharedDataRef []).map fun read => (read.1, record.values read.1) := by
  -- Each of its accessors is for a field of the structure.
  have found : ∀ read ∈ named sharedDataRef [],
      sharedDataRef.scalarOf read.2.1 = some read.2.2 := by decide
  exact readAll_bytes record found rest

/-- The values of a chunk whose stripes are 64 KiB long. -/
def chunkValues : Path → Value
  | [.stripeLen] => .int 65536
  | [.subStripes] => .int 1
  | [.stripe, .devUuid] => .bytes (List.replicate 16 0)
  | _ => .int 0

/-- Each of the values of the chunk fits its field. -/
theorem chunkValues_accepted : ∀ field ∈ chunk, field.2.Accepts (chunkValues field.1) := by
  -- There are few fields to look at.
  decide

/-- The values of a reference of an inode with a name of one byte. -/
def inodeRefValues : Path → Value
  | [.nameLen] => .int 1
  | _ => .int 2

/-- The name has no zero in it. -/
theorem linkName_clean : 0 ∉ ([97] : Bytes) := by
  -- It is one byte.
  decide

/-- Each of the values fits its field. -/
theorem inodeRefValues_accepted :
    ∀ field ∈ inodeRef, field.2.Accepts (inodeRefValues field.1) := by
  -- There are few fields to look at.
  decide

/-- The values of an inode that was changed one second after the epoch. -/
def inodeValues : Path → Value
  | [.mtime, .sec] => .int 1
  | [.reserved] => .bytes (List.replicate 32 0)
  | _ => .int 0

/-- Each of the values of the inode fits its field. -/
theorem inodeValues_accepted : ∀ field ∈ inodeItem, field.2.Accepts (inodeValues field.1) := by
  -- There are few fields to look at.
  decide

/-- Nothing is said of the length of a name that is not there. -/
theorem unnamed_sized {kind : Kind} (unnamed : kind.isNamed = false) {values : Path → Value} :
    kind.isNamed = true → values [.nameLen] = .int ([] : Bytes).length := by
  -- There is no such kind.
  intro isNamed
  rw [unnamed] at isNamed
  cases isNamed

/-- Nothing is said of arguments that are not there. -/
theorem no_args_kept {kind : Kind} (no_args : kind.balanceArgs = []) {kept : FieldName → Prop} :
    ∀ args ∈ kind.balanceArgs, kept args := by
  -- The list of them is empty.
  rw [no_args]
  exact List.forall_mem_nil kept

/-- An item without a name and without the arguments of a balance. -/
def Stored.plain {kind : Kind} (record : Struct.Record kind.struct)
    (unnamed : kind.isNamed = false) (no_args : kind.balanceArgs = []) : Stored kind where
  record := record
  name := []
  clean := List.not_mem_nil
  sized := unnamed_sized unnamed
  usage _ := .integer 0
  limit _ := .integer 0
  usageKept := no_args_kept no_args
  limitKept := no_args_kept no_args

/-- A reference of an inode, whose index is 2. -/
def linkRef : Stored .inodeRef where
  record := ⟨inodeRefValues, inodeRefValues_accepted⟩
  name := [97]
  clean := linkName_clean
  sized _ := rfl
  usage _ := .integer 0
  limit _ := .integer 0
  usageKept := List.forall_mem_nil _
  limitKept := List.forall_mem_nil _

/-- A chunk, whose stripes are 64 KiB long, and which has one sub-stripe. -/
def stripedChunk : Stored .chunkItem := .plain ⟨chunkValues, chunkValues_accepted⟩ rfl rfl

/-- An inode that was changed one second after the epoch. -/
def changedInode : Stored .inodeItem := .plain ⟨inodeValues, inodeValues_accepted⟩ rfl rfl

/--
A chunk does not show its sub-stripes, a reference of an inode shows data that has no length, and a
time of an inode is converted into two different ones.
-/
theorem not_decodes :
    (∀ debugAssertions, ¬ Decodes stripedChunk
      (Kind.observe .chunkItem debugAssertions (stripedChunk.bytes ++ []))) ∧
    (∀ debugAssertions, ¬ Decodes linkRef
      (Kind.observe .inodeRef debugAssertions (linkRef.bytes ++ []))) ∧
    ∀ debugAssertions, ¬ Decodes changedInode
      (Kind.observe .inodeItem debugAssertions (changedInode.bytes ++ [])) := by
  -- In each of the three items the two values that would have to be the same differ.
  refine ⟨?_, ?_, ?_⟩
  · intro debugAssertions decodes
    have same := ((stripedChunk.fields_iff [] debugAssertions).mp decodes.fields).2 rfl
    have differ : chunkValues [.stripeLen] ≠ chunkValues [.subStripes] := by decide
    exact differ same
  · intro debugAssertions decodes
    exact ((linkRef.fields_iff [] debugAssertions).mp decodes.fields).1.1 rfl
  · intro debugAssertions decodes
    have times := (changedInode.times_iff [] debugAssertions).mp decodes.times
    have differ : inodeValues [.mtime, .sec] ≠ inodeValues [.mtime, .nsec] := by decide
    exact differ (times [.mtime] (by decide))

end Libbtrfs.Search
