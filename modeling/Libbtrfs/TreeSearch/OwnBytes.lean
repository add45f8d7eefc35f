import Libbtrfs.TreeSearch.View

/-! Views of items of any length, and exactly when they show nothing that lies behind the item. -/

namespace Libbtrfs.Search

open Packed

/-- What `get` returns for a kind of items, and what is seen through it. -/
def SearchItem.getKind (kind : Kind) (debugAssertions : Bool) (item : SearchItem) :
    Option Observed :=
  (@SearchItem.get kind.view.T kind.view.treeItem item).map (kind.view.observe debugAssertions)

/-- The key type of a kind of items. -/
def Kind.key (kind : Kind) : UInt32 := @TreeItem.key kind.view.T kind.view.treeItem

/-- `get` returns a view of the memory behind the header if the type is right. -/
theorem SearchItem.getKind_eq (kind : Kind) (debugAssertions : Bool) (item : SearchItem) :
    item.getKind kind debugAssertions =
      if item.ty = kind.key then some (kind.observe debugAssertions item.payload) else none := by
  -- The view of a kind has the key of that kind.
  show (if item.ty = kind.key then some (kind.view.treeItem.fromSearchUnckeched item.payload)
    else none).map (kind.view.observe debugAssertions) = _
  by_cases typed : item.ty = kind.key
  · rw [if_pos typed, if_pos typed]
    rfl
  · rw [if_neg typed, if_neg typed]
    rfl

/-- All that is seen of an item is determined by its header and its data, whatever is behind it. -/
def OwnBytes (kind : Kind) (debugAssertions : Bool) (item : Item) : Prop :=
  ∀ rest other, SearchItem.getKind kind debugAssertions ⟨item.bytes ++ rest⟩ =
    SearchItem.getKind kind debugAssertions ⟨item.bytes ++ other⟩

/-- The name lies in the data, or the part of it that does has a zero byte. -/
def NameInside (kind : Kind) (data : Bytes) : Prop :=
  kind.struct.offset [.nameLen] + 2 ≤ data.length ∧
    (kind.nameLen data = 0 ∨ kind.struct.size + kind.nameLen data ≤ data.length ∨
      0 ∈ data.drop kind.struct.size)

/-- All fields that the accessors read lie in the data, and so does the name if there is one. -/
structure Inside (kind : Kind) (data : Bytes) : Prop where
  fields : ∀ read ∈ kind.reads,
    kind.struct.offset read.2.1 + read.2.2.size ≤ data.length
  name : kind.isNamed = true → NameInside kind data

section Fields

variable {kind : Kind} {data : Bytes}

/-- Every field that is read has a width. -/
theorem Kind.reads_wide (kind : Kind) : ∀ read ∈ kind.reads, 0 < read.2.2.size := by
  -- For each kind there are few of them.
  cases kind <;> decide

/-- The accessors depend on nothing behind the data exactly when the fields lie in the data. -/
theorem table_iff (kind : Kind) (data : Bytes) :
    (∀ rest other, readAll kind.struct kind.reads (data ++ rest) =
      readAll kind.struct kind.reads (data ++ other)) ↔
      ∀ read ∈ kind.reads, kind.struct.offset read.2.1 + read.2.2.size ≤ data.length := by
  constructor
  · intro same read member
    by_contra beyond
    rw [not_le] at beyond
    -- The last byte of the field is not one of the data.
    let gap := read.2.2.gap data (kind.struct.offset read.2.1)
    have entries := List.map_inj_left.mp (same (gap ++ [0]) (gap ++ [1])) read member
    exact Scalar.decode_beyond beyond (kind.reads_wide read member) [] (Prod.mk.inj entries).2
  · intro inside rest other
    apply List.map_congr_left
    intro read member
    have field := inside read member
    rw [Struct.read, Struct.read, Scalar.decode_append field, Scalar.decode_append field]

/-- A field that is read is the same, whatever is behind the data. -/
theorem Inside.read (inside : Inside kind data) {read : Read} (member : read ∈ kind.reads)
    (rest other : Bytes) :
    kind.struct.read (data ++ rest) read.2 = kind.struct.read (data ++ other) read.2 := by
  -- The field ends inside the data.
  have field := inside.fields read member
  rw [Struct.read, Struct.read, Scalar.decode_append field, Scalar.decode_append field]

/-- The times are read by the accessors, too. -/
theorem Kind.times_read (kind : Kind) : ∀ time ∈ kind.times,
    (time ++ [.sec], (time ++ [.sec], Scalar.le64)) ∈ kind.reads ∧
      (time ++ [.nsec], (time ++ [.nsec], Scalar.le32)) ∈ kind.reads := by
  -- For each kind there are few of them.
  cases kind <;> decide +kernel

/-- A time is converted into the same, whatever is behind the data. -/
theorem Inside.timeAt (inside : Inside kind data) {time : Path} (member : time ∈ kind.times)
    (rest other : Bytes) :
    timeAt kind.struct (data ++ rest) time = timeAt kind.struct (data ++ other) time := by
  -- Both fields of a time are among those that the accessors read.
  obtain ⟨sec, nsec⟩ := kind.times_read time member
  have seconds : secAt kind.struct (data ++ rest) time = secAt kind.struct (data ++ other) time :=
    UInt64.toNat_inj.mp (Value.int.inj (inside.read sec rest other))
  have nanoseconds :
      nsecAt kind.struct (data ++ rest) time = nsecAt kind.struct (data ++ other) time :=
    UInt32.toNat_inj.mp (Value.int.inj (inside.read nsec rest other))
  rw [Search.timeAt, Search.timeAt, seconds, nanoseconds]

end Fields

section Unions

/-- What is read from a union is determined by its eight bytes. -/
theorem union_read {memory other : Bytes} (same : memory.take 8 = other.take 8) :
    le64 memory = le64 other ∧ le32 memory = le32 other ∧
      le32 (memory.drop 4) = le32 (other.drop 4) := by
  -- Each of the integers lies in the first half of the eight bytes or in the second.
  have front : memory.take 4 = other.take 4 := by
    have part := congrArg (List.take 4) same
    rwa [List.take_take, List.take_take] at part
  have back : (memory.drop 4).take 4 = (other.drop 4).take 4 := by
    have part := congrArg (List.drop 4) same
    rwa [List.drop_take, List.drop_take] at part
  refine ⟨?_, ?_, ?_⟩
  · rw [le64, le64, same]
  · rw [le32, le32, front]
  · rw [le32, le32, back]

/-- An assertion is about the flags alone. -/
theorem asserted_congr {α : Type} {args others : DiskBalanceArgs}
    (flags : args.flags = others.flags) (debugAssertions : Bool) (flag : UInt64) (name : String)
    {value another : α} (same : value = another) :
    args.asserted debugAssertions flag name value =
      others.asserted debugAssertions flag name another := by
  -- The flags are looked at first.
  rw [DiskBalanceArgs.asserted, DiskBalanceArgs.asserted, flags, same]

/-- The accessors of the unions read the flags and both unions. -/
theorem unions_congr {memory other : Bytes}
    (same : ∀ field ∈ [le64Field .flags, arrayField .inner1 8, arrayField .inner2 8],
      diskBalanceArgs.read memory field = diskBalanceArgs.read other field)
    (debugAssertions : Bool) :
    DiskBalanceArgs.unions ⟨memory⟩ debugAssertions =
      DiskBalanceArgs.unions ⟨other⟩ debugAssertions := by
  -- The assertions read the flags, and the values are read from the unions.
  have flags : DiskBalanceArgs.flags ⟨memory⟩ = DiskBalanceArgs.flags ⟨other⟩ :=
    UInt64.toNat_inj.mp (Value.int.inj (same _ (by decide : le64Field .flags ∈ _)))
  obtain ⟨usage, usage_min, usage_max⟩ :=
    union_read (Value.bytes.inj (same _ (by decide : arrayField .inner1 8 ∈ _)))
  obtain ⟨limit, limit_min, limit_max⟩ :=
    union_read (Value.bytes.inj (same _ (by decide : arrayField .inner2 8 ∈ _)))
  have usage_same : DiskBalanceArgs.usage ⟨memory⟩ debugAssertions =
      DiskBalanceArgs.usage ⟨other⟩ debugAssertions := asserted_congr flags _ _ _ usage
  have usage_range : DiskBalanceArgs.usageRange ⟨memory⟩ debugAssertions =
      DiskBalanceArgs.usageRange ⟨other⟩ debugAssertions :=
    asserted_congr flags _ _ _ (Prod.ext usage_min usage_max)
  have limit_same : DiskBalanceArgs.limit ⟨memory⟩ debugAssertions =
      DiskBalanceArgs.limit ⟨other⟩ debugAssertions := asserted_congr flags _ _ _ limit
  have limit_range : DiskBalanceArgs.limitRange ⟨memory⟩ debugAssertions =
      DiskBalanceArgs.limitRange ⟨other⟩ debugAssertions :=
    asserted_congr flags _ _ _ (Prod.ext limit_min limit_max)
  rw [DiskBalanceArgs.unions, DiskBalanceArgs.unions, usage_same, usage_range, limit_same,
    limit_range]

/-- The flags and the unions lie in front of a field that an accessor reads. -/
theorem Kind.unions_in_front (kind : Kind) : ∀ args ∈ kind.balanceArgs,
    ([args, .stripesMax], ([args, .stripesMax], Scalar.le32)) ∈ kind.reads ∧
      ∀ field ∈ [le64Field .flags, arrayField .inner1 8, arrayField .inner2 8],
        field ∈ diskBalanceArgs ∧ kind.struct.offset (args :: field.1) + field.2.size ≤
          kind.struct.offset [args, .stripesMax] + 4 := by
  -- For each kind there are few of them.
  cases kind <;> decide +kernel

variable {kind : Kind} {data : Bytes}

/-- What is in the unions is the same, whatever is behind the data. -/
theorem Inside.unions (inside : Inside kind data) {args : FieldName}
    (member : args ∈ kind.balanceArgs) (debugAssertions : Bool) (rest other : Bytes) :
    DiskBalanceArgs.unions ⟨getMember kind.struct (data ++ rest) args⟩ debugAssertions =
      DiskBalanceArgs.unions ⟨getMember kind.struct (data ++ other) args⟩ debugAssertions := by
  -- The unions lie in front of another field, which is inside as well.
  obtain ⟨behind, in_front⟩ := kind.unions_in_front args member
  have nests := kind.balanceArgs_nests args member
  have reach : kind.struct.offset [args, .stripesMax] + 4 ≤ data.length :=
    inside.fields _ behind
  apply unions_congr
  intro field among
  obtain ⟨found, before⟩ := in_front field among
  have field_inside := before.trans reach
  rw [getMember, getMember, nests.read found, nests.read found, Struct.read, Struct.read,
    Scalar.decode_append field_inside, Scalar.decode_append field_inside]

end Unions

section Names

variable {kind : Kind} {data : Bytes}

/-- The length of a name is the same, whatever is behind the data that it lies in. -/
theorem nameLen_append (reach : kind.struct.offset [.nameLen] + 2 ≤ data.length) (rest : Bytes) :
    kind.nameLen (data ++ rest) = kind.nameLen data :=
  Value.int.inj (@Scalar.decode_append data _ .le16 reach rest)

/-- The length of a name that lies partly behind the data depends on the byte that ends it. -/
theorem nameLen_beyond (beyond : data.length < kind.struct.offset [.nameLen] + 2) (tail : Bytes) :
    kind.nameLen (data ++ (Scalar.le16.gap data (kind.struct.offset [.nameLen]) ++ 0 :: tail)) ≠
      kind.nameLen
        (data ++ (Scalar.le16.gap data (kind.struct.offset [.nameLen]) ++ 1 :: tail)) := by
  -- The length is the value of its field, of which a byte differs.
  intro same
  exact @Scalar.decode_beyond data _ .le16 beyond Nat.two_pos tail (congrArg Value.int same)

/-- The bytes of a name inside the data are the same, whatever is behind the data. -/
theorem nameBytes_append (reach : kind.struct.offset [.nameLen] + 2 ≤ data.length)
    (ends : kind.struct.size + kind.nameLen data ≤ data.length) (rest : Bytes) :
    kind.nameBytes (data ++ rest) = kind.nameBytes data := by
  -- The length is the same, and so are the bytes that it counts.
  rw [Kind.nameBytes, nameLen_append reach, field_append ends, Kind.nameBytes]

/-- A name inside the data, or one that has a zero byte there, is seen as the same. -/
theorem NameInside.name (inside : NameInside kind data) (rest other : Bytes) :
    kind.name (data ++ rest) = kind.name (data ++ other) := by
  obtain ⟨reach, where_it_ends⟩ := inside
  have length := fun behind => nameLen_append reach behind
  by_cases ends : kind.struct.size + kind.nameLen data ≤ data.length
  · rw [Kind.name, Kind.name, nameBytes_append reach ends, nameBytes_append reach ends]
  · rcases where_it_ends with empty | fits | zero
    · have bytes : ∀ behind, kind.nameBytes (data ++ behind) = [] := by
        intro behind
        rw [Kind.nameBytes, length, empty, List.take_zero]
      rw [Kind.name, Kind.name, bytes, bytes]
    · exact absurd fits ends
    · -- The data behind the fixed part is all in the name, and so is the zero byte.
      have starts : kind.struct.size ≤ data.length := by
        by_contra short
        rw [List.drop_of_length_le (by omega)] at zero
        cases zero
      have whole : (data.drop kind.struct.size).length ≤ kind.nameLen data := by
        rw [List.length_drop]
        omega
      have member : ∀ behind, 0 ∈ kind.nameBytes (data ++ behind) := by
        intro behind
        rw [Kind.nameBytes, length, List.drop_append_of_le_length starts, List.take_append,
          List.take_of_length_le whole]
        exact List.mem_append_left _ zero
      rw [Kind.name, Kind.name, if_pos (member rest), if_pos (member other)]

/-- In front of enough ones the name is nothing but ones. -/
theorem name_ones {front : Bytes} {count : Nat} (starts : front.length ≤ kind.struct.size)
    (enough : kind.struct.size + 2 ^ 16 ≤ count) :
    kind.name (front ++ List.replicate count 1) =
      .ok (List.replicate (kind.nameLen (front ++ List.replicate count 1)) 1) := by
  have small : kind.nameLen (front ++ List.replicate count 1) < 2 ^ 16 := UInt16.toNat_lt _
  have fixed : front.drop kind.struct.size = [] := List.drop_of_length_le starts
  have bytes : kind.nameBytes (front ++ List.replicate count 1) =
      List.replicate (kind.nameLen (front ++ List.replicate count 1)) 1 := by
    rw [Kind.nameBytes, List.drop_append, fixed, List.nil_append, List.drop_replicate,
      List.take_replicate, Nat.min_eq_left (by omega)]
  -- There is no zero among the ones, so the name is accepted.
  have clean : (0 : UInt8) ∉ List.replicate
      (kind.nameLen (front ++ List.replicate count 1)) (1 : UInt8) := by
    intro zero
    have same := List.eq_of_mem_replicate zero
    revert same
    decide
  rw [Kind.name, bytes, if_neg clean]

/-- If the name is always seen as the same, its length lies in the data. -/
theorem nameLen_inside (fixed : kind.struct.offset [.nameLen] + 2 ≤ kind.struct.size)
    (same : ∀ rest other, kind.name (data ++ rest) = kind.name (data ++ other)) :
    kind.struct.offset [.nameLen] + 2 ≤ data.length := by
  by_contra short
  rw [not_le] at short
  let ones : Bytes := List.replicate (kind.struct.size + 2 ^ 16) 1
  let gap := Scalar.le16.gap data (kind.struct.offset [.nameLen])
  -- Behind the length there are ones, so that the name is as long as it says.
  have named : ∀ byte, kind.name (data ++ (gap ++ byte :: ones)) =
      .ok (List.replicate (kind.nameLen (data ++ (gap ++ byte :: ones))) 1) := by
    intro byte
    have apart : data ++ (gap ++ byte :: ones) = (data ++ gap ++ [byte]) ++ ones := by simp
    rw [apart]
    apply name_ones _ (Nat.le_refl _)
    have length : gap.length = kind.struct.offset [.nameLen] + 2 - data.length - 1 :=
      List.length_replicate
    rw [List.length_append, List.length_append, List.length_singleton, length]
    omega
  have equal := same (gap ++ 0 :: ones) (gap ++ 1 :: ones)
  rw [named, named] at equal
  have lengths := congrArg List.length (Except.ok.inj equal)
  rw [List.length_replicate, List.length_replicate] at lengths
  exact nameLen_beyond short ones lengths

/-- If the name is always seen as the same, it lies in the data or has a zero byte there. -/
theorem nameInside_of_same (fixed : kind.struct.offset [.nameLen] + 2 ≤ kind.struct.size)
    (same : ∀ rest other, kind.name (data ++ rest) = kind.name (data ++ other)) :
    NameInside kind data := by
  have reach := nameLen_inside fixed same
  refine ⟨reach, ?_⟩
  by_contra outside
  rw [not_or, not_or, not_le] at outside
  obtain ⟨wide, short, clean⟩ := outside
  have shorter : (data.drop kind.struct.size).length < kind.nameLen data := by
    rw [List.length_drop]
    omega
  -- What is behind the data is part of the name.
  have bytes : ∀ byte, kind.nameBytes (data ++ List.replicate
      (kind.struct.size + kind.nameLen data) byte) = data.drop kind.struct.size ++
        List.replicate (kind.nameLen data - (data.drop kind.struct.size).length) byte := by
    intro byte
    rw [Kind.nameBytes, nameLen_append reach, List.drop_append, List.drop_replicate,
      List.take_append, List.take_of_length_le shorter.le, List.take_replicate,
      Nat.min_eq_left (by omega)]
  have zeros : 0 ∈ kind.nameBytes (data ++ List.replicate
      (kind.struct.size + kind.nameLen data) 0) := by
    rw [bytes]
    exact List.mem_append_right _ (List.mem_replicate.mpr ⟨by omega, rfl⟩)
  have ones : 0 ∉ kind.nameBytes (data ++ List.replicate
      (kind.struct.size + kind.nameLen data) 1) := by
    rw [bytes]
    intro zero
    rcases List.mem_append.mp zero with own | behind
    · exact clean own
    · have equal := List.eq_of_mem_replicate behind
      revert equal
      decide
  have equal := same (List.replicate (kind.struct.size + kind.nameLen data) 0)
    (List.replicate (kind.struct.size + kind.nameLen data) 1)
  rw [Kind.name, Kind.name, if_pos zeros, if_neg ones] at equal
  cases equal

end Names

section Items

variable {kind : Kind} {item : Item}

/-- The view of an item in the buffer, if the type is right. -/
theorem getKind_bytes (kind : Kind) (debugAssertions : Bool) (item : Item) (rest : Bytes) :
    SearchItem.getKind kind debugAssertions ⟨item.bytes ++ rest⟩ =
      if item.ty = kind.key then some (kind.observe debugAssertions (item.data ++ rest))
      else none := by
  -- The type is in the header, and the data behind that.
  rw [SearchItem.getKind_eq, SearchItem.ty_bytes, SearchItem.payload_bytes]

/-- The length of a name lies in the fixed part of the item. -/
theorem Kind.nameLen_fixed (kind : Kind) (isNamed : kind.isNamed = true) :
    kind.struct.offset [.nameLen] + 2 ≤ kind.struct.size := by
  -- For each kind that has a name there is one field to look at.
  cases kind <;> first | decide | cases isNamed

/-- Nothing behind an item is seen if all that the accessors read lies inside. -/
theorem Inside.ownBytes (inside : item.ty = kind.key → Inside kind item.data)
    (debugAssertions : Bool) : OwnBytes kind debugAssertions item := by
  intro rest other
  rw [getKind_bytes, getKind_bytes]
  by_cases typed : item.ty = kind.key
  · rw [if_pos typed, if_pos typed]
    have within := inside typed
    apply congrArg some
    -- Each of the four parts that are seen is the same.
    have table : (kind.observe debugAssertions (item.data ++ rest)).table =
        (kind.observe debugAssertions (item.data ++ other)).table := by
      rw [Kind.observe_table, Kind.observe_table]
      exact (table_iff kind item.data).mpr within.fields rest other
    have times : (kind.observe debugAssertions (item.data ++ rest)).times =
        (kind.observe debugAssertions (item.data ++ other)).times := by
      rw [Kind.observe_times, Kind.observe_times]
      exact List.map_congr_left fun time member => within.timeAt member rest other
    have unions : (kind.observe debugAssertions (item.data ++ rest)).unions =
        (kind.observe debugAssertions (item.data ++ other)).unions := by
      rw [Kind.observe_unions, Kind.observe_unions]
      exact List.map_congr_left fun args member =>
        within.unions member debugAssertions rest other
    have name : (kind.observe debugAssertions (item.data ++ rest)).name =
        (kind.observe debugAssertions (item.data ++ other)).name := by
      rw [Kind.observe_name, Kind.observe_name]
      by_cases isNamed : kind.isNamed = true
      · rw [if_pos isNamed, if_pos isNamed, (within.name isNamed).name rest other]
      · rw [if_neg isNamed, if_neg isNamed]
    exact Observed.ext table times unions name
  · rw [if_neg typed, if_neg typed]

/-- If nothing behind an item is seen, all that the accessors read lies inside. -/
theorem OwnBytes.inside {debugAssertions : Bool} (own : OwnBytes kind debugAssertions item)
    (typed : item.ty = kind.key) : Inside kind item.data := by
  have same : ∀ rest other, kind.observe debugAssertions (item.data ++ rest) =
      kind.observe debugAssertions (item.data ++ other) := by
    intro rest other
    have seen := own rest other
    rw [getKind_bytes, getKind_bytes, if_pos typed, if_pos typed] at seen
    exact Option.some.inj seen
  -- The table gives the fields, and the name where it ends.
  constructor
  · apply (table_iff kind item.data).mp
    intro rest other
    rw [← kind.observe_table debugAssertions, ← kind.observe_table debugAssertions,
      same rest other]
  · intro isNamed
    apply nameInside_of_same (kind.nameLen_fixed isNamed)
    intro rest other
    have names := congrArg Observed.name (same rest other)
    rw [Kind.observe_name, Kind.observe_name, if_pos isNamed, if_pos isNamed] at names
    exact Option.some.inj names

end Items

/--
What is seen of an item is determined by its header and its own data exactly when the type is another
one, or all fields that the accessors read, and the name, lie in the data.
-/
theorem ownBytes_iff (kind : Kind) (debugAssertions : Bool) (item : Item) :
    OwnBytes kind debugAssertions item ↔ (item.ty = kind.key → Inside kind item.data) :=
  ⟨OwnBytes.inside, fun inside => Inside.ownBytes inside debugAssertions⟩

/-- The bytes of an old `ROOT_ITEM` are little enough for the data of an item. -/
theorem oldRootItem_bounded : (List.replicate 239 (0 : UInt8)).length < 2 ^ 32 := by
  -- They are 239.
  rw [List.length_replicate]
  decide

/-- A `ROOT_ITEM` from before there were identifiers in it. -/
def oldRootItem : Item := ⟨256, 132, 0, 0, List.replicate 239 0, oldRootItem_bounded⟩

/-- No bytes at all are little enough as well. -/
theorem headerOnly_bounded : ([] : Bytes).length < 2 ^ 32 := by
  -- There are none.
  decide

/-- The header alone of an item that was too large for the buffer. -/
def headerOnly : Item := ⟨256, 84, 0, 0, [], headerOnly_bounded⟩

/-- Of both of them something is seen that lies behind the item. -/
theorem not_ownBytes :
    (∀ debugAssertions, ¬ OwnBytes .rootItem debugAssertions oldRootItem) ∧
      ∀ debugAssertions, ¬ OwnBytes .dirItem debugAssertions headerOnly := by
  -- The field in question ends behind the data of the item.
  constructor
  · intro debugAssertions own
    have inside := (own.inside rfl).fields ([.uuid], arrayField .uuid 16) (by decide +kernel)
    have length : oldRootItem.data.length = 239 := List.length_replicate
    have short : ¬ rootItem.offset [.uuid] + 16 ≤ 239 := by decide
    rw [length] at inside
    exact short inside
  · intro debugAssertions own
    have inside := (own.inside rfl).fields ([.transid], le64Field .transid) (by decide)
    revert inside
    decide

end Libbtrfs.Search
