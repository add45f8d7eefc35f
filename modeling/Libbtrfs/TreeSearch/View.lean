import Libbtrfs.TreeSearch.TreeItem

/-! All views of the items of a tree, and which of the fields their accessors read. -/

namespace Libbtrfs.Search

open Packed

/-- All that is to be seen of an item through a view. -/
@[ext] structure Observed where
  table : Table
  times : List (IoctlTimespec × LibcTimespec)
  unions : List BalanceUnions
  name : Option (Except IoError Bytes)
  deriving DecidableEq

/-- A view: the type that `get` is called with, and what its accessors return. -/
structure View where
  T : Type
  treeItem : TreeItem T
  observe : Bool → T → Observed

/-- A view whose accessors only read fields. -/
def View.of (T : Type) [treeItem : TreeItem T] (table : T → Table) : View :=
  ⟨T, treeItem, fun _ item => ⟨table item, [], [], none⟩⟩

/-- A view that has times, too. -/
def View.ofTimed (T : Type) [treeItem : TreeItem T] (table : T → Table)
    (times : T → List Timespec) : View :=
  ⟨T, treeItem, fun _ item => ⟨table item, (times item).map Timespec.converted, [], none⟩⟩

/-- A view that has a name, too. -/
def View.ofNamed (T : Type) [treeItem : TreeItem T] [ItemNameMeta T] (table : T → Table) : View :=
  ⟨T, treeItem, fun _ item => ⟨table item, [], [], some (nameAsBytes item)⟩⟩

/-- The types that implement `TreeItem`. -/
inductive Kind
  | rootItem | rootRef | rootBackref | inodeItem | chunkItem | devItem | devExtent | devStatsItem
  | devReplaceItem | blockGroupItem | fileExtentItem | extentItem | extentInlineRef | extentCsum
  | freeSpaceInfo | freeSpaceExtent | freeSpaceBitmap | freeSpaceHeader | dirItem | dirIndex
  | xattrItem | inodeRef | inodeExtref | qgroupStatus | qgroupInfo | qgroupLimit | qgroupRelation
  | orphanItem | dirLogItem | dirLogIndex | temporaryItem | uuidSubvol | uuidReceivedSubvol
  deriving DecidableEq

namespace Kind

/-- The view of each of the types. -/
def view : Kind → View
  | rootItem => .ofTimed RootItem RootItem.table RootItem.times
  | rootRef => .ofNamed RootRef RootRef.table
  | rootBackref => @View.ofNamed RootBackref RootBackref.treeItem _ RootRef.table
  | inodeItem => .ofTimed InodeItem InodeItem.table InodeItem.times
  | chunkItem => .of ChunkItem ChunkItem.table
  | devItem => .of DevItem DevItem.table
  | devExtent => .of DevExtent DevExtent.table
  | devStatsItem => .of DevStatsItem DevStatsItem.table
  | devReplaceItem => .of DevReplaceItem DevReplaceItem.table
  | blockGroupItem => .of BlockGroupItem BlockGroupItem.table
  | fileExtentItem => .of FileExtentItem FileExtentItem.table
  | extentItem => .of ExtentItem ExtentItem.table
  | extentInlineRef => .of ExtentInlineRef ExtentInlineRef.table
  | extentCsum => .of ExtentCsum ExtentCsum.table
  | freeSpaceInfo => .of FreeSpaceInfo FreeSpaceInfo.table
  | freeSpaceExtent => .of FreeSpaceExtent fun _ => []
  | freeSpaceBitmap => .of FreeSpaceBitmap fun _ => []
  | freeSpaceHeader => .of FreeSpaceHeader FreeSpaceHeader.table
  | dirItem => .ofNamed DirItem DirItem.table
  | dirIndex => @View.ofNamed DirIndex DirIndex.treeItem _ DirItem.table
  | xattrItem => @View.ofNamed XattrItem XattrItem.treeItem _ DirItem.table
  | inodeRef => .ofNamed InodeRef InodeRef.table
  | inodeExtref => .ofNamed InodeExtref InodeExtref.table
  | qgroupStatus => .of QgroupStatus QgroupStatus.table
  | qgroupInfo => .of QgroupInfo QgroupInfo.table
  | qgroupLimit => .of QgroupLimit QgroupLimit.table
  | qgroupRelation => .of QgroupRelation fun _ => []
  | orphanItem => .of OrphanItem fun _ => []
  | dirLogItem => .of DirLogItem DirLogItem.table
  | dirLogIndex => @View.of DirLogIndex DirLogIndex.treeItem DirLogItem.table
  | temporaryItem => ⟨TemporaryItem, inferInstance, fun debugAssertions item =>
      ⟨item.table, [], item.unions debugAssertions, none⟩⟩
  | uuidSubvol => .of UuidSubvol fun _ => []
  | uuidReceivedSubvol => .of UuidReceivedSubvol fun _ => []

/-- The structure of the bindings that a view points to. -/
def struct : Kind → Struct Path
  | rootItem => Search.rootItem
  | rootRef | rootBackref => Search.rootRef
  | inodeItem => Search.inodeItem
  | chunkItem => chunk
  | devItem => Search.devItem
  | devExtent => Search.devExtent
  | devStatsItem => Search.devStatsItem
  | devReplaceItem => Search.devReplaceItem
  | blockGroupItem => Search.blockGroupItem
  | fileExtentItem => Search.fileExtentItem
  | extentItem => Search.extentItem
  | extentInlineRef => Search.extentInlineRef
  | extentCsum => csumItem
  | freeSpaceInfo => Search.freeSpaceInfo
  | freeSpaceHeader => Search.freeSpaceHeader
  | dirItem | dirIndex | xattrItem => Search.dirItem
  | inodeRef => Search.inodeRef
  | inodeExtref => Search.inodeExtref
  | qgroupStatus => qgroupStatusItem
  | qgroupInfo => qgroupInfoItem
  | qgroupLimit => qgroupLimitItem
  | dirLogItem | dirLogIndex => Search.dirLogItem
  | temporaryItem => balanceItem
  | freeSpaceExtent | freeSpaceBitmap | qgroupRelation | orphanItem | uuidSubvol
  | uuidReceivedSubvol => []

end Kind

/-- A field that an accessor reads, behind the one that it is named after. -/
abbrev Read := Path × (Path × Scalar)

/-- The fields of a structure but some of them, each read by the accessor of its name. -/
def named (layout : Struct Path) (omitted : List Path) : List Read :=
  (layout.filter fun field => field.1 ∉ omitted).map fun field => (field.1, field)

/-- The fields that are read in a member of a structure. -/
def below (name : FieldName) (reads : List Read) : List Read :=
  reads.map fun read => (name :: read.1, (name :: read.2.1, read.2.2))

/-- What accessors return that read these fields. -/
def readAll (layout : Struct Path) (reads : List Read) (memory : Bytes) : Table :=
  reads.map fun read => (read.1, layout.read memory read.2)

/-- The fields that the accessors of a view read. -/
def Kind.reads : Kind → List Read
  | .rootItem => named Search.rootItem [[.inode, .reserved], [.level], [.reserved]]
  | .rootRef | .rootBackref => named Search.rootRef [[.nameLen]]
  | .inodeItem => named Search.inodeItem [[.reserved]]
  | .chunkItem =>
    -- The accessor of `sub_stripes` reads `stripe_len`.
    named (chunk.take 8) [] ++ [([.subStripes], le64Field .stripeLen)] ++ named (chunk.drop 9) []
  | .devItem => named Search.devItem
      [[.type_], [.generation], [.startOffset], [.devGroup], [.seekSpeed], [.bandwidth]]
  | .devExtent => named Search.devExtent []
  | .devStatsItem => named Search.devStatsItem []
  | .devReplaceItem => named Search.devReplaceItem [[.replaceState]]
  | .blockGroupItem => named Search.blockGroupItem []
  | .fileExtentItem => named Search.fileExtentItem []
  | .extentItem => named Search.extentItem []
  | .extentInlineRef => named Search.extentInlineRef []
  | .extentCsum => named csumItem []
  | .freeSpaceInfo => named Search.freeSpaceInfo []
  | .freeSpaceHeader => named Search.freeSpaceHeader []
  | .dirItem | .dirIndex | .xattrItem => named Search.dirItem [[.nameLen], [.type_]]
  -- The accessor of `data_len`, which is no field here, reads the index.
  | .inodeRef => [([.dataLen], le64Field .index)]
  | .inodeExtref => named Search.inodeExtref [[.nameLen]] ++ [([.dataLen], le64Field .index)]
  | .qgroupStatus => named qgroupStatusItem [[.enableGen]]
  | .qgroupInfo => named qgroupInfoItem []
  | .qgroupLimit => named qgroupLimitItem []
  | .dirLogItem | .dirLogIndex => named Search.dirLogItem []
  | .temporaryItem => named balanceItem
      [[.data, .inner1], [.data, .pend], [.data, .inner2], [.data, .unused],
        [.metadata, .inner1], [.metadata, .pend], [.metadata, .inner2], [.metadata, .unused],
        [.sys, .inner1], [.sys, .pend], [.sys, .inner2], [.sys, .unused], [.unused]]
  | .freeSpaceExtent | .freeSpaceBitmap | .qgroupRelation | .orphanItem | .uuidSubvol
  | .uuidReceivedSubvol => []

/-- What is read in a member is read from the structure that it is a member of. -/
theorem readAll_below {outer inner : Struct Path} {name : FieldName}
    (nests : outer.Nests name inner) {reads : List Read} (inside : ∀ read ∈ reads, read.2 ∈ inner)
    (memory : Bytes) :
    under name (readAll inner reads (getMember outer memory name)) =
      readAll outer (below name reads) memory := by
  rw [under, readAll, readAll, below, List.map_map, List.map_map]
  apply List.map_congr_left
  intro read member
  -- Only the place that a field is read from is written in another way.
  exact congrArg (Prod.mk (name :: read.1)) (nests.read (inside read member) memory)

/-- What is read from some fields and then from others. -/
theorem readAll_append (layout : Struct Path) (reads others : List Read) (memory : Bytes) :
    readAll layout (reads ++ others) memory =
      readAll layout reads memory ++ readAll layout others memory :=
  List.map_append

/-- The fields of the inner structures are read in them. -/
theorem inner_reads :
    (∀ read ∈ named timespec [], read.2 ∈ timespec) ∧
      (∀ read ∈ named diskKey [], read.2 ∈ diskKey) ∧
      ∀ read ∈ Kind.reads .inodeItem, read.2 ∈ inodeItem := by
  -- There are few of them.
  decide

/-- What the accessors of an inode read, the ones of its times included. -/
theorem inodeItem_reads (memory : Bytes) :
    InodeItem.table ⟨memory⟩ = readAll inodeItem (Kind.reads .inodeItem) memory := by
  -- The times lie behind the other fields.
  have split : Kind.reads .inodeItem = named (inodeItem.take 12) [] ++
      below .atime (named timespec []) ++ below .ctime (named timespec []) ++
      below .mtime (named timespec []) ++ below .otime (named timespec []) := by decide
  have atime : inodeItem.Nests .atime timespec := by decide
  have ctime : inodeItem.Nests .ctime timespec := by decide
  have mtime : inodeItem.Nests .mtime timespec := by decide
  have otime : inodeItem.Nests .otime timespec := by decide
  rw [split, readAll_append, readAll_append, readAll_append, readAll_append,
    ← readAll_below atime inner_reads.1, ← readAll_below ctime inner_reads.1,
    ← readAll_below mtime inner_reads.1, ← readAll_below otime inner_reads.1]
  rfl

/-- What the accessors of a `ROOT_ITEM` read, the ones of the structures in it included. -/
theorem rootItem_reads (memory : Bytes) :
    RootItem.table ⟨memory⟩ = readAll rootItem (Kind.reads .rootItem) memory := by
  have split : Kind.reads .rootItem =
      below .inode (Kind.reads .inodeItem) ++
      named ((rootItem.drop 21).take 8) [] ++ below .dropProgress (named diskKey []) ++
      named ((rootItem.drop 32).take 10) [[.level]] ++
      below .ctime (named timespec []) ++ below .otime (named timespec []) ++
      below .stime (named timespec []) ++ below .rtime (named timespec []) := by decide +kernel
  have inode : rootItem.Nests .inode inodeItem := by decide
  have dropProgress : rootItem.Nests .dropProgress diskKey := by decide
  have ctime : rootItem.Nests .ctime timespec := by decide
  have otime : rootItem.Nests .otime timespec := by decide
  have stime : rootItem.Nests .stime timespec := by decide
  have rtime : rootItem.Nests .rtime timespec := by decide
  rw [split]
  simp only [readAll_append]
  rw [← readAll_below inode inner_reads.2.2, ← readAll_below dropProgress inner_reads.2.1,
    ← readAll_below ctime inner_reads.1, ← readAll_below otime inner_reads.1,
    ← readAll_below stime inner_reads.1, ← readAll_below rtime inner_reads.1, ← inodeItem_reads]
  -- The offsets that the accessors were written with are the ones in the structure.
  rfl

/-- What the accessors of a chunk read, the ones of its stripe included. -/
theorem chunk_reads (memory : Bytes) :
    ChunkItem.table ⟨memory⟩ = readAll chunk (Kind.reads .chunkItem) memory := by
  -- The stripe lies behind the other fields.
  have split : Kind.reads .chunkItem =
      named (chunk.take 8) [] ++ [([.subStripes], le64Field .stripeLen)] ++
      below .stripe (named stripe []) := by decide
  have inside : ∀ read ∈ named stripe [], read.2 ∈ stripe := by decide
  have part : chunk.Nests .stripe stripe := by decide
  rw [split, readAll_append, readAll_append, ← readAll_below part inside]
  rfl

/-- What the accessors of a balance item read, the ones of its arguments included. -/
theorem balanceItem_reads (memory : Bytes) :
    TemporaryItem.table ⟨memory⟩ = readAll balanceItem (Kind.reads .temporaryItem) memory := by
  have split : Kind.reads .temporaryItem =
      named (balanceItem.take 1) [] ++
      below .data (named diskBalanceArgs [[.inner1], [.pend], [.inner2], [.unused]]) ++
      below .metadata (named diskBalanceArgs [[.inner1], [.pend], [.inner2], [.unused]]) ++
      below .sys (named diskBalanceArgs [[.inner1], [.pend], [.inner2], [.unused]]) := by
    decide +kernel
  -- The arguments are three records inside this one, each with the same accessors.
  have inside : ∀ read ∈ named diskBalanceArgs [[.inner1], [.pend], [.inner2], [.unused]],
      read.2 ∈ diskBalanceArgs := by decide
  have data : balanceItem.Nests .data diskBalanceArgs := by decide
  have metadata : balanceItem.Nests .metadata diskBalanceArgs := by decide
  have sys : balanceItem.Nests .sys diskBalanceArgs := by decide
  rw [split, readAll_append, readAll_append, readAll_append, ← readAll_below data inside,
    ← readAll_below metadata inside, ← readAll_below sys inside]
  rfl

/-- What is seen of an item through a view of the kind. -/
def Kind.observe (kind : Kind) (debugAssertions : Bool) (memory : Bytes) : Observed :=
  kind.view.observe debugAssertions (kind.view.treeItem.fromSearchUnckeched memory)

/-- The accessors of every view read the fields that are listed for it. -/
theorem Kind.observe_table (kind : Kind) (debugAssertions : Bool) (memory : Bytes) :
    (kind.observe debugAssertions memory).table = readAll kind.struct kind.reads memory := by
  -- Where a structure lies inside another one it takes a step, elsewhere both sides are the same.
  cases kind with
  | rootItem => exact rootItem_reads memory
  | inodeItem => exact inodeItem_reads memory
  | chunkItem => exact chunk_reads memory
  | temporaryItem => exact balanceItem_reads memory
  | _ => rfl

/-- Each of the fields that are read is one of the structure. -/
theorem Kind.reads_found (kind : Kind) :
    ∀ read ∈ kind.reads, kind.struct.scalarOf read.2.1 = some read.2.2 := by
  -- For each kind there are few of them.
  cases kind <;> decide +kernel

/-- Whether there is a name behind the fixed part of the items. -/
def Kind.isNamed (kind : Kind) : Bool := (kind.struct.scalarOf [.nameLen]).isSome

/-- The length of the name, in the fixed part of an item in memory. -/
def Kind.nameLen (kind : Kind) (memory : Bytes) : Nat :=
  (getLe16 kind.struct memory .nameLen).toNat

/-- The bytes of the name of an item in memory. -/
def Kind.nameBytes (kind : Kind) (memory : Bytes) : Bytes :=
  (memory.drop kind.struct.size).take (kind.nameLen memory)

/-- The name that is to be seen of an item in memory. -/
def Kind.name (kind : Kind) (memory : Bytes) : Except IoError Bytes :=
  if 0 ∈ kind.nameBytes memory then .error (.kind .invalidData) else .ok (kind.nameBytes memory)

/-- The name of a reference has the length that is in its fixed part. -/
theorem rootRef_name (memory : Bytes) :
    nameAsBytes (RootRef.mk memory) = Kind.name .rootRef memory := by
  -- A number of two bytes is below the modulus of its type.
  have length : RootRef.nameLen ⟨memory⟩ = Kind.nameLen .rootRef memory :=
    (Nat.mod_eq_of_lt (leNat_take_lt (memory.drop 16) 2)).symm
  have pointer : ItemNameMeta.namePtr (RootRef.mk memory) =
      memory.drop (Kind.struct .rootRef).size := rfl
  have same : ItemNameMeta.nameLen (RootRef.mk memory) = Kind.nameLen .rootRef memory := length
  rw [nameAsBytes, pointer, same]
  rfl

/-- Every view with a name shows the one that lies behind the fixed part of the item. -/
theorem Kind.observe_name (kind : Kind) (debugAssertions : Bool) (memory : Bytes) :
    (kind.observe debugAssertions memory).name =
      if kind.isNamed then some (kind.name memory) else none := by
  -- Two of the views are for the same structure, and show its name.
  cases kind with
  | rootRef => exact congrArg some (rootRef_name memory)
  | rootBackref => exact congrArg some (rootRef_name memory)
  | _ => rfl

/-- Where the times of a kind of items lie. -/
def Kind.times : Kind → List Path
  | .rootItem => [[.inode, .atime], [.inode, .ctime], [.inode, .mtime], [.inode, .otime],
      [.ctime], [.otime], [.stime], [.rtime]]
  | .inodeItem => [[.atime], [.ctime], [.mtime], [.otime]]
  | _ => []

/-- The seconds of a time that lies somewhere in a structure. -/
def secAt (layout : Struct Path) (memory : Bytes) (path : Path) : UInt64 :=
  le64 (memory.drop (layout.offset (path ++ [.sec])))

/-- The nanoseconds of a time that lies somewhere in a structure. -/
def nsecAt (layout : Struct Path) (memory : Bytes) (path : Path) : UInt32 :=
  le32 (memory.drop (layout.offset (path ++ [.nsec])))

/-- The two conversions of a time that lies somewhere in a structure. -/
def timeAt (layout : Struct Path) (memory : Bytes) (path : Path) : IoctlTimespec × LibcTimespec :=
  (⟨secAt layout memory path, nsecAt layout memory path⟩,
    { tvNsec := (secAt layout memory path).toInt64
      tvSec := (nsecAt layout memory path).toUInt64.toInt64 })

/-- A time in a member lies in the structure that it is a member of. -/
theorem timeAt_below {outer inner : Struct Path} {name : FieldName}
    (nests : outer.Nests name inner) {path : Path} (sec : (path ++ [.sec], .le64) ∈ inner)
    (nsec : (path ++ [.nsec], .le32) ∈ inner) (memory : Bytes) :
    timeAt inner (getMember outer memory name) path = timeAt outer memory (name :: path) := by
  -- The fields of the time lie as far behind the member as behind its start.
  have seconds : secAt inner (getMember outer memory name) path =
      secAt outer memory (name :: path) := by
    rw [secAt, secAt, getMember, List.drop_drop, ← (nests _ sec).2]
    rfl
  have nanoseconds : nsecAt inner (getMember outer memory name) path =
      nsecAt outer memory (name :: path) := by
    rw [nsecAt, nsecAt, getMember, List.drop_drop, ← (nests _ nsec).2]
    rfl
  rw [timeAt, timeAt, seconds, nanoseconds]

/-- A time that is a member is converted where it lies. -/
theorem converted_member {outer : Struct Path} {name : FieldName}
    (nests : outer.Nests name timespec) (memory : Bytes) :
    Timespec.converted ⟨getMember outer memory name⟩ = timeAt outer memory [name] := by
  -- Its two fields are read at their places in the outer structure.
  have sec : (([] : Path) ++ [.sec], Scalar.le64) ∈ timespec := by decide
  have nsec : (([] : Path) ++ [.nsec], Scalar.le32) ∈ timespec := by decide
  exact timeAt_below nests sec nsec memory

/-- The times of an inode are converted where they lie. -/
theorem inodeItem_times (memory : Bytes) :
    (InodeItem.times ⟨memory⟩).map Timespec.converted =
      (Kind.times .inodeItem).map (timeAt inodeItem memory) := by
  -- Each of the four times is a record inside the inode.
  have atime : inodeItem.Nests .atime timespec := by decide
  have ctime : inodeItem.Nests .ctime timespec := by decide
  have mtime : inodeItem.Nests .mtime timespec := by decide
  have otime : inodeItem.Nests .otime timespec := by decide
  show [Timespec.converted ⟨getMember inodeItem memory .atime⟩,
    Timespec.converted ⟨getMember inodeItem memory .ctime⟩,
    Timespec.converted ⟨getMember inodeItem memory .mtime⟩,
    Timespec.converted ⟨getMember inodeItem memory .otime⟩] = _
  rw [converted_member atime, converted_member ctime, converted_member mtime,
    converted_member otime]
  rfl

/-- The times of a `ROOT_ITEM` are converted where they lie. -/
theorem rootItem_times (memory : Bytes) :
    (RootItem.times ⟨memory⟩).map Timespec.converted =
      (Kind.times .rootItem).map (timeAt rootItem memory) := by
  have ctime : rootItem.Nests .ctime timespec := by decide
  have otime : rootItem.Nests .otime timespec := by decide
  have stime : rootItem.Nests .stime timespec := by decide
  have rtime : rootItem.Nests .rtime timespec := by decide
  have inode : rootItem.Nests .inode inodeItem := by decide
  -- The times of the inode lie in a record that has records inside it.
  have below : ∀ path ∈ Kind.times .inodeItem,
      timeAt inodeItem (getMember rootItem memory .inode) path =
        timeAt rootItem memory (.inode :: path) := by
    intro path member
    have fields : ∀ path ∈ Kind.times .inodeItem, (path ++ [.sec], .le64) ∈ inodeItem ∧
        (path ++ [.nsec], .le32) ∈ inodeItem := by decide
    exact timeAt_below inode (fields path member).1 (fields path member).2 memory
  rw [RootItem.times, List.map_append, RootItem.inodeItem, inodeItem_times,
    List.map_congr_left below]
  show _ ++ [Timespec.converted ⟨getMember rootItem memory .ctime⟩,
    Timespec.converted ⟨getMember rootItem memory .otime⟩,
    Timespec.converted ⟨getMember rootItem memory .stime⟩,
    Timespec.converted ⟨getMember rootItem memory .rtime⟩] = _
  rw [converted_member ctime, converted_member otime, converted_member stime,
    converted_member rtime]
  rfl

/-- The times of every view are converted where they lie. -/
theorem Kind.observe_times (kind : Kind) (debugAssertions : Bool) (memory : Bytes) :
    (kind.observe debugAssertions memory).times =
      kind.times.map (timeAt kind.struct memory) := by
  -- Two of the views have times.
  cases kind with
  | rootItem => exact rootItem_times memory
  | inodeItem => exact inodeItem_times memory
  | _ => rfl

/-- The members of a kind of items that are the arguments of a balance. -/
def Kind.balanceArgs : Kind → List FieldName
  | .temporaryItem => [.data, .metadata, .sys]
  | _ => []

/-- The unions of every view are read from its arguments of a balance. -/
theorem Kind.observe_unions (kind : Kind) (debugAssertions : Bool) (memory : Bytes) :
    (kind.observe debugAssertions memory).unions = kind.balanceArgs.map fun args =>
      DiskBalanceArgs.unions ⟨getMember kind.struct memory args⟩ debugAssertions := by
  -- Each view makes its unions in this way.
  cases kind <;> rfl

/-- The arguments of a balance are structures inside the item. -/
theorem Kind.balanceArgs_nests (kind : Kind) :
    ∀ args ∈ kind.balanceArgs, kind.struct.Nests args diskBalanceArgs := by
  -- For each kind there are few of them.
  cases kind <;> decide +kernel

end Libbtrfs.Search
