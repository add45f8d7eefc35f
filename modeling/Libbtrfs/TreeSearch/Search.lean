import Libbtrfs.Subvol.Kernel
import Libbtrfs.TreeSearch.Query

/-! A tree search: its key, the buffer that the kernel fills, and the iterator over what is in it. -/

namespace Libbtrfs.Search

/-- `btrfs_ioctl_search_key`. -/
structure SearchKey where
  treeId : UInt64
  minObjectid : UInt64
  maxObjectid : UInt64
  minOffset : UInt64
  maxOffset : UInt64
  minTransid : UInt64
  maxTransid : UInt64
  minType : UInt32
  maxType : UInt32
  nrItems : UInt32
  deriving DecidableEq

/-- The key that the search starts from. -/
def SearchKey.low (key : SearchKey) : QueryKey := (key.minObjectid, key.minType, key.minOffset)

/-- The key that the search goes up to. -/
def SearchKey.high (key : SearchKey) : QueryKey := (key.maxObjectid, key.maxType, key.maxOffset)

/-- The search key with another lower bound. -/
def SearchKey.setLow (low : QueryKey) (key : SearchKey) : SearchKey :=
  { key with minObjectid := low.1, minType := low.2.1, minOffset := low.2.2 }

/-- `btrfs_ioctl_search_header`. -/
structure SearchHeader where
  transid : UInt64
  objectid : UInt64
  offset : UInt64
  ty : UInt32
  len : UInt32
  deriving DecidableEq

/-- The size of `btrfs_ioctl_search_header`. -/
def headerSize : Nat := 32

/-- A little-endian field of a record in memory, where everything behind the memory reads as zero. -/
def readLe (memory : Bytes) (offset width : Nat) : Nat := leNat ((memory.drop offset).take width)

/-- An unaligned read of a header. -/
def readHeader (memory : Bytes) : SearchHeader where
  transid := UInt64.ofNat (readLe memory 0 8)
  objectid := UInt64.ofNat (readLe memory 8 8)
  offset := UInt64.ofNat (readLe memory 16 8)
  ty := UInt32.ofNat (readLe memory 24 4)
  len := UInt32.ofNat (readLe memory 28 4)

/-- The sort key in a header. -/
def SearchHeader.key (hdr : SearchHeader) : QueryKey := (hdr.objectid, hdr.ty, hdr.offset)

/-- An item of a search: a pointer to its header, as the memory from there on. -/
structure SearchItem where
  memory : Bytes

namespace SearchItem

/-- `SearchItem::objectid`. -/
def objectid (item : SearchItem) : UInt64 := (readHeader item.memory).objectid

/-- `SearchItem::ty`. -/
def ty (item : SearchItem) : UInt32 := (readHeader item.memory).ty

/-- `SearchItem::offset`. -/
def offset (item : SearchItem) : UInt64 := (readHeader item.memory).offset

/-- `SearchItem::key`. -/
def key (item : SearchItem) : QueryKey := (readHeader item.memory).key

/-- `SearchItem::transid`. -/
def transid (item : SearchItem) : UInt64 := (readHeader item.memory).transid

/-- `SearchItem::len`. -/
def len (item : SearchItem) : UInt32 := (readHeader item.memory).len

/-- The memory behind the header, where the data of the item lies. -/
def payload (item : SearchItem) : Bytes := item.memory.drop headerSize

/-- `SearchItem::total_len`. -/
def totalLen (item : SearchItem) : Nat := headerSize + item.len.toNat

end SearchItem

/-- What a query uses of a search: its key, and the buffer with the room that the kernel is told of. -/
class Query (S : Type) where
  key : S → SearchKey
  setKey : SearchKey → S → S
  buf : S → Bytes
  room : S → Nat
  key_setKey : ∀ newKey search, key (setKey newKey search) = newKey
  buf_setKey : ∀ newKey search, buf (setKey newKey search) = buf search
  room_setKey : ∀ newKey search, room (setKey newKey search) = room search

attribute [simp] Query.key_setKey Query.buf_setKey Query.room_setKey

/-- The iterator that a query returns, which borrows the search until it is dropped. -/
structure Iter (S K : Type) where
  search : S
  index : Nat
  currOffset : Nat
  prevOffset : Nat
  onDrop : QueryKey → Outcome K

section Query

variable {S K : Type} [Query S]

/-- `Iter::next`. -/
def Iter.next (iter : Iter S K) : Option SearchItem × Iter S K :=
  if iter.index = 0 then (none, iter)
  else
    let item : SearchItem := ⟨(Query.buf iter.search).drop iter.currOffset⟩
    (some item, { iter with
      index := iter.index - 1
      prevOffset := iter.currOffset
      currOffset := iter.currOffset + item.totalLen })

/-- `ExactSizeIterator::len`, from the size hint. -/
def Iter.len (iter : Iter S K) : Nat := iter.index

/-- `Iter::drop`: the callback on the header that was yielded last sets the key of the search. -/
def Iter.drop [FromQueryKey K] (iter : Iter S K) : Outcome S := do
  let hdr := readHeader ((Query.buf iter.search).drop iter.prevOffset)
  let returned ← iter.onDrop hdr.key
  match ← FromQueryKey.asQueryKey returned with
  | none => return iter.search
  | some low => return Query.setKey ((Query.key iter.search).setLow low) iter.search

/-- The body of both `query` functions, around the ioctl that they call. -/
def query (ioctl : S → Except IoError Unit × S) (search : S) (onDrop : QueryKey → Outcome K) :
    Except IoError (Iter S K) × S :=
  let nrItemsIn := (Query.key search).nrItems
  match ioctl search with
  | (result, search) =>
    match btrfsIoctl result with
    | .error error => (.error error, search)
    | .ok () =>
      let index := (Query.key search).nrItems.toNat
      let search := Query.setKey { Query.key search with nrItems := nrItemsIn } search
      (.ok ⟨search, index, 0, 0, onDrop⟩, search)

/-- A `for` loop over the items, which the first failure of its body ends. -/
def Iter.forEach {R : Type} (body : R → SearchItem → R × Outcome Unit) :
    Nat → R → Iter S K → R × Outcome Unit × Iter S K
  | 0, result, iter => (result, .ok (), iter)
  | fuel + 1, result, iter =>
    match iter.next with
    | (none, iter) => (result, .ok (), iter)
    | (some item, iter) =>
      match body result item with
      | (result, .error failure) => (result, .error failure, iter)
      | (result, .ok ()) => Iter.forEach body fuel result iter

end Query

/-- `btrfs_ioctl_search_args`. -/
structure SearchArgs where
  key : SearchKey
  buf : Bytes
  sized : buf.length = 3992

/-- A search with a buffer of a fixed size. -/
structure TreeSearch where
  args : SearchArgs

instance : Query TreeSearch where
  key search := search.args.key
  setKey newKey search := { search with args := { search.args with key := newKey } }
  buf search := search.args.buf
  room search := search.args.buf.length
  key_setKey _ _ := rfl
  buf_setKey _ _ := rfl
  room_setKey _ _ := rfl

/-- `btrfs_ioctl_search_args_v2`, with the memory that lies behind its fixed part. -/
structure SearchArgsV2 where
  key : SearchKey
  bufSize : UInt64
  buf : Bytes

/-- `std::alloc::Layout`. -/
structure Layout where
  size : Nat
  align : Nat
  deriving DecidableEq

/-- A search with a buffer on the heap, and the layout that its block was allocated with. -/
structure BoxedTreeSearch where
  args : SearchArgsV2
  layout : Layout

instance : Query BoxedTreeSearch where
  key search := search.args.key
  setKey newKey search := { search with args := { search.args with key := newKey } }
  buf search := search.args.buf
  room search := search.args.bufSize.toNat
  key_setKey _ _ := rfl
  buf_setKey _ _ := rfl
  room_setKey _ _ := rfl

end Libbtrfs.Search
