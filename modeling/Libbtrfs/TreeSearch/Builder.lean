import Libbtrfs.TreeSearch.Search

/-! The builder of tree searches, and the block that a search on the heap lives in. -/

namespace Libbtrfs.Search

/-- A tree of the filesystem. -/
inductive TreeId where
  | rootTree | extentTree | chunkTree | devTree | fsTree | rootTreeDir | csumTree | quotaTree
  | uuidTree | freeSpaceTree | blockGroupTree | raidStripeTree | remapTree

/-- The objectid of a tree, `tree_id as u64`. -/
def TreeId.toUInt64 : TreeId → UInt64
  | .rootTree => 1
  | .extentTree => 2
  | .chunkTree => 3
  | .devTree => 4
  | .fsTree => 5
  | .rootTreeDir => 6
  | .csumTree => 7
  | .quotaTree => 8
  | .uuidTree => 9
  | .freeSpaceTree => 10
  | .blockGroupTree => 11
  | .raidStripeTree => 12
  | .remapTree => 13

/-- `std::ops::Bound`. -/
inductive Bound (α : Type) where
  | unbounded
  | included (b : α)
  | excluded (b : α)

/-- A range, as its two bounds. -/
structure RangeBounds (α : Type) where
  startBound : Bound α
  endBound : Bound α

/-- The default of `btrfs_ioctl_search_key`. -/
def SearchKey.default : SearchKey where
  treeId := TreeId.rootTree.toUInt64
  minObjectid := 0
  maxObjectid := 0xFFFFFFFFFFFFFFFF
  minOffset := 0
  maxOffset := 0xFFFFFFFFFFFFFFFF
  minTransid := 0
  maxTransid := 0xFFFFFFFFFFFFFFFF
  minType := 0
  maxType := 0xFFFFFFFF
  nrItems := 0xFFFFFFFF

namespace SearchKey

/-- The upper half of `tree_search_set_key_by_range!`, where every bound is taken as included. -/
def setMax {α : Type} (max : α → SearchKey → SearchKey) (range : RangeBounds α)
    (key : SearchKey) : SearchKey :=
  match range.endBound with
  | .included b => max b key
  | .excluded b => max b key
  | .unbounded => key

/-- `tree_search_set_key_by_range!`, for the fields that the two setters write. -/
def setByRange {α : Type} (min max : α → SearchKey → SearchKey) (range : RangeBounds α)
    (key : SearchKey) : SearchKey :=
  match range.startBound with
  | .unbounded =>
    match range.endBound with
    -- The range `..=b` stands for the one value that it names.
    | .included b => max b (min b key)
    | _ => setMax max range key
  | .excluded b => setMax max range (min b key)
  | .included b => setMax max range (min b key)

/-- `SearchKeyBuilder::tree`. -/
def tree (treeId : TreeId) (key : SearchKey) : SearchKey := { key with treeId := treeId.toUInt64 }

/-- `SearchKeyBuilder::item_limit`. -/
def itemLimit (limit : UInt32) (key : SearchKey) : SearchKey := { key with nrItems := limit }

/-- `SearchKeyBuilder::offset`. -/
def offset (range : RangeBounds UInt64) (key : SearchKey) : SearchKey :=
  setByRange (fun b key => { key with minOffset := b }) (fun b key => { key with maxOffset := b })
    range key

/-- `SearchKeyBuilder::objectid`. -/
def objectid (range : RangeBounds UInt64) (key : SearchKey) : SearchKey :=
  setByRange (fun b key => { key with minObjectid := b })
    (fun b key => { key with maxObjectid := b }) range key

/-- `SearchKeyBuilder::transid`. -/
def transid (range : RangeBounds UInt64) (key : SearchKey) : SearchKey :=
  setByRange (fun b key => { key with minTransid := b })
    (fun b key => { key with maxTransid := b }) range key

/-- `SearchKeyBuilder::item_type`. -/
def itemType (range : RangeBounds UInt32) (key : SearchKey) : SearchKey :=
  setByRange (fun b key => { key with minType := b }) (fun b key => { key with maxType := b })
    range key

end SearchKey

/-- `SearchBuilder::build`. The buffer of a new search is taken as zeroed. -/
def build (key : SearchKey) : TreeSearch := ⟨⟨key, List.replicate 3992 0, List.length_replicate⟩⟩

/-- The buffer of a built search has a fixed room. -/
theorem build_room (key : SearchKey) : Query.room (build key) = 3992 := List.length_replicate

/-- The buffer of a built search has nothing in it. -/
theorem build_fresh (key : SearchKey) : ∀ byte ∈ Query.buf (build key), byte = 0 :=
  fun _ => List.eq_of_mem_replicate

/-- What the program was compiled for: the width of `usize`, and whether overflow is checked. -/
structure Target where
  usizeBits : Nat
  overflowChecks : Bool

/-- The addition of two `usize` values, which panics or wraps when it overflows. -/
def Target.addUsize (target : Target) (one other : Nat) : Outcome Nat :=
  if one + other < 2 ^ target.usizeBits then .ok (one + other)
  else if target.overflowChecks then .error (.panic "attempt to add with overflow")
  else .ok ((one + other) % 2 ^ target.usizeBits)

/-- `size_of::<btrfs_ioctl_search_args_v2>()`. -/
def argsV2Size : Nat := 112

/-- `align_of::<btrfs_ioctl_search_args_v2>()`. -/
def argsV2Align : Nat := 8

/-- `Layout::from_size_align(size, align).unwrap()`, for sizes that round up within `isize`. -/
def Target.layout (target : Target) (size align : Nat) : Outcome Layout :=
  if size + (align - 1) < 2 ^ (target.usizeBits - 1) then .ok ⟨size, align⟩
  else .error (.panic "called `Result::unwrap()` on an `Err` value: LayoutError")

/-- The layout of the block for a buffer of some size, from `buf_size as usize` on. -/
def Target.blockLayout (target : Target) (bufSize : UInt64) : Outcome Layout := do
  let size ← target.addUsize (bufSize.toNat % 2 ^ target.usizeBits) argsV2Size
  target.layout size argsV2Align

/-- `SearchBuilder::build_boxed`, which aborts when the allocator has no block of the layout. -/
def buildBoxed (target : Target) (alloc : Layout → Bool) (bufSize : UInt64) (key : SearchKey) :
    Outcome BoxedTreeSearch := do
  let layout ← target.blockLayout bufSize
  if alloc layout then
    return ⟨⟨key, bufSize, List.replicate (layout.size - argsV2Size) 0⟩, layout⟩
  else throw (.panic "memory allocation failed")

/-- `Drop for BoxedTreeSearch`: the layout that is passed to `dealloc`. -/
def BoxedTreeSearch.dropLayout (target : Target) (search : BoxedTreeSearch) : Outcome Layout :=
  target.blockLayout search.args.bufSize

end Libbtrfs.Search
