import Libbtrfs.TreeSearch.Builder
import Libbtrfs.TreeSearch.Loop

/-! References of the root tree from a subvolume to the ones in it, and the search that lists them. -/

namespace Libbtrfs.Search

/-- A `ROOT_REF` item of a search: a pointer to its data, as the memory from there on. -/
structure RootRef where
  memory : Bytes

namespace RootRef

/-- `RootRef::KEY`. -/
def key : UInt32 := 156

/-- The size of `btrfs_root_ref`. -/
def size : Nat := 18

/-- `RootRef::dirid`. -/
def dirid (rr : RootRef) : UInt64 := UInt64.ofNat (readLe rr.memory 0 8)

/-- `ItemNameMeta::name_len`. -/
def nameLen (rr : RootRef) : Nat := readLe rr.memory 16 2

/-- `TreeItemName::name_as_bytes`. -/
def nameAsBytes (rr : RootRef) : Except IoError Bytes :=
  let bytes := (rr.memory.drop size).take rr.nameLen
  if 0 ∈ bytes then .error (.kind .invalidData) else .ok bytes

end RootRef

/-- A `ROOT_BACKREF` item of a search, for which the same accessors are generated. -/
abbrev RootBackref := RootRef

/-- `RootBackref::KEY`. -/
def RootBackref.key : UInt32 := 144

/-- `SearchItem::get::<RootRef>`. -/
def SearchItem.getRootRef (item : SearchItem) : Option RootRef :=
  if item.ty = RootRef.key then some ⟨item.payload⟩ else none

/-- What the kernel keeps in a `ROOT_REF` item, and in a `ROOT_BACKREF` item. -/
structure RootRefData where
  dirid : UInt64
  sequence : UInt64
  name : Bytes
  bounded : name.length < 2 ^ 16

/-- The data of such an item: the fixed part and the name behind it. -/
def RootRefData.bytes (ref : RootRefData) : Bytes :=
  leBytes 8 ref.dirid.toNat ++ (leBytes 8 ref.sequence.toNat ++
    (leBytes 2 ref.name.length ++ ref.name))

/-- The root tree, whose `ROOT_REF` items are well formed. -/
structure RootTree extends Tree where
  refs : ∀ item ∈ items, item.ty = RootRef.key → ∃ ref : RootRefData, item.data = ref.bytes

/-- The name in a `ROOT_REF` item. -/
def Item.name (item : Item) : Bytes :=
  (item.data.drop RootRef.size).take (readLe item.data 16 2)

/-- The directory in a `ROOT_REF` item. -/
def Item.dirid (item : Item) : UInt64 := UInt64.ofNat (readLe item.data 0 8)

/-- The line that is printed for a subvolume. -/
structure Report where
  id : UInt64
  level : UInt64
  name : Bytes
  deriving DecidableEq

/-- What is to be printed for a `ROOT_REF` item. -/
def Item.report (item : Item) : Report := ⟨item.offset, item.objectid, item.name⟩

/-- The body of the documented loop. -/
def report (reported : List Report) (item : SearchItem) : List Report × Outcome Unit :=
  match item.getRootRef with
  | none => (reported, .ok ())
  | some rr =>
    match rr.nameAsBytes with
    | .error error => (reported, .error (.io error))
    | .ok name => (reported ++ [⟨item.offset, item.objectid, name⟩], .ok ())

/-- The callback of the documented loop, `|(objectid, ..)| (objectid + 1, 0, 0)`. -/
def afterObjectid (overflowChecks : Bool) (key : QueryKey) : Outcome QueryKey :=
  match checkedAdd64 key.1 1 with
  | some objectid => .ok (objectid, 0, 0)
  | none =>
    if overflowChecks then .error (.panic "attempt to add with overflow")
    else .ok (key.1 + 1, 0, 0)

/-- The search of the documented loop. -/
def subvolumeSearch : TreeSearch :=
  build (((SearchKey.default.tree .rootTree).itemLimit 0xFFFFFFFF).objectid
    ⟨.included 5, .excluded 0xFFFFFFFFFFFFFFFF⟩)

/-- The documented loop after a number of rounds. -/
def listSubvolumes (ioctl : Nat → TreeSearch → Except IoError Unit × TreeSearch)
    (overflowChecks : Bool) (rounds : Nat) : Loop TreeSearch (List Report) :=
  (Loop.start subvolumeSearch []).run ioctl (afterObjectid overflowChecks) report rounds

/-- What the body does with an item of the tree. -/
def note (reported : List Report) (item : Item) : List Report × Outcome Unit :=
  if item.ty = RootRef.key then
    if 0 ∈ item.name then (reported, .error (.io (.kind .invalidData)))
    else (reported ++ [item.report], .ok ())
  else (reported, .ok ())

/-- The data of an item lies behind its header in the buffer. -/
theorem SearchItem.payload_bytes (item : Item) (rest : Bytes) :
    SearchItem.payload ⟨item.bytes ++ rest⟩ = item.data ++ rest := by
  -- The header is dropped from the front.
  rw [SearchItem.payload, Item.bytes, List.append_assoc,
    List.drop_left' (Item.headerBytes_length _)]

/-- The directory of a well-formed item is read from the buffer as it is kept in the tree. -/
theorem RootRef.dirid_bytes {item : Item} {ref : RootRefData} (kept : item.data = ref.bytes)
    (rest : Bytes) :
    RootRef.dirid ⟨SearchItem.payload ⟨item.bytes ++ rest⟩⟩ = item.dirid := by
  -- The directory is the first field, whatever is behind it.
  have first : ∀ behind, readLe (ref.bytes ++ behind) 0 8 = ref.dirid.toNat := by
    intro behind
    simp only [RootRefData.bytes, List.append_assoc]
    exact @readLe_at [] _ _ _ _ rfl ref.dirid.toNat_lt
  have alone := first []
  rw [List.append_nil] at alone
  rw [RootRef.dirid, Item.dirid, SearchItem.payload_bytes, kept, first, alone]

/-- The name of a well-formed item is read from the buffer as it is kept in the tree. -/
theorem RootRef.nameAsBytes_bytes {item : Item} {ref : RootRefData} (kept : item.data = ref.bytes)
    (rest : Bytes) :
    RootRef.nameAsBytes ⟨SearchItem.payload ⟨item.bytes ++ rest⟩⟩ =
      if 0 ∈ item.name then .error (.kind .invalidData) else .ok item.name := by
  have payload := SearchItem.payload_bytes item rest
  -- The length lies in front of the name, and says how much of the memory belongs to it.
  have length : ∀ behind, readLe (ref.bytes ++ behind) 16 2 = ref.name.length := by
    intro behind
    simp only [RootRefData.bytes, List.append_assoc]
    rw [← List.append_assoc (leBytes 8 ref.dirid.toNat)]
    exact readLe_at (by simp) ref.bounded
  have name : ∀ behind, ((ref.bytes ++ behind).drop RootRef.size).take ref.name.length =
      ref.name := by
    intro behind
    simp only [RootRefData.bytes, List.append_assoc]
    rw [← List.append_assoc (leBytes 8 ref.dirid.toNat), ← List.append_assoc,
      List.drop_left' (by simp [RootRef.size])]
    exact List.take_left
  have alone := name []
  have counted := length []
  rw [List.append_nil] at alone counted
  have kept_name : item.name = ref.name := by rw [Item.name, kept, counted, alone]
  rw [RootRef.nameAsBytes, RootRef.nameLen, payload, kept, length, name, kept_name]

/-- The body does with an item in the buffer what it is to do with the item of the tree. -/
theorem report_bytes (tree : RootTree) (reported : List Report) {item : Item}
    (member : item ∈ tree.items) (rest : Bytes) :
    report reported ⟨item.bytes ++ rest⟩ = note reported item := by
  -- The header and the name are read from the buffer as they are in the item.
  rw [report, SearchItem.getRootRef, note, SearchItem.ty_bytes]
  by_cases found : item.ty = RootRef.key
  · obtain ⟨ref, kept⟩ := tree.refs item member found
    rw [if_pos found, if_pos found]
    simp only [RootRef.nameAsBytes_bytes kept, SearchItem.offset_bytes, SearchItem.objectid_bytes]
    by_cases zero : 0 ∈ item.name
    · rw [if_pos zero, if_pos zero]
    · rw [if_neg zero, if_neg zero]
      rfl
  · rw [if_neg found, if_neg found]

/-- What a reference with the name `s` holds. -/
def letterData : RootRefData := ⟨256, 2, [115], by decide⟩

/-- A reference to a subvolume whose name is the letter `s`. -/
def letterRef (id parent : UInt64) : Item :=
  ⟨id, RootBackref.key, parent, 0, letterData.bytes, by decide⟩

end Libbtrfs.Search
