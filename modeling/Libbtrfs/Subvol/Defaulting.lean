import Libbtrfs.Core.Rounds
import Libbtrfs.Subvol.GetDefault

/-! `get_default` finds the entry named `default`, in whichever batch and position that arrives. -/

namespace Libbtrfs

open Search Packed

/-- An entry of a directory as it is stored: its fixed part, its name and its data. -/
structure DirEntry where
  objectid : UInt64
  ty : UInt8
  offset : UInt64
  transid : UInt64
  fileType : UInt8
  name : Bytes
  data : Bytes
  nameBounded : name.length < 2 ^ 16
  dataBounded : data.length < 2 ^ 16

namespace DirEntry

/-- The values of the fields of the fixed part. -/
def values (entry : DirEntry) : Path → Value
  | [.location, .objectid] => .int entry.objectid.toNat
  | [.location, .type_] => .int entry.ty.toNat
  | [.location, .offset] => .int entry.offset.toNat
  | [.transid] => .int entry.transid.toNat
  | [.dataLen] => .int entry.data.length
  | [.nameLen] => .int entry.name.length
  | [.type_] => .int entry.fileType.toNat
  | _ => .int 0

/-- The fields hold the values. -/
theorem values_accepted (entry : DirEntry) :
    ∀ field ∈ dirItem, field.2.Accepts (entry.values field.1) := by
  intro field member
  -- There are seven fields, each of which is as wide as its value.
  simp only [dirItem, diskKey, under, le64Field, le16Field, byteField, List.map_cons, List.map_nil,
    List.cons_append, List.nil_append, List.mem_cons, List.not_mem_nil, or_false] at member
  rcases member with rfl | rfl | rfl | rfl | rfl | rfl | rfl
  · exact entry.objectid.toNat_lt
  · exact entry.ty.toNat_lt
  · exact entry.offset.toNat_lt
  · exact entry.transid.toNat_lt
  · exact entry.dataBounded
  · exact entry.nameBounded
  · exact entry.fileType.toNat_lt

/-- The bytes of an entry. -/
def bytes (entry : DirEntry) : Bytes := dirItem.encode entry.values ++ (entry.name ++ entry.data)

variable (entry : DirEntry) (rest : Bytes)

/-- A field of the fixed part is read back as it was stored. -/
theorem read {path : Path} {scalar : Scalar} (found : dirItem.scalarOf path = some scalar) :
    dirItem.read (entry.bytes ++ rest) (path, scalar) = entry.values path := by
  -- The name and what is behind it are behind the fixed part.
  rw [bytes, List.append_assoc]
  exact Struct.read_encode entry.values_accepted found _

/-- The objectid of the location is read back. -/
theorem location_bytes : (DirItem.location ⟨entry.bytes ++ rest⟩).objectid = entry.objectid := by
  -- The location is a record inside that of the entry.
  have nests : dirItem.Nests .location diskKey := by decide
  have inner := nests.read (by decide : le64Field .objectid ∈ diskKey) (entry.bytes ++ rest)
  have stored := entry.read rest (by decide : dirItem.scalarOf [.location, .objectid] = some .le64)
  have same : Value.int (DirItem.location ⟨entry.bytes ++ rest⟩).objectid.toNat =
      .int entry.objectid.toNat := inner.trans stored
  exact UInt64.toNat_inj.mp (Value.int.inj same)

/-- The name is read back, unless there is a zero in it. -/
theorem nameAsBytes_bytes : nameAsBytes (⟨entry.bytes ++ rest⟩ : DirItem) =
    if 0 ∈ entry.name then .error (.kind .invalidData) else .ok entry.name := by
  have stored := entry.read rest (by decide : dirItem.scalarOf [.nameLen] = some .le16)
  have length : DirItem.nameLen ⟨entry.bytes ++ rest⟩ = entry.name.length := Value.int.inj stored
  have fixed : (dirItem.encode entry.values).length = dirItem.size :=
    Struct.encode_length entry.values_accepted
  -- The length says how much of the memory behind the fixed part belongs to the name.
  have name : (ItemNameMeta.namePtr (⟨entry.bytes ++ rest⟩ : DirItem)).take
      (ItemNameMeta.nameLen (⟨entry.bytes ++ rest⟩ : DirItem)) = entry.name := by
    show ((entry.bytes ++ rest).drop dirItem.size).take
      (DirItem.nameLen ⟨entry.bytes ++ rest⟩) = entry.name
    rw [length, bytes, List.append_assoc, List.drop_left' fixed, List.append_assoc, List.take_left]
  rw [nameAsBytes]
  simp only [name]

/-- An entry is taken for the default one exactly when it has the name of that. -/
theorem isDefault_bytes :
    isDefault ⟨entry.bytes ++ rest⟩ = decide (entry.name = defaultName) := by
  rw [isDefault, nameAsBytes_bytes]
  by_cases zero : 0 ∈ entry.name
  · -- There is no zero in the name of the default entry.
    have other : entry.name ≠ defaultName := by
      intro same
      rw [same] at zero
      exact absurd zero (by decide)
    rw [if_pos zero, decide_eq_false other]
    rfl
  · rw [if_neg zero]
    simp only [Except.toOption, Option.some.injEq]

end DirEntry

/-- An entry of the root tree directory, and the item that holds it. -/
structure Search.Tree.EntryOf (tree : Tree) (item : Item) (entry : DirEntry) : Prop where
  inside : item ∈ tree.items
  objectid : item.objectid = rootTreeDirObjectid
  ty : item.ty = TreeItem.key DirItem
  data : item.data = entry.bytes

/-- The root tree, as far as `get_default` reads it: the items of its directory have one entry. -/
structure DefaultTree extends Tree where
  entries : ∀ item ∈ items, item.objectid = rootTreeDirObjectid →
    item.ty = TreeItem.key DirItem → ∃ entry : DirEntry, item.data = entry.bytes
  below : ∀ item ∈ items, item.objectid = rootTreeDirObjectid →
    item.ty = TreeItem.key DirItem → item.offset < 0xFFFFFFFFFFFFFFFF
  fits : ∀ item ∈ items, item.objectid = rootTreeDirObjectid →
    item.ty = TreeItem.key DirItem → item.size ≤ 3992

/-- What `get_default` is to return: the location of the first default entry, if there is one. -/
inductive Finds (tree : Tree) : Outcome UInt64 → Prop
  | found {item : Item} {entry : DirEntry} (holds : tree.EntryOf item entry)
      (named : entry.name = defaultName)
      (first : ∀ other otherEntry, tree.EntryOf other otherEntry →
        otherEntry.name = defaultName → item.rank ≤ other.rank) :
      Finds tree (.ok entry.objectid)
  | missing (absent : ∀ item entry, tree.EntryOf item entry → entry.name ≠ defaultName) :
      Finds tree (.error (.io (.kind .notFound)))

/-- Whether an item holds the default entry. -/
def Search.Item.isDefault (item : Item) : Bool := Libbtrfs.isDefault ⟨item.data⟩

section Finding

variable {S K T : Type} [Query S] {view : SearchItem → Option T} {wanted : T → Bool}

/-- An item whose view is not wanted is passed over. -/
theorem Search.Iter.find_pass {fuel : Nat} {iter : Iter S K} {item : Item} {batch : List Item}
    (unwanted : ∀ rest seen, view ⟨item.bytes ++ rest⟩ = some seen → wanted seen = false)
    (holds : iter.Holds (item :: batch)) :
    ∃ later : Iter S K, iter.find view wanted (fuel + 1) = later.find view wanted fuel ∧
      later.Holds batch ∧ later.Yielded item ∧ later.search = iter.search ∧
      later.onDrop = iter.onDrop := by
  obtain ⟨rest, later, next, left, yielded, search, onDrop⟩ := Iter.next_item holds
  refine ⟨later, ?_, left, yielded, search, onDrop⟩
  rw [Iter.find, next]
  -- The view is missing or not wanted, and the search goes on behind the item.
  cases viewed : view ⟨item.bytes ++ rest⟩ with
  | none => simp only [viewed]
  | some seen => simp only [viewed, unwanted rest seen viewed, Bool.false_eq_true, if_false]

/-- Where no view is wanted, all items are taken, and nothing is found. -/
theorem Search.Iter.find_none {fuel : Nat} {iter : Iter S K} {first : Item} {batch : List Item}
    (unwanted : ∀ item ∈ batch, ∀ rest seen,
      view ⟨item.bytes ++ rest⟩ = some seen → wanted seen = false)
    (holds : iter.Holds batch) (yielded : iter.Yielded first) (enough : batch.length < fuel) :
    ∃ later, iter.find view wanted fuel = (none, later) ∧ later.search = iter.search ∧
      later.onDrop = iter.onDrop ∧ later.Yielded (batch.getLastD first) := by
  -- The induction is on the batch, of which each call of `next` yields the first item.
  induction batch generalizing first fuel iter with
  | nil =>
    obtain ⟨fuel, rfl⟩ := Nat.exists_eq_succ_of_ne_zero (Nat.ne_zero_of_lt enough)
    have nothing : iter.index = 0 := holds.1
    refine ⟨iter, ?_, rfl, rfl, yielded⟩
    rw [Iter.find, Iter.next, if_pos nothing]
  | cons item batch ih =>
    obtain ⟨fuel, rfl⟩ := Nat.exists_eq_succ_of_ne_zero (Nat.ne_zero_of_lt enough)
    obtain ⟨later, passed, left, last, search, onDrop⟩ :=
      Iter.find_pass (unwanted item List.mem_cons_self) holds
    have shorter : batch.length < fuel := Nat.lt_of_succ_lt_succ enough
    obtain ⟨final, found, same, callback, ending⟩ :=
      ih (fun item member => unwanted item (.tail _ member)) left last shorter
    rw [List.getLastD_cons]
    exact ⟨final, passed.trans found, same.trans search, callback.trans onDrop, ending⟩

/-- The first item whose view is wanted is found, and it is the last one that is taken. -/
theorem Search.Iter.find_some {fuel : Nat} {iter : Iter S K} {front behind : List Item}
    {item : Item}
    (unwanted : ∀ other ∈ front, ∀ rest seen,
      view ⟨other.bytes ++ rest⟩ = some seen → wanted seen = false)
    (hit : ∀ rest, ∃ seen, view ⟨item.bytes ++ rest⟩ = some seen ∧ wanted seen = true)
    (holds : iter.Holds (front ++ item :: behind)) (enough : front.length < fuel) :
    ∃ rest seen later, iter.find view wanted fuel = (some seen, later) ∧
      view ⟨item.bytes ++ rest⟩ = some seen ∧ later.search = iter.search ∧
      later.onDrop = iter.onDrop ∧ later.Yielded item := by
  -- The induction is on the items in front of the one that is wanted.
  induction front generalizing fuel iter with
  | nil =>
    obtain ⟨fuel, rfl⟩ := Nat.exists_eq_succ_of_ne_zero (Nat.ne_zero_of_lt enough)
    obtain ⟨rest, later, next, _, yielded, search, onDrop⟩ := Iter.next_item holds
    obtain ⟨seen, viewed, chosen⟩ := hit rest
    refine ⟨rest, seen, later, ?_, viewed, search, onDrop, yielded⟩
    rw [Iter.find, next]
    simp only [viewed, chosen, if_true]
  | cons other front ih =>
    obtain ⟨fuel, rfl⟩ := Nat.exists_eq_succ_of_ne_zero (Nat.ne_zero_of_lt enough)
    obtain ⟨later, passed, left, _, search, onDrop⟩ :=
      Iter.find_pass (unwanted other List.mem_cons_self) holds
    have shorter : front.length < fuel := Nat.lt_of_succ_lt_succ enough
    obtain ⟨rest, seen, final, found, viewed, same, callback, ending⟩ :=
      ih (fun item member => unwanted item (.tail _ member)) left shorter
    exact ⟨rest, seen, final, passed.trans found, viewed, same.trans search,
      callback.trans onDrop, ending⟩

end Finding

/-- Below the last offset, the callback returns the successor of the key among all keys. -/
theorem afterOffset_succ (overflowChecks : Bool) {key : QueryKey}
    (below : key.2.2 < 0xFFFFFFFFFFFFFFFF) :
    ∃ next, afterOffset overflowChecks key = .ok next ∧ key.rank < next.rank ∧
      ∀ other : QueryKey, key.rank < other.rank → next.rank ≤ other.rank := by
  have small : key.2.2.toNat < 0xFFFFFFFFFFFFFFFF := UInt64.lt_iff_toNat_lt.mp below
  have one : (1 : UInt64).toNat = 1 := rfl
  -- One can be added to the offset, with or without a check.
  have fits : key.2.2.toNat + (1 : UInt64).toNat < 2 ^ 64 := by omega
  refine ⟨(key.1, key.2.1, key.2.2 + 1), ?_, QueryKey.offset_succ fits⟩
  rw [afterOffset, (checkedAdd64_fits fits).1]

/-- The search selects the items of the root tree directory that hold an entry. -/
theorem mem_defaultSearch (tree : Tree) (item : Item) :
    item ∈ tree.matching (Query.key defaultSearch) ↔ item ∈ tree.items ∧
      item.objectid = rootTreeDirObjectid ∧ item.ty = TreeItem.key DirItem := by
  -- The range of the types has the same bound twice.
  rw [@Tree.mem_matching_types tree (Query.key defaultSearch) rfl rfl rfl]
  refine and_congr_right fun _ => and_congr_right fun _ => ?_
  constructor
  · intro between
    exact UInt32.le_antisymm between.2 between.1
  · intro same
    rw [same]
    exact ⟨UInt32.le_refl _, UInt32.le_refl _⟩

section Entries

variable {tree : Tree} {item : Item} {entry : DirEntry}

/-- An entry is read from the buffer as it is kept in the tree. -/
theorem Search.Tree.EntryOf.get (holds : tree.EntryOf item entry) (rest : Bytes) :
    SearchItem.get DirItem ⟨item.bytes ++ rest⟩ = some ⟨entry.bytes ++ rest⟩ := by
  -- The header says the type, and how much behind it is the payload.
  rw [SearchItem.get, SearchItem.ty_bytes, SearchItem.payload_bytes, holds.ty, holds.data,
    TreeItem.fromSearch, if_pos rfl]
  rfl

/-- An item is taken for the default entry if its name is that of the entry. -/
theorem Search.Tree.EntryOf.isDefault_eq (holds : tree.EntryOf item entry) :
    item.isDefault = decide (entry.name = defaultName) := by
  -- Nothing is behind the data of the item here.
  have alone := entry.isDefault_bytes []
  rw [List.append_nil] at alone
  rw [Item.isDefault, holds.data, alone]

/-- An item is taken for the default entry exactly when it has the name of that. -/
theorem Search.Tree.EntryOf.isDefault_iff (holds : tree.EntryOf item entry) :
    item.isDefault = true ↔ entry.name = defaultName := by
  -- The name is compared byte by byte.
  rw [holds.isDefault_eq, decide_eq_true_iff]

/-- What is read of an entry from the buffer is taken for the default one if the item is. -/
theorem Search.Tree.EntryOf.seen (holds : tree.EntryOf item entry) {rest : Bytes} {seen : DirItem}
    (viewed : SearchItem.get DirItem ⟨item.bytes ++ rest⟩ = some seen) :
    isDefault seen = item.isDefault ∧ seen.location.objectid = entry.objectid := by
  -- The view is that of the bytes of the entry, whatever is behind them.
  have same := (holds.get rest).symm.trans viewed
  cases same
  refine ⟨?_, entry.location_bytes rest⟩
  rw [entry.isDefault_bytes, holds.isDefault_eq]

end Entries

/-- What the search selects holds an entry, at an offset that is not the last one. -/
theorem DefaultTree.selected (tree : DefaultTree) {item : Item}
    (chosen : item ∈ tree.matching (Query.key defaultSearch)) :
    (∃ entry, tree.EntryOf item entry) ∧ item.offset < 0xFFFFFFFFFFFFFFFF ∧ item.size ≤ 3992 := by
  -- The search selects nothing but items of the directory.
  obtain ⟨inside, objectid, ty⟩ := (mem_defaultSearch tree.toTree item).mp chosen
  obtain ⟨entry, data⟩ := tree.entries item inside objectid ty
  exact ⟨⟨entry, inside, objectid, ty, data⟩, tree.below item inside objectid ty,
    tree.fits item inside objectid ty⟩

namespace GetDefault

variable {tree : DefaultTree} {ioctl : Nat → TreeSearch → Except IoError Unit × TreeSearch}
  {overflowChecks : Bool} {loop : GetDefault} {outcome : Outcome UInt64}

/-- A loop that has ended stays as it is. -/
theorem turn_ended (ended : loop.ended = some outcome) :
    loop.turn ioctl overflowChecks = loop := by
  -- A round begins with that question.
  rw [turn, ended]

/-- What holds in front of a round: what was seen is not the entry, and the rest is selected. -/
structure Looks (tree : DefaultTree) (loop : GetDefault) : Prop where
  limit : (Query.key loop.search).nrItems = 0xFFFFFFFF
  front : (Search.readHeader (Query.buf loop.search)).key.2.2 < 0xFFFFFFFFFFFFFFFF
  split : ∃ seen, (∀ item ∈ seen, item.isDefault = false) ∧
    tree.matching (Query.key defaultSearch) = seen ++ tree.matching (Query.key loop.search)

/-- In front of the first round nothing was seen. -/
theorem looks_start (tree : DefaultTree) : Looks tree start where
  limit := rfl
  front := by
    -- A buffer of zeroes starts with a header of zeroes.
    rw [start, defaultSearch, readHeader_zeros (build_fresh _)]
    decide
  split := ⟨[], List.forall_mem_nil _, rfl⟩

/-- What a search selects that looks for the entry is selected at the start. -/
theorem Looks.selected (looks : Looks tree loop) {item : Item}
    (chosen : item ∈ tree.matching (Query.key loop.search)) :
    item ∈ tree.matching (Query.key defaultSearch) := by
  -- The selection is what is left of the first one.
  obtain ⟨seen, _, whole⟩ := looks.split
  rw [whole]
  exact List.mem_append_right _ chosen

/-- Every query of the loop is answered with some batch. -/
theorem Looks.served (looks : Looks tree loop) (serves : ServesFirst tree.toTree ioctl) :
    (ioctl loop.calls loop.search).1 = .ok () ∧ ∃ batch,
      Search.Answers tree.toTree loop.search (ioctl loop.calls loop.search).2 batch := by
  refine serves loop.calls loop.search (by rw [looks.limit]; decide) fun item first => ?_
  -- What the search selects fits the buffer, whose room is the same for all searches.
  have chosen := looks.selected (List.mem_of_mem_head? first)
  exact (tree.selected chosen).2.2.trans loop.search.args.sized.ge

/-- An entry is missing when all that the first search selects was seen in vain. -/
theorem Looks.missing (looks : Looks tree loop)
    (nothing : tree.matching (Query.key loop.search) = []) :
    Finds tree.toTree (.error (.io (.kind .notFound))) := by
  obtain ⟨seen, passed, whole⟩ := looks.split
  rw [nothing, List.append_nil] at whole
  -- Every entry of the directory is among the items that were seen.
  refine .missing fun item entry holds named => ?_
  have chosen := (mem_defaultSearch tree.toTree item).mpr ⟨holds.inside, holds.objectid, holds.ty⟩
  have unwanted := passed item (whole ▸ chosen)
  rw [holds.isDefault_iff.mpr named] at unwanted
  cases unwanted

/-- The entry is found where nothing in front of it was one. -/
theorem Looks.found (looks : Looks tree loop) {front rest : List Item} {item : Item}
    {entry : DirEntry} (passed : ∀ other ∈ front, other.isDefault = false)
    (split : tree.matching (Query.key loop.search) = front ++ item :: rest)
    (holds : tree.EntryOf item entry) (named : entry.name = defaultName) :
    Finds tree.toTree (.ok entry.objectid) := by
  obtain ⟨seen, unwanted, whole⟩ := looks.split
  rw [split, ← List.append_assoc] at whole
  have ascending : Ascending Item.rank (tree.matching (Query.key defaultSearch)) :=
    tree.ascending.between
  rw [whole, Ascending, List.pairwise_append] at ascending
  have above := (List.pairwise_cons.mp ascending.2.1).1
  refine .found holds named fun other otherEntry kept same => ?_
  have chosen := (mem_defaultSearch tree.toTree other).mpr ⟨kept.inside, kept.objectid, kept.ty⟩
  rw [whole] at chosen
  -- Another such entry is not in front of the item, and what is behind it is above it.
  rcases List.mem_append.mp chosen with before | behind
  · have wanted := kept.isDefault_iff.mpr same
    rcases List.mem_append.mp before with earlier | now
    · rw [unwanted other earlier] at wanted
      cases wanted
    · rw [passed other now] at wanted
      cases wanted
  · rcases List.mem_cons.mp behind with rfl | after
    · exact le_refl _
    · exact (above other after).le

/-- An iterator behind an item whose offset is not the last one resumes at the successor. -/
theorem drop_succ {iter : Search.Iter TreeSearch QueryKey} {hdr : SearchHeader}
    (callback : iter.onDrop = afterOffset overflowChecks)
    (read : Search.readHeader ((Query.buf iter.search).drop iter.prevOffset) = hdr)
    (below : hdr.key.2.2 < 0xFFFFFFFFFFFFFFFF) :
    ∃ next, hdr.key.rank < next.rank ∧
      (∀ other : QueryKey, hdr.key.rank < other.rank → next.rank ≤ other.rank) ∧
      iter.drop = .ok (Query.setKey ((Query.key iter.search).setLow next) iter.search) := by
  -- The callback is given the key in the header and does not overflow.
  obtain ⟨next, called, above, resumes⟩ := afterOffset_succ overflowChecks below
  refine ⟨next, above, resumes, ?_⟩
  rw [iter.drop_key read, callback, called]
  rfl

section Batch

variable (looks : Looks tree loop) {after : TreeSearch} {batch : List Item}
  (answers : Search.Answers tree.toTree loop.search after batch)
include looks answers

/-- The items of a batch hold entries. -/
theorem Looks.batch_selected {item : Item} (inside : item ∈ batch) :
    (∃ entry, tree.EntryOf item entry) ∧ item.offset < 0xFFFFFFFFFFFFFFFF := by
  -- A batch is a front part of what is selected.
  obtain ⟨rest, whole⟩ := answers.initial
  have chosen := looks.selected (Tree.batch_matching whole.symm inside)
  exact ⟨(tree.selected chosen).1, (tree.selected chosen).2.1⟩

/-- An item of a batch that is not the default entry is not taken for that. -/
theorem Looks.batch_unwanted {front : List Item} (part : ∀ item ∈ front, item ∈ batch)
    (passed : ∀ item ∈ front, item.isDefault = false) :
    ∀ item ∈ front, ∀ rest seen,
      SearchItem.get DirItem ⟨item.bytes ++ rest⟩ = some seen → isDefault seen = false := by
  intro item member rest seen viewed
  obtain ⟨⟨entry, holds⟩, _⟩ := looks.batch_selected answers (part item member)
  -- What is read of an entry says the same as the item.
  rw [(holds.seen viewed).1]
  exact passed item member

end Batch

section Turn

variable (running : loop.ended = none) (looks : Looks tree loop)
  (answered : (ioctl loop.calls loop.search).1 = .ok ())
include running looks answered

/-- A round that finds nothing ends the loop with the kind `NotFound`. -/
theorem turn_nothing
    (answers : Search.Answers tree.toTree loop.search (ioctl loop.calls loop.search).2 []) :
    (loop.turn ioctl overflowChecks).ended = some (.error (.io (.kind .notFound))) := by
  obtain ⟨iter, queried, nothing, callback, _, read⟩ :=
    query_nothing answered answers (afterOffset overflowChecks)
  -- The callback is given whatever lies at the front of the buffer.
  obtain ⟨_, _, _, dropped⟩ := drop_succ callback read looks.front
  rw [turn, running]
  simp only [queried, if_pos nothing, dropped]

/-- A round over a batch with the default entry in it returns the location of the first one. -/
theorem turn_found {batch front behind : List Item} {item : Item} {entry : DirEntry}
    (answers : Search.Answers tree.toTree loop.search (ioctl loop.calls loop.search).2 batch)
    (found : batch = front ++ item :: behind) (passed : ∀ other ∈ front, other.isDefault = false)
    (holds : tree.EntryOf item entry) (named : entry.name = defaultName) :
    (loop.turn ioctl overflowChecks).ended = some (.ok entry.objectid) := by
  obtain ⟨iter, queried, held, _, _, callback, _, _, _⟩ :=
    query_answers answered answers (afterOffset overflowChecks)
  have part : ∀ other ∈ front, other ∈ batch := by
    intro other member
    rw [found]
    exact List.mem_append_left _ member
  have inside : item ∈ batch := by
    rw [found]
    exact List.mem_append_right _ List.mem_cons_self
  have counted : iter.len = batch.length := held.1
  have some_left : iter.len ≠ 0 := by
    rw [counted, found, List.length_append, List.length_cons]
    omega
  have enough : front.length < iter.len + 1 := by
    rw [counted, found, List.length_append]
    omega
  -- The view of the item is wanted, whatever is behind it in the buffer.
  have hit : ∀ rest, ∃ seen, SearchItem.get DirItem ⟨item.bytes ++ rest⟩ = some seen ∧
      isDefault seen = true := by
    intro rest
    have viewed := holds.get rest
    refine ⟨_, viewed, ?_⟩
    rw [(holds.seen viewed).1]
    exact holds.isDefault_iff.mpr named
  rw [found] at held
  obtain ⟨rest, seen, later, taken, viewed, _, later_drop, yielded⟩ := Iter.find_some
    (looks.batch_unwanted answers part passed) hit held enough
  -- The iterator is dropped behind the entry, and what was found is returned.
  have below := (looks.batch_selected answers inside).2
  obtain ⟨_, _, _, dropped⟩ := drop_succ (later_drop.trans callback) yielded below
  rw [turn, running]
  simp only [queried, if_neg some_left, taken, dropped, Option.map_some, (holds.seen viewed).2]

/-- A round over a batch without the default entry goes on behind the last item of the batch. -/
theorem turn_missed {first : Item} {more : List Item}
    (answers : Search.Answers tree.toTree loop.search (ioctl loop.calls loop.search).2
      (first :: more))
    (passed : ∀ item ∈ first :: more, item.isDefault = false) :
    ∃ search next, loop.turn ioctl overflowChecks = ⟨loop.calls + 1, search, none⟩ ∧
      (more.getLastD first).rank < next.rank ∧
      (∀ other : QueryKey, (more.getLastD first).rank < other.rank → next.rank ≤ other.rank) ∧
      Query.key search = (Query.key loop.search).setLow next ∧
      Search.readHeader (Query.buf search) = first.header := by
  obtain ⟨iter, queried, held, yielded, some_left, enough, callback, key, _, header⟩ :=
    query_batch answered answers (afterOffset overflowChecks)
  have unwanted := looks.batch_unwanted answers (fun _ member => member) passed
  obtain ⟨later, taken, search, later_drop, last⟩ :=
    Iter.find_none unwanted held yielded enough
  rw [List.getLastD_cons] at last
  -- The iterator is dropped behind the last item, which is one of the batch.
  have inside : more.getLastD first ∈ first :: more := List.getLastD_mem_cons
  have below := (looks.batch_selected answers inside).2
  obtain ⟨next, above, resumes, dropped⟩ := drop_succ (later_drop.trans callback) last below
  refine ⟨Query.setKey ((Query.key later.search).setLow next) later.search, next, ?_, above,
    resumes, ?_, ?_⟩
  · rw [turn, running]
    simp only [queried, if_neg some_left, taken, dropped, Option.map_none]
  · rw [Query.key_setKey, search, key]
  · rw [Query.buf_setKey, search, header]

end Turn

/-- A loop is sound when it still looks for the entry, or has ended with what was to be found. -/
structure Sound (tree : DefaultTree) (loop : GetDefault) : Prop where
  running : loop.ended = none → Looks tree loop
  ended : ∀ outcome, loop.ended = some outcome → Finds tree.toTree outcome

section Run

variable (serves : ServesFirst tree.toTree ioctl)
include serves

/-- A round returns what is to be found, or goes on with fewer items to look at. -/
theorem turn_cases (overflowChecks : Bool) (running : loop.ended = none)
    (looks : Looks tree loop) :
    (∃ outcome, (loop.turn ioctl overflowChecks).ended = some outcome ∧
        Finds tree.toTree outcome) ∨
      ((loop.turn ioctl overflowChecks).ended = none ∧
        Looks tree (loop.turn ioctl overflowChecks) ∧
        (tree.matching (Query.key (loop.turn ioctl overflowChecks).search)).length <
          (tree.matching (Query.key loop.search)).length) := by
  obtain ⟨answered, batch, answers⟩ := looks.served serves
  obtain ⟨rest, whole⟩ := answers.initial
  cases found : batch.find? Item.isDefault with
  | some item =>
    -- What stands in front of the first default entry of the batch is none.
    obtain ⟨wanted, front, behind, split, before⟩ := List.find?_eq_some_iff_append.mp found
    have passed : ∀ other ∈ front, other.isDefault = false := by
      intro other member
      simpa using before other member
    have inside : item ∈ batch := List.mem_of_find?_eq_some found
    obtain ⟨⟨entry, holds⟩, _⟩ := looks.batch_selected answers inside
    have named := holds.isDefault_iff.mp wanted
    rw [split, List.append_assoc, List.cons_append] at whole
    exact Or.inl ⟨_, turn_found running looks answered answers split passed holds named,
      looks.found passed whole.symm holds named⟩
  | none =>
    have passed : ∀ item ∈ batch, item.isDefault = false := by
      intro item member
      simpa using List.find?_eq_none.mp found item member
    cases batch with
    | nil =>
      exact Or.inl ⟨_, turn_nothing running looks answered answers,
        looks.missing (answers.progress rfl)⟩
    | cons first more =>
      obtain ⟨search, next, turned, above, resumes, key, header⟩ :=
        @turn_missed _ _ overflowChecks _ running looks answered first more answers passed
      have left : tree.matching (Query.key search) = rest := by
        rw [key]
        exact tree.matching_resume whole.symm above fun item _ => resumes item.key
      have below := (looks.batch_selected answers List.mem_cons_self).2
      obtain ⟨seen, unwanted, all⟩ := looks.split
      rw [turned]
      refine Or.inr ⟨rfl, ⟨?_, ?_, seen ++ (first :: more), ?_, ?_⟩, ?_⟩
      · rw [key]
        exact looks.limit
      · rw [header]
        exact below
      · intro item member
        rcases List.mem_append.mp member with earlier | now
        · exact unwanted item earlier
        · exact passed item now
      · rw [left, List.append_assoc, whole]
        exact all
      · -- The batch is not empty, so less is left than there was.
        rw [left, ← whole, List.length_append, List.length_cons]
        omega

/-- A round keeps a loop sound. -/
theorem Sound.turn (overflowChecks : Bool) (sound : Sound tree loop) :
    Sound tree (loop.turn ioctl overflowChecks) := by
  -- Only a loop that is running has a round.
  cases ended : loop.ended with
  | some outcome =>
    rw [turn_ended ended]
    exact sound
  | none =>
    rcases turn_cases serves overflowChecks ended (sound.running ended) with
      ⟨outcome, returned, finds⟩ | ⟨running, looks, _⟩
    · refine ⟨fun impossible => ?_, fun other same => ?_⟩
      · cases returned.symm.trans impossible
      cases returned.symm.trans same
      exact finds
    · exact ⟨fun _ => looks, fun _ impossible => nomatch running.symm.trans impossible⟩

/-- A round that goes on leaves fewer items to look at. -/
theorem Sound.lowers (overflowChecks : Bool) (sound : Sound tree loop)
    (goes_on : (loop.turn ioctl overflowChecks).ended = none) :
    (tree.matching (Query.key (loop.turn ioctl overflowChecks).search)).length <
      (tree.matching (Query.key loop.search)).length := by
  -- A loop that has ended does not go on.
  cases ended : loop.ended with
  | some outcome =>
    rw [turn_ended ended, ended] at goes_on
    cases goes_on
  | none =>
    rcases turn_cases serves overflowChecks ended (sound.running ended) with
      ⟨outcome, returned, _⟩ | ⟨_, _, fewer⟩
    · cases returned.symm.trans goes_on
    · exact fewer

end Run

end GetDefault

/--
For every kernel that serves the root tree, `get_default` ends, and it returns the location of the
entry named `default` if the root tree directory has one, and `NotFound` if it has none.
-/
theorem getDefault_finds {tree : DefaultTree}
    {ioctl : Nat → TreeSearch → Except IoError Unit × TreeSearch}
    (serves : ServesFirst tree.toTree ioctl) (overflowChecks : Bool) :
    (∃ rounds outcome, (getDefault ioctl overflowChecks rounds).ended = some outcome) ∧
    ∀ rounds outcome, (getDefault ioctl overflowChecks rounds).ended = some outcome →
      Finds tree.toTree outcome := by
  have start : GetDefault.Sound tree GetDefault.start :=
    ⟨fun _ => GetDefault.looks_start tree, fun _ impossible => nomatch impossible⟩
  have keeps : ∀ loop, GetDefault.Sound tree loop →
      GetDefault.Sound tree (loop.turn ioctl overflowChecks) :=
    fun _ sound => sound.turn serves overflowChecks
  constructor
  · -- Every round that goes on leaves fewer items that the search selects.
    exact Rounds.ends (GetDefault.Sound tree)
      (fun loop => (tree.matching (Query.key loop.search)).length) keeps
      (fun _ sound => sound.lowers serves overflowChecks) start
  · intro rounds outcome ended
    have sound := Function.Iterate.rec (GetDefault.Sound tree) start keeps rounds
    exact sound.ended outcome ended

/-- The bytes of an entry say where it leads. -/
theorem DirEntry.objectid_inj {one other : DirEntry} (same : one.bytes = other.bytes) :
    one.objectid = other.objectid := by
  -- The location is read from them.
  rw [← one.location_bytes [], same, other.location_bytes]

/-- The bytes of an entry say whether it is the default one. -/
theorem DirEntry.default_inj {one other : DirEntry} (same : one.bytes = other.bytes) :
    one.name = defaultName ↔ other.name = defaultName := by
  -- What is read from the same bytes is the same.
  have read := one.isDefault_bytes []
  rw [same, other.isDefault_bytes] at read
  exact (decide_eq_decide.mp read).symm

/-- An entry that leads to a subvolume. -/
def subvolumeEntry (id : UInt64) (name : Bytes) (bounded : name.length < 2 ^ 16) : DirEntry where
  objectid := id
  ty := 132
  offset := 0xFFFFFFFFFFFFFFFF
  transid := 7
  fileType := 2
  name := name
  data := []
  nameBounded := bounded
  dataBounded := Nat.two_pow_pos 16

/-- The name is short enough for its field. -/
theorem defaultName_bounded : defaultName.length < 2 ^ 16 := by
  -- Its bytes are counted.
  decide

/-- The name with a zero behind it is short enough for its field, too. -/
theorem zeroName_bounded : (defaultName ++ [0]).length < 2 ^ 16 := by
  -- Its bytes are counted.
  decide

/-- The default entry, which leads to subvolume 256. -/
def defaultEntry : DirEntry := subvolumeEntry 256 defaultName defaultName_bounded

/-- An entry with a zero behind the name of the default one. -/
def zeroEntry : DirEntry := subvolumeEntry 257 (defaultName ++ [0]) zeroName_bounded

/-- The default entry is short enough for an item. -/
theorem defaultEntry_bounded : defaultEntry.bytes.length < 2 ^ 32 := by
  -- Its bytes are counted.
  decide

/-- The entry with a zero in its name is short enough for an item, too. -/
theorem zeroEntry_bounded : zeroEntry.bytes.length < 2 ^ 32 := by
  -- Its bytes are counted.
  decide

/-- The item for an entry, at some offset of the root tree directory. -/
def DirEntry.item (entry : DirEntry) (offset : UInt64) (bounded : entry.bytes.length < 2 ^ 32) :
    Item := ⟨rootTreeDirObjectid, TreeItem.key DirItem, offset, 7, entry.bytes, bounded⟩

/-- A buffer has room for its item. -/
theorem defaultEntry_fits : (defaultEntry.item 2 defaultEntry_bounded).size ≤ 3992 := by
  -- Its bytes are counted.
  decide

section Pairing

variable (entry : DirEntry) (bounded : entry.bytes.length < 2 ^ 32)

/-- The root tree directory with an entry behind the one with a zero in its name. -/
def rootDirItems : List Item := [zeroEntry.item 1 zeroEntry_bounded, entry.item 2 bounded]

variable {entry bounded}

/-- Whatever holds of the two items holds of all of them. -/
theorem rootDirItems_all {holds : Item → Prop} (zero : holds (zeroEntry.item 1 zeroEntry_bounded))
    (other : holds (entry.item 2 bounded)) : ∀ item ∈ rootDirItems entry bounded, holds item := by
  -- There are no other items.
  intro item member
  rcases List.mem_pair.mp member with rfl | rfl
  · exact zero
  · exact other

/-- The two items ascend. -/
theorem rootDirItems_ascending : Ascending Item.rank (rootDirItems entry bounded) := by
  -- They differ in their offsets alone.
  rw [Ascending, rootDirItems, List.pairwise_pair, Item.rank, Item.rank, QueryKey.rank_lt]
  exact Or.inr ⟨rfl, Or.inr ⟨rfl, show (1 : UInt64).toNat < (2 : UInt64).toNat by decide⟩⟩

/-- Those of the directory have one entry each. -/
theorem rootDirItems_entries :
    ∀ item ∈ rootDirItems entry bounded, item.objectid = rootTreeDirObjectid →
      item.ty = TreeItem.key DirItem → ∃ entry : DirEntry, item.data = entry.bytes :=
  rootDirItems_all (fun _ _ => ⟨zeroEntry, rfl⟩) (fun _ _ => ⟨entry, rfl⟩)

/-- Their offsets are not the last one. -/
theorem rootDirItems_below :
    ∀ item ∈ rootDirItems entry bounded, item.objectid = rootTreeDirObjectid →
      item.ty = TreeItem.key DirItem → item.offset < 0xFFFFFFFFFFFFFFFF :=
  rootDirItems_all (fun _ _ => by decide)
    (fun _ _ => show (2 : UInt64) < 0xFFFFFFFFFFFFFFFF by decide)

/-- A buffer has room for each of them. -/
theorem rootDirItems_fits (fits : (entry.item 2 bounded).size ≤ 3992) :
    ∀ item ∈ rootDirItems entry bounded, item.objectid = rootTreeDirObjectid →
      item.ty = TreeItem.key DirItem → item.size ≤ 3992 :=
  rootDirItems_all (fun _ _ => by decide) (fun _ _ => fits)

/-- A root tree with that directory. -/
def rootDirTreeOf (fits : (entry.item 2 bounded).size ≤ 3992) : DefaultTree where
  items := rootDirItems entry bounded
  ascending := rootDirItems_ascending
  entries := rootDirItems_entries
  below := rootDirItems_below
  fits := rootDirItems_fits fits

end Pairing

/-- A root tree whose directory has the default entry behind the other one. -/
def rootDirTree : DefaultTree := rootDirTreeOf defaultEntry_fits

/-- All that can be found in the sample is subvolume 256. -/
theorem rootDirTree_finds {outcome : Outcome UInt64} (finds : Finds rootDirTree.toTree outcome) :
    outcome = .ok 256 := by
  have second : defaultEntry.item 2 defaultEntry_bounded ∈ rootDirTree.items :=
    List.mem_cons_of_mem _ List.mem_cons_self
  cases finds with
  | @found item entry holds named first =>
    have either : ∀ item ∈ rootDirItems defaultEntry defaultEntry_bounded,
        item.data = zeroEntry.bytes ∨ item.data = defaultEntry.bytes :=
      rootDirItems_all (Or.inl rfl) (Or.inr rfl)
    have bytes := either item holds.inside
    rw [holds.data] at bytes
    rcases bytes with other | same
    · -- The zero makes the name another one.
      have name := (DirEntry.default_inj other).mp named
      exact absurd name (by decide)
    · exact congrArg Except.ok (DirEntry.objectid_inj same)
  | missing absent => exact absurd rfl (absent _ defaultEntry ⟨second, rfl, rfl, rfl⟩)

/-- A kernel that returns one item at a time has the default entry found behind the other one. -/
theorem getDefault_finds_second :
    ∃ rounds, (getDefault (serveNext rootDirTree.toTree) true rounds).ended = some (.ok 256) := by
  have serves : ServesFirst rootDirTree.toTree (serveNext rootDirTree.toTree) :=
    fun call _ limit fits => serveNext_answers rootDirTree.toTree call limit fits
  -- The loop ends, and there is only one thing that it can end with.
  obtain ⟨⟨rounds, outcome, ended⟩, sound⟩ := getDefault_finds serves true
  have result := rootDirTree_finds (sound rounds outcome ended)
  exact ⟨rounds, ended.trans (congrArg some result)⟩

end Libbtrfs
