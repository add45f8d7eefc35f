import Libbtrfs.Core.ExactSize
import Libbtrfs.TreeSearch.Batch
import Libbtrfs.TreeSearch.Builder

/-! The iterator of a query walks through the items as the kernel has laid them out. -/

namespace Libbtrfs.Search

section Walking

variable {S K : Type} [Query S]

/-- The iterator of a query with its length. -/
def Iter.exactSize : ExactSize (Iter S K) SearchItem := ⟨Iter.next, Iter.len⟩

/-- The items that are found in a buffer at the offsets of a batch, which starts at a given one. -/
def foundAt (buf : Bytes) : Nat → List Item → List SearchItem
  | _, [] => []
  | offset, item :: batch => ⟨buf.drop offset⟩ :: foundAt buf (offset + item.size) batch

/-- What is found at an offset reads as the item there, and its payload starts behind its header. -/
structure Reads (buf : Bytes) (offset : Nat) (item : Item) (found : SearchItem) : Prop where
  memory : found.memory = buf.drop offset
  key : found.key = item.key
  transid : found.transid = item.transid
  len : found.len.toNat = item.data.length
  payload : found.payload = buf.drop (offset + headerSize)
  data : found.payload.take item.data.length = item.data

/-- The offset of an item in its batch: the sizes of those in front of it. -/
def offsetOf (batch : List Item) (index : Nat) : Nat := ((batch.take index).map Item.size).sum

/-- As many items are found as the batch has. -/
@[simp] theorem foundAt_length (buf : Bytes) (offset : Nat) (batch : List Item) :
    (foundAt buf offset batch).length = batch.length := by
  -- The induction is on the batch.
  induction batch generalizing offset with
  | nil => rfl
  | cons item batch ih => rw [foundAt, List.length_cons, List.length_cons, ih]

/-- Each of the items is found behind the ones in front of it. -/
theorem foundAt_getElem? (buf : Bytes) (offset : Nat) {batch : List Item} {index : Nat}
    (inside : index < batch.length) :
    (foundAt buf offset batch)[index]? = some ⟨buf.drop (offset + offsetOf batch index)⟩ := by
  -- The induction is on the batch, whose first item moves the others by its size.
  induction batch generalizing offset index with
  | nil => exact absurd inside (Nat.not_lt_zero _)
  | cons item batch ih =>
    cases index with
    | zero => rfl
    | succ index =>
      rw [foundAt, List.getElem?_cons_succ, ih _ (Nat.lt_of_succ_lt_succ inside), offsetOf,
        offsetOf, List.take_succ_cons, List.map_cons, List.sum_cons, Nat.add_assoc]

/-- The items up to some index take the room up to the offset of the next one. -/
theorem allBytes_take (batch : List Item) (index : Nat) :
    (Item.allBytes (batch.take index)).length = offsetOf batch index := by
  -- Each of the items takes the room of its size.
  rw [offsetOf, Item.allBytes, List.length_flatMap]
  congr 2
  funext item
  exact item.bytes_length

/-- Where the items are laid out one behind the other, each is at its offset. -/
theorem drop_allBytes {batch : List Item} {index : Nat} {item : Item}
    (found : batch[index]? = some item) (rest : Bytes) :
    ∃ behind, (Item.allBytes batch ++ rest).drop (offsetOf batch index) = item.bytes ++ behind := by
  have split : batch = batch.take index ++ item :: batch.drop (index + 1) := by
    obtain ⟨inside, same⟩ := List.getElem?_eq_some_iff.mp found
    rw [← same, List.getElem_cons_drop, List.take_append_drop]
  have bytes : Item.allBytes batch =
      Item.allBytes (batch.take index) ++ (item.bytes ++ Item.allBytes (batch.drop (index + 1))) := by
    conv_lhs => rw [split]
    rw [Item.allBytes, List.flatMap_append, List.flatMap_cons]
    rfl
  -- What is in front of it ends where it starts.
  refine ⟨Item.allBytes (batch.drop (index + 1)) ++ rest, ?_⟩
  rw [bytes, List.append_assoc, List.append_assoc]
  exact List.drop_left' (allBytes_take batch index)

/-- An item in front of anything is read as it was laid out. -/
theorem reads_bytes {buf behind : Bytes} {offset : Nat} {item : Item}
    (laid : buf.drop offset = item.bytes ++ behind) : Reads buf offset item ⟨buf.drop offset⟩ := by
  have read := SearchItem.item_bytes item behind
  rw [← laid] at read
  have length := congrArg Item.size read
  have total := SearchItem.totalLen_bytes item behind
  rw [← laid, SearchItem.totalLen, Item.bytes_length, Item.size, Nat.add_left_cancel_iff] at total
  -- Each field of the item is that of the one that it stands for.
  refine ⟨rfl, ?_, congrArg Item.transid read, total, List.drop_drop, ?_⟩
  · exact congrArg Item.key read
  · rw [← total]
    exact congrArg Item.data read

/-- The iterator stands in front of a batch, whose items it finds from its offset on. -/
def Iter.Standing (iter : Iter S K) (found : List SearchItem) : Prop :=
  ∃ batch, iter.Holds batch ∧ found = foundAt (Query.buf iter.search) iter.currOffset batch

/-- In front of a batch the iterator yields what is at its offset, and moves on by its size. -/
theorem Iter.next_holds {iter : Iter S K} {item : Item} {batch : List Item}
    (holds : iter.Holds (item :: batch)) :
    iter.next.1 = some ⟨(Query.buf iter.search).drop iter.currOffset⟩ ∧
      iter.next.2.Standing
        (foundAt (Query.buf iter.search) (iter.currOffset + item.size) batch) := by
  obtain ⟨rest, later, next, after, _, search, _⟩ := Iter.next_item holds
  obtain ⟨counted, behind, found⟩ := holds
  rw [Item.allBytes, List.flatMap_cons, List.append_assoc] at found
  have length := SearchItem.totalLen_bytes item (batch.flatMap Item.bytes ++ behind)
  rw [← found] at length
  -- The iterator moves by the length that it reads from the header of the item.
  have moved : iter.next.2.currOffset = iter.currOffset + item.size := by
    rw [Iter.next, if_neg (by simp [counted]), ← Item.bytes_length, ← length]
  refine ⟨?_, batch, ?_, ?_⟩
  · rw [Iter.next, if_neg (by simp [counted])]
  · rw [next]
    exact after
  · rw [moved, next, search]

/-- An iterator in front of a batch yields what is found at its offsets. -/
theorem Iter.yields_foundAt {iter : Iter S K} {batch : List Item} (holds : iter.Holds batch) :
    Iter.exactSize.Yields iter (foundAt (Query.buf iter.search) iter.currOffset batch) := by
  -- The invariant is where the iterator stands.
  apply @ExactSize.yields_of_invariant _ _ _ Iter.Standing
  · rintro iter ⟨batch, holds, nothing⟩
    have empty : batch = [] := by
      rw [← List.length_eq_zero_iff, ← foundAt_length, ← nothing, List.length_nil]
    have counted : iter.index = 0 := by rw [holds.1, empty, List.length_nil]
    have returned : iter.next = (none, iter) := by rw [Iter.next, if_pos counted]
    refine ⟨congrArg Prod.fst returned, counted, batch, ?_, ?_⟩
    · show iter.next.2.Holds batch
      rw [returned]
      exact holds
    · show [] = foundAt (Query.buf iter.next.2.search) iter.next.2.currOffset batch
      rw [returned]
      exact nothing
  · rintro iter item items ⟨batch, holds, equal⟩
    cases batch with
    | nil => cases equal
    | cons first batch =>
      obtain ⟨head, tail⟩ := List.cons.inj equal
      obtain ⟨yielded, standing⟩ := Iter.next_holds holds
      subst head tail
      refine ⟨yielded, ?_, standing⟩
      rw [List.length_cons, foundAt_length]
      exact holds.1
  · exact ⟨batch, holds, rfl⟩

/--
The iterator of a query yields as many items as were reported, each at its place in the buffer.

The kernel has put the items one behind the other, and whatever it has put behind them.
-/
theorem query_walks {ioctl : S → Except IoError Unit × S} {search : S} {batch : List Item}
    {rest : Bytes} (answered : (ioctl search).1 = .ok ())
    (counted : (Query.key (ioctl search).2).nrItems.toNat = batch.length)
    (laid : Query.buf (ioctl search).2 = Item.allBytes batch ++ rest)
    (onDrop : QueryKey → Outcome K) :
    ∃ (iter : Iter S K) (found : List SearchItem), (query ioctl search onDrop).1 = .ok iter ∧
      Iter.exactSize.Yields iter found ∧ found.length = batch.length ∧
      ∀ (index : Nat) (item : Item), batch[index]? = some item →
        ∃ yielded, found[index]? = some yielded ∧
          Reads (Query.buf (ioctl search).2) (offsetOf batch index) item yielded := by
  cases answer : ioctl search with
  | mk result after =>
    rw [answer] at answered counted laid
    simp only at answered counted laid
    subst answered
    -- The query only sets the number of items back, which leaves the buffer as it is.
    let search' := Query.setKey
      { Query.key after with nrItems := (Query.key search).nrItems } after
    let iter : Iter S K := ⟨search', (Query.key after).nrItems.toNat, 0, 0, onDrop⟩
    have buf : Query.buf iter.search = Item.allBytes batch ++ rest :=
      (Query.buf_setKey _ _).trans laid
    have holds : iter.Holds batch := ⟨counted, rest, buf⟩
    refine ⟨iter, _, ?_, iter.yields_foundAt holds, foundAt_length _ _ batch, ?_⟩
    · rw [query, answer]
      rfl
    · intro index item found
      obtain ⟨inside, _⟩ := List.getElem?_eq_some_iff.mp found
      obtain ⟨behind, placed⟩ := drop_allBytes found rest
      refine ⟨_, foundAt_getElem? _ _ inside, ?_⟩
      have start : iter.currOffset + offsetOf batch index = offsetOf batch index := Nat.zero_add _
      rw [start, buf, laid]
      exact reads_bytes placed

end Walking

/-- Nothing is little enough for the data of an item. -/
theorem bareItem_bounded : ([] : Bytes).length < 2 ^ 32 := by
  -- There is nothing to count.
  decide

/-- One byte is little enough for the data of an item. -/
theorem byteItem_bounded : ([255] : Bytes).length < 2 ^ 32 := by
  -- There is one to count.
  decide

/-- An item without data in front of one with a byte. -/
def shortBatch : List Item :=
  [⟨256, 1, 0, 7, [], bareItem_bounded⟩, ⟨257, 1, 0, 8, [255], byteItem_bounded⟩]

/-- A search on the heap with a buffer of 67 bytes. -/
def boxed (nrItems : UInt32) (buf : Bytes) : BoxedTreeSearch :=
  ⟨⟨{ SearchKey.default with nrItems := nrItems }, 67, buf⟩, ⟨179, 8⟩⟩

/-- The search before it is answered. -/
def emptyBoxed : BoxedTreeSearch := boxed 10 (List.replicate 67 0)

/-- An ioctl that answers every search with that batch. -/
def shortAnswer (_ : BoxedTreeSearch) : Except IoError Unit × BoxedTreeSearch :=
  (.ok (), boxed 2 (Item.allBytes shortBatch ++ [1, 2]))

/-- A batch of two items, one of them without data, is walked item by item in its buffer. -/
theorem query_walks_shortBatch :
    ∃ (iter : Iter BoxedTreeSearch QueryKey) (found : List SearchItem),
      (query shortAnswer emptyBoxed .ok).1 = .ok iter ∧
      Iter.exactSize.Yields iter found ∧ found.length = shortBatch.length ∧
      ∀ (index : Nat) (item : Item), shortBatch[index]? = some item →
        ∃ yielded, found[index]? = some yielded ∧
          Reads (Query.buf (shortAnswer emptyBoxed).2) (offsetOf shortBatch index) item
            yielded :=
  @query_walks BoxedTreeSearch QueryKey _ shortAnswer emptyBoxed shortBatch [1, 2] rfl rfl rfl .ok

end Libbtrfs.Search
