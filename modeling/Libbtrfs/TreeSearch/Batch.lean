import Libbtrfs.Core.Paging
import Libbtrfs.TreeSearch.Search

/-! A batch of items as the kernel lays it out in the buffer, and the iterator that reads it back. -/

namespace Libbtrfs.Search

/-- An item of a tree. Its length is a 32-bit value. -/
structure Item where
  objectid : ObjectId
  ty : Ty
  offset : Offset
  transid : UInt64
  data : Bytes
  bounded : data.length < 2 ^ 32
  deriving DecidableEq

namespace Item

/-- The sort key of an item. -/
def key (item : Item) : QueryKey := (item.objectid, item.ty, item.offset)

/-- Where an item stands in the order of its tree. -/
def rank (item : Item) : Lex (ℕ × Lex (ℕ × ℕ)) := item.key.rank

/-- The room that an item takes in a buffer. -/
def size (item : Item) : Nat := headerSize + item.data.length

/-- The header that the kernel writes for an item. -/
def header (item : Item) : SearchHeader where
  transid := item.transid
  objectid := item.objectid
  offset := item.offset
  ty := item.ty
  len := UInt32.ofNat item.data.length

/-- The header of an item in a buffer. -/
def headerBytes (item : Item) : Bytes :=
  leBytes 8 item.transid.toNat ++ (leBytes 8 item.objectid.toNat ++ (leBytes 8 item.offset.toNat ++
    (leBytes 4 item.ty.toNat ++ leBytes 4 item.data.length)))

/-- An item in a buffer: its header and its data. -/
def bytes (item : Item) : Bytes := item.headerBytes ++ item.data

/-- The items of a batch in a buffer, one behind the other. -/
def allBytes (batch : List Item) : Bytes := batch.flatMap bytes

/-- The fields of the header fill it. -/
@[simp] theorem headerBytes_length (item : Item) : item.headerBytes.length = headerSize := by
  -- Their widths add up to 32.
  simp [headerBytes, headerSize]

/-- An item takes the room that its size says. -/
@[simp] theorem bytes_length (item : Item) : item.bytes.length = item.size := by
  -- It is the header and the data.
  simp [bytes, size]

end Item

/-- A field behind a leading part of a record is read as it was written. -/
theorem readLe_at {front back : Bytes} {offset width value : Nat} (starts : front.length = offset)
    (fits : value < 256 ^ width) :
    readLe (front ++ (leBytes width value ++ back)) offset width = value := by
  -- Dropping the leading part puts the field at the front of what is left.
  subst starts
  rw [readLe, List.drop_left, List.take_left' (leBytes_length width value), leNat_leBytes fits]

/-- The header of an item is read back from its place in the buffer. -/
theorem readHeader_bytes (item : Item) (rest : Bytes) :
    readHeader (item.bytes ++ rest) = item.header := by
  -- Each field stands behind the ones in front of it, whose widths add up to its offset.
  have transid : readLe (item.bytes ++ rest) 0 8 = item.transid.toNat := by
    simp only [Item.bytes, Item.headerBytes, List.append_assoc]
    exact @readLe_at [] _ _ _ _ rfl item.transid.toNat_lt
  have objectid : readLe (item.bytes ++ rest) 8 8 = item.objectid.toNat := by
    simp only [Item.bytes, Item.headerBytes, List.append_assoc]
    exact readLe_at (leBytes_length 8 _) item.objectid.toNat_lt
  have offset : readLe (item.bytes ++ rest) 16 8 = item.offset.toNat := by
    simp only [Item.bytes, Item.headerBytes, List.append_assoc]
    rw [← List.append_assoc (leBytes 8 item.transid.toNat)]
    exact readLe_at (by simp) item.offset.toNat_lt
  have ty : readLe (item.bytes ++ rest) 24 4 = item.ty.toNat := by
    simp only [Item.bytes, Item.headerBytes, List.append_assoc]
    rw [← List.append_assoc (leBytes 8 item.transid.toNat), ← List.append_assoc]
    exact readLe_at (by simp) item.ty.toNat_lt
  have len : readLe (item.bytes ++ rest) 28 4 = item.data.length := by
    simp only [Item.bytes, Item.headerBytes, List.append_assoc]
    rw [← List.append_assoc (leBytes 8 item.transid.toNat), ← List.append_assoc,
      ← List.append_assoc]
    exact readLe_at (by simp) item.bounded
  rw [readHeader, transid, objectid, offset, ty, len]
  simp [Item.header]

/-- The type of an item is read back from its place in the buffer. -/
theorem SearchItem.ty_bytes (item : Item) (rest : Bytes) :
    SearchItem.ty ⟨item.bytes ++ rest⟩ = item.ty := by
  -- The header is at the front.
  rw [SearchItem.ty, readHeader_bytes, Item.header]

/-- The objectid of an item is read back from its place in the buffer. -/
theorem SearchItem.objectid_bytes (item : Item) (rest : Bytes) :
    SearchItem.objectid ⟨item.bytes ++ rest⟩ = item.objectid := by
  -- The header is at the front.
  rw [SearchItem.objectid, readHeader_bytes, Item.header]

/-- The offset of an item is read back from its place in the buffer. -/
theorem SearchItem.offset_bytes (item : Item) (rest : Bytes) :
    SearchItem.offset ⟨item.bytes ++ rest⟩ = item.offset := by
  -- The header is at the front.
  rw [SearchItem.offset, readHeader_bytes, Item.header]

/-- A header in front of nothing but zeroes is a header of zeroes. -/
theorem readHeader_zeros {memory : Bytes} (zeros : ∀ byte ∈ memory, byte = 0) :
    readHeader memory = ⟨0, 0, 0, 0, 0⟩ := by
  -- Each of the five fields is read from zeroes alone.
  have field : ∀ offset width, readLe memory offset width = 0 := by
    intro offset width
    have part : ∀ bytes : Bytes, (∀ byte ∈ bytes, byte = 0) → leNat bytes = 0 := by
      intro bytes
      induction bytes with
      | nil => exact fun _ => rfl
      | cons byte rest ih =>
        intro all
        rw [leNat, all byte List.mem_cons_self, ih fun byte member => all byte (.tail _ member)]
        rfl
    exact part _ fun byte member => zeros byte (List.mem_of_mem_drop (List.mem_of_mem_take member))
  simp [readHeader, field]

/-- What an item of a search stands for: its header, and as much data as that says. -/
def SearchItem.item (item : SearchItem) : Item where
  objectid := item.objectid
  ty := item.ty
  offset := item.offset
  transid := item.transid
  data := item.payload.take item.len.toNat
  bounded := (List.length_take_le _ _).trans_lt item.len.toNat_lt

/-- An item is read back from its place in the buffer. -/
theorem SearchItem.item_bytes (item : Item) (rest : Bytes) :
    SearchItem.item ⟨item.bytes ++ rest⟩ = item := by
  obtain ⟨objectid, ty, offset, transid, data, bounded⟩ := item
  have header := readHeader_bytes ⟨objectid, ty, offset, transid, data, bounded⟩ rest
  have len : (UInt32.ofNat data.length).toNat = data.length := by
    rw [UInt32.toNat_ofNat']
    exact Nat.mod_eq_of_lt bounded
  -- The data follows the header, and the length says where it ends.
  have payload : (SearchItem.payload ⟨Item.bytes ⟨objectid, ty, offset, transid, data, bounded⟩ ++
      rest⟩).take data.length = data := by
    rw [SearchItem.payload, Item.bytes, List.append_assoc, List.drop_left' (Item.headerBytes_length _)]
    exact List.take_left
  simp only [SearchItem.item, SearchItem.objectid, SearchItem.ty, SearchItem.offset,
    SearchItem.transid, SearchItem.len, header, Item.header, len, payload]

/-- An item of a search is as long as the item it stands for. -/
theorem SearchItem.totalLen_bytes (item : Item) (rest : Bytes) :
    SearchItem.totalLen ⟨item.bytes ++ rest⟩ = item.bytes.length := by
  -- The length in the header is that of the data, as it fits its field.
  have header := readHeader_bytes item rest
  rw [SearchItem.totalLen, SearchItem.len, header, Item.header, Item.bytes_length, Item.size,
    UInt32.toNat_ofNat', Nat.mod_eq_of_lt item.bounded]

section Iteration

variable {S K R : Type} [Query S]

/-- What is still to be yielded by an iterator: the items in the buffer from its offset on. -/
def Iter.Holds (iter : Iter S K) (batch : List Item) : Prop :=
  iter.index = batch.length ∧
    ∃ rest, (Query.buf iter.search).drop iter.currOffset = Item.allBytes batch ++ rest

/-- The item whose header the iterator hands to its callback. -/
def Iter.Yielded (iter : Iter S K) (item : Item) : Prop :=
  readHeader ((Query.buf iter.search).drop iter.prevOffset) = item.header

/-- The next item of the batch is yielded, and the iterator goes on to the one behind it. -/
theorem Iter.next_item {iter : Iter S K} {item : Item} {batch : List Item}
    (holds : iter.Holds (item :: batch)) :
    ∃ rest later, iter.next = (some ⟨item.bytes ++ rest⟩, later) ∧ later.Holds batch ∧
      later.Yielded item ∧ later.search = iter.search ∧ later.onDrop = iter.onDrop := by
  obtain ⟨counted, rest, found⟩ := holds
  rw [Item.allBytes, List.flatMap_cons, List.append_assoc] at found
  let later := { iter with
    index := iter.index - 1
    prevOffset := iter.currOffset
    currOffset := iter.currOffset + item.bytes.length }
  refine ⟨Item.allBytes batch ++ rest, later, ?_, ⟨?_, rest, ?_⟩, ?_, rfl, rfl⟩
  · have length := SearchItem.totalLen_bytes item (Item.allBytes batch ++ rest)
    rw [Iter.next, if_neg (by simp [counted]), found]
    simp only [later, ← length]
    exact rfl
  · simp [later, counted]
  · -- The offset grows by the length of the item, which is what it takes in the buffer.
    rw [← List.drop_drop, found]
    exact List.drop_left
  · exact (congrArg readHeader found).trans (readHeader_bytes item _)

/-- What the body of a loop makes of the items of a batch, up to its first failure. -/
def feed (step : R → Item → R × Outcome Unit) : R → List Item → R × Outcome Unit
  | result, [] => (result, .ok ())
  | result, item :: batch =>
    match step result item with
    | (result, .error failure) => (result, .error failure)
    | (result, .ok ()) => feed step result batch

/-- What the body keeps about the items that it has seen holds behind a batch that it gets through. -/
theorem feed_induction {step : R → Item → R × Outcome Unit} {Inv : List Item → R → Prop}
    {front batch : List Item} {result after : R} (holds : Inv front result)
    (keeps : ∀ seen result item later, Inv seen result → step result item = (later, .ok ()) →
      Inv (seen ++ [item]) later)
    (passed : feed step result batch = (after, .ok ())) : Inv (front ++ batch) after := by
  -- The induction is on the batch, whose first item joins the items that were seen.
  induction batch generalizing front result with
  | nil =>
    cases passed
    rwa [List.append_nil]
  | cons item batch ih =>
    rw [feed] at passed
    cases stepped : step result item with
    | mk later outcome =>
      rw [stepped] at passed
      cases outcome with
      | error failure => exact nomatch passed
      | ok done =>
        have seen := ih (keeps front result item later holds stepped) passed
        rwa [List.append_assoc, List.singleton_append] at seen

/-- A batch that the body does not get through has an item that the body fails on. -/
theorem feed_error {step : R → Item → R × Outcome Unit} {batch : List Item} {result : R}
    {failure : Failure} (failed : (feed step result batch).2 = .error failure) :
    ∃ item ∈ batch, ∃ before, (step before item).2 = .error failure := by
  -- The induction is on the batch, of which either the first item fails or a later one.
  induction batch generalizing result with
  | nil => exact nomatch failed
  | cons item batch ih =>
    rw [feed] at failed
    cases stepped : step result item with
    | mk later outcome =>
      rw [stepped] at failed
      cases outcome with
      | error reason => exact ⟨item, List.mem_cons_self, result, stepped ▸ failed⟩
      | ok done =>
        obtain ⟨other, member, before, fails⟩ := ih failed
        exact ⟨other, .tail _ member, before, fails⟩

/-- A loop over a batch feeds its body the items, and leaves the iterator at the last of them. -/
theorem Iter.forEach_batch {body : R → SearchItem → R × Outcome Unit}
    {step : R → Item → R × Outcome Unit}
    {batch : List Item} {first : Item} {fuel : Nat} {result : R} {iter : Iter S K}
    (same : ∀ result, ∀ item ∈ batch, ∀ rest, body result ⟨item.bytes ++ rest⟩ = step result item)
    (holds : iter.Holds batch) (yielded : iter.Yielded first) (enough : batch.length < fuel) :
    ∃ later, Iter.forEach body fuel result iter =
        ((feed step result batch).1, (feed step result batch).2, later) ∧
      later.search = iter.search ∧ later.onDrop = iter.onDrop ∧
      ((feed step result batch).2 = .ok () → later.Yielded (batch.getLastD first)) := by
  -- The induction is on the batch, of which each round takes the first item.
  induction batch generalizing first fuel result iter with
  | nil =>
    obtain ⟨fuel, rfl⟩ := Nat.exists_eq_succ_of_ne_zero (Nat.ne_zero_of_lt enough)
    have nothing : iter.index = 0 := holds.1
    refine ⟨iter, ?_, rfl, rfl, fun _ => yielded⟩
    rw [Iter.forEach, Iter.next, if_pos nothing, feed]
  | cons item batch ih =>
    obtain ⟨fuel, rfl⟩ := Nat.exists_eq_succ_of_ne_zero (Nat.ne_zero_of_lt enough)
    obtain ⟨rest, later, next, holds, yielded, search, onDrop⟩ := Iter.next_item holds
    rw [Iter.forEach, next, feed]
    simp only [same result item List.mem_cons_self rest]
    cases stepped : step result item with
    | mk after outcome =>
      cases outcome with
      | error failure => exact ⟨later, rfl, search, onDrop, fun impossible => nomatch impossible⟩
      | ok done =>
        have shorter : batch.length < fuel := Nat.lt_of_succ_lt_succ enough
        obtain ⟨last, looped, sameSearch, sameDrop, lastYielded⟩ :=
          @ih item fuel after later (fun result item member => same result item (.tail _ member))
            holds yielded shorter
        refine ⟨last, looped, sameSearch.trans search, sameDrop.trans onDrop, fun passed => ?_⟩
        rw [List.getLastD_cons]
        exact lastYielded passed

/--
What the body keeps about the items that it has seen holds behind a loop over a batch.

The body may read past an item, into what is behind it in the buffer; a loop that fails does so at
one of the items.
-/
theorem Iter.forEach_rule {body : R → SearchItem → R × Outcome Unit} {Inv : List Item → R → Prop}
    {front batch : List Item} {fuel : Nat} {result : R} {iter : Iter S K}
    (holds : iter.Holds batch) (enough : batch.length < fuel) (initial : Inv front result)
    (keeps : ∀ seen result later, ∀ item ∈ batch, ∀ rest, Inv seen result →
      body result ⟨item.bytes ++ rest⟩ = (later, .ok ()) → Inv (seen ++ [item]) later) :
    ∃ after outcome later, Iter.forEach body fuel result iter = (after, outcome, later) ∧
      later.search = iter.search ∧ later.onDrop = iter.onDrop ∧
      (outcome = .ok () → Inv (front ++ batch) after) ∧
      ∀ failure, outcome = .error failure → ∃ item ∈ batch, ∃ before rest,
        (body before ⟨item.bytes ++ rest⟩).2 = .error failure := by
  -- The induction is on the batch, whose first item joins the items that were seen.
  induction batch generalizing front fuel result iter with
  | nil =>
    obtain ⟨fuel, rfl⟩ := Nat.exists_eq_succ_of_ne_zero (Nat.ne_zero_of_lt enough)
    have nothing : iter.index = 0 := holds.1
    refine ⟨result, .ok (), iter, ?_, rfl, rfl, fun _ => ?_, fun failure impossible => ?_⟩
    · rw [Iter.forEach, Iter.next, if_pos nothing]
    · rwa [List.append_nil]
    · cases impossible
  | cons item batch ih =>
    obtain ⟨fuel, rfl⟩ := Nat.exists_eq_succ_of_ne_zero (Nat.ne_zero_of_lt enough)
    obtain ⟨rest, next, yielded, holds, _, search, onDrop⟩ := Iter.next_item holds
    rw [Iter.forEach, yielded]
    cases stepped : body result ⟨item.bytes ++ rest⟩ with
    | mk later outcome =>
      simp only [stepped]
      cases outcome with
      | error failure =>
        have reached : (body result ⟨item.bytes ++ rest⟩).2 = .error failure :=
          congrArg Prod.snd stepped
        refine ⟨later, .error failure, next, rfl, search, onDrop, ?_, ?_⟩
        · intro impossible
          cases impossible
        · intro other same
          exact ⟨item, List.mem_cons_self, result, rest, reached.trans same⟩
      | ok done =>
        have seen := keeps front result later item List.mem_cons_self rest initial stepped
        obtain ⟨after, outcome, last, looped, sameSearch, sameDrop, passed, failed⟩ :=
          ih holds (Nat.lt_of_succ_lt_succ enough) seen fun seen result later item member =>
            keeps seen result later item (.tail _ member)
        refine ⟨after, outcome, last, looped, sameSearch.trans search, sameDrop.trans onDrop,
          fun done => ?_, fun failure reason => ?_⟩
        · have whole := passed done
          rwa [List.append_assoc, List.singleton_append] at whole
        · obtain ⟨other, member, reached⟩ := failed failure reason
          exact ⟨other, .tail _ member, reached⟩

end Iteration

end Libbtrfs.Search
