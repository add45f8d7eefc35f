import Libbtrfs.Core.Rounds
import Libbtrfs.TreeSearch.Batch

/-! The loop that queries until nothing is found, against a kernel that serves a tree in batches. -/

namespace Libbtrfs.Search

/-- A tree of the filesystem: its items in the order of their keys. -/
structure Tree where
  items : List Item
  ascending : Ascending Item.rank items

/-- The items of a tree that a search key selects. -/
def Tree.matching (tree : Tree) (key : SearchKey) : List Item :=
  between Item.rank key.low.rank key.high.rank tree.items

/-- A batch that is not empty has its last item at its end. -/
theorem dropLast_append_getLastD (first : Item) (more : List Item) :
    first :: more = (first :: more).dropLast ++ [more.getLastD first] := by
  -- The last item is cut off and put back.
  rw [← List.getLast_eq_getLastD (List.cons_ne_nil first more), List.dropLast_append_getLast]

/-- No item of a batch is above its last one, which is below all that is behind the batch. -/
theorem Tree.around_last (tree : Tree) {key : SearchKey} {first : Item} {more rest : List Item}
    (selected : tree.matching key = first :: more ++ rest) :
    (∀ item ∈ first :: more, item.rank ≤ (more.getLastD first).rank) ∧
      ∀ item ∈ rest, (more.getLastD first).rank < item.rank := by
  -- The order of the selected items is that of the tree, and is taken apart at the last item.
  have ascending : Ascending Item.rank (tree.matching key) := tree.ascending.between
  rw [selected, dropLast_append_getLastD, Ascending, List.pairwise_append] at ascending
  obtain ⟨front, _, across⟩ := ascending
  refine ⟨fun item member => ?_, fun item member => ?_⟩
  · rw [dropLast_append_getLastD, List.mem_append, List.mem_singleton] at member
    rcases member with before | rfl
    · exact ((List.pairwise_append.mp front).2.2 item before _ List.mem_cons_self).le
    · exact le_refl _
  · exact across _ (List.mem_append_right _ List.mem_cons_self) item member

/-- The items that a search key selects are items of the tree. -/
theorem Tree.mem_of_matching {tree : Tree} {key : SearchKey} {item : Item}
    (selected : item ∈ tree.matching key) : item ∈ tree.items := (mem_between.mp selected).1

/-- With a single objectid and all offsets, a search selects the items in a range of types. -/
theorem Tree.mem_matching_types (tree : Tree) {key : SearchKey}
    (single : key.maxObjectid = key.minObjectid) (lowest : key.minOffset = 0)
    (highest : key.maxOffset = 0xFFFFFFFFFFFFFFFF) (item : Item) :
    item ∈ tree.matching key ↔ item ∈ tree.items ∧ item.objectid = key.minObjectid ∧
      key.minType ≤ item.ty ∧ item.ty ≤ key.maxType := by
  -- The offset decides only among items of one type, and all of them lie in between.
  have low := item.offset.toNat.zero_le
  have high : item.offset.toNat ≤ (0xFFFFFFFFFFFFFFFF : UInt64).toNat :=
    Nat.le_of_lt_succ item.offset.toNat_lt
  rw [Tree.matching, mem_between, SearchKey.low, SearchKey.high, single, lowest, highest,
    Item.rank, QueryKey.rank_le, QueryKey.rank_le]
  simp only [Item.key, UInt32.le_iff_toNat_le, ← UInt64.toNat_inj, UInt64.toNat_zero]
  refine and_congr_right fun _ => ?_
  omega

/-- The items of a batch are selected. -/
theorem Tree.batch_matching {tree : Tree} {key : SearchKey} {batch rest : List Item}
    (selected : tree.matching key = batch ++ rest) {item : Item} (inside : item ∈ batch) :
    item ∈ tree.matching key := by
  -- They are a front part of what is selected.
  rw [selected]
  exact List.mem_append_left _ inside

/-- The last item of a batch is selected. -/
theorem Tree.last_matching {tree : Tree} {key : SearchKey} {first : Item} {more rest : List Item}
    (selected : tree.matching key = first :: more ++ rest) :
    more.getLastD first ∈ tree.matching key := by
  -- It is in the batch.
  have last : more.getLastD first ∈ first :: more := List.getLastD_mem_cons
  exact tree.batch_matching selected last

/-- From a lower bound above the last item of a batch on, the search selects of what is behind it. -/
theorem Tree.matching_page (tree : Tree) {key : SearchKey} {next : QueryKey} {first : Item}
    {more rest : List Item} (selected : tree.matching key = first :: more ++ rest)
    (above : (more.getLastD first).rank < next.rank) :
    tree.matching (key.setLow next) = rest.filter fun item => next.rank ≤ item.rank := by
  -- The items up to the last one of the batch are below the new bound.
  rw [dropLast_append_getLastD, List.append_assoc, List.singleton_append] at selected
  exact between_page tree.ascending selected above

/-- From the successor of the last item of a batch on, the search selects all that is behind it. -/
theorem Tree.matching_resume (tree : Tree) {key : SearchKey} {next : QueryKey} {first : Item}
    {more rest : List Item} (selected : tree.matching key = first :: more ++ rest)
    (above : (more.getLastD first).rank < next.rank)
    (resumes : ∀ item ∈ tree.items, (more.getLastD first).rank < item.rank →
      next.rank ≤ item.rank) :
    tree.matching (key.setLow next) = rest := by
  -- Nothing lies between the last item and the new bound, so nothing is passed over.
  rw [dropLast_append_getLastD, List.append_assoc, List.singleton_append] at selected
  exact between_resume tree.ascending selected above resumes

section Loop

variable {S K R : Type} [Query S]

/-- What the ioctl leaves of a search that it answers with a batch of the items of a tree. -/
structure Answers (tree : Tree) (before after : S) (batch : List Item) : Prop where
  initial : batch <+: tree.matching (Query.key before)
  progress : batch = [] → tree.matching (Query.key before) = []
  limited : batch.length ≤ (Query.key before).nrItems.toNat
  fits : (Item.allBytes batch).length ≤ Query.room before
  key : Query.key after = { Query.key before with nrItems := UInt32.ofNat batch.length }
  buf : Query.buf after =
    Item.allBytes batch ++ (Query.buf before).drop (Item.allBytes batch).length
  room : Query.room after = Query.room before

/-- Whether a search can be answered: it may return an item, and each one fits its buffer. -/
def Ready (tree : Tree) (search : S) : Prop :=
  1 ≤ (Query.key search).nrItems ∧ ∀ item ∈ tree.items, item.size ≤ Query.room search

/-- The contract of the ioctl: it answers every search that can be answered with some batch. -/
def Serves (tree : Tree) (ioctl : Nat → S → Except IoError Unit × S) : Prop :=
  ∀ call search, Ready tree search →
    (ioctl call search).1 = .ok () ∧ ∃ batch, Answers tree search (ioctl call search).2 batch

/-- A loop of queries: how many there were, what its body has made, and how it ended, if it did. -/
structure Loop (S R : Type) where
  calls : Nat
  search : S
  result : R
  ended : Option (Outcome Unit)

namespace Loop

/-- The loop in front of its first query. -/
def start (search : S) (result : R) : Loop S R := ⟨0, search, result, none⟩

/-- One round: a query, which ends the loop when it finds nothing, and the loop over its items. -/
def turn [FromQueryKey K] (ioctl : Nat → S → Except IoError Unit × S)
    (onDrop : QueryKey → Outcome K) (body : R → SearchItem → R × Outcome Unit)
    (loop : Loop S R) : Loop S R :=
  match loop.ended with
  | some _ => loop
  | none =>
    match query (ioctl loop.calls) loop.search onDrop with
    | (.error error, search) =>
      { loop with calls := loop.calls + 1, search := search, ended := some (.error (.io error)) }
    | (.ok items, search) =>
      if items.len = 0 then
        -- The `break` leaves the scope of the items, which are dropped there.
        match items.drop with
        | .error failure =>
          { loop with calls := loop.calls + 1, search := search, ended := some (.error failure) }
        | .ok search =>
          { loop with calls := loop.calls + 1, search := search, ended := some (.ok ()) }
      else
        match items.forEach body (items.len + 1) loop.result with
        | (result, outcome, items) =>
          match items.drop with
          | .error failure => ⟨loop.calls + 1, items.search, result, some (.error failure)⟩
          | .ok search =>
            match outcome with
            | .error failure => ⟨loop.calls + 1, search, result, some (.error failure)⟩
            | .ok () => ⟨loop.calls + 1, search, result, none⟩

/-- The loop after a number of rounds. -/
def run [FromQueryKey K] (ioctl : Nat → S → Except IoError Unit × S)
    (onDrop : QueryKey → Outcome K) (body : R → SearchItem → R × Outcome Unit)
    (rounds : Nat) (loop : Loop S R) : Loop S R :=
  (turn ioctl onDrop body)^[rounds] loop

end Loop

/-- A query that is answered with a batch yields its items, and leaves the key as it was. -/
theorem query_answers {tree : Tree} {ioctl : S → Except IoError Unit × S} {search : S}
    {batch : List Item} (answered : (ioctl search).1 = .ok ())
    (answers : Answers tree search (ioctl search).2 batch) (onDrop : QueryKey → Outcome K) :
    ∃ iter : Iter S K, query ioctl search onDrop = (.ok iter, iter.search) ∧ iter.Holds batch ∧
      iter.currOffset = 0 ∧ iter.prevOffset = 0 ∧ iter.onDrop = onDrop ∧
      Query.key iter.search = Query.key search ∧ Query.room iter.search = Query.room search ∧
      Query.buf iter.search =
        Item.allBytes batch ++ (Query.buf search).drop (Item.allBytes batch).length := by
  cases answer : ioctl search with
  | mk result after =>
    rw [answer] at answered answers
    simp only at answered answers
    -- The count is within the limit, so the 32-bit field of the key holds it.
    have counted : (Query.key after).nrItems.toNat = batch.length := by
      rw [answers.key]
      simp only [UInt32.toNat_ofNat']
      exact Nat.mod_eq_of_lt (answers.limited.trans_lt (UInt32.toNat_lt _))
    let restored := { Query.key after with nrItems := (Query.key search).nrItems }
    refine ⟨⟨Query.setKey restored after, (Query.key after).nrItems.toNat, 0, 0, onDrop⟩, ?_,
      ⟨counted, ?_⟩, rfl, rfl, rfl, ?_, ?_, ?_⟩
    · rw [query, answer, answered]
      rfl
    · exact ⟨_, by rw [Query.buf_setKey, List.drop_zero, answers.buf]⟩
    · simp only [restored, Query.key_setKey, answers.key]
    · rw [Query.room_setKey, answers.room]
    · rw [Query.buf_setKey, answers.buf]

/-- A query that finds nothing yields an iterator at the front of the buffer, as that was. -/
theorem query_nothing {tree : Tree} {ioctl : S → Except IoError Unit × S} {search : S}
    (answered : (ioctl search).1 = .ok ()) (answers : Answers tree search (ioctl search).2 [])
    (onDrop : QueryKey → Outcome K) :
    ∃ iter : Iter S K, query ioctl search onDrop = (.ok iter, iter.search) ∧ iter.len = 0 ∧
      iter.onDrop = onDrop ∧ Query.key iter.search = Query.key search ∧
      readHeader ((Query.buf iter.search).drop iter.prevOffset) =
        readHeader (Query.buf search) := by
  -- Nothing was written, so the header at the front is the one from before.
  obtain ⟨iter, queried, holds, _, prev, same_drop, key, _, buf⟩ :=
    query_answers answered answers onDrop
  refine ⟨iter, queried, holds.1, same_drop, key, ?_⟩
  rw [prev, buf]
  rfl

/-- A query that finds something yields an iterator in front of the first item. -/
theorem query_batch {tree : Tree} {ioctl : S → Except IoError Unit × S} {search : S}
    {first : Item} {more : List Item} (answered : (ioctl search).1 = .ok ())
    (answers : Answers tree search (ioctl search).2 (first :: more))
    (onDrop : QueryKey → Outcome K) :
    ∃ iter : Iter S K, query ioctl search onDrop = (.ok iter, iter.search) ∧
      iter.Holds (first :: more) ∧ iter.Yielded first ∧ iter.len ≠ 0 ∧
      (first :: more).length < iter.len + 1 ∧ iter.onDrop = onDrop ∧
      Query.key iter.search = Query.key search ∧ Query.room iter.search = Query.room search ∧
      readHeader (Query.buf iter.search) = first.header := by
  obtain ⟨iter, queried, holds, _, prev, same_drop, key, room, buf⟩ :=
    query_answers answered answers onDrop
  have found : readHeader (Query.buf iter.search) = first.header := by
    rw [buf, Item.allBytes, List.flatMap_cons, List.append_assoc]
    exact readHeader_bytes first _
  -- Nothing was yielded yet, and the previous offset is that of the first item.
  have yielded : iter.Yielded first := by
    rw [Iter.Yielded, prev]
    exact found
  have counted : iter.len = (first :: more).length := holds.1
  exact ⟨iter, queried, holds, yielded, counted ▸ Nat.succ_ne_zero _,
    counted ▸ Nat.lt_succ_self _, same_drop, key, room, found⟩

/-- With a callback that returns a key, a dropped iterator has set that key as its lower bound. -/
theorem Iter.drop_key (iter : Iter S QueryKey) {hdr : SearchHeader}
    (read : readHeader ((Query.buf iter.search).drop iter.prevOffset) = hdr) :
    iter.drop = (iter.onDrop hdr.key).map fun low =>
      Query.setKey ((Query.key iter.search).setLow low) iter.search := by
  -- A failing callback ends the drop, and every other one returns the key it found.
  subst read
  rw [Iter.drop]
  cases iter.onDrop (readHeader ((Query.buf iter.search).drop iter.prevOffset)).key with
  | error failure => rfl
  | ok low => rfl

/-- With a callback that returns nothing, a dropped iterator has left the search as it was. -/
theorem Iter.drop_none {iter : Iter S (Option Unit)} (nothing : iter.onDrop = fun _ => .ok none) :
    iter.drop = .ok iter.search := by
  -- There is no key to set.
  rw [Iter.drop, nothing]
  rfl

section Turn

variable {tree : Tree} {ioctl : Nat → S → Except IoError Unit × S}
  {onDrop : QueryKey → Outcome QueryKey} {body : R → SearchItem → R × Outcome Unit}
  {step : R → Item → R × Outcome Unit} {loop : Loop S R}

/-- A round that finds nothing ends the loop, unless the callback fails on what is in the buffer. -/
theorem Loop.turn_nothing (onDrop : QueryKey → Outcome QueryKey)
    (body : R → SearchItem → R × Outcome Unit) (running : loop.ended = none)
    (answered : (ioctl loop.calls loop.search).1 = .ok ())
    (answers : Answers tree loop.search (ioctl loop.calls loop.search).2 []) :
    (loop.turn ioctl onDrop body).result = loop.result ∧
      (loop.turn ioctl onDrop body).ended =
        some ((onDrop (readHeader (Query.buf loop.search)).key).map fun _ => ()) ∧
      (Query.key (loop.turn ioctl onDrop body).search).nrItems =
        (Query.key loop.search).nrItems := by
  obtain ⟨iter, queried, nothing, same_drop, key, read⟩ := query_nothing answered answers onDrop
  have dropped := iter.drop_key read
  rw [same_drop] at dropped
  -- The iterator is dropped before it has yielded anything, on the front of the buffer.
  cases called : onDrop (readHeader (Query.buf loop.search)).key with
  | error failure =>
    rw [called] at dropped
    have turned : loop.turn ioctl onDrop body =
        ⟨loop.calls + 1, iter.search, loop.result, some (.error failure)⟩ := by
      rw [Loop.turn, running]
      simp only [queried, if_pos nothing, dropped, Except.map]
    rw [turned]
    exact ⟨rfl, rfl, by rw [key]⟩
  | ok low =>
    rw [called] at dropped
    have turned : loop.turn ioctl onDrop body = ⟨loop.calls + 1,
        Query.setKey ((Query.key iter.search).setLow low) iter.search, loop.result,
        some (.ok ())⟩ := by
      rw [Loop.turn, running]
      simp only [queried, if_pos nothing, dropped, Except.map]
    rw [turned]
    exact ⟨rfl, rfl, by rw [Query.key_setKey, SearchKey.setLow, key]⟩

/-- A round over a batch that its body gets through goes on at the key that the callback returns. -/
theorem Loop.turn_batch (onDrop : QueryKey → Outcome QueryKey) (running : loop.ended = none)
    (answered : (ioctl loop.calls loop.search).1 = .ok ()) {first : Item} {more : List Item}
    (answers : Answers tree loop.search (ioctl loop.calls loop.search).2 (first :: more))
    (same : ∀ result, ∀ item ∈ first :: more, ∀ rest,
      body result ⟨item.bytes ++ rest⟩ = step result item)
    {after : R} (passed : feed step loop.result (first :: more) = (after, .ok ())) :
    match onDrop (more.getLastD first).key with
    | .error failure => (loop.turn ioctl onDrop body).ended = some (.error failure)
    | .ok low => ∃ search, loop.turn ioctl onDrop body = ⟨loop.calls + 1, search, after, none⟩ ∧
        Query.key search = (Query.key loop.search).setLow low ∧
        Query.room search = Query.room loop.search ∧
        readHeader (Query.buf search) = first.header := by
  obtain ⟨iter, queried, holds, yielded, some_left, enough, same_drop, key, room, found⟩ :=
    query_batch answered answers onDrop
  obtain ⟨later, looped, search, later_drop, last⟩ :=
    @Iter.forEach_batch _ _ _ _ _ _ _ _ _ loop.result _ same holds yielded enough
  rw [passed] at looped last
  have dropped := later.drop_key (last rfl)
  rw [later_drop, same_drop, search, List.getLastD_cons] at dropped
  have header : (more.getLastD first).header.key = (more.getLastD first).key := rfl
  rw [header] at dropped
  -- The iterator is dropped behind the last item, whose key the callback is given.
  cases called : onDrop (more.getLastD first).key with
  | error failure =>
    rw [called] at dropped
    rw [Loop.turn, running]
    simp only [queried, if_neg some_left, looped, dropped, Except.map]
  | ok low =>
    rw [called] at dropped
    refine ⟨Query.setKey ((Query.key iter.search).setLow low) iter.search, ?_, ?_, ?_, ?_⟩
    · rw [Loop.turn, running]
      simp only [queried, if_neg some_left, looped, dropped, Except.map]
    · rw [Query.key_setKey, key]
    · rw [Query.room_setKey, room]
    · rw [Query.buf_setKey, found]

/-- A round whose body fails on an item of the batch ends the loop with a failure. -/
theorem Loop.turn_fails (onDrop : QueryKey → Outcome QueryKey) (running : loop.ended = none)
    (answered : (ioctl loop.calls loop.search).1 = .ok ()) {first : Item} {more : List Item}
    (answers : Answers tree loop.search (ioctl loop.calls loop.search).2 (first :: more))
    (same : ∀ result, ∀ item ∈ first :: more, ∀ rest,
      body result ⟨item.bytes ++ rest⟩ = step result item)
    {after : R} {failure : Failure}
    (failed : feed step loop.result (first :: more) = (after, .error failure)) :
    ∃ failure, (loop.turn ioctl onDrop body).ended = some (.error failure) := by
  obtain ⟨iter, queried, holds, yielded, some_left, enough, _⟩ :=
    query_batch answered answers onDrop
  obtain ⟨later, looped, _, _, _⟩ :=
    @Iter.forEach_batch _ _ _ _ _ _ _ _ _ loop.result _ same holds yielded enough
  rw [failed] at looped
  rw [Loop.turn, running]
  simp only [queried, if_neg some_left, looped]
  -- The iterator is dropped on the way out, where its callback may fail as well.
  cases later.drop with
  | error other => exact ⟨other, rfl⟩
  | ok search => exact ⟨failure, rfl⟩

/-- What a round of a running loop comes to, with the items that the search still selects. -/
inductive Loop.Turned (tree : Tree) (ioctl : Nat → S → Except IoError Unit × S)
    (onDrop : QueryKey → Outcome QueryKey) (step : R → Item → R × Outcome Unit)
    (loop next : Loop S R) : Prop where
  | nothing (selected : tree.matching (Query.key loop.search) = [])
      (result : next.result = loop.result)
      (ended : next.ended =
        some ((onDrop (readHeader (Query.buf loop.search)).key).map fun _ => ()))
      (limit : (Query.key next.search).nrItems = (Query.key loop.search).nrItems)
  | failed {first : Item} {more rest : List Item} {failure : Failure}
      (selected : tree.matching (Query.key loop.search) = first :: more ++ rest)
      (reason : (feed step loop.result (first :: more)).2 ≠ .ok () ∨
        onDrop (more.getLastD first).key = .error failure)
      (ended : next.ended = some (.error failure))
  | resumed {first : Item} {more rest : List Item} {low : QueryKey}
      (selected : tree.matching (Query.key loop.search) = first :: more ++ rest)
      (counted : (Query.key (ioctl loop.calls loop.search).2).nrItems.toNat =
        (first :: more).length)
      (passed : feed step loop.result (first :: more) = (next.result, .ok ()))
      (called : onDrop (more.getLastD first).key = .ok low) (running : next.ended = none)
      (key : Query.key next.search = (Query.key loop.search).setLow low)
      (room : Query.room next.search = Query.room loop.search)
      (header : readHeader (Query.buf next.search) = first.header)

/-- Every round of a running loop, against a kernel that serves the tree, is one of these. -/
theorem Loop.turn_cases (serves : Serves tree ioctl) (onDrop : QueryKey → Outcome QueryKey)
    (running : loop.ended = none) (ready : Ready tree loop.search)
    (same : ∀ result, ∀ item ∈ tree.items, ∀ rest,
      body result ⟨item.bytes ++ rest⟩ = step result item) :
    loop.Turned tree ioctl onDrop step (loop.turn ioctl onDrop body) := by
  -- The kernel decides between the two kinds of answer, then the body and the callback can fail.
  obtain ⟨answered, batch, answers⟩ := serves loop.calls loop.search ready
  cases batch with
  | nil =>
    obtain ⟨result, ended, limit⟩ := Loop.turn_nothing onDrop body running answered answers
    exact .nothing (answers.progress rfl) result ended limit
  | cons first more =>
    obtain ⟨rest, selected⟩ := answers.initial
    have inside : ∀ item ∈ first :: more, item ∈ tree.items := fun item member =>
      Tree.mem_of_matching (selected ▸ List.mem_append_left rest member)
    have read := fun result item member => same result item (inside item member)
    cases fed : feed step loop.result (first :: more) with
    | mk after outcome =>
      cases outcome with
      | error failure =>
        obtain ⟨other, ended⟩ := Loop.turn_fails onDrop running answered answers read fed
        exact .failed selected.symm (.inl (by rw [fed]; exact fun same => nomatch same)) ended
      | ok done =>
        have turned := Loop.turn_batch onDrop running answered answers read fed
        cases called : onDrop (more.getLastD first).key with
        | error failure =>
          rw [called] at turned
          exact .failed selected.symm (.inr called) turned
        | ok low =>
          rw [called] at turned
          obtain ⟨search, turned, key, room, header⟩ := turned
          rw [turned]
          refine .resumed selected.symm ?_ fed called rfl key room header
          rw [answers.key]
          simp only [UInt32.toNat_ofNat']
          exact Nat.mod_eq_of_lt (answers.limited.trans_lt (UInt32.toNat_lt _))

/-- A loop that has ended stays as it is. -/
theorem Loop.turn_ended {outcome : Outcome Unit} (ended : loop.ended = some outcome) :
    loop.turn ioctl onDrop body = loop := by
  -- A round begins with that question.
  rw [Loop.turn, ended]

/-- A loop that goes on behind a round was going on in front of it. -/
theorem Loop.running_of_turn (running : (loop.turn ioctl onDrop body).ended = none) :
    loop.ended = none := by
  -- Otherwise the round would have left it as it was.
  cases ended : loop.ended with
  | none => rfl
  | some outcome =>
    rw [Loop.turn_ended ended] at running
    cases ended.symm.trans running

/-- One round more is a round at the end of the others. -/
theorem Loop.run_succ (rounds : Nat) :
    loop.run ioctl onDrop body (rounds + 1) =
      (loop.run ioctl onDrop body rounds).turn ioctl onDrop body :=
  Function.iterate_succ_apply' _ _ _

/-- A loop that has ended stays as it is for any number of rounds. -/
theorem Loop.run_ended {outcome : Outcome Unit} (ended : loop.ended = some outcome)
    (rounds : Nat) : loop.run ioctl onDrop body rounds = loop :=
  Function.iterate_fixed (Loop.turn_ended ended) rounds

/-- Rounds that follow others start from where those ended. -/
theorem Loop.run_add (rounds more : Nat) :
    loop.run ioctl onDrop body (rounds + more) =
      (loop.run ioctl onDrop body rounds).run ioctl onDrop body more := by
  -- The rounds are iterated.
  rw [Loop.run, Loop.run, Loop.run, Nat.add_comm, Function.iterate_add_apply]

/-- What every round keeps holds after any number of rounds. -/
theorem Loop.run_invariant {Inv : Loop S R → Prop}
    (keeps : ∀ loop, Inv loop → Inv (loop.turn ioctl onDrop body)) (holds : Inv loop)
    (rounds : Nat) : Inv (loop.run ioctl onDrop body rounds) :=
  Function.Iterate.rec Inv holds keeps rounds

/-- A loop ends when every round that goes on lowers the same measure. -/
theorem Loop.run_ends (Inv : Loop S R → Prop) (measure : Loop S R → Nat)
    (keeps : ∀ loop, Inv loop → Inv (loop.turn ioctl onDrop body))
    (lowers : ∀ loop, Inv loop → (loop.turn ioctl onDrop body).ended = none →
      measure (loop.turn ioctl onDrop body) < measure loop)
    (holds : Inv loop) : ∃ rounds outcome,
      (loop.run ioctl onDrop body rounds).ended = some outcome :=
  Rounds.ends Inv measure keeps lowers holds

end Turn

end Loop

/-- The contract of the ioctl: it answers a search whose first item fits the buffer. -/
def ServesFirst (tree : Tree)
    (ioctl : Nat → TreeSearch → Except IoError Unit × TreeSearch) : Prop :=
  ∀ call search, 1 ≤ (Query.key search).nrItems →
    (∀ item ∈ (tree.matching (Query.key search)).head?, item.size ≤ Query.room search) →
      (ioctl call search).1 = .ok () ∧ ∃ batch, Answers tree search (ioctl call search).2 batch

/-- A search that was answered with a batch. -/
def TreeSearch.answer (search : TreeSearch) (batch : List Item) : TreeSearch :=
  let filled := Item.allBytes batch ++ search.args.buf.drop (Item.allBytes batch).length
  ⟨{
    key := { search.args.key with nrItems := UInt32.ofNat batch.length }
    buf := filled.take 3992
    sized := by
      have sized := search.args.sized
      rw [List.length_take, List.length_append, List.length_drop]
      omega }⟩

/-- A search can be answered with every batch that fits the buffer and is within the limit. -/
theorem TreeSearch.answers {tree : Tree} {search : TreeSearch} {batch : List Item}
    (initial : batch <+: tree.matching (Query.key search))
    (progress : batch = [] → tree.matching (Query.key search) = [])
    (limited : batch.length ≤ (Query.key search).nrItems.toNat)
    (fits : (Item.allBytes batch).length ≤ Query.room search) :
    Answers tree search (search.answer batch) batch := by
  have sized := search.args.sized
  have whole : (Item.allBytes batch).length ≤ search.args.buf.length := fits
  refine ⟨initial, progress, limited, fits, rfl, ?_, ?_⟩
  · -- Nothing of the batch is cut off.
    refine List.take_of_length_le ?_
    rw [List.length_append, List.length_drop]
    omega
  · exact (search.answer batch).args.sized.trans sized.symm

/-- The kernel that answers every search with the first item it selects, when there is one. -/
def serveNext (tree : Tree) (_call : Nat) (search : TreeSearch) : Except IoError Unit × TreeSearch :=
  let batch := (tree.matching search.args.key).take 1
  let filled := Item.allBytes batch ++ search.args.buf.drop (Item.allBytes batch).length
  (.ok (), ⟨{
    key := { search.args.key with nrItems := UInt32.ofNat batch.length }
    buf := filled.take 3992
    sized := by
      have sized := search.args.sized
      rw [List.length_take, List.length_append, List.length_drop]
      omega }⟩)

/-- A kernel that answers with one item at a time answers when the next item fits the buffer. -/
theorem serveNext_answers (tree : Tree) (call : Nat) {search : TreeSearch}
    (limit : 1 ≤ (Query.key search).nrItems)
    (fits : ∀ item ∈ (tree.matching (Query.key search)).head?, item.size ≤ Query.room search) :
    (serveNext tree call search).1 = .ok () ∧
      ∃ batch, Answers tree search (serveNext tree call search).2 batch := by
  have short : ((tree.matching search.args.key).take 1).length ≤ 1 := List.length_take_le _ _
  refine ⟨rfl, (tree.matching search.args.key).take 1,
    TreeSearch.answers (List.take_prefix _ _) (fun nothing => ?_) ?_ ?_⟩
  · exact (List.take_eq_nil_iff.mp nothing).resolve_left Nat.one_ne_zero
  · exact short.trans (UInt32.le_iff_toNat_le.mp limit)
  · -- The batch is the first item, or nothing.
    cases found : tree.matching search.args.key with
    | nil => simp [Item.allBytes]
    | cons item rest =>
      have first : item ∈ (tree.matching search.args.key).head? := by
        rw [found]
        rfl
      simpa [Item.allBytes] using fits item first

/-- A kernel that answers with one item at a time meets the contract. -/
theorem serveNext_serves (tree : Tree) : Serves tree (serveNext tree) := by
  -- The first item that is selected is one of the tree, and there is room for each of these.
  rintro call search ⟨limit, room⟩
  refine serveNext_answers tree call limit fun item first => room item ?_
  exact Tree.mem_of_matching (List.mem_of_mem_head? first)

/-- The items at the front of a selection that a buffer has room for. -/
def fitting : Nat → List Item → List Item
  | _, [] => []
  | room, item :: rest => if item.size ≤ room then item :: fitting (room - item.size) rest else []

/-- What a buffer has room for is the front of the selection. -/
theorem fitting_prefix (room : Nat) (items : List Item) : fitting room items <+: items := by
  -- The induction is on the items, each of which lowers the room for the others.
  induction items generalizing room with
  | nil => exact List.prefix_rfl
  | cons item rest ih =>
    rw [fitting]
    split
    · exact (List.prefix_cons_inj item).mpr (ih _)
    · exact List.nil_prefix

/-- What a buffer has room for fits it. -/
theorem allBytes_fitting_length (room : Nat) (items : List Item) :
    (Item.allBytes (fitting room items)).length ≤ room := by
  -- The induction is on the items, for each of which there is room when it is taken.
  induction items generalizing room with
  | nil => exact Nat.zero_le room
  | cons item rest ih =>
    rw [fitting]
    split
    · have others := ih (room - item.size)
      rw [Item.allBytes, List.flatMap_cons, List.length_append, Item.bytes_length]
      rw [Item.allBytes] at others
      omega
    · exact Nat.zero_le room

/-- A buffer with room for all items is filled with all of them. -/
theorem fitting_all {room : Nat} {items : List Item}
    (enough : (Item.allBytes items).length ≤ room) : fitting room items = items := by
  -- The induction is on the items, of which there is room for the first and for the others.
  induction items generalizing room with
  | nil => rfl
  | cons item rest ih =>
    rw [Item.allBytes, List.flatMap_cons, List.length_append, Item.bytes_length] at enough
    have first : item.size ≤ room := (Nat.le_add_right _ _).trans enough
    have others : (Item.allBytes rest).length ≤ room - item.size := by
      rw [Item.allBytes]
      omega
    rw [fitting, if_pos first, ih others]

/-- The kernel that fills the buffer with as many of the selected items as it may return. -/
def serveFull (tree : Tree) (_call : Nat) (search : TreeSearch) :
    Except IoError Unit × TreeSearch :=
  (.ok (), search.answer (fitting search.args.buf.length
    ((tree.matching search.args.key).take search.args.key.nrItems.toNat)))

/-- A kernel that fills the buffer meets the contract. -/
theorem serveFull_serves (tree : Tree) : ServesFirst tree (serveFull tree) := by
  intro call search limit fits
  let batch := fitting search.args.buf.length
    ((tree.matching search.args.key).take search.args.key.nrItems.toNat)
  have front : batch <+: (tree.matching search.args.key).take search.args.key.nrItems.toNat :=
    fitting_prefix _ _
  refine ⟨rfl, batch, TreeSearch.answers (front.trans (List.take_prefix _ _)) (fun nothing => ?_)
    (front.length_le.trans (List.length_take_le _ _)) (allBytes_fitting_length _ _)⟩
  -- The first item that is selected would be in the batch.
  have some_items : 1 ≤ search.args.key.nrItems.toNat := UInt32.le_iff_toNat_le.mp limit
  obtain ⟨count, counted⟩ := Nat.exists_eq_succ_of_ne_zero (Nat.ne_of_gt some_items)
  show tree.matching search.args.key = []
  cases found : tree.matching search.args.key with
  | nil => rfl
  | cons item rest =>
    have first : item ∈ (tree.matching search.args.key).head? := by
      rw [found]
      rfl
    have room : item.size ≤ search.args.buf.length := fits item first
    simp only [found, counted, List.take_succ_cons, fitting, if_pos room] at nothing
    exact nomatch nothing

end Libbtrfs.Search
