import Libbtrfs.TreeSearch.Paged
import Libbtrfs.TreeSearch.Successors

/-! Where a search goes on after its iterator is dropped, however many of the items were taken. -/

namespace Libbtrfs.Search

section Taking

variable {S K : Type} [Query S]

/-- The items that a number of calls of `next` yield, and the iterator that they leave. -/
def Iter.take : Nat → Iter S K → List SearchItem × Iter S K
  | 0, iter => ([], iter)
  | taken + 1, iter =>
    match iter.next with
    | (none, iter) => Iter.take taken iter
    | (some item, iter) => (item :: (Iter.take taken iter).1, (Iter.take taken iter).2)

/-- What a callback makes of the lower bound of a search when it is applied to a key. -/
def resumeAt [FromQueryKey K] (onDrop : QueryKey → Outcome K) (key : QueryKey) (search : S) :
    Outcome S := do
  let returned ← onDrop key
  match ← FromQueryKey.asQueryKey returned with
  | none => return search
  | some low => return Query.setKey ((Query.key search).setLow low) search

/-- A callback comes back from a key with nothing that would move a lower bound. -/
def Keeps [FromQueryKey K] (onDrop : QueryKey → Outcome K) (key low : QueryKey) : Prop :=
  ∃ returned, onDrop key = .ok returned ∧
    (FromQueryKey.asQueryKey returned = .ok none ∨ FromQueryKey.asQueryKey returned = .ok (some low))

/-- After some calls of `next` the drop resumes at the last item, or nowhere if there was none. -/
def Iter.DropsAtLast [FromQueryKey K] (iter : Iter S K) (taken : Nat) : Prop :=
  match (iter.take taken).1.getLast? with
  | some item => (iter.take taken).2.drop = resumeAt iter.onDrop item.key iter.search
  | none => ∃ dropped, (iter.take taken).2.drop = .ok dropped ∧
      (Query.key dropped).low = (Query.key iter.search).low

/-- A call of `next` with something left yields the item at the offset of the iterator. -/
theorem Iter.next_some {iter : Iter S K} (left : iter.index ≠ 0) :
    ∃ item later, iter.next = (some item, later) ∧ later.search = iter.search ∧
      later.onDrop = iter.onDrop ∧ later.index = iter.index - 1 ∧
      item.memory = (Query.buf iter.search).drop later.prevOffset := by
  -- The index is not at its end.
  rw [Iter.next, if_neg left]
  exact ⟨_, _, rfl, rfl, rfl, rfl, rfl⟩

/-- Where nothing is asked for or nothing is left, nothing is yielded and the iterator stays. -/
theorem Iter.take_nothing {iter : Iter S K} {taken : Nat} (nothing : taken = 0 ∨ iter.index = 0) :
    iter.take taken = ([], iter) := by
  -- The induction is on the calls, each of which finds the iterator exhausted.
  induction taken with
  | zero => rfl
  | succ taken ih =>
    have exhausted : iter.index = 0 := nothing.resolve_left (Nat.succ_ne_zero taken)
    rw [Iter.take, Iter.next, if_pos exhausted]
    exact ih (Or.inr exhausted)

/-- Taking items leaves the search and the callback of the iterator as they are. -/
theorem Iter.take_keeps (iter : Iter S K) (taken : Nat) :
    (iter.take taken).2.search = iter.search ∧ (iter.take taken).2.onDrop = iter.onDrop := by
  -- The induction is on the items that are taken.
  induction taken generalizing iter with
  | zero => exact ⟨rfl, rfl⟩
  | succ taken ih =>
    by_cases left : iter.index = 0
    · rw [Iter.take_nothing (Or.inr left)]
      exact ⟨rfl, rfl⟩
    · obtain ⟨item, later, next, search, onDrop, _⟩ := Iter.next_some left
      rw [Iter.take, next]
      exact ⟨(ih later).1.trans search, (ih later).2.trans onDrop⟩

/-- Where something is taken, the iterator stands behind the item that it has yielded last. -/
theorem Iter.take_last {iter : Iter S K} {taken : Nat} (asked : taken ≠ 0)
    (left : iter.index ≠ 0) :
    ∃ item, (iter.take taken).1.getLast? = some item ∧
      item.memory = (Query.buf iter.search).drop (iter.take taken).2.prevOffset := by
  -- The induction is on the calls, of which the last one that yields an item decides.
  induction taken generalizing iter with
  | zero => exact absurd rfl asked
  | succ taken ih =>
    obtain ⟨item, later, next, search, _, counted, memory⟩ := Iter.next_some left
    rw [Iter.take, next]
    by_cases more : taken = 0 ∨ later.index = 0
    · simp only [Iter.take_nothing more]
      exact ⟨item, rfl, memory⟩
    · obtain ⟨asksMore, leftMore⟩ := not_or.mp more
      obtain ⟨last, found, stands⟩ := ih asksMore leftMore
      refine ⟨last, ?_, by rw [← search]; exact stands⟩
      simp only [List.getLast?_cons, found, Option.getD_some]

/-- The drop applies the callback to the header at the previous offset. -/
theorem Iter.drop_resumeAt [FromQueryKey K] (iter : Iter S K) :
    iter.drop = resumeAt iter.onDrop
      (readHeader ((Query.buf iter.search).drop iter.prevOffset)).key iter.search := rfl

/-- A search is resumed at its own lower bound when the callback keeps that, and only then. -/
theorem resumeAt_keeps [FromQueryKey K] (onDrop : QueryKey → Outcome K) (key : QueryKey)
    (search : S) :
    (∃ dropped, resumeAt onDrop key search = .ok dropped ∧
      (Query.key dropped).low = (Query.key search).low) ↔
      Keeps onDrop key (Query.key search).low := by
  rw [resumeAt, Keeps]
  cases called : onDrop key with
  | error failure =>
    refine ⟨fun ⟨_, failed, _⟩ => ?_, fun ⟨_, failed, _⟩ => ?_⟩
    · exact nomatch failed
    · exact nomatch failed
  | ok returned =>
    -- The callback has returned, and what it returned may still be no key or panic.
    cases converted : FromQueryKey.asQueryKey returned with
    | error failure =>
      refine ⟨fun ⟨_, failed, _⟩ => ?_, fun ⟨other, same, kept⟩ => ?_⟩
      · simp only [bind, Except.bind, converted] at failed
        exact nomatch failed
      · cases same
        rcases kept with nothing | again
        · exact nomatch converted.symm.trans nothing
        · exact nomatch converted.symm.trans again
    | ok chosen =>
      cases chosen with
      | none =>
        refine ⟨fun _ => ⟨returned, rfl, Or.inl converted⟩, fun _ => ⟨search, ?_, rfl⟩⟩
        simp only [bind, Except.bind, converted]
        rfl
      | some low =>
        have resumed : (Query.key (Query.setKey ((Query.key search).setLow low) search)).low =
            low := by
          rw [Query.key_setKey]
          rfl
        refine ⟨fun ⟨dropped, same, kept⟩ => ?_, fun ⟨other, same, kept⟩ => ?_⟩
        · simp only [bind, Except.bind, converted] at same
          cases same
          exact ⟨returned, rfl, Or.inr (by rw [converted, ← kept, resumed])⟩
        · cases same
          have equal : low = (Query.key search).low := by
            rcases kept with nothing | again
            · cases converted.symm.trans nothing
            · cases converted.symm.trans again
              rfl
          refine ⟨Query.setKey ((Query.key search).setLow low) search, ?_, resumed.trans equal⟩
          simp only [bind, Except.bind, converted]
          rfl

/-- The drop resumes at the last item exactly when there is one, or when the callback moves nothing. -/
theorem Iter.dropsAtLast_iff [FromQueryKey K] {iter : Iter S K} (start : iter.prevOffset = 0)
    (taken : Nat) :
    iter.DropsAtLast taken ↔ (taken ≠ 0 ∧ iter.index ≠ 0) ∨
      Keeps iter.onDrop (readHeader (Query.buf iter.search)).key (Query.key iter.search).low := by
  rw [Iter.DropsAtLast]
  by_cases nothing : taken = 0 ∨ iter.index = 0
  · -- The iterator is where it started, and its drop reads the header at the front.
    have front := iter.drop_resumeAt
    rw [start, List.drop_zero] at front
    have neither : ¬(taken ≠ 0 ∧ iter.index ≠ 0) := not_and_or.mpr
      (nothing.imp not_not.mpr not_not.mpr)
    rw [Iter.take_nothing nothing, or_iff_right neither, ← resumeAt_keeps, ← front]
    exact Iff.rfl
  · obtain ⟨asked, left⟩ := not_or.mp nothing
    obtain ⟨item, last, memory⟩ := Iter.take_last asked left
    obtain ⟨search, onDrop⟩ := iter.take_keeps taken
    refine ⟨fun _ => Or.inl ⟨asked, left⟩, fun _ => ?_⟩
    rw [last]
    simp only [Iter.drop_resumeAt, search, onDrop, ← memory]
    rfl

/-- The items that are taken are those of the batch, from its front on. -/
theorem Iter.take_batch {iter : Iter S K} {batch : List Item} (holds : iter.Holds batch)
    (taken : Nat) : (iter.take taken).1.map SearchItem.item = batch.take taken := by
  -- The induction is on the calls, each of which yields the item at the front of the batch.
  induction taken generalizing iter batch with
  | zero => exact List.take_zero.symm
  | succ taken ih =>
    cases batch with
    | nil =>
      rw [Iter.take_nothing (Or.inr holds.1)]
      rfl
    | cons item batch =>
      obtain ⟨rest, later, next, left, _⟩ := Iter.next_item holds
      rw [Iter.take, next, List.take_succ_cons]
      simp only [List.map_cons, SearchItem.item_bytes, ih left]

end Taking

section Resuming

variable {S K : Type} [Query S] {tree : Tree} {ioctl : S → Except IoError Unit × S} {search : S}
  {batch : List Item}

/-- A query yields an iterator that leaves the key as it was and resumes at the last item taken. -/
def ResumesAtLast [FromQueryKey K] (ioctl : S → Except IoError Unit × S) (search : S)
    (onDrop : QueryKey → Outcome K) (taken : Nat) : Prop :=
  ∃ iter : Iter S K, query ioctl search onDrop = (.ok iter, iter.search) ∧
    Query.key iter.search = Query.key search ∧ iter.DropsAtLast taken

/-- With the next offset as callback, the next query finds the items that were not yet yielded. -/
def FindsUnseen (tree : Tree) (ioctl : S → Except IoError Unit × S) (search : S)
    (depth taken : Nat) : Prop :=
  ∀ iter : Iter S QueryKey, (query ioctl search (nextOffset depth)).1 = .ok iter →
    ∀ dropped, (iter.take taken).2.drop = .ok dropped →
      let unseen := (tree.matching (Query.key search)).drop (iter.take taken).1.length
      ∀ after found, Answers tree dropped after found →
        found <+: unseen ∧ (found = [] → unseen = [])

/-- A key that is moved to the successor of the last item taken selects what is behind that. -/
theorem Tree.matching_behind {key : SearchKey} {rest : List Item} {low : QueryKey} {last : Item}
    {front : List Item} (typed : ∀ item ∈ tree.items, item.key.Typed)
    (selected : tree.matching key = front ++ rest) (at_last : front.getLast? = some last)
    (behind : low.FirstBehind {last.key}) : tree.matching (key.setLow low) = rest := by
  -- The last item of the front is the one that the search resumes behind.
  obtain ⟨first, more, rfl⟩ : ∃ first more, front = first :: more := by
    cases front with
    | nil => exact nomatch at_last
    | cons first more => exact ⟨first, more, rfl⟩
  have same : more.getLastD first = last := by
    rw [List.getLast?_cons, Option.some.injEq] at at_last
    rw [← at_last, List.getLastD_eq_getLast?]
  have above : (more.getLastD first).rank < low.rank := by
    rw [same]
    exact behind.1.2 last.key rfl
  refine tree.matching_resume selected above fun item inside higher => ?_
  rw [same] at higher
  exact behind.2 item.key ⟨typed item inside, fun member same => same ▸ higher⟩

/-- A callback that returns a key has that set as the lower bound. -/
theorem resumeAt_key {onDrop : QueryKey → Outcome QueryKey} {key : QueryKey} {dropped : S}
    (resumed : resumeAt onDrop key search = .ok dropped) :
    ∃ low, onDrop key = .ok low ∧ Query.key dropped = (Query.key search).setLow low := by
  -- A callback that fails does not resume anything.
  rw [resumeAt] at resumed
  cases called : onDrop key with
  | error failure =>
    rw [called] at resumed
    exact nomatch resumed
  | ok low =>
    rw [called] at resumed
    cases resumed
    exact ⟨low, rfl, Query.key_setKey _ _⟩

/-- Where the drop resumes at the last item, the next query finds what was not yet yielded. -/
theorem findsUnseen_of_resumes {depth taken : Nat} (answered : (ioctl search).1 = .ok ())
    (answers : Answers tree search (ioctl search).2 batch)
    (typed : ∀ item ∈ tree.items, item.key.Typed)
    (resumes : ResumesAtLast ioctl search (nextOffset depth) taken) :
    FindsUnseen tree ioctl search depth taken := by
  obtain ⟨iter, queried, key, drops⟩ := resumes
  obtain ⟨same, again, holds, _, _, callback, _⟩ := query_answers answered answers (nextOffset depth)
  intro other returned dropped finished unseen after found next
  rw [queried] at again returned
  cases again
  cases returned
  have yielded := iter.take_batch holds taken
  obtain ⟨rest, whole⟩ := answers.initial
  -- It is enough that the search selects the unseen items from its new lower bound on.
  suffices left : tree.matching (Query.key dropped) = unseen by
    exact ⟨left ▸ next.initial, fun nothing => left ▸ next.progress nothing⟩
  rw [Iter.DropsAtLast] at drops
  cases last : (iter.take taken).1.getLast? with
  | none =>
    -- Nothing was yielded, and the lower bound is the one it was.
    rw [last] at drops
    obtain ⟨kept, same, low⟩ := drops
    cases finished.symm.trans same
    rw [Iter.drop_resumeAt] at finished
    obtain ⟨moved, _, set⟩ := resumeAt_key finished
    rw [(iter.take_keeps taken).1] at set
    have bound : moved = (Query.key search).low := by
      rw [← key, ← low, set]
      rfl
    have none : (iter.take taken).1 = [] := List.getLast?_eq_none_iff.mp last
    have selected : tree.matching (Query.key dropped) = tree.matching (Query.key search) := by
      rw [set, bound, key]
      rfl
    simp only [unseen, none, List.length_nil, List.drop_zero, selected]
  | some item =>
    -- The bound is the successor of the last item of what the batch was taken for.
    rw [last] at drops
    obtain ⟨low, called, set⟩ := resumeAt_key (drops.symm.trans finished)
    rw [callback] at called
    have ending : (batch.take taken).getLast? = some item.item := by
      rw [← yielded, List.getLast?_map, last]
      rfl
    have split : tree.matching (Query.key search) =
        batch.take taken ++ (batch.drop taken ++ rest) := by
      rw [← List.append_assoc, List.take_append_drop, whole]
    have inside : item.item ∈ tree.matching (Query.key search) := by
      rw [split]
      exact List.mem_append_left _ (List.mem_of_getLast? ending)
    have behind : low.FirstBehind {item.item.key} :=
      nextOffset_returned (typed _ (Tree.mem_of_matching inside)) called
    have count : (iter.take taken).1.length = (batch.take taken).length := by
      rw [← yielded, List.length_map]
    rw [set, key, tree.matching_behind typed split ending behind]
    simp only [unseen, split, count, List.drop_left]

/-- A query resumes at the last item when one was taken, or when the callback moves nothing. -/
theorem resumesAtLast_iff [FromQueryKey K] (answered : (ioctl search).1 = .ok ())
    (answers : Answers tree search (ioctl search).2 batch) (onDrop : QueryKey → Outcome K)
    (taken : Nat) :
    ResumesAtLast ioctl search onDrop taken ↔ (taken ≠ 0 ∧ batch ≠ []) ∨
      Keeps onDrop (readHeader (Query.buf (ioctl search).2)).key (Query.key search).low := by
  obtain ⟨iter, queried, holds, _, start, same, key, _, buf⟩ :=
    query_answers answered answers onDrop
  have exactly := iter.dropsAtLast_iff start taken
  have left : iter.index ≠ 0 ↔ batch ≠ [] := by
    rw [holds.1]
    exact List.length_eq_zero_iff.not
  rw [same, key, buf, ← answers.buf, left] at exactly
  rw [← exactly]
  -- The query has only one result, so what holds of some iterator holds of this one.
  refine ⟨fun ⟨other, again, _, drops⟩ => ?_, fun drops => ⟨iter, queried, key, drops⟩⟩
  rw [queried] at again
  cases again
  exact drops

/--
The drop of an iterator resumes at the last item that was taken exactly when one was taken, or when
the callback keeps the lower bound on what lies at the front of the buffer.

Then with the next offset as the callback, no item is skipped and none is found again.
-/
theorem drop_resumes_iff [FromQueryKey K] (answered : (ioctl search).1 = .ok ())
    (answers : Answers tree search (ioctl search).2 batch) (onDrop : QueryKey → Outcome K)
    (taken : Nat) :
    let front := (readHeader (Query.buf (ioctl search).2)).key
    (ResumesAtLast ioctl search onDrop taken ↔
      (taken ≠ 0 ∧ batch ≠ []) ∨ Keeps onDrop front (Query.key search).low) ∧
    ∀ depth, (∀ item ∈ tree.items, item.key.Typed) →
      ((taken ≠ 0 ∧ batch ≠ []) ∨ Keeps (nextOffset depth) front (Query.key search).low) →
        FindsUnseen tree ioctl search depth taken := by
  -- That one is known, and where the drop resumes the next query goes on behind it.
  refine ⟨resumesAtLast_iff answered answers onDrop taken, fun depth typed settled => ?_⟩
  have resumes := (resumesAtLast_iff answered answers (nextOffset depth) taken).mpr settled
  exact findsUnseen_of_resumes answered answers typed resumes

/-- With the next offset as callback, a batch that nobody looks at loses its first item. -/
theorem untaken_skips {first : Item} {more : List Item} (answered : (ioctl search).1 = .ok ())
    (answers : Answers tree search (ioctl search).2 (first :: more)) (typed : first.key.Typed)
    (depth : Nat) : ¬ResumesAtLast ioctl search (nextOffset depth) 0 := by
  intro resumes
  have front : readHeader (Query.buf (ioctl search).2) = first.header := by
    rw [answers.buf, Item.allBytes, List.flatMap_cons, List.append_assoc]
    exact readHeader_bytes first _
  have kept := (resumesAtLast_iff answered answers (nextOffset depth) 0).mp resumes
  rw [front] at kept
  obtain ⟨low, called, moved⟩ := kept.resolve_left fun taken => taken.1 rfl
  have bound : low = (Query.key search).low := by
    rcases moved with nothing | same
    · cases nothing
    · cases same
      rfl
  -- The bound is above the item, which the search has found from the bound on.
  have above : first.rank < low.rank := (nextOffset_returned typed called).1.2 first.key rfl
  have inside : first ∈ tree.matching (Query.key search) :=
    answers.initial.subset List.mem_cons_self
  have reached : (Query.key search).low.rank ≤ first.rank := (mem_between.mp inside).2.1
  rw [← bound] at reached
  exact absurd above reached.not_gt

end Resuming

/-- The default search of the three items is answered, with a batch that is not empty. -/
private theorem carried_answered : (serveNext carriedItems 0 (build .default)).1 = .ok () ∧
    ∃ first more, first ∈ carriedItems.items ∧
      Answers carriedItems (build .default) (serveNext carriedItems 0 (build .default)).2
        (first :: more) := by
  -- The kernel returns the first of the items, which fits the buffer.
  have fits : ∀ item ∈ carriedItems.items, item.size ≤ Query.room (build .default) := by
    rw [build_room]
    decide
  obtain ⟨answered, batch, answers⟩ := serveNext_serves carriedItems 0 (build .default)
    ⟨by decide, fits⟩
  refine ⟨answered, ?_⟩
  cases batch with
  | nil => exact absurd (answers.progress rfl) (by decide)
  | cons first more =>
    have inside := Tree.batch_matching (answers.initial.choose_spec).symm List.mem_cons_self
    exact ⟨first, more, Tree.mem_of_matching inside, answers⟩

/-- One of the three items is taken, and the next query finds the two others. -/
theorem drop_resumes_iff_carried :
    ∃ batch, (ResumesAtLast (serveNext carriedItems 0) (build .default) (nextOffset 1) 1 ↔
        (1 ≠ 0 ∧ batch ≠ ([] : List Item)) ∨ Keeps (nextOffset 1)
          (readHeader (Query.buf (serveNext carriedItems 0 (build .default)).2)).key (0, 0, 0)) ∧
      FindsUnseen carriedItems (serveNext carriedItems 0) (build .default) 1 1 := by
  -- The kernel answers with all three of them.
  obtain ⟨answered, first, more, _, answers⟩ := carried_answered
  have resumes := drop_resumes_iff answered answers (nextOffset 1) 1
  exact ⟨first :: more, resumes.1,
    resumes.2 1 (by decide) (Or.inl ⟨Nat.one_ne_zero, List.cons_ne_nil first more⟩)⟩

/-- None of the three items is taken, and the search goes on behind the first one all the same. -/
theorem drop_strays_carried :
    ¬ResumesAtLast (serveNext carriedItems 0) (build .default) (nextOffset 1) 0 := by
  -- The drop takes the header at the front for an item that was taken.
  obtain ⟨answered, first, more, inside, answers⟩ := carried_answered
  have typed : ∀ item ∈ carriedItems.items, item.key.Typed := by decide
  exact untaken_skips answered answers (typed first inside) 1

end Libbtrfs.Search
