import Libbtrfs.TreeSearch.Builder
import Libbtrfs.TreeSearch.Loop

/-! A search that goes on at the next offset sees every item of its range exactly once. -/

namespace Libbtrfs.Search

section Paged

variable {S : Type} [Query S] {tree : Tree} {ioctl : Nat → S → Except IoError Unit × S}

/-- The body of a loop that keeps the items it is given. -/
def visit (visited : List Item) (item : SearchItem) : List Item × Outcome Unit :=
  (visited ++ [item.item], .ok ())

/-- What the body does with an item of the tree. -/
def keep (visited : List Item) (item : Item) : List Item × Outcome Unit :=
  (visited ++ [item], .ok ())

/-- The body keeps the items that lie in the buffer. -/
theorem visit_bytes (visited : List Item) (item : Item) (rest : Bytes) :
    visit visited ⟨item.bytes ++ rest⟩ = keep visited item := by
  -- The item is read back from its bytes.
  rw [visit, keep, SearchItem.item_bytes]

/-- A batch is kept as a whole. -/
theorem feed_keep (visited batch : List Item) :
    feed keep visited batch = (visited ++ batch, .ok ()) := by
  -- One item at a time goes behind those that were kept before.
  induction batch generalizing visited with
  | nil => rw [feed, List.append_nil]
  | cons item batch ih => simp [feed, keep, ih]

/-- What holds in every round: the items that were visited and those that are left are the range. -/
structure Visits (tree : Tree) (search : S) (loop : Loop S (List Item)) : Prop where
  limit : (Query.key loop.search).nrItems = (Query.key search).nrItems
  running : loop.ended = none → Query.room loop.search = Query.room search ∧
    (readHeader (Query.buf loop.search)).ty < 255 ∧
    loop.result ++ tree.matching (Query.key loop.search) = tree.matching (Query.key search)
  ended : ∀ outcome, loop.ended = some outcome →
    outcome = .ok () ∧ loop.result = tree.matching (Query.key search)

/-- A round keeps what was visited and what is left together, and leaves less than before. -/
theorem Visits.turn (serves : Serves tree ioctl) {search : S} (ready : Ready tree search)
    (below : ∀ item ∈ tree.items, item.ty < 255) (depth : Nat) {loop : Loop S (List Item)}
    (visits : Visits tree search loop) :
    Visits tree search (loop.turn ioctl (nextOffset (depth + 1)) visit) ∧
      ((loop.turn ioctl (nextOffset (depth + 1)) visit).ended = none →
        (tree.matching (Query.key (loop.turn ioctl (nextOffset (depth + 1)) visit).search)).length <
          (tree.matching (Query.key loop.search)).length) := by
  cases ended : loop.ended with
  | some outcome =>
    rw [Loop.turn_ended ended]
    exact ⟨visits, fun running => nomatch ended.symm.trans running⟩
  | none =>
    obtain ⟨room, head, together⟩ := visits.running ended
    have still : Ready tree loop.search :=
      ⟨visits.limit ▸ ready.1, fun item member => room ▸ ready.2 item member⟩
    -- The last item of a batch is one of the tree, so the callback counts up from it.
    have advance : ∀ {first : Item} {more rest : List Item},
        tree.matching (Query.key loop.search) = first :: more ++ rest →
        ∃ low, nextOffset (depth + 1) (more.getLastD first).key = .ok low ∧
          (more.getLastD first).rank < low.rank ∧
          ∀ item : Item, (more.getLastD first).rank < item.rank → low.rank ≤ item.rank := by
      intro first more rest selected
      have last := Tree.last_matching selected
      have small : (more.getLastD first).key.2.1 < 255 := below _ (Tree.mem_of_matching last)
      obtain ⟨low, called, above, resumes⟩ := nextOffset_succ depth small
      exact ⟨low, called, above, fun item => resumes item.key⟩
    cases Loop.turn_cases serves (nextOffset (depth + 1)) ended still
      (fun visited item _ rest => visit_bytes visited item rest) with
    | nothing selected result stopped limit =>
      -- The callback is given whatever lies at the front of the buffer.
      have header : (readHeader (Query.buf loop.search)).key.2.1 < 255 := head
      obtain ⟨low, called, _⟩ := nextOffset_succ depth header
      rw [called] at stopped
      rw [selected, List.append_nil] at together
      refine ⟨⟨limit.trans visits.limit, ?_, ?_⟩, ?_⟩
      · exact fun running => nomatch stopped.symm.trans running
      · intro outcome found
        exact ⟨Option.some.inj (found.symm.trans stopped), result.trans together⟩
      · exact fun running => nomatch stopped.symm.trans running
    | failed selected reason stopped =>
      obtain ⟨low, called, _⟩ := advance selected
      rcases reason with failed | failed
      · rw [feed_keep] at failed
        exact absurd rfl failed
      · cases called.symm.trans failed
    | @resumed first more rest low selected _ passed called running key same header =>
      obtain ⟨next, called_next, above, resumes⟩ := advance selected
      cases called.symm.trans called_next
      have left := tree.matching_resume selected above fun item _ => resumes item
      rw [feed_keep] at passed
      have result := (Prod.mk.inj passed).1
      have chosen : first ∈ tree.matching (Query.key loop.search) := by
        rw [selected]
        exact List.mem_cons_self
      refine ⟨⟨?_, fun _ => ⟨same.trans room, ?_, ?_⟩, fun _ found => ?_⟩, fun _ => ?_⟩
      · rw [key]
        exact visits.limit
      · rw [header]
        exact below first (Tree.mem_of_matching chosen)
      · rw [key, left, ← result, List.append_assoc, ← selected]
        exact together
      · exact nomatch running.symm.trans found
      · rw [key, left, selected, List.length_append, List.length_cons]
        omega

/--
With the next offset as the callback, a loop of queries ends for every kernel that serves the tree,
visits the items of its range once each and in order, and always searches with the same limit.
-/
theorem nextOffset_visits_range (tree : Tree) {ioctl : Nat → S → Except IoError Unit × S}
    (serves : Serves tree ioctl) {search : S} (limited : 1 ≤ (Query.key search).nrItems)
    (fits : ∀ item ∈ tree.items, item.size ≤ Query.room search)
    (below : ∀ item ∈ tree.items, item.ty < 255) (fresh : ∀ byte ∈ Query.buf search, byte = 0)
    (depth : Nat) :
    (∃ rounds, ((Loop.start search []).run ioctl (nextOffset (depth + 1)) visit rounds).ended =
      some (.ok ())) ∧
    ∀ rounds, let loop := (Loop.start search []).run ioctl (nextOffset (depth + 1)) visit rounds
      (Query.key loop.search).nrItems = (Query.key search).nrItems ∧
      ∀ outcome, loop.ended = some outcome → outcome = .ok () ∧
        Ascending Item.rank loop.result ∧
        ∀ item, item ∈ loop.result ↔ item ∈ tree.items ∧
          (Query.key search).low.rank ≤ item.rank ∧ item.rank ≤ (Query.key search).high.rank := by
  have ready : Ready tree search := ⟨limited, fits⟩
  have start : Visits tree search (Loop.start search []) := by
    refine ⟨rfl, fun _ => ⟨rfl, ?_, List.nil_append _⟩, fun _ found => nomatch found⟩
    -- A buffer of zeroes starts with a header of zeroes.
    rw [Loop.start, readHeader_zeros fresh]
    decide
  have keeps : ∀ loop, Visits tree search loop →
      Visits tree search (loop.turn ioctl (nextOffset (depth + 1)) visit) :=
    fun loop visits => (visits.turn serves ready below depth).1
  refine ⟨?_, fun rounds => ?_⟩
  · obtain ⟨rounds, outcome, ended⟩ := Loop.run_ends (Visits tree search)
      (fun loop => (tree.matching (Query.key loop.search)).length) keeps
      (fun loop visits => (visits.turn serves ready below depth).2) start
    have visits := Loop.run_invariant keeps start rounds
    exact ⟨rounds, ended.trans (congrArg some (visits.ended outcome ended).1)⟩
  · have visits := Loop.run_invariant keeps start rounds
    refine ⟨visits.limit, fun outcome ended => ?_⟩
    obtain ⟨done, result⟩ := visits.ended outcome ended
    refine ⟨done, ?_, fun item => ?_⟩
    · rw [result]
      exact tree.ascending.between
    · rw [result]
      exact mem_between

end Paged

/-- Three items, the next one of which follows first by its type and then by its objectid. -/
def carriedItems : Tree where
  items := [⟨256, 1, 0xFFFFFFFFFFFFFFFF, 7, [], by decide⟩, ⟨256, 2, 0, 7, [1], by decide⟩,
    ⟨257, 0, 5, 7, [1, 2], by decide⟩]
  ascending := by
    unfold Ascending
    decide

/-- A kernel that returns one item at a time has each of the three visited once. -/
theorem nextOffset_visits_carried :
    (∃ rounds, ((Loop.start (build .default) []).run (serveNext carriedItems) (nextOffset 1) visit
      rounds).ended = some (.ok ())) ∧
    ∀ rounds outcome, ((Loop.start (build .default) []).run (serveNext carriedItems) (nextOffset 1)
      visit rounds).ended = some outcome → outcome = .ok () := by
  -- Types below 255 and room for each item are what the range asks of the tree.
  have fits : ∀ item ∈ carriedItems.items, item.size ≤ Query.room (build .default) := by
    rw [build_room]
    decide
  have visited := nextOffset_visits_range carriedItems (serveNext_serves carriedItems) (by decide)
    fits (by decide) (build_fresh .default) 0
  exact ⟨visited.1, fun rounds outcome ended => ((visited.2 rounds).2 outcome ended).1⟩

end Libbtrfs.Search
