import Libbtrfs.Core.Sweep
import Libbtrfs.TreeSearch.Ranges

/-! A search that goes on at the next offset, over a tree that changes between the queries. -/

namespace Libbtrfs.Search

/-- A key as one number, whose digits are the parts of the key. -/
def QueryKey.place (key : QueryKey) : Nat :=
  (key.1.toNat * 2 ^ 32 + key.2.1.toNat) * 2 ^ 64 + key.2.2.toNat

/-- There are only so many keys. -/
theorem QueryKey.place_lt (key : QueryKey) : key.place < 2 ^ 160 := by
  -- The place has 64 bits, 32 bits and 64 bits.
  have objectid := key.1.toNat_lt
  have ty := key.2.1.toNat_lt
  have offset := key.2.2.toNat_lt
  rw [place]
  omega

/-- A key that is below another one has the smaller number. -/
theorem QueryKey.place_lt_place {one other : QueryKey} (below : one.rank < other.rank) :
    one.place < other.place := by
  -- The first part in which they differ outweighs all that come behind it.
  have ty := one.2.1.toNat_lt
  have offset := one.2.2.toNat_lt
  rw [QueryKey.rank_lt] at below
  rw [place, place]
  omega

section Changing

variable {S : Type} [Query S] {trees : Nat → Tree} {ioctl : Nat → S → Except IoError Unit × S}

/-- The contract of the ioctl on a tree that changes: each call is answered from the tree at that time. -/
def ServesEach (trees : Nat → Tree) (ioctl : Nat → S → Except IoError Unit × S) : Prop :=
  ∀ call, Serves (trees call) fun _ => ioctl call

/-- A round makes one call, whatever the other calls would be answered with. -/
theorem Loop.turn_call {K R : Type} [FromQueryKey K] (onDrop : QueryKey → Outcome K)
    (body : R → SearchItem → R × Outcome Unit) (loop : Loop S R) :
    loop.turn ioctl onDrop body = loop.turn (fun _ => ioctl loop.calls) onDrop body := rfl

/-- A running round is counted. -/
theorem Loop.turn_calls {K R : Type} [FromQueryKey K] (onDrop : QueryKey → Outcome K)
    (body : R → SearchItem → R × Outcome Unit) {loop : Loop S R} (running : loop.ended = none) :
    (loop.turn ioctl onDrop body).calls = loop.calls + 1 := by
  -- Every way through a round counts the query.
  rw [Loop.turn, running]
  dsimp only
  repeat' split
  all_goals rfl

/-- What holds in every round of a loop over a tree that changes. -/
structure Sweeps (trees : Nat → Tree) (search : S) (loop : Loop S (List Item)) : Prop where
  limit : (Query.key loop.search).nrItems = (Query.key search).nrItems
  ascending : Ascending Item.rank loop.result
  running : loop.ended = none → Query.room loop.search = Query.room search ∧
    (readHeader (Query.buf loop.search)).ty < 255 ∧
    (Query.key loop.search).high = (Query.key search).high ∧
    ∃ decides, Sweep Item.rank (fun call => (trees call).items) (Query.key search).low.rank
      (Query.key search).high.rank (Query.key loop.search).low.rank loop.calls decides loop.result
  ended : ∀ outcome, loop.ended = some outcome → outcome = .ok () ∧
    ∃ decides : Lex (ℕ × Lex (ℕ × ℕ)) → Nat, Monotone decides ∧
      (∀ rank, decides rank < loop.calls) ∧ ∀ item, item ∈ loop.result ↔
        (Query.key search).low.rank ≤ item.rank ∧ item.rank ≤ (Query.key search).high.rank ∧
        item ∈ (trees (decides item.rank)).items

/-- A round goes on with the sweep, from a greater key than before. -/
theorem Sweeps.turn (serves : ServesEach trees ioctl) {search : S}
    (ready : ∀ call, Ready (trees call) search)
    (below : ∀ call, ∀ item ∈ (trees call).items, item.ty < 255) (depth : Nat)
    {loop : Loop S (List Item)} (sweeps : Sweeps trees search loop) :
    Sweeps trees search (loop.turn ioctl (nextOffset (depth + 1)) visit) ∧
      ((loop.turn ioctl (nextOffset (depth + 1)) visit).ended = none →
        (Query.key loop.search).low.place <
          (Query.key (loop.turn ioctl (nextOffset (depth + 1)) visit).search).low.place) := by
  cases ended : loop.ended with
  | some outcome =>
    rw [Loop.turn_ended ended]
    exact ⟨sweeps, fun running => absurd (ended.symm.trans running) (Option.some_ne_none _)⟩
  | none =>
    obtain ⟨room, head, high, decides, sweep⟩ := sweeps.running ended
    have calls : (loop.turn ioctl (nextOffset (depth + 1)) visit).calls = loop.calls + 1 :=
      Loop.turn_calls _ _ ended
    have still : Ready (trees loop.calls) loop.search :=
      ⟨sweeps.limit ▸ (ready loop.calls).1,
        fun item member => room ▸ (ready loop.calls).2 item member⟩
    have turned := Loop.turn_cases (serves loop.calls) (nextOffset (depth + 1)) ended still
      (fun visited item _ rest => visit_bytes visited item rest)
    rw [← Loop.turn_call] at turned
    have page : (trees loop.calls).matching (Query.key loop.search) =
        between Item.rank (Query.key loop.search).low.rank (Query.key search).high.rank
          (trees loop.calls).items := by
      rw [Tree.matching, high]
    -- The callback counts up from the last item of a batch, which is one of the tree.
    have small : ∀ {first : Item} {more rest : List Item},
        (trees loop.calls).matching (Query.key loop.search) = first :: more ++ rest →
        (more.getLastD first).key.2.1 < 255 := fun selected =>
      below _ _ (Tree.mem_of_matching (Tree.last_matching selected))
    cases turned with
    | nothing selected result stopped limit =>
      -- The callback is given whatever lies at the front of the buffer.
      have header : (readHeader (Query.buf loop.search)).key.2.1 < 255 := head
      obtain ⟨low, called, _⟩ := nextOffset_succ depth header
      rw [called] at stopped
      have finished : (loop.turn ioctl (nextOffset (depth + 1)) visit).ended ≠ none := by
        rw [stopped]
        exact Option.some_ne_none _
      refine ⟨⟨limit.trans sweeps.limit, result ▸ sweeps.ascending, fun running => (finished running).elim,
        fun outcome found => ⟨Option.some.inj (found.symm.trans stopped), decides, sweep.monotone,
          fun rank => ?_, fun item => ?_⟩⟩, fun running => (finished running).elim⟩
      · rw [calls]
        exact Nat.lt_succ_of_le (sweep.decides_le rank)
      · rw [result]
        exact sweep.finish (page.symm.trans selected) item
    | failed selected reason stopped =>
      obtain ⟨low, called, _⟩ := nextOffset_succ depth (small selected)
      rcases reason with failed | failed
      · rw [feed_keep] at failed
        exact absurd rfl failed
      · cases called.symm.trans failed
    | @resumed first more rest low selected _ passed called running key same header =>
      have last := Tree.last_matching selected
      obtain ⟨next, called_next, above, resumes⟩ := nextOffset_succ depth (small selected)
      cases called.symm.trans called_next
      rw [feed_keep] at passed
      have result := (Prod.mk.inj passed).1
      have chosen : first ∈ (trees loop.calls).matching (Query.key loop.search) := by
        rw [selected]
        exact List.mem_cons_self
      have reached := (mem_between.mp last).2.1
      rw [dropLast_append_getLastD, List.append_assoc, List.singleton_append] at selected
      have later := sweep.page (trees loop.calls).ascending (page.symm.trans selected) above
        fun item => resumes item.key
      have goes : (Query.key (loop.turn ioctl (nextOffset (depth + 1)) visit).search).low = low := by
        rw [key]
        rfl
      rw [← dropLast_append_getLastD, result, ← goes, ← calls] at later
      refine ⟨⟨?_, later.ascending, fun _ => ⟨same.trans room, ?_, ?_, _, later⟩,
        fun _ found => ?_⟩, fun _ => ?_⟩
      · rw [key]
        exact sweeps.limit
      · rw [header]
        exact below _ first (Tree.mem_of_matching chosen)
      · rw [key]
        exact high
      · exact absurd (found.symm.trans running) (Option.some_ne_none _)
      · rw [goes]
        exact QueryKey.place_lt_place (reached.trans_lt above)

/--
Whatever happens to a tree between the queries, a loop of queries at the next offset ends, visits
in the order of their keys, and has of each key what the tree had at one of the queries, which is no
earlier one for a greater key.
-/
theorem nextOffset_sweeps (trees : Nat → Tree) {ioctl : Nat → S → Except IoError Unit × S}
    (serves : ServesEach trees ioctl) {search : S} (limited : 1 ≤ (Query.key search).nrItems)
    (fits : ∀ call, ∀ item ∈ (trees call).items, item.size ≤ Query.room search)
    (below : ∀ call, ∀ item ∈ (trees call).items, item.ty < 255)
    (fresh : ∀ byte ∈ Query.buf search, byte = 0) (depth : Nat) :
    (∃ rounds, ((Loop.start search []).run ioctl (nextOffset (depth + 1)) visit rounds).ended =
      some (.ok ())) ∧
    ∀ rounds, let loop := (Loop.start search []).run ioctl (nextOffset (depth + 1)) visit rounds
      Ascending Item.rank loop.result ∧ ∀ outcome, loop.ended = some outcome → outcome = .ok () ∧
        ∃ decides : Lex (ℕ × Lex (ℕ × ℕ)) → Nat, Monotone decides ∧
          (∀ rank, decides rank < loop.calls) ∧ ∀ item, item ∈ loop.result ↔
            (Query.key search).low.rank ≤ item.rank ∧ item.rank ≤ (Query.key search).high.rank ∧
            item ∈ (trees (decides item.rank)).items := by
  have start : Sweeps trees search (Loop.start search []) := by
    refine ⟨rfl, List.Pairwise.nil, fun _ => ⟨rfl, ?_, rfl, _, Sweep.start _ _ _ _⟩,
      fun outcome found => absurd found.symm (Option.some_ne_none outcome)⟩
    -- A buffer of zeroes starts with a header of zeroes.
    rw [Loop.start, readHeader_zeros fresh]
    decide
  have turns := fun (loop : Loop S (List Item)) (sweeps : Sweeps trees search loop) =>
    sweeps.turn serves (fun call => ⟨limited, fits call⟩) below depth
  refine ⟨?_, fun rounds => ?_⟩
  · -- The key that the loop goes on from only grows, and cannot grow forever.
    obtain ⟨rounds, outcome, ended⟩ := Loop.run_ends (Sweeps trees search)
      (fun loop => 2 ^ 160 - (Query.key loop.search).low.place) (fun loop sweeps => (turns loop sweeps).1)
      (fun loop sweeps running => by
        have grows := (turns loop sweeps).2 running
        have bounded := (Query.key
          (loop.turn ioctl (nextOffset (depth + 1)) visit).search).low.place_lt
        omega) start
    have sweeps := Loop.run_invariant (fun loop sweeps => (turns loop sweeps).1) start rounds
    exact ⟨rounds, ended.trans (congrArg some (sweeps.ended outcome ended).1)⟩
  · have sweeps := Loop.run_invariant (fun loop sweeps => (turns loop sweeps).1) start rounds
    exact ⟨sweeps.ascending, sweeps.ended⟩

end Changing

/-- A tree in which three items are replaced by another one behind the first query. -/
def replacedItems : Nat → Tree
  | 0 => carriedItems
  | _ + 1 => .single (.plain 256 2 7 8)

/-- A kernel that returns one item at a time has the first of the old items visited, and the new one. -/
theorem nextOffset_sweeps_replaced :
    (∃ rounds, ((Loop.start (build .default) []).run (fun call => serveNext (replacedItems call) call)
      (nextOffset 1) visit rounds).ended = some (.ok ())) ∧
    ∀ rounds outcome, ((Loop.start (build .default) []).run
      (fun call => serveNext (replacedItems call) call) (nextOffset 1) visit rounds).ended =
        some outcome → outcome = .ok () := by
  -- There are two trees, and the second one stays.
  have serves : ServesEach replacedItems fun call => serveNext (replacedItems call) call :=
    fun call _ search ready => serveNext_serves (replacedItems call) call search ready
  have fits : ∀ call, ∀ item ∈ (replacedItems call).items,
      item.size ≤ Query.room (build .default) := by
    rw [build_room]
    intro call
    cases call with
    | zero => decide
    | succ call => exact List.forall_mem_singleton.mpr (by decide)
  have below : ∀ call, ∀ item ∈ (replacedItems call).items, item.ty < 255 := by
    intro call
    cases call with
    | zero => decide
    | succ call => exact List.forall_mem_singleton.mpr (by decide)
  have swept := nextOffset_sweeps replacedItems serves (by decide) fits below
    (build_fresh .default) 0
  exact ⟨swept.1, fun rounds outcome ended => ((swept.2 rounds).2 outcome ended).1⟩

end Libbtrfs.Search
