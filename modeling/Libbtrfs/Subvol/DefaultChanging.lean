import Libbtrfs.Subvol.Defaulting
import Libbtrfs.TreeSearch.Changing

/-! `get_default` in a root tree that changes between its queries. -/

namespace Libbtrfs

open Search

/--
What `get_default` returns of a root tree that changes, after a number of queries.

It is the location of a default entry that one of the queries has found. For each place in front of
that there is a query, no later one, when there was no default entry at it. When none is found there
was such a query for every place.
-/
inductive FindsAmong (trees : Nat → DefaultTree) (calls : Nat) : Outcome UInt64 → Prop
  | found {call : Nat} {item : Item} {entry : DirEntry} (asked : call < calls)
      (holds : (trees call).EntryOf item entry) (named : entry.name = defaultName)
      (first : ∀ rank < item.rank, ∃ earlier ≤ call, ∀ other otherEntry,
        (trees earlier).EntryOf other otherEntry → other.rank = rank →
          otherEntry.name ≠ defaultName) :
      FindsAmong trees calls (.ok entry.objectid)
  | missing (absent : ∀ rank, ∃ call < calls, ∀ item entry, (trees call).EntryOf item entry →
      item.rank = rank → entry.name ≠ defaultName) :
      FindsAmong trees calls (.error (.io (.kind .notFound)))

/-- The part of a root tree that a search is still to go through. -/
def DefaultTree.ahead (tree : DefaultTree) (key : SearchKey) : DefaultTree where
  items := tree.items.filter (key.low.rank ≤ ·.rank)
  ascending := List.Pairwise.sublist List.filter_sublist tree.ascending
  entries item member := tree.entries item (List.mem_of_mem_filter member)
  below item member := tree.below item (List.mem_of_mem_filter member)
  fits item member := tree.fits item (List.mem_of_mem_filter member)

section Ahead

variable {tree : DefaultTree} {key other : SearchKey} {item : Item} {entry : DirEntry}

/-- From a lower bound on that is not above its own, a search selects what it does ahead. -/
theorem DefaultTree.matching_ahead (low : other.low.rank ≤ key.low.rank)
    (high : other.high = key.high) :
    (tree.ahead key).matching other = tree.matching key := by
  -- The bound of the part that is ahead takes the place of the lower one.
  rw [Tree.matching, Tree.matching, between, between, ahead, List.filter_filter, high]
  apply List.filter_congr
  intro item _
  rw [Bool.eq_iff_iff]
  simp only [Bool.and_eq_true, decide_eq_true_eq]
  constructor
  · rintro ⟨⟨_, most⟩, least⟩
    exact ⟨least, most⟩
  · rintro ⟨least, most⟩
    exact ⟨⟨low.trans least, most⟩, least⟩

/-- An entry ahead is one of the tree. -/
theorem DefaultTree.entry_ahead :
    (tree.ahead key).EntryOf item entry ↔ tree.EntryOf item entry ∧ key.low.rank ≤ item.rank := by
  -- What is ahead is filtered by the rank.
  constructor
  · rintro ⟨inside, objectid, ty, data⟩
    obtain ⟨member, reached⟩ := List.mem_filter.mp inside
    exact ⟨⟨member, objectid, ty, data⟩, of_decide_eq_true reached⟩
  · rintro ⟨⟨inside, objectid, ty, data⟩, reached⟩
    exact ⟨List.mem_filter.mpr ⟨inside, decide_eq_true reached⟩, objectid, ty, data⟩

/-- A search is answered from the part of the tree that is ahead. -/
theorem DefaultTree.answers_ahead {before after : TreeSearch} {batch : List Item}
    (answers : Search.Answers tree.toTree before after batch) :
    Search.Answers (tree.ahead (Query.key before)).toTree before after batch := by
  -- Only what is ahead is selected.
  have same : (tree.ahead (Query.key before)).matching (Query.key before) =
      tree.matching (Query.key before) := DefaultTree.matching_ahead (le_refl _) rfl
  exact ⟨same ▸ answers.initial, fun nothing => same.trans (answers.progress nothing),
    answers.limited, answers.fits, answers.key, answers.buf, answers.room⟩

end Ahead

namespace GetDefault

variable {trees : Nat → DefaultTree} {ioctl : Nat → TreeSearch → Except IoError Unit × TreeSearch}
  {overflowChecks : Bool} {loop : GetDefault}

/-- What holds in front of a round: what was read up to the key of the search is not the entry. -/
structure Reads (trees : Nat → DefaultTree) (loop : GetDefault) (decides : Lex (ℕ × Lex (ℕ × ℕ)) → Nat)
    (seen : List Item) : Prop where
  limit : (Query.key loop.search).nrItems = 0xFFFFFFFF
  front : (Search.readHeader (Query.buf loop.search)).key.2.2 < 0xFFFFFFFFFFFFFFFF
  high : (Query.key defaultSearch).high = (Query.key loop.search).high
  unwanted : ∀ item ∈ seen, item.isDefault = false
  sweep : Sweep Item.rank (fun call => (trees call).items) (Query.key defaultSearch).low.rank
    (Query.key defaultSearch).high.rank (Query.key loop.search).low.rank loop.calls decides seen

variable {decides : Lex (ℕ × Lex (ℕ × ℕ)) → Nat} {seen : List Item}

/-- In front of the first round nothing was read. -/
theorem reads_start (trees : Nat → DefaultTree) : Reads trees start (fun _ => 0) [] where
  limit := rfl
  front := (looks_start (trees 0)).front
  high := rfl
  unwanted := List.forall_mem_nil _
  sweep := Sweep.start _ _ _ _

/-- Of the part of the tree that is ahead at this time, nothing was seen. -/
theorem Reads.looks (reads : Reads trees loop decides seen) :
    Looks ((trees loop.calls).ahead (Query.key loop.search)) loop where
  limit := reads.limit
  front := reads.front
  split := by
    refine ⟨[], List.forall_mem_nil _, ?_⟩
    -- All of what is selected is still ahead.
    rw [List.nil_append, DefaultTree.matching_ahead reads.sweep.started reads.high,
      DefaultTree.matching_ahead (le_refl _) rfl]

/-- Every query is answered with some batch of what is ahead. -/
theorem Reads.served (reads : Reads trees loop decides seen)
    (serves : ∀ call, ServesFirst (trees call).toTree fun _ => ioctl call) :
    (ioctl loop.calls loop.search).1 = .ok () ∧ ∃ batch,
      Search.Answers ((trees loop.calls).ahead (Query.key loop.search)).toTree loop.search
        (ioctl loop.calls loop.search).2 batch := by
  obtain ⟨answered, batch, answers⟩ := serves loop.calls loop.calls loop.search
    (by rw [reads.limit]; decide) fun item first => by
      -- What the search selects fits the buffer, whose room is the same for all searches.
      rw [← DefaultTree.matching_ahead (le_refl _) rfl] at first
      have chosen := reads.looks.selected (List.mem_of_mem_head? first)
      exact (DefaultTree.selected _ chosen).2.2.trans loop.search.args.sized.ge
  exact ⟨answered, batch, DefaultTree.answers_ahead answers⟩

/-- An entry of the directory is in the range of the first search. -/
theorem entry_between {tree : DefaultTree} {item : Item} {entry : DirEntry}
    (holds : tree.EntryOf item entry) :
    (Query.key defaultSearch).low.rank ≤ item.rank ∧
      item.rank ≤ (Query.key defaultSearch).high.rank :=
  (mem_between.mp
    ((mem_defaultSearch tree.toTree item).mpr ⟨holds.inside, holds.objectid, holds.ty⟩)).2

/-- Where a page has decided, there was no default entry at that time. -/
theorem Reads.decided (reads : Reads trees loop decides seen)
    {rank : Lex (ℕ × Lex (ℕ × ℕ))} (behind : rank < (Query.key loop.search).low.rank) {item : Item}
    {entry : DirEntry} (holds : (trees (decides rank)).EntryOf item entry)
    (same : item.rank = rank) : entry.name ≠ defaultName := by
  -- The item would have been seen, and be none of those that were not wanted.
  subst same
  intro named
  obtain ⟨least, most⟩ := entry_between holds
  have found := (reads.sweep.exact item).mpr ⟨least, behind, most, holds.inside⟩
  have wanted := holds.isDefault_iff.mpr named
  rw [reads.unwanted item found] at wanted
  cases wanted

/-- The entry that a round finds was there, and none was in front of it all the while. -/
theorem Reads.found (reads : Reads trees loop decides seen) {id : UInt64}
    (finds : Finds ((trees loop.calls).ahead (Query.key loop.search)).toTree (.ok id)) :
    FindsAmong trees (loop.calls + 1) (.ok id) := by
  cases finds with
  | @found item entry holds named first =>
    refine .found (Nat.lt_succ_self _) (DefaultTree.entry_ahead.mp holds).1 named
      fun rank before => ?_
    rcases lt_or_ge rank (Query.key loop.search).low.rank with behind | ahead
    · exact ⟨decides rank, reads.sweep.decides_le rank,
        fun other otherEntry => reads.decided behind⟩
    · -- Ahead it is the first one at this time.
      refine ⟨loop.calls, le_refl _, fun other otherEntry kept same name => ?_⟩
      have least := first other otherEntry
        (DefaultTree.entry_ahead.mpr ⟨kept, same ▸ ahead⟩) name
      exact absurd before (same ▸ least).not_gt

/-- When nothing is ahead any more, every place was without a default entry at some time. -/
theorem Reads.missing (reads : Reads trees loop decides seen)
    (nothing : (trees loop.calls).matching (Query.key loop.search) = []) :
    FindsAmong trees (loop.calls + 1) (.error (.io (.kind .notFound))) := by
  -- An entry with the name would have been among what was found.
  refine .missing fun rank =>
    ⟨decides rank, Nat.lt_succ_of_le (reads.sweep.decides_le rank), fun item entry holds same => ?_⟩
  subst same
  intro named
  obtain ⟨least, most⟩ := entry_between holds
  rw [Tree.matching, ← reads.high] at nothing
  have found := (reads.sweep.finish nothing item).mpr ⟨least, most, holds.inside⟩
  have wanted := holds.isDefault_iff.mpr named
  rw [reads.unwanted item found] at wanted
  cases wanted

/-- What holds of the loop: it reads on, or has ended with what can be found. -/
structure Follows (trees : Nat → DefaultTree) (loop : GetDefault) : Prop where
  running : loop.ended = none → ∃ decides seen, Reads trees loop decides seen
  ended : ∀ outcome, loop.ended = some outcome → FindsAmong trees loop.calls outcome

/-- A running round is counted. -/
theorem turn_calls (running : loop.ended = none) :
    (loop.turn ioctl overflowChecks).calls = loop.calls + 1 := by
  -- Every way through a round counts the query.
  rw [turn, running]
  dsimp only
  repeat' split
  all_goals rfl

/-- A round ends with what can be found, or reads on from a greater key. -/
theorem Reads.turn (reads : Reads trees loop decides seen)
    (serves : ∀ call, ServesFirst (trees call).toTree fun _ => ioctl call)
    (overflowChecks : Bool) (running : loop.ended = none) :
    (∃ outcome, (loop.turn ioctl overflowChecks).ended = some outcome ∧
        FindsAmong trees (loop.calls + 1) outcome) ∨
      ((loop.turn ioctl overflowChecks).ended = none ∧
        (∃ decides seen, Reads trees (loop.turn ioctl overflowChecks) decides seen) ∧
        (Query.key loop.search).low.place <
          (Query.key (loop.turn ioctl overflowChecks).search).low.place) := by
  obtain ⟨answered, batch, answers⟩ := reads.served serves
  obtain ⟨rest, whole⟩ := answers.initial
  have here : ((trees loop.calls).ahead (Query.key loop.search)).matching (Query.key loop.search) =
      (trees loop.calls).matching (Query.key loop.search) :=
    DefaultTree.matching_ahead (le_refl _) rfl
  have looks := reads.looks
  cases found : batch.find? Item.isDefault with
  | some item =>
    -- What stands in front of the first default entry of the batch is none.
    obtain ⟨wanted, front, behind, split, before⟩ := List.find?_eq_some_iff_append.mp found
    have passed : ∀ other ∈ front, other.isDefault = false := by
      intro other member
      simpa using before other member
    have inside : item ∈ batch := List.mem_of_find?_eq_some found
    obtain ⟨⟨entry, holds⟩, _⟩ := looks.batch_selected answers inside
    have named := holds.isDefault_iff.mp wanted
    rw [split, List.append_assoc, List.cons_append] at whole
    exact Or.inl ⟨_, turn_found running looks answered answers split passed holds named,
      reads.found (looks.found passed whole.symm holds named)⟩
  | none =>
    have passed : ∀ item ∈ batch, item.isDefault = false := by
      intro item member
      simpa using List.find?_eq_none.mp found item member
    cases batch with
    | nil =>
      exact Or.inl ⟨_, turn_nothing running looks answered answers,
        reads.missing (here.symm.trans (answers.progress rfl))⟩
    | cons first more =>
      obtain ⟨search, next, turned, above, resumes, key, header⟩ :=
        @turn_missed _ _ overflowChecks _ running looks answered first more answers passed
      have below := (looks.batch_selected answers List.mem_cons_self).2
      have reached := (mem_between.mp (Tree.last_matching whole.symm)).2.1
      have goes : (Query.key search).low = next := by
        rw [key]
        rfl
      -- The page is what the kernel has returned, up to its last item.
      have selected := here.symm.trans whole.symm
      rw [Tree.matching, ← reads.high, dropLast_append_getLastD, List.append_assoc,
        List.singleton_append] at selected
      have later := reads.sweep.page (trees loop.calls).ascending selected above
        fun item => resumes item.key
      rw [← dropLast_append_getLastD, ← goes] at later
      rw [turned]
      refine Or.inr ⟨rfl, ⟨_, _, ?_, ?_, ?_, fun item member => ?_, later⟩, ?_⟩
      · rw [key]
        exact reads.limit
      · rw [header]
        exact below
      · rw [key]
        exact reads.high
      · rcases List.mem_append.mp member with earlier | now
        · exact reads.unwanted item earlier
        · exact passed item now
      · rw [goes]
        exact QueryKey.place_lt_place (reached.trans_lt above)

end GetDefault

/--
Whatever others do to the root tree between its queries, `get_default` ends. It returns the
location of a default entry that was there at one of the queries, with none in front of it all the
while, or `NotFound` if no place had a default entry at all of them.
-/
theorem getDefault_among {trees : Nat → DefaultTree}
    {ioctl : Nat → TreeSearch → Except IoError Unit × TreeSearch}
    (serves : ∀ call, ServesFirst (trees call).toTree fun _ => ioctl call) (overflowChecks : Bool) :
    (∃ rounds outcome, (getDefault ioctl overflowChecks rounds).ended = some outcome) ∧
    ∀ rounds outcome, (getDefault ioctl overflowChecks rounds).ended = some outcome →
      FindsAmong trees (getDefault ioctl overflowChecks rounds).calls outcome := by
  have start : GetDefault.Follows trees GetDefault.start :=
    ⟨fun _ => ⟨_, _, GetDefault.reads_start trees⟩, fun _ impossible => (nomatch impossible)⟩
  have turns : ∀ loop, GetDefault.Follows trees loop →
      GetDefault.Follows trees (loop.turn ioctl overflowChecks) ∧
        ((loop.turn ioctl overflowChecks).ended = none → (Query.key loop.search).low.place <
          (Query.key (loop.turn ioctl overflowChecks).search).low.place) := by
    intro loop follows
    cases ended : loop.ended with
    | some outcome =>
      rw [GetDefault.turn_ended ended]
      exact ⟨follows, fun running => nomatch ended.symm.trans running⟩
    | none =>
      obtain ⟨decides, seen, reads⟩ := follows.running ended
      rcases reads.turn serves overflowChecks ended with
        ⟨outcome, returned, finds⟩ | ⟨running, later, grows⟩
      · have stopped : (loop.turn ioctl overflowChecks).ended ≠ none := by
          rw [returned]
          exact Option.some_ne_none _
        refine ⟨⟨fun running => (stopped running).elim, fun other same => ?_⟩,
          fun running => (stopped running).elim⟩
        cases returned.symm.trans same
        rw [GetDefault.turn_calls ended]
        exact finds
      · exact ⟨⟨fun _ => later, fun _ impossible => nomatch running.symm.trans impossible⟩,
          fun _ => grows⟩
  constructor
  · -- The key that the search goes on from only grows, and cannot grow forever.
    refine Rounds.ends (GetDefault.Follows trees)
      (fun loop => 2 ^ 160 - (Query.key loop.search).low.place)
      (fun loop follows => (turns loop follows).1) (fun loop follows running => ?_) start
    have grows := (turns loop follows).2 running
    have bounded := (Query.key (loop.turn ioctl overflowChecks).search).low.place_lt
    omega
  · intro rounds outcome ended
    have follows := Function.Iterate.rec (GetDefault.Follows trees) start
      (fun loop follows => (turns loop follows).1) rounds
    exact follows.ended outcome ended

/-- The default entry after another subvolume was made the default one. -/
def movedEntry : DirEntry := subvolumeEntry 258 defaultName defaultName_bounded

/-- The entry is short enough for an item. -/
theorem movedEntry_bounded : movedEntry.bytes.length < 2 ^ 32 := by
  -- Its bytes are counted.
  decide

/-- A buffer has room for its item. -/
theorem movedEntry_fits : (movedEntry.item 2 movedEntry_bounded).size ≤ 3992 := by
  -- Its bytes are counted.
  decide

/-- A root tree in which the default subvolume is changed behind the first query. -/
def movedTrees : Nat → DefaultTree
  | 0 => rootDirTree
  | _ + 1 => rootDirTreeOf movedEntry_fits

/-- The default entry is found as it is behind the change, by the second query. -/
theorem getDefault_among_moved :
    (getDefault (fun call => serveNext (movedTrees call).toTree call) true 1).ended = none ∧
      (getDefault (fun call => serveNext (movedTrees call).toTree call) true 2).ended =
        some (.ok 258) ∧
      FindsAmong movedTrees
        (getDefault (fun call => serveNext (movedTrees call).toTree call) true 2).calls
        (.ok 258) := by
  have serves : ∀ call, ServesFirst (movedTrees call).toTree
      fun _ => serveNext (movedTrees call).toTree call :=
    fun call _ _ limit fits => serveNext_answers (movedTrees call).toTree call limit fits
  -- The first query returns the other entry alone.
  have first : (getDefault (fun call => serveNext (movedTrees call).toTree call) true 1).ended =
      none := by decide +kernel
  have second : (getDefault (fun call => serveNext (movedTrees call).toTree call) true 2).ended =
      some (.ok 258) := by decide +kernel
  exact ⟨first, second, (getDefault_among serves true).2 2 _ second⟩

end Libbtrfs
