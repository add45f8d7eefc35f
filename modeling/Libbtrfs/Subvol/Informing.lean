import Libbtrfs.Subvol.InfoLaws

/-! When `get_info_by_id`, whose loop stops at one of the two items, returns all it promises. -/

namespace Libbtrfs

open Search

/-- A `ROOT_ITEM` of a subvolume. -/
def Search.Tree.RootOf (tree : Tree) (treeid : UInt64) (item : Item) : Prop :=
  item ∈ tree.items ∧ item.objectid = treeid ∧ item.ty = RootItem.key

/-- The last `ROOT_ITEM` of a subvolume, which is the only one of most subvolumes. -/
def Search.Tree.LatestRootOf (tree : Tree) (treeid : UInt64) (item : Item) : Prop :=
  tree.RootOf treeid item ∧ ∀ other, tree.RootOf treeid other → other.offset ≤ item.offset

/-- A `ROOT_BACKREF` of a subvolume. -/
def Search.Tree.RefOf (tree : Tree) (treeid : UInt64) (item : Item) : Prop :=
  item ∈ tree.items ∧ item.objectid = treeid ∧ item.ty = RootBackref.key

/--
What `get_info_by_id` is to do: it ends, and returns only complete information.

The fields are those of a `ROOT_ITEM` that has all of them, as an item of an old filesystem has not.
The top-level subvolume has no reference, so only the other ones need theirs.
-/
def Informs (tree : Tree) (ioctl : Nat → TreeSearch → Except IoError Unit × TreeSearch)
    (treeid : UInt64) : Prop :=
  ∃ rounds outcome, (getInfoById ioctl treeid rounds).ended = some outcome ∧
    (∀ info, outcome = .ok info →
      (∃ root, tree.LatestRootOf treeid root ∧ RootItem.fieldsEnd ≤ root.data.length ∧
        info.OfRootItem ⟨root.data⟩) ∧
      (treeid ≠ TreeId.fsTree.toUInt64 → ∃ ref, tree.RefOf treeid ref ∧ info.OfBackref ref) ∧
      info.written = true) ∧
    ((¬∃ root, tree.RootOf treeid root) ∨
      (treeid ≠ TreeId.fsTree.toUInt64 ∧ ¬∃ ref, tree.RefOf treeid ref) →
        outcome = .error (.io (.kind .notFound)))

/-- A subvolume has only one last `ROOT_ITEM`. -/
theorem Search.Tree.latest_unique (tree : Tree) {treeid : UInt64} {one other : Item}
    (first : tree.LatestRootOf treeid one) (second : tree.LatestRootOf treeid other) :
    one = other := by
  -- Neither offset is above the other one, and two items of a tree differ in their keys.
  obtain ⟨⟨inside, objectid, ty⟩, latest⟩ := first
  obtain ⟨⟨otherInside, otherObjectid, otherTy⟩, otherLatest⟩ := second
  have offset : one.offset = other.offset :=
    UInt64.le_antisymm (otherLatest one ⟨inside, objectid, ty⟩)
      (latest other ⟨otherInside, otherObjectid, otherTy⟩)
  refine tree.ascending.injective inside otherInside ?_
  rw [Item.rank, Item.rank, Item.key, Item.key, objectid, otherObjectid, ty, otherTy, offset]

namespace GetInfo

/-- The search selects the items of the subvolume from its `ROOT_ITEM` up to its references. -/
theorem mem_infoSearch {treeid : UInt64} (nested : treeid ≠ TreeId.fsTree.toUInt64) (tree : Tree)
    (item : Item) :
    item ∈ tree.matching (Query.key (infoSearch treeid)) ↔ item ∈ tree.items ∧
      item.objectid = treeid ∧ RootItem.key ≤ item.ty ∧ item.ty ≤ RootBackref.key := by
  -- Both bounds of each range are included, and so are all offsets.
  have key : Query.key (infoSearch treeid) = { SearchKey.default with
      minObjectid := treeid, maxObjectid := treeid
      minType := RootItem.key, maxType := RootBackref.key } := by
    rw [infoSearch, decide_eq_false nested]
    rfl
  rw [key]
  exact tree.mem_matching_types rfl rfl rfl item

/-- The search selects the `ROOT_ITEM` of the subvolume. -/
theorem root_selected {treeid : UInt64} (nested : treeid ≠ TreeId.fsTree.toUInt64) {tree : Tree}
    {root : Item} (found : tree.RootOf treeid root) :
    root ∈ tree.matching (Query.key (infoSearch treeid)) := by
  -- Its type is the lower bound.
  obtain ⟨inside, objectid, ty⟩ := found
  rw [mem_infoSearch nested, ty]
  exact ⟨inside, objectid, by decide⟩

/-- The first item that the search selects is a `ROOT_ITEM` when the subvolume has one. -/
theorem root_first {treeid : UInt64} (nested : treeid ≠ TreeId.fsTree.toUInt64) {tree : Tree}
    {root first : Item} {rest : List Item} (found : tree.RootOf treeid root)
    (selected : tree.matching (Query.key (infoSearch treeid)) = first :: rest) :
    first.ty = RootItem.key := by
  have member := root_selected nested found
  obtain ⟨_, objectid, ty⟩ := found
  have front : first ∈ tree.matching (Query.key (infoSearch treeid)) :=
    selected ▸ List.mem_cons_self
  obtain ⟨_, same, above, _⟩ := (mem_infoSearch nested tree first).mp front
  -- The items ascend, so the first one is not above the `ROOT_ITEM`.
  have below : first.rank ≤ root.rank := by
    have ascending : Ascending Item.rank (first :: rest) :=
      selected ▸ (tree.ascending.between : Ascending Item.rank (tree.matching _))
    rw [selected] at member
    rcases List.mem_cons.mp member with rfl | behind
    · exact le_refl _
    · exact ((List.pairwise_cons.mp ascending).1 root behind).le
  rw [Item.rank, Item.rank, QueryKey.rank_le] at below
  simp only [Item.key, same, objectid, ty] at below
  rw [UInt32.le_iff_toNat_le] at above
  exact UInt32.toNat_inj.mp (by omega)

/-- The first batch has a `ROOT_ITEM` in it when the subvolume has one. -/
theorem batch_root {treeid : UInt64} (nested : treeid ≠ TreeId.fsTree.toUInt64) {tree : Tree}
    {root : Item} (found : tree.RootOf treeid root) {after : TreeSearch} {batch : List Item}
    (answers : Search.Answers tree (infoSearch treeid) after batch) :
    ∃ item ∈ batch, item.ty = RootItem.key := by
  -- The type of a `ROOT_ITEM` is the least one that is selected, so it comes first.
  have member := root_selected nested found
  cases batch with
  | nil =>
    rw [answers.progress rfl] at member
    cases member
  | cons first more =>
    obtain ⟨rest, whole⟩ := answers.initial
    exact ⟨first, List.mem_cons_self, root_first nested found whole.symm⟩

variable {tree : InfoTree} {ioctl : Nat → TreeSearch → Except IoError Unit × TreeSearch}
  {treeid : UInt64} {loop : GetInfo} {outcome : Outcome InfoArgs}

/-- One round more is a round at the end of the others. -/
theorem run_succ (rounds : Nat) :
    loop.run ioctl treeid (rounds + 1) = (loop.run ioctl treeid rounds).turn ioctl treeid :=
  Function.iterate_succ_apply' _ _ _

/-- A loop that has ended stays as it is. -/
theorem turn_ended (ended : loop.ended = some outcome) : loop.turn ioctl treeid = loop := by
  -- A round begins with that question.
  rw [turn, ended]

/-- A loop ends in one way only. -/
theorem ended_unique {rounds others : Nat} {other : Outcome InfoArgs}
    (one : (loop.run ioctl treeid rounds).ended = some outcome)
    (another : (loop.run ioctl treeid others).ended = some other) : outcome = other :=
  Rounds.unique (fun _ _ => turn_ended) one another

/-- A loop that has found one of the two items stops and returns what it has. -/
theorem turn_found (running : loop.ended = none)
    (found : (loop.collected.gotRootItem || loop.collected.gotRootRef) = true) :
    loop.turn ioctl treeid =
      { loop with ended := some (.ok (finish treeid loop.collected.info)) } := by
  -- The condition of the loop asks for both of them to be missing.
  have stops : (!loop.collected.gotRootItem && !loop.collected.gotRootRef) = false := by
    rw [← Bool.not_or, found]
    rfl
  rw [turn, running]
  simp only [stops, Bool.false_eq_true, if_false]

section Asking

variable (running : loop.ended = none)
  (missing : (loop.collected.gotRootItem || loop.collected.gotRootRef) = false)
  (answered : (ioctl loop.calls loop.search).1 = .ok ())
include running missing answered

/-- A round that finds nothing ends the loop with the kind `NotFound`. -/
theorem turn_nothing
    (answers : Search.Answers tree.toTree loop.search (ioctl loop.calls loop.search).2 []) :
    (loop.turn ioctl treeid).ended = some (.error (.io (.kind .notFound))) := by
  -- The iterator has nothing to yield, and the search stays as it is when that is dropped.
  have asks : (!loop.collected.gotRootItem && !loop.collected.gotRootRef) = true := by
    rw [← Bool.not_or, missing]
    rfl
  obtain ⟨iter, queried, nothing, callback, _⟩ :=
    query_nothing answered answers fun _ => .ok (none : Option Unit)
  rw [turn, running]
  simp only [asks, if_true, queried, if_pos nothing, Iter.drop_none callback]

/--
A round over a batch leaves the key of the search as it was, and reflects the batch.

It fails on a reference with a zero in its name.
-/
theorem turn_batch {first : Item} {more : List Item}
    (answers : Search.Answers tree.toTree loop.search (ioctl loop.calls loop.search).2
      (first :: more)) :
    ∃ search collected, Query.key search = Query.key loop.search ∧
      ((loop.turn ioctl treeid = ⟨loop.calls + 1, search, collected, none⟩ ∧
          (loop.collected.Reflects [] → collected.Reflects (first :: more))) ∨
        (loop.turn ioctl treeid =
            ⟨loop.calls + 1, search, collected, some (.error (.io (.kind .invalidData)))⟩ ∧
          ∃ ref ∈ first :: more, ref.ty = RootBackref.key ∧ 0 ∈ ref.name)) := by
  have asks : (!loop.collected.gotRootItem && !loop.collected.gotRootRef) = true := by
    rw [← Bool.not_or, missing]
    rfl
  obtain ⟨iter, queried, holds, _, some_left, enough, callback, key, _⟩ :=
    query_batch answered answers fun _ => .ok (none : Option Unit)
  -- The items of the batch are items of the tree, whose headers are read as they are there.
  obtain ⟨rest, whole⟩ := answers.initial
  have read : ∀ (collected : Collected), ∀ item ∈ first :: more, ∀ rest,
      collected.collect ⟨item.bytes ++ rest⟩ = collected.note item rest :=
    fun collected item inside rest => collected.collect_bytes tree
      (Tree.mem_of_matching (tree.batch_matching whole.symm inside)) rest
  obtain ⟨collected, outcome, later, looped, search, later_drop, passed, failed⟩ :=
    @Iter.forEach_rule _ _ _ _ Collected.collect
      (fun seen collected => loop.collected.Reflects [] → collected.Reflects seen) []
      (first :: more) _ loop.collected _ holds enough id
      fun seen collected later item inside rest reflects collects start =>
        (reflects start).note (read collected item inside rest ▸ collects)
  refine ⟨later.search, collected, by rw [search, key], ?_⟩
  rw [turn, running]
  simp only [asks, if_true, queried, if_neg some_left, looped,
    Iter.drop_none (later_drop.trans callback)]
  cases outcome with
  | ok done => exact Or.inl ⟨rfl, passed rfl⟩
  | error failure =>
    obtain ⟨ref, member, before, rest, reached⟩ := failed failure rfl
    rw [read before ref member] at reached
    obtain ⟨found, zero, rfl⟩ := Collected.note_error reached
    exact Or.inr ⟨rfl, ref, member, found, zero⟩

end Asking

/-- The information for the top-level subvolume is returned without any query. -/
theorem toplevel (ioctl : Nat → TreeSearch → Except IoError Unit × TreeSearch) :
    (getInfoById ioctl TreeId.fsTree.toUInt64 1).ended =
      some (.ok (finish TreeId.fsTree.toUInt64 .uninit)) := rfl

/-- The information for the top-level subvolume is not complete. -/
theorem not_informs_toplevel (tree : Tree)
    (ioctl : Nat → TreeSearch → Except IoError Unit × TreeSearch) :
    ¬Informs tree ioctl TreeId.fsTree.toUInt64 := by
  rintro ⟨rounds, outcome, ended, complete, _⟩
  cases ended_unique ended (toplevel ioctl)
  obtain ⟨⟨_, _, _, fields⟩, _⟩ := complete _ rfl
  -- Not even the generation was written.
  exact nomatch fields.generation

section Nested

variable (serves : ServesFirst tree.toTree ioctl) (nested : treeid ≠ TreeId.fsTree.toUInt64)
include serves nested

/-- Every query of the loop is answered with some batch. -/
theorem served (call : Nat) {search : TreeSearch}
    (same : Query.key search = Query.key (infoSearch treeid)) :
    (ioctl call search).1 = .ok () ∧
      ∃ batch, Search.Answers tree.toTree search (ioctl call search).2 batch := by
  have limit : (Query.key search).nrItems = 0xFFFFFFFF := by
    rw [same]
    rfl
  refine serves call search (by rw [limit]; decide) fun item front => ?_
  -- What the search selects fits the buffer, whose room is the same for all searches.
  have selected : item ∈ tree.matching (Query.key (infoSearch treeid)) :=
    same ▸ List.mem_of_mem_head? front
  obtain ⟨inside, _, above, below⟩ := (mem_infoSearch nested tree.toTree item).mp selected
  exact (tree.fits item inside above below).trans search.args.sized.ge

/-- As long as there is something to find, the loop does not end with the kind `NotFound`. -/
theorem never_notFound (some_selected : tree.matching (Query.key (infoSearch treeid)) ≠ [])
    (rounds : Nat) :
    Query.key (getInfoById ioctl treeid rounds).search = Query.key (infoSearch treeid) ∧
      (getInfoById ioctl treeid rounds).ended ≠ some (.error (.io (.kind .notFound))) := by
  -- The induction is on the rounds, none of which moves the key of the search.
  induction rounds with
  | zero => exact ⟨rfl, fun impossible => nomatch impossible⟩
  | succ rounds ih =>
    obtain ⟨same, kind⟩ := ih
    have next : getInfoById ioctl treeid (rounds + 1) =
        (getInfoById ioctl treeid rounds).turn ioctl treeid := run_succ rounds
    rw [next]
    cases ended : (getInfoById ioctl treeid rounds).ended with
    | some outcome =>
      rw [turn_ended ended]
      exact ⟨same, kind⟩
    | none =>
      cases missing : (getInfoById ioctl treeid rounds).collected.gotRootItem ||
          (getInfoById ioctl treeid rounds).collected.gotRootRef with
      | true =>
        rw [turn_found ended missing]
        exact ⟨same, fun impossible => nomatch impossible⟩
      | false =>
        obtain ⟨answered, batch, answers⟩ :=
          served serves nested (getInfoById ioctl treeid rounds).calls same
        cases batch with
        | nil => exact absurd (same ▸ answers.progress rfl) some_selected
        | cons first more =>
          -- The body of the loop fails with another kind.
          obtain ⟨search, collected, kept, ⟨turned, _⟩ | ⟨turned, _⟩⟩ :=
            turn_batch ended missing answered answers
          · rw [turned]
            exact ⟨kept.trans same, fun impossible => nomatch impossible⟩
          · rw [turned]
            exact ⟨kept.trans same, fun impossible => nomatch impossible⟩

/-- A subvolume of which nothing is selected is not found, as it is to be. -/
theorem informs_nothing (nothing : tree.matching (Query.key (infoSearch treeid)) = []) :
    Informs tree.toTree ioctl treeid := by
  -- The first query finds nothing, which is what there is.
  obtain ⟨answered, batch, answers⟩ := served serves nested 0 rfl
  have empty : batch = [] := List.prefix_nil.mp (nothing ▸ answers.initial)
  subst empty
  have missing : ((start treeid).collected.gotRootItem ||
      (start treeid).collected.gotRootRef) = false := decide_eq_false nested
  exact ⟨1, _, @turn_nothing tree ioctl treeid (start treeid) rfl missing answered answers,
    (fun _ impossible => nomatch impossible), fun _ => rfl⟩

/-- When something is selected and the information is complete, there is a `ROOT_ITEM`. -/
theorem root_exists (some_selected : tree.matching (Query.key (infoSearch treeid)) ≠ [])
    (informs : Informs tree.toTree ioctl treeid) : ∃ root, tree.RootOf treeid root := by
  -- Without one the loop would have to end with `NotFound`, which it never does here.
  obtain ⟨rounds, outcome, ended, _, missing⟩ := informs
  by_contra without
  rw [missing (Or.inl without)] at ended
  exact (never_notFound serves nested some_selected rounds).2 ended

variable {batch : List Item}
  (answers : Search.Answers tree.toTree (infoSearch treeid) (ioctl 0 (infoSearch treeid)).2 batch)
include answers

/-- Behind a first batch with a `ROOT_ITEM` in it the loop has ended, and says what it has found. -/
theorem first_batch (found : ∃ item ∈ batch, item.ty = RootItem.key) :
    ((∃ ref ∈ batch, ref.ty = RootBackref.key ∧ 0 ∈ ref.name) ∧
        (getInfoById ioctl treeid 1).ended = some (.error (.io (.kind .invalidData)))) ∨
      ∃ collected : Collected, collected.Reflects batch ∧
        (getInfoById ioctl treeid 2).ended = some (.ok (finish treeid collected.info)) := by
  -- The first round collects from the batch, and the second one returns what was collected.
  obtain ⟨item, inside, ty⟩ := found
  cases batch with
  | nil => exact nomatch inside
  | cons first more =>
    have missing : ((start treeid).collected.gotRootItem ||
        (start treeid).collected.gotRootRef) = false := decide_eq_false nested
    have one : getInfoById ioctl treeid 1 = (start treeid).turn ioctl treeid := rfl
    obtain ⟨search, collected, _, ⟨turned, reflected⟩ | ⟨turned, refused⟩⟩ :=
      @turn_batch tree ioctl treeid (start treeid) rfl missing (served serves nested 0 rfl).1
        first more answers
    · have reflects : collected.Reflects (first :: more) := reflected (Collected.reflects_nil _ _)
      have got := (reflects.rootItem ⟨item, inside, ty⟩).1
      have two : getInfoById ioctl treeid 2 = ((start treeid).turn ioctl treeid).turn ioctl
        treeid := rfl
      refine Or.inr ⟨collected, reflects, ?_⟩
      rw [two, turned, turn_found rfl (by rw [got, Bool.true_or])]
    · exact Or.inl ⟨refused, by rw [one, turned]⟩

omit serves in
/-- What is in the batch belongs to the subvolume. -/
theorem batch_inside {item : Item} (member : item ∈ batch) :
    item ∈ tree.items ∧ item.objectid = treeid := by
  -- A batch is a front part of what is selected.
  obtain ⟨rest, whole⟩ := answers.initial
  have selected := tree.batch_matching whole.symm member
  obtain ⟨present, same, _⟩ := (mem_infoSearch nested tree.toTree item).mp selected
  exact ⟨present, same⟩

omit serves in
/-- Of a batch with a reference in it the last `ROOT_ITEM` is the last one of the subvolume. -/
theorem latest_root (ref : ∃ item ∈ batch, item.ty = RootBackref.key) {root : Item}
    (last : root.LastRoot batch) : tree.LatestRootOf treeid root := by
  obtain ⟨back, backInside, backTy⟩ := ref
  obtain ⟨ty, front, behind, split, none_behind⟩ := last
  have member : root ∈ batch := split ▸ List.mem_append_right _ List.mem_cons_self
  obtain ⟨present, objectid⟩ := batch_inside nested answers member
  refine ⟨⟨present, objectid, ty⟩, fun other found => ?_⟩
  have selected := root_selected nested found
  obtain ⟨_, sameObjectid, sameTy⟩ := found
  obtain ⟨rest, whole⟩ := answers.initial
  have ascending : Ascending Item.rank (batch ++ rest) :=
    whole ▸ (tree.ascending.between : Ascending Item.rank (tree.matching _))
  obtain ⟨inner, _, across⟩ := List.pairwise_append.mp ascending
  rw [← whole] at selected
  rcases List.mem_append.mp selected with inside | after
  · -- In front of the last `ROOT_ITEM` of the batch all are below it.
    rw [split] at inside inner
    rcases List.mem_append.mp inside with before | onward
    · have below := (List.pairwise_append.mp inner).2.2 other before root List.mem_cons_self
      rw [Item.rank, Item.rank, QueryKey.rank_lt] at below
      simp only [Item.key, sameObjectid, objectid, sameTy, ty] at below
      rw [UInt64.le_iff_toNat_le]
      omega
    · rcases List.mem_cons.mp onward with rfl | beyond
      · exact UInt64.le_refl _
      · exact absurd sameTy (none_behind other beyond)
  · -- Behind the batch there is nothing below its reference.
    have above := across back backInside other after
    have backObjectid := (batch_inside nested answers backInside).2
    rw [Item.rank, Item.rank, QueryKey.rank_lt] at above
    simp only [Item.key, sameObjectid, backObjectid, sameTy, backTy] at above
    have order : RootItem.key.toNat < RootBackref.key.toNat := by decide
    omega

/--
With both items in the first batch the information is complete, unless a field of it is read from
behind a `ROOT_ITEM` that is too short for it.
-/
theorem informs_whole (root : ∃ item ∈ batch, item.ty = RootItem.key)
    (ref : ∃ item ∈ batch, item.ty = RootBackref.key)
    (whole : (∃ item ∈ batch, item.ty = RootBackref.key ∧ 0 ∈ item.name) ∨
      ∃ item, tree.LatestRootOf treeid item ∧ RootItem.fieldsEnd ≤ item.data.length) :
    Informs tree.toTree ioctl treeid := by
  have roots : ∃ item, tree.RootOf treeid item := by
    obtain ⟨item, member, ty⟩ := root
    obtain ⟨inside, same⟩ := batch_inside nested answers member
    exact ⟨item, inside, same, ty⟩
  have refs : ∃ item, tree.RefOf treeid item := by
    obtain ⟨item, member, ty⟩ := ref
    obtain ⟨inside, same⟩ := batch_inside nested answers member
    exact ⟨item, inside, same, ty⟩
  have none_missing : ¬((¬∃ item, tree.RootOf treeid item) ∨
      (treeid ≠ TreeId.fsTree.toUInt64 ∧ ¬∃ item, tree.RefOf treeid item)) := by
    rintro (without | ⟨_, without⟩)
    · exact without roots
    · exact without refs
  rcases first_batch serves nested answers root with ⟨_, failed⟩ | ⟨collected, reflects, ended⟩
  · exact ⟨1, _, failed, (fun _ impossible => nomatch impossible), fun without =>
      absurd without none_missing⟩
  · obtain ⟨_, one, last, behind, fields⟩ := reflects.rootItem root
    obtain ⟨other, otherInside, otherTy, name, dirid, parentId⟩ := reflects.rootRef ref
    refine ⟨2, _, ended, ?_, fun without => absurd without none_missing⟩
    intro info returned
    cases returned
    -- No name was refused, so the length is that of the item that was read.
    have latest := latest_root nested answers ref last
    have long : RootItem.fieldsEnd ≤ one.data.length := by
      rcases whole with ⟨item, member, ty, zero⟩ | ⟨item, found, long⟩
      · exact absurd zero (reflects.names item member ty)
      · rwa [tree.latest_unique latest found]
    have root_fields : (finish treeid collected.info).OfRootItem ⟨one.data⟩ :=
      (InfoArgs.ofRootItem_whole long fields).elsewhere _ _ _ _ _
    have ref_fields : (finish treeid collected.info).OfBackref other := ⟨name, dirid, parentId⟩
    obtain ⟨inside, same⟩ := batch_inside nested answers otherInside
    exact ⟨⟨one, latest, long, root_fields⟩, fun _ => ⟨other, ⟨inside, same, otherTy⟩, ref_fields⟩,
      InfoArgs.written_both root_fields ref_fields ⟨rfl, rfl⟩⟩

/-- Complete information is read from a `ROOT_ITEM` with all fields, unless a name is refused. -/
theorem whole_of_informs (root : ∃ item ∈ batch, item.ty = RootItem.key)
    (informs : Informs tree.toTree ioctl treeid) :
    (∃ item ∈ batch, item.ty = RootBackref.key ∧ 0 ∈ item.name) ∨
      ∃ item, tree.LatestRootOf treeid item ∧ RootItem.fieldsEnd ≤ item.data.length := by
  -- The loop ends behind the first batch, one way or the other.
  rcases first_batch serves nested answers root with ⟨refused, _⟩ | ⟨collected, _, returned⟩
  · exact Or.inl refused
  · obtain ⟨rounds, outcome, ended, complete, _⟩ := informs
    cases ended_unique ended returned
    obtain ⟨⟨item, latest, long, _⟩, _⟩ := complete _ rfl
    exact Or.inr ⟨item, latest, long⟩

/-- The information is not complete when the first batch has no reference in it. -/
theorem not_informs_early (root : ∃ item ∈ batch, item.ty = RootItem.key)
    (none_found : ∀ item ∈ batch, item.ty ≠ RootBackref.key) :
    ¬Informs tree.toTree ioctl treeid := by
  rcases first_batch serves nested answers root with ⟨⟨ref, member, ty, _⟩, _⟩ |
    ⟨collected, reflects, returned⟩
  · exact absurd ty (none_found ref member)
  · rintro ⟨rounds, outcome, ended, complete, _⟩
    cases ended_unique ended returned
    obtain ⟨_, reference, _⟩ := complete _ rfl
    obtain ⟨ref, _, fields⟩ := reference nested
    -- The directory was not written.
    have unknown : (finish treeid collected.info).dirid = none := reflects.noRef none_found
    exact nomatch unknown.symm.trans fields.dirid

end Nested

end GetInfo

/--
`get_info_by_id` returns only complete information exactly when there is nothing to find, or its loop
stops with both items, of which the `ROOT_ITEM` has all fields that are read from it.

The condition of the loop holds as long as both are missing, so the information is complete when the
first batch has both of them in it; the loop of the top-level subvolume does not even begin. With a
zero in the name of a reference an error is returned instead, whatever else is there.
-/
theorem getInfo_informs_iff {tree : InfoTree}
    {ioctl : Nat → TreeSearch → Except IoError Unit × TreeSearch}
    (serves : ServesFirst tree.toTree ioctl) (treeid : UInt64) :
    Informs tree.toTree ioctl treeid ↔ treeid ≠ TreeId.fsTree.toUInt64 ∧
      ((∀ item ∈ tree.items, item.objectid = treeid →
          item.ty < RootItem.key ∨ RootBackref.key < item.ty) ∨
        ∃ batch, Search.Answers tree.toTree (infoSearch treeid)
            (ioctl 0 (infoSearch treeid)).2 batch ∧
          (∃ root ∈ batch, root.ty = RootItem.key) ∧ (∃ ref ∈ batch, ref.ty = RootBackref.key) ∧
          ((∃ ref ∈ batch, ref.ty = RootBackref.key ∧ 0 ∈ ref.name) ∨
            ∃ root, tree.LatestRootOf treeid root ∧
              RootItem.fieldsEnd ≤ root.data.length)) := by
  constructor
  · intro informs
    have nested : treeid ≠ TreeId.fsTree.toUInt64 := by
      rintro rfl
      exact GetInfo.not_informs_toplevel _ _ informs
    refine ⟨nested, ?_⟩
    by_cases nothing : tree.matching (Query.key (infoSearch treeid)) = []
    · -- Nothing is selected, so no item of the subvolume has a type in between.
      refine Or.inl fun item inside same => ?_
      have unselected : item ∉ tree.matching (Query.key (infoSearch treeid)) :=
        nothing ▸ List.not_mem_nil
      rw [GetInfo.mem_infoSearch nested] at unselected
      by_contra within
      rw [not_or, UInt32.not_lt, UInt32.not_lt] at within
      exact unselected ⟨inside, same, within⟩
    · obtain ⟨_, batch, answers⟩ := GetInfo.served serves nested 0 rfl
      -- The loop does not end with `NotFound`, so there is a `ROOT_ITEM`, and it comes first.
      obtain ⟨root, found⟩ := GetInfo.root_exists serves nested nothing informs
      have roots := GetInfo.batch_root nested found answers
      refine Or.inr ⟨batch, answers, roots, ?_,
        GetInfo.whole_of_informs serves nested answers roots informs⟩
      by_contra without
      exact GetInfo.not_informs_early serves nested answers roots
        (fun item member ty => without ⟨item, member, ty⟩) informs
  · rintro ⟨nested, nothing | ⟨batch, answers, roots, refs, whole⟩⟩
    · have unselected : tree.matching (Query.key (infoSearch treeid)) = [] := by
        rw [List.eq_nil_iff_forall_not_mem]
        intro item selected
        obtain ⟨inside, same, above, below⟩ := (GetInfo.mem_infoSearch nested _ item).mp selected
        rcases nothing item inside same with less | greater
        · exact absurd above (UInt32.not_le.mpr less)
        · exact absurd below (UInt32.not_le.mpr greater)
      exact GetInfo.informs_nothing serves nested unselected
    · exact GetInfo.informs_whole serves nested answers roots refs whole

/-- A `ROOT_ITEM` of subvolume 256 with nothing but zeroes, which may be one of an old filesystem. -/
def zeroRoot (size : Nat) (small : size ≤ RootItem.size) : Item where
  objectid := 256
  ty := RootItem.key
  offset := 0
  transid := 0
  data := List.replicate size 0
  bounded := by
    rw [List.length_replicate]
    exact small.trans_lt (by decide)

/-- The length of such an item. -/
theorem zeroRoot_length (size : Nat) (small : size ≤ RootItem.size) :
    (zeroRoot size small).data.length = size := List.length_replicate

/-- The room that such an item takes. -/
theorem zeroRoot_size (size : Nat) (small : size ≤ RootItem.size) :
    (zeroRoot size small).size = headerSize + size := by
  -- It has a header in front of its bytes.
  rw [Item.size, zeroRoot_length]

/-- A buffer has room for such an item. -/
theorem zeroRoot_fits (size : Nat) (small : size ≤ RootItem.size) :
    (zeroRoot size small).size ≤ 3992 := by
  -- The longest of them has 471 bytes.
  have sizes : headerSize = 32 ∧ RootItem.size = 439 := ⟨rfl, rfl⟩
  rw [zeroRoot_size]
  omega

/-- Subvolume 256, while it is being deleted: its reference is gone, and its `ROOT_ITEM` is left. -/
def deletedTree : InfoTree where
  items := [zeroRoot RootItem.size (Nat.le_refl _)]
  ascending := List.pairwise_singleton _ _
  refs := by
    intro item member ty
    cases List.mem_singleton.mp member
    exact absurd ty (by decide)
  fits := by
    intro item member _ _
    cases List.mem_singleton.mp member
    exact zeroRoot_fits _ _

/-- Subvolume 256, which lies in the top-level one. -/
def nestedTree (size : Nat) (small : size ≤ RootItem.size) : InfoTree where
  items := [zeroRoot size small, letterRef 256 5]
  ascending := by
    rw [Ascending, List.pairwise_pair, Item.rank, Item.rank, QueryKey.rank_lt]
    exact Or.inr ⟨rfl, Or.inl (show RootItem.key.toNat < RootBackref.key.toNat by decide)⟩
  refs := by
    intro item member ty
    rcases List.mem_pair.mp member with rfl | rfl
    · have other : RootItem.key = RootBackref.key := ty
      exact absurd other (by decide)
    · exact ⟨letterData, rfl, by decide⟩
  fits := by
    intro item member _ _
    rcases List.mem_pair.mp member with rfl | rfl
    · exact zeroRoot_fits _ _
    · decide

/-- A tree with nothing but items that the search selects is selected as a whole. -/
theorem matching_infoSearch {tree : Tree} {treeid : UInt64}
    (nested : treeid ≠ TreeId.fsTree.toUInt64)
    (all : ∀ item ∈ tree.items,
      item.objectid = treeid ∧ RootItem.key ≤ item.ty ∧ item.ty ≤ RootBackref.key) :
    tree.matching (Query.key (infoSearch treeid)) = tree.items :=
  between_all fun item inside =>
    (mem_between.mp ((GetInfo.mem_infoSearch nested tree item).mpr ⟨inside, all item inside⟩)).2

/-- A batch of items of such a tree is an answer to the search. -/
theorem answers_infoSearch {tree : Tree} {batch rest : List Item}
    (selected : tree.matching (Query.key (infoSearch 256)) = batch ++ rest)
    (some_items : batch ≠ []) (few : batch.length ≤ 2)
    (small : (Item.allBytes batch).length ≤ 3992) :
    Search.Answers tree (infoSearch 256) ((infoSearch 256).answer batch) batch := by
  -- The search asks for two items, and there is room for this batch.
  have limit : batch.length ≤ (Query.key (infoSearch 256)).nrItems.toNat := few.trans (by decide)
  exact TreeSearch.answers ⟨rest, selected.symm⟩ (fun nothing => absurd nothing some_items) limit
    (small.trans (infoSearch 256).args.sized.ge)

/-- A kernel that fills the buffer returns all of a small tree in one batch. -/
theorem serveFull_infoSearch {tree : Tree}
    (selected : tree.matching (Query.key (infoSearch 256)) = tree.items)
    (some_items : tree.items ≠ []) (few : tree.items.length ≤ 2)
    (small : (Item.allBytes tree.items).length ≤ 3992) :
    Search.Answers tree (infoSearch 256) (serveFull tree 0 (infoSearch 256)).2 tree.items := by
  -- The buffer has room for all of the items, and the limit allows them.
  have limit : tree.items.length ≤ (infoSearch 256).args.key.nrItems.toNat := few.trans (by decide)
  have whole : fitting (infoSearch 256).args.buf.length
      ((tree.matching (infoSearch 256).args.key).take (infoSearch 256).args.key.nrItems.toNat) =
        tree.items := by
    have same : tree.matching (infoSearch 256).args.key = tree.items := selected
    rw [same, List.take_of_length_le limit]
    exact fitting_all (small.trans (infoSearch 256).args.sized.ge)
  rw [serveFull, whole]
  exact answers_infoSearch (selected.trans (List.append_nil _).symm) some_items few small

section Samples

variable (size : Nat) (small : size ≤ RootItem.size)

/-- The search selects the `ROOT_ITEM` of the subvolume that is being deleted. -/
theorem matching_deletedTree :
    deletedTree.matching (Query.key (infoSearch 256)) = deletedTree.items :=
  matching_infoSearch (by decide) fun item member => by
    cases List.mem_singleton.mp member
    exact ⟨rfl, by decide, by decide⟩

/-- The search selects both items of the subvolume in the top-level one. -/
theorem matching_nestedTree : (nestedTree size small).matching (Query.key (infoSearch 256)) =
    (nestedTree size small).items :=
  matching_infoSearch (by decide) fun item member => by
    rcases List.mem_pair.mp member with rfl | rfl
    · exact ⟨rfl, UInt32.le_refl _, show RootItem.key ≤ RootBackref.key by decide⟩
    · exact ⟨rfl, by decide, by decide⟩

/-- A buffer has room for the item of the one, and for both items of the other. -/
theorem samples_small :
    (Item.allBytes [zeroRoot size small]).length ≤ 3992 ∧
      (Item.allBytes (nestedTree size small).items).length ≤ 3992 := by
  -- The sizes are added up.
  have root := zeroRoot_size size small
  have ref : (letterRef 256 5).size = 51 := by decide
  have sizes : headerSize = 32 ∧ RootItem.size = 439 := ⟨rfl, rfl⟩
  simp only [Item.allBytes, nestedTree, List.flatMap_cons, List.flatMap_nil, List.length_append,
    Item.bytes_length, List.length_nil]
  omega

/-- A kernel that fills the buffer returns both items in one batch. -/
theorem answers_nestedTree : Search.Answers (nestedTree size small).toTree (infoSearch 256)
    (serveFull (nestedTree size small).toTree 0 (infoSearch 256)).2 (nestedTree size small).items :=
  serveFull_infoSearch (matching_nestedTree size small) (List.cons_ne_nil _ _) (Nat.le_refl 2)
    (samples_small size small).2

/-- The subvolume has one `ROOT_ITEM`, which is the last one. -/
theorem latest_nestedTree {item : Item} :
    (nestedTree size small).LatestRootOf 256 item ↔ item = zeroRoot size small := by
  -- The other item of the tree is of another type.
  have only : ∀ other, (nestedTree size small).RootOf 256 other → other = zeroRoot size small := by
    rintro other ⟨member, _, ty⟩
    rcases List.mem_pair.mp member with rfl | rfl
    · rfl
    · exact absurd ty (by decide)
  constructor
  · rintro ⟨found, _⟩
    exact only item found
  · rintro rfl
    refine ⟨⟨List.mem_cons_self, rfl, rfl⟩, fun other found => ?_⟩
    rw [only other found]
    exact UInt64.le_refl _

end Samples

/-- The information about a subvolume is complete when both of its items arrive in one batch. -/
theorem getInfo_informs_iff_nested :
    Informs (nestedTree 439 (by decide)).toTree (serveFull (nestedTree 439 (by decide)).toTree)
      256 :=
  (getInfo_informs_iff (serveFull_serves (nestedTree 439 (by decide)).toTree) 256).mpr
    ⟨by decide, Or.inr ⟨_, answers_nestedTree 439 (by decide),
      ⟨zeroRoot 439 (by decide), List.mem_cons_self, rfl⟩,
      ⟨letterRef 256 5, .tail _ List.mem_cons_self, rfl⟩,
      Or.inr ⟨_, (latest_nestedTree 439 (by decide)).mpr rfl,
        Nat.le_trans (by decide : RootItem.fieldsEnd ≤ 439) (zeroRoot_length 439 _).ge⟩⟩⟩

/--
Information that is not complete is returned for the top-level subvolume, for one that is being
deleted, for one whose two items do not arrive in one batch, and for one whose `ROOT_ITEM` has no
identifiers and no times.
-/
theorem getInfo_misinforms :
    ¬Informs (nestedTree 439 (by decide)).toTree
        (serveFull (nestedTree 439 (by decide)).toTree) 5 ∧
      ¬Informs deletedTree.toTree (serveFull deletedTree.toTree) 256 ∧
      ¬Informs (nestedTree 439 (by decide)).toTree
        (serveNext (nestedTree 439 (by decide)).toTree) 256 ∧
      ¬Informs (nestedTree 239 (by decide)).toTree
        (serveFull (nestedTree 239 (by decide)).toTree) 256 := by
  -- In the second and the third case the first batch is the `ROOT_ITEM` alone.
  have nested : (256 : UInt64) ≠ TreeId.fsTree.toUInt64 := by decide
  have root : ∃ item ∈ [zeroRoot 439 (by decide)], item.ty = RootItem.key :=
    ⟨zeroRoot 439 (by decide), List.mem_cons_self, rfl⟩
  have none_found : ∀ item ∈ [zeroRoot 439 (by decide)], item.ty ≠ RootBackref.key := by
    intro item member
    cases List.mem_singleton.mp member
    exact show RootItem.key ≠ RootBackref.key by decide
  refine ⟨GetInfo.not_informs_toplevel _ _, ?_, ?_, ?_⟩
  · have answers := serveFull_infoSearch matching_deletedTree (List.cons_ne_nil _ _)
      (Nat.le_succ 1) (samples_small 439 (by decide)).1
    exact GetInfo.not_informs_early (serveFull_serves deletedTree.toTree) nested answers root
      none_found
  · have selected : (nestedTree 439 (by decide)).matching (Query.key (infoSearch 256)) =
        [zeroRoot 439 (by decide)] ++ [letterRef 256 5] := matching_nestedTree 439 (by decide)
    have answers := answers_infoSearch selected (List.cons_ne_nil _ _) (Nat.le_succ 1)
      (samples_small 439 (by decide)).1
    have next : (serveNext (nestedTree 439 (by decide)).toTree 0 (infoSearch 256)).2 =
        (infoSearch 256).answer [zeroRoot 439 (by decide)] := by
      have same : (nestedTree 439 (by decide)).matching (infoSearch 256).args.key =
          [zeroRoot 439 (by decide), letterRef 256 5] := selected
      show (infoSearch 256).answer
        (((nestedTree 439 (by decide)).matching (infoSearch 256).args.key).take 1) = _
      rw [same]
      rfl
    have serves : ServesFirst (nestedTree 439 (by decide)).toTree
        (serveNext (nestedTree 439 (by decide)).toTree) :=
      fun call _ limit fits => serveNext_answers _ call limit fits
    exact GetInfo.not_informs_early serves nested (next ▸ answers) root none_found
  · -- The `ROOT_ITEM` of an old filesystem ends in front of its identifiers.
    intro informs
    have answers := answers_nestedTree 239 (by decide)
    rcases GetInfo.whole_of_informs (serveFull_serves (nestedTree 239 (by decide)).toTree) nested
      answers ⟨zeroRoot 239 (by decide), List.mem_cons_self, rfl⟩ informs with
      ⟨item, member, ty, zero⟩ | ⟨item, latest, long⟩
    · rcases List.mem_pair.mp member with rfl | rfl
      · exact absurd (show RootItem.key = RootBackref.key from ty) (by decide)
      · exact absurd zero (by decide)
    · rw [(latest_nestedTree 239 (by decide)).mp latest, zeroRoot_length] at long
      exact absurd long (by decide)

end Libbtrfs
