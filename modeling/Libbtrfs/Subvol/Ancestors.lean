import Libbtrfs.Subvol.GetPath

/-! When `get_path`, whose search is bounded by the subvolume it starts from, finds all ancestors. -/

namespace Libbtrfs.Search

/-- The references that lead from a subvolume up to the top-level one, with its own in front. -/
inductive Tree.Chain (tree : Tree) : UInt64 → List Item → Prop where
  | rootvol {ref : Item} (inside : ref ∈ tree.items) (ty : ref.ty = RootBackref.key)
      (reached : ref.offset = TreeId.fsTree.toUInt64) : Chain tree ref.objectid [ref]
  | nested {ref : Item} {above : List Item} (inside : ref ∈ tree.items)
      (ty : ref.ty = RootBackref.key) (below : ref.offset ≠ TreeId.fsTree.toUInt64)
      (chain : Chain tree ref.offset above) : Chain tree ref.objectid (ref :: above)

/-- A root tree in which every subvolume has one reference, and lies below the top-level one. -/
structure Hierarchy extends Tree where
  single : ∀ one ∈ items, ∀ other ∈ items, one.ty = RootBackref.key →
    other.ty = RootBackref.key → one.objectid = other.objectid → one = other
  refs : ∀ item ∈ items, item.ty = RootBackref.key →
    ∃ ref : RootRefData, item.data = ref.bytes ∧ 0 ∉ item.name
  fits : ∀ item ∈ items, item.ty = RootBackref.key → item.size ≤ 3992
  rooted : ∀ item ∈ items, item.ty = RootBackref.key →
    ∃ chain, toTree.Chain item.objectid chain

/-- The lookups of the directories that the references name are answered with the paths of those. -/
def LooksUp (tree : Tree) (inoLookup : UInt64 → UInt64 → Except IoError Bytes)
    (paths : UInt64 → UInt64 → Bytes) : Prop :=
  ∀ ref ∈ tree.items, ref.ty = RootBackref.key →
    lookupPathStr inoLookup ref.dirid ref.offset = .ok (paths ref.dirid ref.offset)

/-- What a reference adds to a path. -/
def Item.ancestor (paths : UInt64 → UInt64 → Bytes) (ref : Item) : Ancestor :=
  ⟨ref.offset = TreeId.fsTree.toUInt64, paths ref.dirid ref.offset, ref.name⟩

/-- The item that the query of a round returns. -/
def nextItem (ioctl : Nat → TreeSearch → Except IoError Unit × TreeSearch) (call : Nat)
    (search : TreeSearch) : Outcome Item × TreeSearch :=
  ((nextBackref ioctl call search).1.map SearchItem.item, (nextBackref ioctl call search).2)

/-- The search of `get_path` for a subvolume, once it is looking for the reference of another one. -/
def Seeks (treeid id : UInt64) (search : TreeSearch) : Prop :=
  Query.key search = (Query.key (pathSearch treeid)).setLow (id, RootBackref.key, 0)

/-- The first search looks for the reference of the subvolume itself. -/
theorem seeks_start (treeid : UInt64) : Seeks treeid treeid (pathSearch treeid) := rfl

/-- A search that looks for a reference finds from that on, up to its bound. -/
theorem Seeks.mem_matching {treeid id : UInt64} {search : TreeSearch}
    (seeks : Seeks treeid id search) (tree : Tree) (item : Item) :
    item ∈ tree.matching (Query.key search) ↔ item ∈ tree.items ∧
      QueryKey.rank (id, RootBackref.key, 0) ≤ item.rank ∧
      item.rank ≤ QueryKey.rank (treeid, RootBackref.key, 0xFFFFFFFFFFFFFFFF) := by
  -- The keys of the search are these two.
  rw [seeks]
  exact mem_between

/-- A search for a reference asks for one item. -/
theorem Seeks.limit {treeid id : UInt64} {search : TreeSearch} (seeks : Seeks treeid id search) :
    (Query.key search).nrItems = 1 := by
  -- The search is written out.
  rw [seeks]
  rfl

/-- Within the bound of the search, the reference that is looked for is the first item. -/
theorem Hierarchy.selects (hierarchy : Hierarchy) {treeid : UInt64} {search : TreeSearch}
    {ref : Item} (seeks : Seeks treeid ref.objectid search) (inside : ref ∈ hierarchy.items)
    (ty : ref.ty = RootBackref.key) (within : ref.objectid ≤ treeid) :
    ∃ rest, hierarchy.matching (Query.key search) = ref :: rest := by
  have bound := UInt64.le_iff_toNat_le.mp within
  have last : ref.offset.toNat ≤ (0xFFFFFFFFFFFFFFFF : UInt64).toNat :=
    Nat.le_of_lt_succ ref.offset.toNat_lt
  have low : QueryKey.rank (ref.objectid, RootBackref.key, 0) ≤ ref.rank := by
    rw [Item.rank, QueryKey.rank_le]
    exact Or.inr ⟨rfl, Or.inr ⟨by rw [Item.key, ty], Nat.zero_le _⟩⟩
  have high : ref.rank ≤ QueryKey.rank (treeid, RootBackref.key, 0xFFFFFFFFFFFFFFFF) := by
    rw [Item.rank, QueryKey.rank_le]
    rcases Nat.lt_or_eq_of_le bound with less | same
    · exact Or.inl less
    · exact Or.inr ⟨same, Or.inr ⟨by rw [Item.key, ty], last⟩⟩
  refine Ascending.first hierarchy.ascending.between
    ((seeks.mem_matching hierarchy.toTree ref).mpr ⟨inside, low, high⟩) fun other selected => ?_
  obtain ⟨present, above, _⟩ := (seeks.mem_matching hierarchy.toTree other).mp selected
  -- An item in between would be another reference of the same subvolume.
  by_contra below
  have lower := not_le.mp below
  rw [Item.rank, QueryKey.rank_le] at above
  rw [Item.rank, Item.rank, QueryKey.rank_lt] at lower
  simp only [Item.key, ty] at above lower
  have objectid : ref.objectid = other.objectid := UInt64.toNat_inj.mp (by omega)
  have kind : other.ty = RootBackref.key := UInt32.toNat_inj.mp (by omega)
  cases hierarchy.single ref inside other present ty kind objectid
  exact below (le_refl _)

/-- Beyond the bound of the search there is nothing between its two keys. -/
theorem Tree.selects_nothing (tree : Tree) {treeid id : UInt64} {search : TreeSearch}
    (seeks : Seeks treeid id search) (beyond : treeid < id) :
    tree.matching (Query.key search) = [] := by
  -- The lower key is the greater one.
  have bound := UInt64.lt_iff_toNat_lt.mp beyond
  rw [List.eq_nil_iff_forall_not_mem]
  intro item selected
  obtain ⟨_, low, high⟩ := (seeks.mem_matching tree item).mp selected
  have order := low.trans high
  rw [QueryKey.rank_le] at order
  simp only at order
  omega

section Round

variable {tree : Tree} {ioctl : Nat → TreeSearch → Except IoError Unit × TreeSearch}
  {treeid id : UInt64} {search : TreeSearch} {ref : Item} {rest : List Item}

/-- A round finds the first item that is selected, and goes on at the parent that this names. -/
theorem nextBackref_found (serves : ServesFirst tree ioctl) (seeks : Seeks treeid id search)
    (selected : tree.matching (Query.key search) = ref :: rest) (fits : ref.size ≤ 3992)
    (call : Nat) :
    ∃ behind after, nextBackref ioctl call search = (.ok ⟨ref.bytes ++ behind⟩, after) ∧
      Seeks treeid ref.offset after := by
  have room : Query.room search = 3992 := search.args.sized
  obtain ⟨answered, batch, answers⟩ := serves call search (seeks.limit ▸ UInt32.le_refl 1) (by
    rw [selected, room]
    intro item member
    cases member
    exact fits)
  -- One item was asked for, and there is one, so the batch is that item alone.
  have alone : batch = [ref] := by
    have short := answers.limited
    rw [seeks.limit] at short
    obtain ⟨left, whole⟩ := answers.initial
    rw [selected] at whole
    cases batch with
    | nil => exact nomatch selected.symm.trans (answers.progress rfl)
    | cons first more =>
      cases more with
      | nil =>
        cases whole
        rfl
      | cons second more => exact absurd short (by simp)
  subst alone
  obtain ⟨iter, queried, holds, _, _, _, callback, key, _⟩ :=
    query_batch answered answers toParent
  obtain ⟨behind, later, next, _, yielded, search_same, drop_same⟩ := Iter.next_item holds
  have dropped := later.drop_key yielded
  rw [drop_same, callback] at dropped
  refine ⟨behind, Query.setKey ((Query.key later.search).setLow
    (ref.offset, RootBackref.key, 0)) later.search, ?_, ?_⟩
  · rw [nextBackref, queried]
    simp only [next, dropped]
    rfl
  · rw [Seeks, Query.key_setKey, search_same, key, seeks]
    rfl

/-- A round that nothing is selected for fails with the kind `NotFound`. -/
theorem nextBackref_nothing (serves : ServesFirst tree ioctl) (seeks : Seeks treeid id search)
    (nothing : tree.matching (Query.key search) = []) (call : Nat) :
    (nextBackref ioctl call search).1 = .error (.io (.kind .notFound)) := by
  obtain ⟨answered, batch, answers⟩ := serves call search (seeks.limit ▸ UInt32.le_refl 1) (by
    rw [nothing]
    exact fun item member => nomatch member)
  have empty : batch = [] := List.prefix_nil.mp (nothing ▸ answers.initial)
  subst empty
  obtain ⟨iter, queried, counted, callback, _⟩ := query_nothing answered answers toParent
  have none_left : iter.next = (none, iter) := if_pos counted
  -- The iterator is dropped on the front of the buffer, and its callback never fails.
  have dropped := iter.drop_key rfl
  rw [callback] at dropped
  rw [nextBackref, queried]
  simp only [none_left, dropped]
  rfl

/-- What is read of a reference in the buffer is what it adds to the path. -/
theorem readAncestor_bytes (hierarchy : Hierarchy)
    {inoLookup : UInt64 → UInt64 → Except IoError Bytes} {paths : UInt64 → UInt64 → Bytes}
    (looksUp : LooksUp hierarchy.toTree inoLookup paths) (inside : ref ∈ hierarchy.items)
    (ty : ref.ty = RootBackref.key) (behind : Bytes) :
    readAncestor inoLookup ⟨ref.bytes ++ behind⟩ = .ok (ref.ancestor paths) := by
  -- All that is read lies in the item itself, and not behind it in the buffer.
  obtain ⟨data, kept, clean⟩ := hierarchy.refs ref inside ty
  have name := RootRef.nameAsBytes_bytes kept behind
  have dirid := RootRef.dirid_bytes kept behind
  rw [if_neg clean] at name
  rw [readAncestor]
  simp only [name, dirid, SearchItem.offset_bytes, looksUp ref inside ty]
  rfl

end Round

section Chains

variable {hierarchy : Hierarchy} {ioctl : Nat → TreeSearch → Except IoError Unit × TreeSearch}
  {inoLookup : UInt64 → UInt64 → Except IoError Bytes} {paths : UInt64 → UInt64 → Bytes}
  {treeid id : UInt64} {search : TreeSearch} {chain : List Item}

/-- A round finds the reference that it looks for when the bound of the search allows it. -/
theorem Hierarchy.round_finds (serves : ServesFirst hierarchy.toTree ioctl)
    (looksUp : LooksUp hierarchy.toTree inoLookup paths) {ref : Item}
    (seeks : Seeks treeid ref.objectid search) (inside : ref ∈ hierarchy.items)
    (ty : ref.ty = RootBackref.key) (within : ref.objectid ≤ treeid) (call : Nat) :
    ∃ after, nextItem ioctl call search = (.ok ref, after) ∧
      nextAncestor ioctl inoLookup call search = (.ok (ref.ancestor paths), after) ∧
      Seeks treeid ref.offset after := by
  -- The reference is the one item that is asked for.
  obtain ⟨rest, selected⟩ := hierarchy.selects seeks inside ty within
  obtain ⟨behind, after, found, sought⟩ :=
    nextBackref_found serves seeks selected (hierarchy.fits ref inside ty) call
  refine ⟨after, ?_, ?_, sought⟩
  · rw [nextItem, found]
    simp only [Except.map, SearchItem.item_bytes]
  · rw [nextAncestor, found]
    simp only [readAncestor_bytes hierarchy looksUp inside ty behind]

/-- When the bound of the search allows every subvolume of a chain, the rounds read all of it. -/
theorem Tree.Chain.climbs (serves : ServesFirst hierarchy.toTree ioctl)
    (looksUp : LooksUp hierarchy.toTree inoLookup paths) (links : hierarchy.toTree.Chain id chain)
    (seeks : Seeks treeid id search) (within : ∀ ref ∈ chain, ref.objectid ≤ treeid)
    (calls : Nat) :
    ∃ last, Reads (nextItem ioctl) calls search chain last ∧
      Reads (nextAncestor ioctl inoLookup) calls search (chain.map (Item.ancestor paths)) last := by
  -- The induction is on the chain, along which each round looks for the parent of the one before.
  induction links generalizing search calls with
  | rootvol inside ty reached =>
    obtain ⟨after, item, ancestor, _⟩ := hierarchy.round_finds serves looksUp seeks inside ty
      (within _ List.mem_cons_self) calls
    exact ⟨after, ⟨after, item, rfl⟩, after, ancestor, rfl⟩
  | nested inside ty below links ih =>
    obtain ⟨after, item, ancestor, sought⟩ := hierarchy.round_finds serves looksUp seeks inside ty
      (within _ List.mem_cons_self) calls
    obtain ⟨last, items, ancestors⟩ := ih sought (fun ref member => within ref (.tail _ member))
      (calls + 1)
    exact ⟨last, ⟨after, item, items⟩, after, ancestor, ancestors⟩

/-- A round that looks for a subvolume beyond the bound of its search fails. -/
theorem round_strays (serves : ServesFirst hierarchy.toTree ioctl) (seeks : Seeks treeid id search)
    (beyond : treeid < id) (call : Nat) :
    (nextAncestor ioctl inoLookup call search).1 = .error (.io (.kind .notFound)) := by
  -- The search for the reference has failed already.
  have failed := nextBackref_nothing serves seeks (hierarchy.selects_nothing seeks beyond) call
  cases found : nextBackref ioctl call search with
  | mk outcome after =>
    rw [found] at failed
    cases failed
    rw [nextAncestor, found]

/-- When some subvolume of a chain is beyond the bound, the rounds end with the kind `NotFound`. -/
theorem Tree.Chain.strays (serves : ServesFirst hierarchy.toTree ioctl)
    (looksUp : LooksUp hierarchy.toTree inoLookup paths) (links : hierarchy.toTree.Chain id chain)
    (seeks : Seeks treeid id search) (beyond : ∃ ref ∈ chain, treeid < ref.objectid)
    (calls : Nat) :
    ∃ front last, front.length < chain.length ∧
      Reads (nextAncestor ioctl inoLookup) calls search front last ∧
      (∀ ancestor ∈ front, ancestor.rootvol = false) ∧
      (nextAncestor ioctl inoLookup (calls + front.length) last).1 =
        .error (.io (.kind .notFound)) := by
  -- The induction is on the chain, up to the first subvolume that is beyond the bound.
  induction links generalizing search calls with
  | rootvol inside ty reached =>
    obtain ⟨ref, member, beyond⟩ := beyond
    cases List.mem_singleton.mp member
    exact ⟨[], search, Nat.succ_pos 0, rfl, (fun _ impossible => nomatch impossible),
      round_strays serves seeks beyond calls⟩
  | @nested ref above inside ty below links ih =>
    rcases UInt64.lt_or_le treeid ref.objectid with here | within
    · exact ⟨[], search, Nat.succ_pos _, rfl, (fun _ impossible => nomatch impossible),
        round_strays serves seeks here calls⟩
    · obtain ⟨after, _, ancestor, sought⟩ :=
        hierarchy.round_finds serves looksUp seeks inside ty within calls
      have further : ∃ other ∈ above, treeid < other.objectid := by
        obtain ⟨other, member, beyond⟩ := beyond
        rcases List.mem_cons.mp member with rfl | behind
        · exact absurd beyond (UInt64.not_lt.mpr within)
        · exact ⟨other, behind, beyond⟩
      obtain ⟨front, last, shorter, reads, nested, failed⟩ := ih sought further (calls + 1)
      refine ⟨ref.ancestor paths :: front, last, Nat.succ_lt_succ shorter,
        ⟨after, ancestor, reads⟩, fun other member => ?_, ?_⟩
      · rcases List.mem_cons.mp member with rfl | behind
        · exact decide_eq_false below
        · exact nested other behind
      · rw [List.length_cons, Nat.add_comm front.length 1, ← Nat.add_assoc]
        exact failed

/-- `get_path` of a subvolume finds the references of a chain, and returns the path of all of it. -/
def Climbs (ioctl : Nat → TreeSearch → Except IoError Unit × TreeSearch)
    (inoLookup : UInt64 → UInt64 → Except IoError Bytes) (paths : UInt64 → UInt64 → Bytes)
    (treeid : UInt64) (memory : Bytes) (sized : memory.length = 128) (chain : List Item) : Prop :=
  (∃ last, Reads (nextItem ioctl) 0 (pathSearch treeid) chain last) ∧
    (getPath ioctl inoLookup treeid memory sized chain.length).ended =
      some (.ok (Ancestor.joined (chain.map (Item.ancestor paths))))

/-- The references of a chain are items of the tree. -/
theorem Tree.Chain.subset {tree : Tree} (links : tree.Chain id chain) : chain ⊆ tree.items := by
  -- The induction is on the chain.
  induction links with
  | rootvol inside _ _ => exact List.cons_subset.mpr ⟨inside, List.nil_subset _⟩
  | nested inside _ _ _ ih => exact List.cons_subset.mpr ⟨inside, ih⟩

/-- A chain ends with the reference of a subvolume of the top-level one, and with no other such. -/
theorem Tree.Chain.split {tree : Tree} (links : tree.Chain id chain) :
    ∃ front top, chain = front ++ [top] ∧
      (∀ ref ∈ front, (ref.ancestor paths).rootvol = false) ∧
      (top.ancestor paths).rootvol = true := by
  -- The induction is on the chain, which ends where the top-level subvolume is reached.
  induction links with
  | rootvol inside ty reached =>
    exact ⟨[], _, rfl, (fun _ impossible => nomatch impossible), decide_eq_true reached⟩
  | @nested ref above inside ty below links ih =>
    obtain ⟨front, top, same, nested, reached⟩ := ih
    refine ⟨ref :: front, top, by rw [same]; rfl, fun other member => ?_, reached⟩
    rcases List.mem_cons.mp member with rfl | behind
    · exact decide_eq_false below
    · exact nested other behind

/-- When the bound of its search allows every subvolume of a chain, `get_path` climbs it. -/
theorem Tree.Chain.getPath_climbs (serves : ServesFirst hierarchy.toTree ioctl)
    (looksUp : LooksUp hierarchy.toTree inoLookup paths)
    (links : hierarchy.toTree.Chain treeid chain) {memory : Bytes} (sized : memory.length = 128)
    (within : ∀ ref ∈ chain, ref.objectid ≤ treeid) :
    Climbs ioctl inoLookup paths treeid memory sized chain := by
  -- All references but the last name a subvolume below the top-level one.
  obtain ⟨last, items, ancestors⟩ := links.climbs serves looksUp (seeks_start treeid) within 0
  refine ⟨⟨last, items⟩, ?_⟩
  obtain ⟨front, top, rfl, nested, reached⟩ := @links.split paths
  rw [List.map_append] at ancestors ⊢
  have returned := GetPath.run_joined sized ancestors (by simpa using nested) reached
  rw [List.length_map] at returned
  rw [List.length_append]
  exact returned

/-- When some subvolume of a chain is beyond the bound, `get_path` ends with the kind `NotFound`. -/
theorem Tree.Chain.getPath_strays (serves : ServesFirst hierarchy.toTree ioctl)
    (looksUp : LooksUp hierarchy.toTree inoLookup paths)
    (links : hierarchy.toTree.Chain treeid chain) {memory : Bytes} (sized : memory.length = 128)
    (beyond : ∃ ref ∈ chain, treeid < ref.objectid) :
    (getPath ioctl inoLookup treeid memory sized chain.length).ended =
      some (.error (.io (.kind .notFound))) := by
  -- The rounds up to that subvolume are read, and the next one fails.
  obtain ⟨front, last, shorter, reads, nested, failed⟩ :=
    links.strays serves looksUp (seeks_start treeid) beyond 0
  exact GetPath.run_fails sized reads nested failed shorter

/--
`get_path` finds every ancestor of a subvolume exactly when none of them has a greater id.

Otherwise the upper bound of its search, which stays at the subvolume itself, leaves out the reference
of an ancestor, and the kind `NotFound` is returned.
-/
theorem getPath_climbs_iff (serves : ServesFirst hierarchy.toTree ioctl)
    (looksUp : LooksUp hierarchy.toTree inoLookup paths) {ref : Item}
    (inside : ref ∈ hierarchy.items) (ty : ref.ty = RootBackref.key) {memory : Bytes}
    (sized : memory.length = 128) :
    ∃ chain, hierarchy.toTree.Chain ref.objectid chain ∧
      (Climbs ioctl inoLookup paths ref.objectid memory sized chain ↔
        ∀ above ∈ chain, above.objectid ≤ ref.objectid) ∧
      ((∃ above ∈ chain, ref.objectid < above.objectid) →
        (getPath ioctl inoLookup ref.objectid memory sized chain.length).ended =
          some (.error (.io (.kind .notFound)))) := by
  obtain ⟨chain, links⟩ := hierarchy.rooted ref inside ty
  refine ⟨chain, links, ⟨fun climbs above member => ?_, ?_⟩, ?_⟩
  · -- If the search left out a reference, it would have failed instead.
    by_contra beyond
    have failed := links.getPath_strays serves looksUp sized
      ⟨above, member, UInt64.not_le.mp beyond⟩
    cases climbs.2.symm.trans failed
  · exact links.getPath_climbs serves looksUp sized
  · exact links.getPath_strays serves looksUp sized

end Chains

/-- Two subvolumes, one inside the other, have the chains that they look like. -/
theorem Tree.chains_nested (tree : Tree) {outer inner : Item} (outer_inside : outer ∈ tree.items)
    (inner_inside : inner ∈ tree.items)
    (ty : outer.ty = RootBackref.key ∧ inner.ty = RootBackref.key)
    (reached : outer.offset = TreeId.fsTree.toUInt64)
    (below : outer.objectid ≠ TreeId.fsTree.toUInt64) (nested : inner.offset = outer.objectid) :
    tree.Chain outer.objectid [outer] ∧ tree.Chain inner.objectid [inner, outer] := by
  -- The inner chain is the outer one with a link in front.
  have top := Tree.Chain.rootvol outer_inside ty.1 reached
  refine ⟨top, .nested inner_inside ty.2 ?_ ?_⟩
  · rw [nested]
    exact below
  · rw [nested]
    exact top

/-- The references of two subvolumes with ascending ids. -/
def letterTree (id parent id' parent' : UInt64) (ascends : id < id') : Tree where
  items := [letterRef id parent, letterRef id' parent']
  ascending := by
    rw [Ascending, List.pairwise_pair, Item.rank, Item.rank, QueryKey.rank_lt]
    exact Or.inl (UInt64.lt_iff_toNat_lt.mp ascends)

/-- The references of a pair of subvolumes are these two. -/
theorem mem_letterTree {id parent id' parent' : UInt64} {ascends : id < id'} {item : Item} :
    item ∈ (letterTree id parent id' parent' ascends).items ↔
      item = letterRef id parent ∨ item = letterRef id' parent' := by
  -- There is no third one.
  rw [letterTree, List.mem_pair]

/-- Two subvolumes, one of which is inside the other. -/
def letterPair (id parent id' parent' : UInt64) (ascends : id < id')
    (below : id ≠ TreeId.fsTree.toUInt64 ∧ id' ≠ TreeId.fsTree.toUInt64)
    (rooted : (parent = TreeId.fsTree.toUInt64 ∧ parent' = id) ∨
      (parent' = TreeId.fsTree.toUInt64 ∧ parent = id')) : Hierarchy where
  toTree := letterTree id parent id' parent' ascends
  single := by
    intro one first other second _ _ same
    have apart : id ≠ id' := UInt64.ne_of_lt ascends
    rcases mem_letterTree.mp first with rfl | rfl <;>
      rcases mem_letterTree.mp second with rfl | rfl
    · rfl
    · exact absurd same apart
    · exact absurd same.symm apart
    · rfl
  refs := by
    intro item member _
    have clean : 0 ∉ [(115 : UInt8)] := by decide
    rcases mem_letterTree.mp member with rfl | rfl
    · exact ⟨letterData, rfl, clean⟩
    · exact ⟨letterData, rfl, clean⟩
  fits := by
    intro item member _
    have small : headerSize + letterData.bytes.length ≤ 3992 := by decide
    rcases mem_letterTree.mp member with rfl | rfl
    · exact small
    · exact small
  rooted := by
    intro item member _
    let tree := letterTree id parent id' parent' ascends
    have first : letterRef id parent ∈ tree.items := mem_letterTree.mpr (Or.inl rfl)
    have second : letterRef id' parent' ∈ tree.items := mem_letterTree.mpr (Or.inr rfl)
    -- Either of the two may be the outer one.
    rcases rooted with ⟨reached, nested⟩ | ⟨reached, nested⟩
    · have chains := tree.chains_nested first second ⟨rfl, rfl⟩ reached below.1 nested
      rcases mem_letterTree.mp member with rfl | rfl
      · exact ⟨_, chains.1⟩
      · exact ⟨_, chains.2⟩
    · have chains := tree.chains_nested second first ⟨rfl, rfl⟩ reached below.2 nested
      rcases mem_letterTree.mp member with rfl | rfl
      · exact ⟨_, chains.2⟩
      · exact ⟨_, chains.1⟩

/-- The lookup of a directory that is the root of its subvolume, whose path there is empty. -/
def atRoot (_objectid _treeid : UInt64) : Except IoError Bytes := .ok [0]

/-- A kernel that answers with one item at a time meets the contract, and looks these paths up. -/
theorem serveNext_looksUp (tree : Tree) :
    ServesFirst tree (serveNext tree) ∧ LooksUp tree atRoot fun _ _ => [] :=
  ⟨fun call _ limit fits => serveNext_answers tree call limit fits, fun _ _ _ => rfl⟩

/-- Subvolume 257 inside subvolume 256. -/
def raisedPair : Hierarchy := letterPair 256 5 257 256 (by decide) (by decide) (by decide)

/-- Subvolume 256, which was moved into the younger subvolume 300. -/
def movedPair : Hierarchy := letterPair 256 300 300 5 (by decide) (by decide) (by decide)

/-- The path of a subvolume is found when the subvolume that it lies in has a smaller id. -/
theorem getPath_climbs_iff_raised :
    ∃ chain, raisedPair.Chain 257 chain ∧
      Climbs (serveNext raisedPair.toTree) atRoot (fun _ _ => []) 257 (List.replicate 128 0)
        List.length_replicate chain := by
  -- All references are of subvolumes up to 257.
  obtain ⟨serves, looksUp⟩ := serveNext_looksUp raisedPair.toTree
  have inside : letterRef 257 256 ∈ raisedPair.items := .tail _ List.mem_cons_self
  obtain ⟨chain, links, climbs, _⟩ :=
    getPath_climbs_iff serves looksUp inside rfl List.length_replicate
  have small : ∀ above ∈ raisedPair.items, above.objectid ≤ 257 := by decide
  exact ⟨chain, links, climbs.mpr fun above member => small above (links.subset member)⟩

/-- The path of a subvolume is not found when it was moved into one with a greater id. -/
theorem getPath_strays_moved :
    movedPair.Chain 256 [letterRef 256 300, letterRef 300 5] ∧
      ¬Climbs (serveNext movedPair.toTree) atRoot (fun _ _ => []) 256 (List.replicate 128 0)
        List.length_replicate [letterRef 256 300, letterRef 300 5] ∧
      (getPath (serveNext movedPair.toTree) atRoot 256 (List.replicate 128 0)
        List.length_replicate 2).ended = some (.error (.io (.kind .notFound))) := by
  -- The chain goes from subvolume 256 to subvolume 300, which is beyond the bound.
  obtain ⟨serves, looksUp⟩ := serveNext_looksUp movedPair.toTree
  have first : letterRef 256 300 ∈ movedPair.items := List.mem_cons_self
  have second : letterRef 300 5 ∈ movedPair.items := .tail _ List.mem_cons_self
  have links := (movedPair.chains_nested second first ⟨rfl, rfl⟩ rfl (by decide) rfl).2
  have greater : ∃ above ∈ [letterRef 256 300, letterRef 300 5], 256 < above.objectid :=
    ⟨letterRef 300 5, .tail _ List.mem_cons_self, by decide⟩
  have failed := links.getPath_strays serves looksUp (@List.length_replicate UInt8 128 0) greater
  refine ⟨links, fun climbs => ?_, failed⟩
  cases climbs.2.symm.trans failed

end Libbtrfs.Search
