import Libbtrfs.Subvol.Ancestors
import Libbtrfs.Subvol.DestroyElsewhere
import Libbtrfs.Subvol.Inside

/-! The path that `get_path` finds in the root tree, and the one that the iterator tells. -/

namespace Libbtrfs

open Search Subvol

/-- An item is the back reference of a subvolume, for the directory that it is listed in. -/
structure Dir.Referred (dir : Dir) (item : Item) : Prop where
  ty : item.ty = RootBackref.key
  objectid : item.objectid = dir.treeid
  offset : item.offset = dir.parentId
  data : ∃ ref : RootRefData, item.data = ref.bytes ∧ ref.dirid = dir.dirid ∧ ref.name = dir.name

/-- A subvolume that another one lists, as all but the top-level one are. -/
def Fs.Listed (fs : Fs) (dir : Dir) : Prop := dir ∈ fs.dirs ∧ dir.Subvol ∧ dir.place ≠ []

/-- The root tree of a filesystem has the back references of all but the top-level subvolume. -/
structure Fs.BackRefs (fs : Fs) (top : Dir) (tree : Tree) : Prop where
  member : top ∈ fs.dirs
  isSubvol : top.Subvol
  place : top.place = []
  treeid : top.treeid = TreeId.fsTree.toUInt64
  referred : ∀ dir, fs.Listed dir → ∃ item ∈ tree.items, dir.Referred item
  only : ∀ item ∈ tree.items, item.ty = RootBackref.key → ∃ dir, fs.Listed dir ∧ dir.Referred item

/-- The directory of a subvolume is looked up as its path inside the parent. -/
def Fs.LooksUp (fs : Fs) (inoLookup : UInt64 → UInt64 → Except IoError Bytes) : Prop :=
  ∀ dir, fs.Listed dir → ∀ parent ∈ fs.dirs, parent.Subvol → parent.treeid = dir.parentId →
    lookupPathStr inoLookup dir.dirid dir.parentId =
      .ok (text (dir.place.dropLast.drop parent.place.length))

/-- No subvolume that another one is inside of has a greater id. -/
def Fs.Ascends (fs : Fs) (dir : Dir) : Prop :=
  ∀ above ∈ fs.dirs, above.Subvol → above.place ≠ [] → above.place <+: dir.place →
    above.treeid ≤ dir.treeid

instance (fs : Fs) (dir : Dir) : Decidable (fs.Ascends dir) :=
  inferInstanceAs (Decidable (∀ above ∈ fs.dirs, _))

namespace Search

/-- The name and the directory of an item are those of the reference that it holds. -/
theorem Item.name_ref {item : Item} {ref : RootRefData} (kept : item.data = ref.bytes) :
    item.name = ref.name ∧ item.dirid = ref.dirid := by
  constructor
  · -- The length of the name lies in front of it.
    have length : readLe ref.bytes 16 2 = ref.name.length := by
      rw [RootRefData.bytes, ← List.append_assoc (leBytes 8 ref.dirid.toNat)]
      exact readLe_at (by simp) ref.bounded
    have fixed : (leBytes 8 ref.dirid.toNat ++ leBytes 8 ref.sequence.toNat ++
        leBytes 2 ref.name.length).length = RootRef.size := by simp [RootRef.size]
    have behind : ref.bytes.drop RootRef.size = ref.name := by
      rw [RootRefData.bytes, ← fixed]
      simp only [← List.append_assoc]
      exact List.drop_left
    rw [Item.name, kept, length, behind]
    exact List.take_length
  · have first : readLe ref.bytes 0 8 = ref.dirid.toNat :=
      @readLe_at [] _ _ _ _ rfl ref.dirid.toNat_lt
    rw [Item.dirid, kept, first, UInt64.ofNat_toNat]

/-- One subvolume more at the inner end of a chain comes behind a separator. -/
theorem Ancestor.joined_inner (inner : Ancestor) {chain : List Ancestor} (above : chain ≠ []) :
    Ancestor.joined (inner :: chain) = Ancestor.joined chain ++ separator :: inner.part := by
  -- The outermost subvolume is the same on both sides.
  obtain ⟨front, top, rfl⟩ := List.eq_nil_or_concat chain |>.resolve_left above
  rw [List.concat_eq_append, ← List.cons_append, Ancestor.joined_append, Ancestor.joined_append,
    Ancestor.suffix, List.append_assoc]

/-- What is looked up for a directory, for those that are found. -/
def lookedUp (inoLookup : UInt64 → UInt64 → Except IoError Bytes) (dirid treeid : UInt64) : Bytes :=
  match lookupPathStr inoLookup dirid treeid with
  | .error _ => []
  | .ok path => path

end Search

/-- The name of a directory is that of a file, with at most 255 bytes. -/
theorem Dir.name_length (dir : Dir) : dir.name.length ≤ 255 := by
  -- The root has no name, and any other one is that of a directory.
  unfold Dir.name
  cases dir.place.getLast? with
  | none => exact Nat.zero_le 255
  | some name => exact name.named.2.2.2.2.2

/-- A back reference is no larger than the buffer of a search. -/
theorem Dir.Referred.size {dir : Dir} {item : Item} (referred : dir.Referred item) :
    item.size ≤ 3992 := by
  -- Behind the header there are 18 bytes and the name, which is that of a file.
  obtain ⟨ref, kept, _, name⟩ := referred.data
  have short := dir.name_length
  rw [← name] at short
  rw [Item.size, kept, RootRefData.bytes, headerSize]
  simp only [List.length_append, leBytes_length]
  omega

namespace Fs

variable {fs : Fs} {top : Dir} {tree : Tree}

/-- The subvolume that another one is listed in, which is above it and below all others above it. -/
theorem Listed.parent {dir : Dir} (listed : fs.Listed dir) :
    ∃ parent ∈ fs.dirs, parent.Subvol ∧ parent.treeid = dir.parentId ∧
      parent.place <+: dir.place.dropLast ∧
      ∀ above ∈ fs.dirs, above.Subvol → above.place <+: dir.place → above.place ≠ dir.place →
        above.place <+: parent.place := by
  obtain ⟨member, _, inner⟩ := listed
  obtain ⟨directory, present, place, treeid, _⟩ := fs.parents dir member inner
  obtain ⟨parent, found, isSubvol, same, above, innermost⟩ := owner present
  refine ⟨parent, found, isSubvol, same.trans treeid, place ▸ above, ?_⟩
  intro other there otherSubvol front different
  refine innermost other there otherSubvol ?_
  rw [place]
  -- What is above the subvolume without being it ends in front of its name.
  obtain ⟨last, whole, _⟩ := place_name inner
  rw [whole] at front
  rcases List.prefix_concat_iff.mp front with same | shorter
  · exact absurd (same.trans whole.symm) different
  · exact shorter

/-- A subvolume that is listed in the top-level one is the only listed one on its way. -/
theorem Listed.alone {dir parent : Dir} (listed : fs.Listed dir)
    (innermost : ∀ above ∈ fs.dirs, above.Subvol → above.place <+: dir.place →
      above.place ≠ dir.place → above.place <+: parent.place) (place : parent.place = [])
    {above : Dir} (other : fs.Listed above) (front : above.place <+: dir.place) : above = dir := by
  -- Another one on the way would be in front of the top-level one.
  by_cases same : above.place = dir.place
  · exact List.inj_on_of_nodup_map fs.distinct other.1 listed.1 same
  · have nothing := innermost above other.1 other.2.1 front same
    rw [place] at nothing
    exact absurd (List.prefix_nil.mp nothing) other.2.2

/-- A chain of back references that climbs from a subvolume, and tells its path. -/
structure Climbing (fs : Fs) (tree : Tree) (paths : UInt64 → UInt64 → Bytes) (dir : Dir)
    (chain : List Item) : Prop where
  links : tree.Chain dir.treeid chain
  inhabited : chain ≠ []
  path : Ancestor.joined (chain.map (Item.ancestor paths)) = namesPath dir.place
  -- The references are those of the listed subvolumes on the way.
  ids : ∀ id, (∃ ref ∈ chain, ref.objectid = id) ↔
    ∃ above, fs.Listed above ∧ above.place <+: dir.place ∧ above.treeid = id

/-- The path of a subvolume is that of one above it, with the names from there behind it. -/
theorem namesPath_below {dir parent : Dir} (outer : parent.place ≠ []) (inner : dir.place ≠ [])
    (front : parent.place <+: dir.place.dropLast) :
    namesPath dir.place = namesPath parent.place ++
      separator :: (text (dir.place.dropLast.drop parent.place.length) ++ dir.name) := by
  obtain ⟨between, split⟩ := front
  obtain ⟨last, whole, named⟩ := place_name inner
  obtain ⟨final, ends, _⟩ := place_name outer
  -- A separator comes behind the last name of the outer one.
  have terminated : namesPath parent.place ++ [separator] = text parent.place := by
    rw [ends, namesPath_append, text_append]
    simp [text]
  have path : namesPath dir.place = text dir.place.dropLast ++ last.bytes := by
    conv_lhs => rw [whole, namesPath_append]
  rw [path, ← split, List.drop_left, text_append, ← terminated, named]
  simp

namespace BackRefs

/-- The parent of a subvolume is the top-level one, or one that is listed itself. -/
theorem parent_cases (refs : fs.BackRefs top tree) {parent : Dir} (found : parent ∈ fs.dirs)
    (isSubvol : parent.Subvol) :
    parent.place = [] ∧ parent.treeid = TreeId.fsTree.toUInt64 ∨
      fs.Listed parent ∧ parent.treeid ≠ TreeId.fsTree.toUInt64 := by
  by_cases place : parent.place = []
  · -- There is only one directory at the root.
    have same : parent = top :=
      List.inj_on_of_nodup_map fs.distinct found refs.member (place.trans refs.place.symm)
    exact Or.inl ⟨place, same ▸ refs.treeid⟩
  · refine Or.inr ⟨⟨found, isSubvol, place⟩, fun reached => place ?_⟩
    rw [fs.trees parent found top refs.member isSubvol refs.isSubvol
      (reached.trans refs.treeid.symm)]
    exact refs.place

section Climbing

variable {inoLookup : UInt64 → UInt64 → Except IoError Bytes} {dir parent : Dir} {item : Item}

/-- A reference that is listed alone is the chain of a subvolume in the top-level one. -/
theorem climbing_top (listed : fs.Listed dir) (inside : item ∈ tree.items)
    (referred : dir.Referred item) (reached : dir.parentId = TreeId.fsTree.toUInt64)
    (place : parent.place = []) (part : (item.ancestor (lookedUp inoLookup)).part =
      text (dir.place.dropLast.drop parent.place.length) ++ dir.name)
    (innermost : ∀ above ∈ fs.dirs, above.Subvol → above.place <+: dir.place →
      above.place ≠ dir.place → above.place <+: parent.place) :
    fs.Climbing tree (lookedUp inoLookup) dir [item] := by
  -- The chain has one link, and its path is the part that this one gives.
  have links : tree.Chain item.objectid [item] :=
    .rootvol inside referred.ty (referred.offset.trans reached)
  rw [referred.objectid] at links
  refine ⟨links, List.cons_ne_nil _ _, ?_, fun id => ⟨?_, ?_⟩⟩
  · obtain ⟨last, whole, named⟩ := place_name listed.2.2
    rw [place, List.length_nil, List.drop_zero, named, ← namesPath_append, ← whole] at part
    rw [← part]
    exact Ancestor.joined_append [] _ |>.trans (List.append_nil _)
  · rintro ⟨other, only, rfl⟩
    cases List.mem_singleton.mp only
    exact ⟨dir, listed, List.prefix_refl _, referred.objectid.symm⟩
  · rintro ⟨other, otherListed, way, rfl⟩
    cases listed.alone innermost place otherListed way
    exact ⟨item, List.mem_singleton_self _, referred.objectid⟩

/-- A reference goes in front of the chain of the subvolume that it is listed in. -/
theorem climbing_nested {chain : List Item} (listed : fs.Listed dir) (inside : item ∈ tree.items)
    (referred : dir.Referred item) (parentId : parent.treeid = dir.parentId)
    (below : parent.treeid ≠ TreeId.fsTree.toUInt64) (parentListed : fs.Listed parent)
    (front : parent.place <+: dir.place.dropLast)
    (part : (item.ancestor (lookedUp inoLookup)).part =
      text (dir.place.dropLast.drop parent.place.length) ++ dir.name)
    (innermost : ∀ above ∈ fs.dirs, above.Subvol → above.place <+: dir.place →
      above.place ≠ dir.place → above.place <+: parent.place)
    (climbing : fs.Climbing tree (lookedUp inoLookup) parent chain) :
    fs.Climbing tree (lookedUp inoLookup) dir (item :: chain) := by
  have links := climbing.links
  rw [parentId, ← referred.offset] at links
  have longer : tree.Chain item.objectid (item :: chain) :=
    .nested inside referred.ty (by rw [referred.offset, ← parentId]; exact below) links
  rw [referred.objectid] at longer
  refine ⟨longer, List.cons_ne_nil _ _, ?_, fun id => ⟨?_, ?_⟩⟩
  · -- The path of the parent goes on with the names from there.
    rw [List.map_cons, Ancestor.joined_inner _ (by simpa using climbing.inhabited), climbing.path,
      part, namesPath_below parentListed.2.2 listed.2.2 front]
  · rintro ⟨other, member, rfl⟩
    rcases List.mem_cons.mp member with rfl | higher
    · exact ⟨dir, listed, List.prefix_refl _, referred.objectid.symm⟩
    · obtain ⟨next, nextListed, way, same⟩ := (climbing.ids other.objectid).mp ⟨other, higher, rfl⟩
      exact ⟨next, nextListed, way.trans (front.trans (List.dropLast_prefix _)), same⟩
  · rintro ⟨other, otherListed, way, rfl⟩
    by_cases same : other.place = dir.place
    · cases List.inj_on_of_nodup_map fs.distinct otherListed.1 listed.1 same
      exact ⟨item, List.mem_cons_self, referred.objectid⟩
    · obtain ⟨higher, member, id⟩ := (climbing.ids other.treeid).mpr ⟨other, otherListed,
        innermost other otherListed.1 otherListed.2.1 way same, rfl⟩
      exact ⟨higher, List.mem_cons_of_mem _ member, id⟩

/-- Every subvolume below the top-level one has a chain that climbs to that. -/
theorem chain (refs : fs.BackRefs top tree) (looksUp : fs.LooksUp inoLookup)
    (listed : fs.Listed dir) : ∃ chain, fs.Climbing tree (lookedUp inoLookup) dir chain := by
  -- The induction is on how far down the subvolume is, from the one that it is listed in.
  induction steps : dir.place.length using Nat.strongRecOn generalizing dir with
  | _ steps ih =>
    obtain ⟨item, inside, referred⟩ := refs.referred dir listed
    obtain ⟨ref, kept, dirid, name⟩ := referred.data
    obtain ⟨parent, found, parentSubvol, parentId, front, innermost⟩ := listed.parent
    have looked := looksUp dir listed parent found parentSubvol parentId
    have part : (item.ancestor (lookedUp inoLookup)).part =
        text (dir.place.dropLast.drop parent.place.length) ++ dir.name := by
      rw [Ancestor.part, Item.ancestor, (Item.name_ref kept).1, (Item.name_ref kept).2, dirid,
        name, referred.offset]
      simp only [lookedUp, looked]
    rcases refs.parent_cases found parentSubvol with ⟨place, reached⟩ | ⟨above, below⟩
    · exact ⟨[item], climbing_top listed inside referred (parentId.symm.trans reached) place part
        innermost⟩
    · have shorter : parent.place.length < dir.place.length := by
        have bound := front.length_le
        have inner := List.length_pos_iff.mpr listed.2.2
        rw [List.length_dropLast] at bound
        omega
      obtain ⟨chain, climbing⟩ := ih _ (steps ▸ shorter) above rfl
      exact ⟨item :: chain, climbing_nested listed inside referred parentId below above front part
        innermost climbing⟩

end Climbing

/-- The back references of a filesystem form a hierarchy. -/
def hierarchy (refs : fs.BackRefs top tree)
    {inoLookup : UInt64 → UInt64 → Except IoError Bytes} (looksUp : fs.LooksUp inoLookup) :
    Hierarchy where
  toTree := tree
  single := by
    intro one first other second ty otherTy same
    obtain ⟨dir, listed, referred⟩ := refs.only one first ty
    obtain ⟨dir', listed', referred'⟩ := refs.only other second otherTy
    -- Both are about the same subvolume, so they have the same key.
    have ids : dir.treeid = dir'.treeid :=
      referred.objectid.symm.trans (same.trans referred'.objectid)
    cases fs.trees dir listed.1 dir' listed'.1 listed.2.1 listed'.2.1 ids
    have keys : one.rank = other.rank := by
      rw [Item.rank, Item.rank, Item.key, Item.key, same, ty, otherTy, referred.offset,
        referred'.offset]
    exact tree.ascending.injective first second keys
  refs := by
    intro item member ty
    obtain ⟨dir, _, referred⟩ := refs.only item member ty
    obtain ⟨ref, kept, _, name⟩ := referred.data
    exact ⟨ref, kept, by rw [(Item.name_ref kept).1, name]; exact dir.name_clean⟩
  fits := by
    intro item member ty
    obtain ⟨dir, _, referred⟩ := refs.only item member ty
    exact referred.size
  rooted := by
    intro item member ty
    obtain ⟨dir, listed, referred⟩ := refs.only item member ty
    obtain ⟨chain, climbing⟩ := refs.chain looksUp listed
    exact ⟨chain, by rw [referred.objectid]; exact climbing.links⟩

/-- `get_path` tells where a subvolume is, unless one that it is inside of has a greater id. -/
theorem getPath_ends (refs : fs.BackRefs top tree)
    {ioctl : Nat → TreeSearch → Except IoError Unit × TreeSearch} (serves : ServesFirst tree ioctl)
    {inoLookup : UInt64 → UInt64 → Except IoError Bytes} (looksUp : fs.LooksUp inoLookup)
    {memory : Bytes} (sized : memory.length = 128) {dir : Dir} (listed : fs.Listed dir) :
    ∃ rounds, (getPath ioctl inoLookup dir.treeid memory sized rounds).ended =
      some (if fs.Ascends dir then .ok (namesPath dir.place)
        else .error (.io (.kind .notFound))) := by
  obtain ⟨chain, links, _, joined, ids⟩ := refs.chain looksUp listed
  have looked : Search.LooksUp (refs.hierarchy looksUp).toTree inoLookup (lookedUp inoLookup) := by
    intro ref member ty
    obtain ⟨other, otherListed, referred⟩ := refs.only ref member ty
    obtain ⟨data, kept, dirid, _⟩ := referred.data
    obtain ⟨parent, found, parentSubvol, parentId, _⟩ := otherListed.parent
    have told := looksUp other otherListed parent found parentSubvol parentId
    rw [(Item.name_ref kept).2, dirid, referred.offset, lookedUp, told]
  have served : ServesFirst (refs.hierarchy looksUp).toTree ioctl := serves
  have climbing : (refs.hierarchy looksUp).toTree.Chain dir.treeid chain := links
  refine ⟨chain.length, ?_⟩
  by_cases ascends : fs.Ascends dir
  · have within : ∀ ref ∈ chain, ref.objectid ≤ dir.treeid := by
      intro ref member
      obtain ⟨above, aboveListed, front, same⟩ := (ids ref.objectid).mp ⟨ref, member, rfl⟩
      exact same ▸ ascends above aboveListed.1 aboveListed.2.1 aboveListed.2.2 front
    rw [if_pos ascends, ← joined]
    exact (climbing.getPath_climbs served looked sized within).2
  · -- Something above has a greater id, and so does its reference.
    have beyond : ∃ ref ∈ chain, dir.treeid < ref.objectid := by
      by_contra none_greater
      refine ascends fun above there aboveSubvol inner front => ?_
      obtain ⟨ref, member, same⟩ := (ids above.treeid).mpr
        ⟨above, ⟨there, aboveSubvol, inner⟩, front, rfl⟩
      rw [← same]
      exact UInt64.not_lt.mp fun greater => none_greater ⟨ref, member, greater⟩
    rw [if_neg ascends]
    exact climbing.getPath_strays served looked sized beyond

end BackRefs

end Fs

/-- The path of an item is read from it as it was made. -/
theorem Dir.item_pathText (base nested : Dir) :
    (base.item nested).pathText = .ok (namesPath (nested.place.drop base.place.length)) := by
  -- None of the names has a zero, so the text ends behind the last of them.
  have clean : 0 ∉ namesPath (nested.place.drop base.place.length) := by
    rcases List.eq_nil_or_concat (nested.place.drop base.place.length) with
      nothing | ⟨front, last, whole⟩
    · rw [nothing]
      exact List.not_mem_nil
    · rw [whole, List.concat_eq_append, namesPath_append]
      exact Fs.path_clean front last
  rw [SubvolItem.pathText, Dir.item]
  simp only [fromPtr_toBytesWithNul clean]

/--
From the top-level subvolume the iterator tells the paths of all others, each of them once, and
`get_path` tells the same path of each, unless one that it is inside of has a greater id: then it
fails with the kind `NotFound`.
-/
theorem getPath_agrees (fs : Fs) (top : Dir) (tree : Tree) (refs : fs.BackRefs top tree)
    (roomy : ∀ nested ∈ fs.dirs, nested.Subvol → fs.Roomy nested)
    (ioctl : Nat → TreeSearch → Except IoError Unit × TreeSearch) (serves : ServesFirst tree ioctl)
    (inoLookup : UInt64 → UInt64 → Except IoError Bytes) (looksUp : fs.LooksUp inoLookup)
    (flags : Flags) (withPath : flags.contains .getPath = true) (memory : Bytes)
    (sized : memory.length = 128) :
    ∃ (iter : Iter Place) (items : List (SubvolItem Place)),
      Iter.new fs.limited top.place flags = .ok iter ∧
      (∃ enough, ∀ fuel, enough ≤ fuel →
        collect fs.limited fuel iter = some (items.map Except.ok)) ∧
      items.Perm ((fs.nested top).map top.item) ∧
      ∀ dir ∈ fs.nested top, ∃ rounds,
        (getPath ioctl inoLookup dir.treeid memory sized rounds).ended =
          some (if fs.Ascends dir then (top.item dir).pathText
            else .error (.io (.kind .notFound))) := by
  -- Both paths are the names below the top-level subvolume.
  obtain ⟨iter, items, made, collected, perm⟩ := Fs.iter_collects refs.member refs.isSubvol
    (fun nested there nestedSubvol _ => roomy nested there nestedSubvol) flags withPath
  refine ⟨iter, items, made, collected, perm, fun dir inside => ?_⟩
  obtain ⟨member, isSubvol, _, different⟩ := Fs.mem_nested.mp inside
  have listed : fs.Listed dir :=
    ⟨member, isSubvol, fun nothing => different (refs.place.trans nothing.symm)⟩
  rw [Dir.item_pathText, refs.place, List.length_nil, List.drop_zero]
  exact refs.getPath_ends serves looksUp sized listed

/-- What a back reference says of a subvolume. -/
def Dir.reference (dir : Dir) : RootRefData :=
  ⟨dir.dirid, 2, dir.name, dir.name_length.trans_lt (by decide)⟩

/-- The bytes of a back reference fit an item. -/
theorem Dir.reference_length (dir : Dir) : dir.reference.bytes.length < 2 ^ 32 := by
  -- In front of the name, which is that of a file, there are 18 bytes.
  have short : dir.reference.name.length ≤ 255 := dir.name_length
  simp only [RootRefData.bytes, List.length_append, leBytes_length]
  omega

/-- The back reference that the kernel keeps of a subvolume. -/
def Dir.backref (dir : Dir) : Item where
  objectid := dir.treeid
  ty := RootBackref.key
  offset := dir.parentId
  transid := 0
  data := dir.reference.bytes
  bounded := dir.reference_length

/-- The root tree of a filesystem, when its subvolumes are in the order of their ids. -/
def Fs.rootTree (fs : Fs) (top : Dir)
    (ascends : (fs.nested top).Pairwise fun one other => one.treeid < other.treeid) : Tree where
  items := (fs.nested top).map Dir.backref
  ascending := by
    refine List.pairwise_map.mpr (ascends.imp fun below => ?_)
    rw [Item.rank, Item.rank, QueryKey.rank_lt]
    exact Or.inl (UInt64.lt_iff_toNat_lt.mp below)

/-- Such a tree has the back references of the filesystem. -/
theorem Fs.rootTree_refs {fs : Fs} {top : Dir} (member : top ∈ fs.dirs) (isSubvol : top.Subvol)
    (place : top.place = []) (treeid : top.treeid = TreeId.fsTree.toUInt64)
    (ascends : (fs.nested top).Pairwise fun one other => one.treeid < other.treeid) :
    fs.BackRefs top (fs.rootTree top ascends) := by
  have referred : ∀ dir : Dir, dir.Referred dir.backref :=
    fun dir => ⟨rfl, rfl, rfl, _, rfl, rfl, rfl⟩
  -- What is listed is what is inside the top-level subvolume.
  have inside : ∀ dir, fs.Listed dir ↔ dir ∈ fs.nested top := by
    intro dir
    rw [Fs.mem_nested, place]
    exact ⟨fun listed => ⟨listed.1, listed.2.1, List.nil_prefix, listed.2.2.symm⟩,
      fun nested => ⟨nested.1, nested.2.1, nested.2.2.2.symm⟩⟩
  refine ⟨member, isSubvol, place, treeid, fun dir listed => ?_, fun item there _ => ?_⟩
  · exact ⟨dir.backref, List.mem_map_of_mem ((inside dir).mp listed), referred dir⟩
  · obtain ⟨dir, nested, rfl⟩ := List.mem_map.mp there
    exact ⟨dir, (inside dir).mpr nested, referred dir⟩

/-- The top-level subvolume of `twinFs`. -/
def twinTop : Dir := ⟨[], 5, 256, 0, 0⟩

/-- The lookups in `twinFs`, where only the inode 257 is a directory inside a subvolume. -/
def twinLookup (objectid _treeid : UInt64) : Except IoError Bytes :=
  if objectid = 257 then .ok [120, 47, 0] else .ok [0]

/-- The subvolumes of `twinFs` are listed with ascending ids. -/
theorem twinTop_ascends :
    (twinFs.nested twinTop).Pairwise fun one other => one.treeid < other.treeid := by
  -- There are few enough to compare.
  decide

/-- The paths that the iterator tells of `twinFs` are found in its root tree, as all ids ascend. -/
theorem getPath_agrees_twin :
    (∃ iter, Iter.new twinFs.limited twinTop.place .getPath = .ok iter) ∧
    ∀ dir ∈ twinFs.nested twinTop, ∃ rounds,
      (getPath (serveNext (twinFs.rootTree twinTop twinTop_ascends)) twinLookup dir.treeid
        (List.replicate 128 0) List.length_replicate rounds).ended =
          some (twinTop.item dir).pathText := by
  -- What is asked of the filesystem is decided for each of its directories.
  have looksUp : ∀ dir ∈ twinFs.dirs, dir.Subvol → dir.place ≠ [] → ∀ parent ∈ twinFs.dirs,
      parent.Subvol → parent.treeid = dir.parentId →
        lookupPathStr twinLookup dir.dirid dir.parentId =
          .ok (text (dir.place.dropLast.drop parent.place.length)) := by decide
  have serves : ServesFirst (twinFs.rootTree twinTop twinTop_ascends) _ :=
    fun call _ limit fits => serveNext_answers _ call limit fits
  obtain ⟨iter, _, made, _, _, agree⟩ := getPath_agrees twinFs twinTop _
    (Fs.rootTree_refs (by decide) (by decide) rfl rfl twinTop_ascends) (by decide) _ serves
    twinLookup (fun dir listed => looksUp dir listed.1 listed.2.1 listed.2.2) .getPath (by decide)
    (List.replicate 128 0) List.length_replicate
  have ascends : ∀ dir ∈ twinFs.nested twinTop, twinFs.Ascends dir := by decide
  refine ⟨⟨iter, made⟩, fun dir inside => ?_⟩
  obtain ⟨rounds, ended⟩ := agree dir inside
  rw [if_pos (ascends dir inside)] at ended
  exact ⟨rounds, ended⟩

end Libbtrfs
