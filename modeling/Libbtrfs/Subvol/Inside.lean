import Libbtrfs.Subvol.DestroyAll

/-! What the iterator returns for a subvolume of a filesystem: all that is inside it. -/

namespace Libbtrfs

/-- The subvolumes inside another one, on whatever level. -/
def Fs.nested (fs : Fs) (base : Dir) : List Dir :=
  fs.dirs.filter fun dir => dir.Subvol ∧ base.place <+: dir.place ∧ base.place ≠ dir.place

/-- What the iterator is to return for a subvolume inside another one, with the path from there. -/
def Dir.item (base nested : Dir) : SubvolItem Place where
  f := nested.place
  treeid := nested.treeid
  parentId := nested.parentId
  dirid := 100
  path := some (toBytesWithNul (namesPath (nested.place.drop base.place.length)))

namespace Forest

variable {Fd : Type}

/-- What is below the items of trees that are listed is listed in the same way. -/
theorem items_graft {β : Type} (withPath : Bool) (parentId : UInt64) (chain : Option UnixPath)
    (root : β → SubvolNode Fd) (below : β → Forest (SubvolNode Fd)) (listed : List β) :
    (graft root below listed).items withPath parentId chain =
      graft (fun entry => (root entry).item withPath parentId chain)
        (fun entry => (below entry).items withPath (root entry).treeid
          (some ((root entry).path chain))) listed := by
  -- The induction is on the trees that are listed.
  induction listed with
  | nil => rfl
  | cons entry rest ih => rw [graft, graft, items, ih]

/-- The items of two forests, one after the other. -/
theorem items_append (withPath : Bool) (parentId : UInt64) (chain : Option UnixPath)
    (one other : Forest (SubvolNode Fd)) :
    (one.append other).items withPath parentId chain =
      (one.items withPath parentId chain).append (other.items withPath parentId chain) := by
  -- The induction is on the first forest.
  induction one with
  | nil => rfl
  | cons node children rest _ ih => rw [append, items, items, append, ih]

/-- The items of a mirrored forest are those of the forest, mirrored. -/
theorem items_mirror (withPath : Bool) (parentId : UInt64) (chain : Option UnixPath)
    (forest : Forest (SubvolNode Fd)) :
    forest.mirror.items withPath parentId chain =
      (forest.items withPath parentId chain).mirror := by
  -- Neither parents nor paths depend on the order of the siblings.
  induction forest generalizing parentId chain with
  | nil => rfl
  | cons node children rest inner outer =>
    rw [mirror, items_append, outer, items, items, inner, items, mirror]

/-- Whatever the order is, the items are the same. -/
theorem ordered_perm (flags : Flags) (withPath : Bool) (parentId : UInt64)
    (chain : Option UnixPath) (post : Bool) (forest : Forest (SubvolNode Fd)) :
    (((forest.ordered flags).items withPath parentId chain).visit post).Perm
      ((forest.items withPath parentId chain).visit true) := by
  -- Both orders are those of the visit in which a root comes first.
  refine (visit_perm _ _).trans (List.Perm.trans ?_ (visit_perm true _).symm)
  unfold ordered
  split
  · rw [items_mirror]
    exact mirror_perm _
  · exact List.Perm.refl _

/-- The items have the descriptors of the subvolumes. -/
theorem items_fds (withPath : Bool) (parentId : UInt64) (chain : Option UnixPath)
    (forest : Forest (SubvolNode Fd)) :
    ((forest.items withPath parentId chain).visit true).map SubvolItem.f =
      (forest.visit true).map SubvolNode.f := by
  -- The induction is on the forest, whose items differ in what is above them.
  induction forest generalizing parentId chain with
  | nil => rfl
  | cons node children rest inner outer =>
    simp only [items, visit, if_true, List.map_append, inner, outer, List.map_cons, List.map_nil,
      SubvolNode.item_f]

/-- The kernel answers about trees that are listed when it answers about each of them. -/
theorem served_graft {β : Type} {kernel : Kernel Fd} {root : β → SubvolNode Fd}
    {below : β → Forest (SubvolNode Fd)} {listed : List β}
    (each : ∀ entry ∈ listed, Answers kernel (root entry).f (below entry).roots ∧
      (below entry).Served kernel) : (graft root below listed).Served kernel := by
  -- The induction is on the trees that are listed.
  induction listed with
  | nil => trivial
  | cons entry rest ih =>
    have first := each entry List.mem_cons_self
    exact ⟨first.1, first.2, ih fun other member => each other (List.mem_cons_of_mem _ member)⟩

end Forest

namespace Fs

open Subvol

variable {fs : Fs} {base subvol : Dir}

/-- The subvolumes inside another one are those that its place is in front of. -/
theorem mem_nested {dir : Dir} : dir ∈ fs.nested base ↔
    dir ∈ fs.dirs ∧ dir.Subvol ∧ base.place <+: dir.place ∧ base.place ≠ dir.place := by
  -- The directories are filtered by that.
  rw [nested, List.mem_filter, decide_eq_true_eq]

/-- The kernel answers about all that is inside a subvolume. -/
theorem below_served {depth : Nat} (deep : fs.Deep depth subvol) (member : subvol ∈ fs.dirs)
    (isSubvol : subvol.Subvol)
    (roomy : ∀ nested ∈ fs.dirs, nested.Subvol → subvol.place <+: nested.place → fs.Roomy nested) :
    (fs.below depth subvol).Served fs.limited := by
  -- The induction is on the levels that there are left below the subvolume.
  induction depth generalizing subvol with
  | zero => trivial
  | succ depth ih =>
    refine Forest.served_graft fun child listed => ?_
    obtain ⟨present, childSubvol, _⟩ := mem_children.mp listed
    have front := (child_below member isSubvol listed).trans (List.dropLast_prefix _)
    have lower := deep.child member isSubvol listed
    refine ⟨?_, ih lower present childSubvol fun nested there nestedSubvol inside =>
      roomy nested there nestedSubvol (front.trans inside)⟩
    rw [roots_below lower present childSubvol]
    exact (roomy child present childSubvol front).answers present childSubvol rfl

/-- What is listed in a subvolume gets the item that it has as something inside the base. -/
theorem child_item {child : Dir} {chain : Option UnixPath}
    (leads : Leads base.place chain subvol.place) (member : subvol ∈ fs.dirs)
    (isSubvol : subvol.Subvol) (listed : child ∈ fs.children subvol.treeid) :
    (subvol.node child).item true subvol.treeid chain = base.item child ∧
      Leads base.place (some ((subvol.node child).path chain)) child.place := by
  -- What leads to the subvolume leads to the child by one name more.
  obtain ⟨front, last, there, path⟩ := leads.child member isSubvol listed
  have parentId := (mem_children.mp listed).2.2.2
  have told : namesPath (child.place.drop base.place.length) = text front ++ last.bytes := by
    rw [there, List.drop_left, namesPath_append]
  constructor
  · rw [SubvolNode.item, Dir.item, told, path, parentId]
    rfl
  · refine ⟨front ++ [last], there, ?_⟩
    rw [chainText, path]
    simp [text]

/-- Every item is that of a subvolume inside the base. -/
theorem items_below {depth : Nat} {chain : Option UnixPath}
    (leads : Leads base.place chain subvol.place) (member : subvol ∈ fs.dirs)
    (isSubvol : subvol.Subvol) {item : SubvolItem Place}
    (returned : item ∈ ((fs.below depth subvol).items true subvol.treeid chain).visit true) :
    ∃ nested ∈ fs.dirs, item = base.item nested := by
  -- The induction is on the levels below the subvolume, where each child is followed down.
  induction depth generalizing subvol chain with
  | zero => cases returned
  | succ depth ih =>
    rw [below, Forest.items_graft, Forest.visit_graft] at returned
    obtain ⟨child, listed, inside⟩ := List.mem_flatMap.mp returned
    obtain ⟨present, childSubvol, _⟩ := mem_children.mp listed
    obtain ⟨own, further⟩ := child_item leads member isSubvol listed
    rcases List.mem_append.mp inside with deeper | here
    · exact ih further present childSubvol deeper
    · rw [List.mem_singleton.mp here]
      exact ⟨child, present, own⟩

/-- In post order the items are those of the subvolumes inside the base, each of them once. -/
theorem items_perm {depth : Nat} (deep : fs.Deep depth base) (member : base ∈ fs.dirs)
    (isSubvol : base.Subvol) :
    (((fs.below depth base).items true base.treeid none).visit true).Perm
      ((fs.nested base).map base.item) := by
  have leads : Leads base.place none base.place := ⟨[], (List.append_nil _).symm, rfl⟩
  have fds := Forest.items_fds true base.treeid none (fs.below depth base)
  have places : _ = fs.places depth base := fds
  -- No place comes twice on either side, so it is enough to compare the members.
  have once : (fs.places depth base).Nodup :=
    (places_order deep member isSubvol).imp (by
      intro one other apart same
      exact apart (same ▸ List.prefix_refl _))
  have distinct : ((fs.nested base).map Dir.place).Nodup :=
    fs.distinct.sublist (List.filter_sublist.map _)
  have mapped : (fs.nested base).map Dir.place =
      ((fs.nested base).map base.item).map SubvolItem.f := by
    rw [List.map_map]
    rfl
  rw [mapped] at distinct
  rw [← places] at once
  refine (List.perm_ext_iff_of_nodup once.of_map distinct.of_map).mpr fun item => ?_
  constructor
  · intro returned
    obtain ⟨nested, present, rfl⟩ := items_below leads member isSubvol returned
    have there : nested.place ∈ fs.places depth base := places ▸ List.mem_map_of_mem returned
    obtain ⟨⟨other, found, otherSubvol, same⟩, inside⟩ :=
      (mem_places deep member isSubvol).mp there
    cases List.inj_on_of_nodup_map fs.distinct found present same
    exact List.mem_map_of_mem (mem_nested.mpr ⟨present, otherSubvol, inside⟩)
  · intro expected
    obtain ⟨nested, inner, rfl⟩ := List.mem_map.mp expected
    obtain ⟨present, nestedSubvol, inside⟩ := mem_nested.mp inner
    have there : nested.place ∈ fs.places depth base :=
      (mem_places deep member isSubvol).mpr ⟨⟨nested, present, nestedSubvol, rfl⟩, inside⟩
    rw [← places] at there
    obtain ⟨item, returned, same⟩ := List.mem_map.mp there
    obtain ⟨other, found, rfl⟩ := items_below leads member isSubvol returned
    cases List.inj_on_of_nodup_map fs.distinct found present same
    exact returned

/-- With paths the iterator returns exactly the subvolumes inside the base, in whichever order. -/
theorem iter_collects (member : base ∈ fs.dirs) (isSubvol : base.Subvol)
    (roomy : ∀ nested ∈ fs.dirs, nested.Subvol → base.place <+: nested.place → fs.Roomy nested)
    (flags : Flags) (withPath : flags.contains .getPath = true) :
    ∃ (iter : Iter Place) (items : List (SubvolItem Place)),
      Iter.new fs.limited base.place flags = .ok iter ∧
      (∃ enough, ∀ fuel, enough ≤ fuel →
        collect fs.limited fuel iter = some (items.map Except.ok)) ∧
      items.Perm ((fs.nested base).map base.item) := by
  obtain ⟨depth, bound⟩ := fs.bounded
  have deep : fs.Deep depth base := by
    intro other present
    have short := bound other present
    omega
  have here : fs.at? base.place = some base := at?_eq_some.mpr ⟨member, rfl⟩
  have made : Iter.new fs.limited base.place flags =
      .ok ⟨[.rootVol base.treeid base.place], flags, []⟩ := by
    simp only [Iter.new, lookupTreeid, limited, kernel, inoLookup, here, btrfsIoctl]
  have root_answers := (roomy base member isSubvol (List.prefix_refl _)).answers member isSubvol rfl
  rw [← roots_below deep member isSubvol, ← Forest.returned_ordered flags] at root_answers
  -- The kernel does not change while the iterator is at work.
  have lives := ((below_served deep member isSubvol roomy).shown flags).lives
    (fun items item => items ++ [item]) base.treeid none []
  have drained : Drains (fun _ => fs.limited) (fun items item => items ++ [item]) []
      ⟨[.rootVol base.treeid base.place], flags, []⟩ _ :=
    @drains_root _ _ (fun _ => fs.limited) _ _ _ _ _ _ root_answers lives
  obtain ⟨enough, done⟩ := drained.forEach
  refine ⟨_, _, made, ⟨enough, fun fuel more => ?_⟩,
    (Forest.ordered_perm flags true base.treeid none (flags.contains .postOrder)
      (fs.below depth base)).trans (items_perm deep member isSubvol)⟩
  rw [collect, done fuel more, visited_collect, withPath]

end Fs

end Libbtrfs
