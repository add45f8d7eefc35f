import Libbtrfs.Core.Forest
import Mathlib.Algebra.GroupWithZero.Nat
import Mathlib.Data.List.Flatten
import Mathlib.Data.List.Nodup
import Mathlib.Data.List.Perm.Subperm

/-! A worklist that is fed from a forest, where every step may lose some of the children it opens. -/

namespace Libbtrfs

section Lists

variable {α β : Type}

/-- What is a rearrangement of the images is the image of a rearrangement. -/
theorem perm_map {f : α → β} {images : List β} {items : List α}
    (same : images.Perm (items.map f)) :
    ∃ moved : List α, moved.Perm items ∧ moved.map f = images := by
  -- The two lists correspond item by item, and a rearrangement of one moves the other along.
  have pairs : List.Forall₂ (fun image item => image = f item) (items.map f) items :=
    List.forall₂_map_left_iff.mpr (List.forall₂_same.mpr fun _ _ => rfl)
  obtain ⟨moved, related, perm⟩ := List.perm_comp_forall₂ same pairs
  refine ⟨moved, perm, ?_⟩
  rw [← List.forall₂_map_right_iff (R := fun image other => image = other)] at related
  exact (List.forall₂_eq_eq_eq ▸ related : images = moved.map f).symm

/-- What is selected of the images is the image of a selection. -/
theorem subperm_map {f : α → β} {selected : List β} {items : List α}
    (inside : selected.Subperm (items.map f)) :
    ∃ chosen : List α, chosen.Subperm items ∧ chosen.map f = selected := by
  -- A selection is a sublist of a rearrangement, and either has its own counterpart.
  obtain ⟨same, perm, sublist⟩ := inside
  obtain ⟨kept, within, rfl⟩ := List.sublist_map_iff.mp sublist
  obtain ⟨chosen, moved, image⟩ := perm_map perm.symm
  exact ⟨chosen, ⟨kept, moved.symm, within⟩, image⟩

/-- A selection covers a selection of what all covers. -/
theorem subperm_flatMap (f : α → List β) {chosen items : List α} (inside : chosen.Subperm items) :
    (chosen.flatMap f).Subperm (items.flatMap f) := by
  -- A selection is a sublist of a rearrangement, and both are kept item by item.
  obtain ⟨same, perm, sublist⟩ := inside
  exact (perm.symm.flatMap_right f).subperm.trans (sublist.flatMap f).subperm

/-- A selection of items with different images has different images. -/
theorem nodup_map_of_subperm {f : α → β} {selected items : List α}
    (inside : selected.Subperm items) (unique : (items.map f).Nodup) : (selected.map f).Nodup := by
  -- The images of a selection are a sublist of a rearrangement of all the images.
  obtain ⟨moved, perm, sublist⟩ := inside
  exact ((perm.map f).nodup_iff).mp (unique.sublist (sublist.map f))

end Lists

/-- An entry of a worklist: all of a forest, a tree that is not yet opened, or the root of one. -/
inductive Task (α : Type) where
  | whole (id : α) (below : Forest α)
  | fresh (id parent : α) (below : Forest α)
  | spent (id parent : α)

namespace Task

variable {α : Type}

/-- The members that are still to come, with their parents. -/
def covers : Task α → List (α × α)
  | whole id below => below.families id
  | fresh id parent below => (id, parent) :: below.families id
  | spent id parent => [(id, parent)]

/-- The members that are still to come. -/
def ids (task : Task α) : List α := task.covers.map Prod.fst

/-- The parent of the first members to come. -/
def outer : Task α → α
  | whole id _ => id
  | fresh _ parent _ => parent
  | spent _ parent => parent

/-- How many steps the entry takes at most. -/
def weight : Task α → Nat
  | whole id below => 2 * (below.families id).length + 1
  | fresh id parent below => 2 * (fresh id parent below).covers.length
  | spent _ _ => 1

/-- The members to come differ from each other and from the parent. -/
def Distinct (task : Task α) : Prop := (task.outer :: task.ids).Nodup

/-- The entries for some trees below a parent. -/
def opened (parent : α) (chosen : List (α × Forest α)) : List (Task α) :=
  chosen.map fun tree => fresh tree.1 parent tree.2

/--
A step on the first entry. It may hand a member out, and it opens a tree by replacing it with some
of the trees below its root.

In post order a root comes behind what is below it; otherwise it is handed out first, or lost.
-/
inductive Step (post : Bool) : List (Task α) → Option (α × α) → List (Task α) → Prop where
  | whole {id : α} {below : Forest α} {chosen : List (α × Forest α)} {rest : List (Task α)}
      (selected : chosen.Subperm below.trees) :
      Step post (.whole id below :: rest) none (opened id chosen ++ rest)
  | behind {id parent : α} {below : Forest α} {chosen : List (α × Forest α)}
      {rest : List (Task α)} (order : post = true) (selected : chosen.Subperm below.trees) :
      Step post (.fresh id parent below :: rest) none
        (opened id chosen ++ .spent id parent :: rest)
  | before {id parent : α} {below : Forest α} {chosen : List (α × Forest α)}
      {rest : List (Task α)} {out : Option (α × α)} (order : post = false)
      (selected : chosen.Subperm below.trees) (handed : ∀ pair ∈ out, pair = (id, parent)) :
      Step post (.fresh id parent below :: rest) out (opened id chosen ++ rest)
  | spent {id parent : α} {rest : List (Task α)} :
      Step post (.spent id parent :: rest) (some (id, parent)) rest

/-- The weight of a worklist. -/
def total (tasks : List (Task α)) : Nat := (tasks.map weight).sum

/-- The weights of two parts of a worklist add up. -/
theorem total_append (one other : List (Task α)) :
    total (one ++ other) = total one + total other := by
  -- The total is a sum over the list.
  rw [total, List.map_append, List.sum_append]
  rfl

/-- The entries for some trees cover those trees. -/
theorem covers_opened (parent : α) (chosen : List (α × Forest α)) :
    (opened parent chosen).flatMap covers =
      chosen.flatMap fun tree => (tree.1, parent) :: tree.2.families tree.1 :=
  List.flatMap_map _ _ _

/-- The entries for trees below a parent cover no more than there is below it. -/
theorem covers_selected (parent : α) {below : Forest α} {chosen : List (α × Forest α)}
    (selected : chosen.Subperm below.trees) :
    ((opened parent chosen).flatMap covers).Subperm (below.families parent) := by
  -- The trees of a forest cover together what the forest does.
  rw [covers_opened, Forest.families_trees]
  exact subperm_flatMap _ selected

/-- Trees weigh twice what they cover. -/
theorem total_opened (parent : α) (chosen : List (α × Forest α)) :
    total (opened parent chosen) = 2 * ((opened parent chosen).flatMap covers).length := by
  -- The induction is on the trees.
  induction chosen with
  | nil => rfl
  | cons tree chosen ih =>
    show weight (.fresh tree.1 parent tree.2) + total (opened parent chosen) =
      2 * (covers (.fresh tree.1 parent tree.2) ++ (opened parent chosen).flatMap covers).length
    rw [ih, List.length_append, weight]
    omega

/-- Trees below a parent weigh at most twice what there is below it. -/
theorem total_selected (parent : α) {below : Forest α} {chosen : List (α × Forest α)}
    (selected : chosen.Subperm below.trees) :
    total (opened parent chosen) ≤ 2 * (below.families parent).length := by
  -- Each of the entries weighs twice the trees that it covers.
  rw [total_opened]
  exact Nat.mul_le_mul_left 2 (covers_selected parent selected).length_le

/-- Every step lowers the weight of the worklist. -/
theorem Step.lowers {post : Bool} {tasks later : List (Task α)} {out : Option (α × α)}
    (step : Step post tasks out later) : total later < total tasks := by
  -- What is opened weighs less than the entry that is replaced, or that entry gets lighter.
  have first : ∀ (task : Task α) rest, total (task :: rest) = task.weight + total rest :=
    fun _ _ => rfl
  cases step with
  | @whole id below chosen rest selected =>
    have less := total_selected id selected
    rw [total_append, first, weight]
    omega
  | @behind id parent below chosen rest order selected =>
    have less := total_selected id selected
    rw [total_append, first, first, weight, weight, covers, List.length_cons]
    omega
  | @before id parent below chosen rest out order selected handed =>
    have less := total_selected id selected
    rw [total_append, first, weight, covers, List.length_cons]
    omega
  | spent =>
    rw [first, weight]
    omega

/-- What a step hands out and what is still to come was to come before. -/
theorem Step.covers_le {post : Bool} {tasks later : List (Task α)} {out : Option (α × α)}
    (step : Step post tasks out later) :
    (out.toList ++ later.flatMap covers).Subperm (tasks.flatMap covers) := by
  -- The entry that is replaced covered what is opened, and what is handed out.
  cases step with
  | @whole id below chosen rest selected =>
    rw [List.flatMap_append]
    exact (List.subperm_append_right _).mpr (covers_selected id selected)
  | @behind id parent below chosen rest order selected =>
    rw [List.flatMap_append]
    refine List.perm_middle.subperm.trans ((List.subperm_cons _).mpr ?_)
    exact (List.subperm_append_right _).mpr (covers_selected id selected)
  | @before id parent below chosen rest out order selected handed =>
    have others := (List.subperm_append_right (rest.flatMap covers)).mpr
      (covers_selected id selected)
    rw [List.flatMap_append]
    cases out with
    | none => exact others.cons_right _
    | some pair =>
      cases handed pair rfl
      exact (List.subperm_cons _).mpr others
  | spent => exact List.Subperm.refl _

/-- An entry may stand above another one, whose first members are no children of its own. -/
def Before (above below : Task α) : Prop := below.outer ∉ above.ids

/--
What holds of a worklist with the members that were handed out so far.

None of them comes twice, and in post order none has its parent in front of it.
-/
structure Kept (post : Bool) (all : List (α × α)) (done : List (α × α)) (tasks : List (Task α)) :
    Prop where
  covers : (done ++ tasks.flatMap covers).Subperm all
  distinct : ∀ task ∈ tasks, task.Distinct
  ordered : post = true →
    (done.map (fun pair => spent pair.1 pair.2) ++ tasks).Pairwise Before

/-- The members of a tree are its root and those below it. -/
theorem ids_fresh (id parent : α) (below : Forest α) :
    (fresh id parent below).ids = id :: below.visit false := by
  -- The ids are those of the families that the entry covers.
  rw [ids, covers, List.map_cons, Forest.families_visit]

/-- The members of all of a forest are those in it. -/
theorem ids_whole (id : α) (below : Forest α) : (whole id below).ids = below.visit false := by
  -- The ids are those of the families that the entry covers.
  rw [ids, covers, Forest.families_visit]

/-- The members of the trees that are opened are below their parent, which differs from them. -/
theorem opened_distinct {id : α} {below : Forest α} {chosen : List (α × Forest α)}
    (distinct : (id :: below.visit false).Nodup) (selected : chosen.Subperm below.trees) :
    ∀ task ∈ opened id chosen, task.Distinct ∧ task.outer = id ∧ task.ids ⊆ below.visit false := by
  -- Each tree that is opened is one of those below the parent, with all its members.
  intro task member
  obtain ⟨tree, picked, rfl⟩ := List.mem_map.mp member
  have inside := Forest.tree_sublist (selected.subset picked)
  refine ⟨?_, rfl, ?_⟩
  · rw [Distinct, ids_fresh]
    exact distinct.sublist (inside.cons_cons id)
  · rw [ids_fresh]
    exact inside.subset

/-- An entry in its order is replaced with parts of it that are ordered among themselves. -/
theorem ordered_splice {front parts rest : List (Task α)} {task : Task α}
    (ordered : (front ++ task :: rest).Pairwise Before)
    (apart : ∀ above ∈ front, ∀ id ∈ task.ids, id ∉ above.ids)
    (inside : ∀ part ∈ parts, part.ids ⊆ task.ids ∧ (part.outer = task.outer ∨ part.outer ∈ task.ids))
    (among : parts.Pairwise Before) : (front ++ (parts ++ rest)).Pairwise Before := by
  obtain ⟨first, second, across⟩ := List.pairwise_append.mp ordered
  obtain ⟨under, last⟩ := List.pairwise_cons.mp second
  refine List.pairwise_append.mpr ⟨first, List.pairwise_append.mpr ⟨among, last, ?_⟩, ?_⟩
  · -- What is below the entry has no parent in it, and so none in a part of it.
    intro part member below later found
    exact under below later ((inside part member).1 found)
  · intro above member below later
    rcases List.mem_append.mp later with part | behind
    · obtain ⟨_, same | within⟩ := inside below part
      · rw [Before, same]
        exact across above member task List.mem_cons_self
      · exact apart above member _ within
    · exact across above member below (.tail _ behind)

/-- The entries that a tree is replaced with are ordered, and made of its members. -/
theorem opened_ordered {id : α} {below : Forest α} {chosen : List (α × Forest α)}
    (distinct : (id :: below.visit false).Nodup) (selected : chosen.Subperm below.trees) :
    (opened id chosen).Pairwise Before := by
  refine List.pairwise_of_forall_mem_list fun above member under later found => ?_
  obtain ⟨_, _, within⟩ := opened_distinct distinct selected above member
  obtain ⟨_, outer, _⟩ := opened_distinct distinct selected under later
  -- The parent of the one is that of the other, and is not among its own children.
  rw [outer] at found
  exact (List.nodup_cons.mp distinct).1 (within found)

variable {post : Bool} {all done : List (α × α)} {tasks later : List (Task α)}
  {out : Option (α × α)}

/-- A worklist starts with all of a forest. -/
theorem Kept.start {id : α} {below : Forest α} (distinct : (id :: below.visit false).Nodup) :
    Kept post (below.families id) [] [.whole id below] where
  covers := by
    -- The one entry covers all that there is.
    rw [List.flatMap_singleton]
    exact List.Subperm.refl _
  distinct := by
    intro task member
    cases List.mem_singleton.mp member
    rw [Distinct, ids_whole]
    exact distinct
  ordered := fun _ => List.pairwise_singleton _ _

/-- The members of an entry are none of those that were handed out. -/
theorem Kept.apart {task : Task α} {rest : List (Task α)} (unique : (all.map Prod.fst).Nodup)
    (kept : Kept post all done (task :: rest)) :
    ∀ above ∈ done.map (fun pair => spent pair.1 pair.2), ∀ id ∈ task.ids, id ∉ above.ids := by
  intro above member id within found
  obtain ⟨pair, handed, rfl⟩ := List.mem_map.mp member
  have same : id = pair.1 := List.mem_singleton.mp found
  -- Otherwise the member would occur twice among all of them.
  have nodup := nodup_map_of_subperm kept.covers unique
  rw [List.map_append, List.nodup_append] at nodup
  refine nodup.2.2 pair.1 (List.mem_map_of_mem handed) id ?_ same.symm
  rw [List.flatMap_cons, List.map_append]
  exact List.mem_append_left _ within

/-- An entry is replaced with parts of it that are distinct and ordered among themselves. -/
theorem Kept.replace {task : Task α} {parts rest : List (Task α)}
    (unique : (all.map Prod.fst).Nodup) (kept : Kept post all done (task :: rest))
    (covers : (done ++ (parts ++ rest).flatMap Task.covers).Subperm all)
    (distinct : ∀ part ∈ parts, part.Distinct)
    (inside : ∀ part ∈ parts, part.ids ⊆ task.ids ∧ (part.outer = task.outer ∨ part.outer ∈ task.ids))
    (among : parts.Pairwise Before) : Kept post all done (parts ++ rest) where
  covers := covers
  distinct := by
    intro part member
    -- An entry is one of the new ones or one of the rest.
    rcases List.mem_append.mp member with new | old
    · exact distinct part new
    · exact kept.distinct part (.tail _ old)
  ordered := fun order => ordered_splice (kept.ordered order) (kept.apart unique) inside among

/-- Every step keeps the invariant, with what it hands out. -/
theorem Step.kept (unique : (all.map Prod.fst).Nodup) (kept : Kept post all done tasks)
    (step : Step post tasks out later) : Kept post all (done ++ out.toList) later := by
  have covers : (done ++ out.toList ++ later.flatMap Task.covers).Subperm all := by
    rw [List.append_assoc]
    exact ((List.subperm_append_left done).mpr step.covers_le).trans kept.covers
  cases step with
  | @whole id below chosen rest selected =>
    rw [Option.toList_none, List.append_nil] at covers ⊢
    have own := ids_whole id below
    have distinct : (id :: below.visit false).Nodup := by
      rw [← own]
      exact kept.distinct _ List.mem_cons_self
    have parts := opened_distinct distinct selected
    refine kept.replace unique covers (fun part member => (parts part member).1)
      (fun part member => ⟨own ▸ (parts part member).2.2, Or.inl (parts part member).2.1⟩)
      (opened_ordered distinct selected)
  | @behind id parent below chosen rest order selected =>
    rw [Option.toList_none, List.append_nil] at covers ⊢
    have own := ids_fresh id parent below
    have all_distinct : (parent :: id :: below.visit false).Nodup := by
      rw [← own]
      exact kept.distinct _ List.mem_cons_self
    obtain ⟨above, distinct⟩ := List.nodup_cons.mp all_distinct
    have parts := opened_distinct distinct selected
    rw [← List.singleton_append, ← List.append_assoc] at covers ⊢
    -- The root comes back below its children, and its own parent is none of them.
    refine kept.replace unique covers (fun part member => ?_) (fun part member => ?_) ?_
    · rcases List.mem_append.mp member with child | root
      · exact (parts part child).1
      · cases List.mem_singleton.mp root
        have apart : parent ≠ id := fun same => above (same ▸ List.mem_cons_self)
        exact List.nodup_cons.mpr
          ⟨fun found => apart (List.mem_singleton.mp found), List.nodup_singleton id⟩
    · rw [own]
      rcases List.mem_append.mp member with child | root
      · obtain ⟨_, outer, within⟩ := parts part child
        exact ⟨fun seen member => .tail _ (within member), Or.inr (outer ▸ List.mem_cons_self)⟩
      · cases List.mem_singleton.mp root
        exact ⟨List.cons_subset.mpr ⟨List.mem_cons_self, List.nil_subset _⟩, Or.inl rfl⟩
    · refine List.pairwise_append.mpr ⟨opened_ordered distinct selected,
        List.pairwise_singleton _ _, fun child member root found same => ?_⟩
      cases List.mem_singleton.mp found
      exact above (.tail _ ((parts child member).2.2 same))
  | @before id parent below chosen rest out order selected handed =>
    have all_distinct : (parent :: id :: below.visit false).Nodup := by
      rw [← ids_fresh]
      exact kept.distinct _ List.mem_cons_self
    have parts := opened_distinct (List.nodup_cons.mp all_distinct).2 selected
    refine ⟨covers, fun task member => ?_, fun post => nomatch order.symm.trans post⟩
    rcases List.mem_append.mp member with new | old
    · exact (parts task new).1
    · exact kept.distinct task (.tail _ old)
  | @spent id parent rest =>
    refine ⟨covers, fun task member => kept.distinct task (.tail _ member), fun order => ?_⟩
    have line := kept.ordered order
    rw [Option.toList_some, List.map_append, List.append_assoc]
    exact line

/-- In post order none of what was handed out has its parent in front of it. -/
theorem Kept.children_first (kept : Kept post all done tasks) (order : post = true) :
    done.Pairwise fun earlier later => later.2 ≠ earlier.1 := by
  -- The order of what was handed out says it of each pair.
  have line := (List.pairwise_append.mp (kept.ordered order)).1
  rw [List.pairwise_map] at line
  refine line.imp fun before same => before ?_
  exact List.mem_singleton.mpr same

/-- What was handed out are members with their parents, and none of them twice. -/
theorem Kept.selected (kept : Kept post all done tasks) : done.Subperm all :=
  (List.sublist_append_left _ _).subperm.trans kept.covers

end Task

end Libbtrfs
