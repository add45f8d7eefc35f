import Mathlib.Data.List.Basic
import Mathlib.Data.List.Perm.Basic
import Mathlib.Data.List.Pairwise

/-! Ordered forests, their two depth-first orders, and the same forests seen from the other end. -/

namespace Libbtrfs

/-- A list of trees: the first tree by its root and its children, and the trees behind it. -/
inductive Forest (α : Type) where
  | nil
  | cons (root : α) (children rest : Forest α)

namespace Forest

variable {α : Type}

/-- The roots of the trees, in their order. -/
def roots : Forest α → List α
  | nil => []
  | cons root _ rest => root :: rest.roots

/-- Depth first, with every root in front of its children or, in post order, behind them. -/
def visit (post : Bool) : Forest α → List α
  | nil => []
  | cons root children rest =>
    (if post then children.visit post ++ [root] else root :: children.visit post) ++
      rest.visit post

/-- The trees of two forests, one after the other. -/
def append : Forest α → Forest α → Forest α
  | nil, other => other
  | cons root children rest, other => cons root children (rest.append other)

/-- The forest with the children of every root, and the roots themselves, in reverse order. -/
def mirror : Forest α → Forest α
  | nil => nil
  | cons root children rest => rest.mirror.append (cons root children.mirror nil)

/-- A tree for each item, of its root and what is below it. -/
def graft {β : Type} (root : β → α) (below : β → Forest α) : List β → Forest α
  | [] => nil
  | item :: items => cons (root item) (below item) (graft root below items)

/-- The trees, each as its root and what is below that. -/
def trees : Forest α → List (α × Forest α)
  | nil => []
  | cons root children rest => (root, children) :: rest.trees

/-- The members with their parents, where the parent of the roots is given. -/
def families (parent : α) : Forest α → List (α × α)
  | nil => []
  | cons root children rest =>
    (root, parent) :: (children.families root ++ rest.families parent)

/-- A relation holds between each root and every later one that has the same parent. -/
def Siblings (Before : α → α → Prop) : Forest α → Prop
  | nil => True
  | cons root children rest =>
    (∀ later ∈ rest.roots, Before root later) ∧ children.Siblings Before ∧ rest.Siblings Before

/-- The roots of two forests, one after the other. -/
theorem roots_append (one other : Forest α) :
    (one.append other).roots = one.roots ++ other.roots := by
  -- The second forest takes the place of the end of the first one.
  induction one with
  | nil => rfl
  | cons root children rest _ ih =>
    rw [append, roots, roots, ih, List.cons_append]

/-- Seen from the other end the roots come in reverse order. -/
theorem roots_mirror (forest : Forest α) : forest.mirror.roots = forest.roots.reverse := by
  -- Mirroring takes the first tree to the end and turns what is below it.
  induction forest with
  | nil => rfl
  | cons root children rest _ ih =>
    rw [mirror, roots_append, ih, roots, roots, roots, List.reverse_cons]

/-- The roots of the trees are those of the items. -/
theorem roots_graft {β : Type} (root : β → α) (below : β → Forest α) (items : List β) :
    (graft root below items).roots = items.map root := by
  -- The items give one tree each, in their order.
  induction items with
  | nil => rfl
  | cons item rest ih => rw [graft, roots, ih, List.map_cons]

/-- In post order, what is below the root of an item comes in front of the root. -/
theorem visit_graft {β : Type} (root : β → α) (below : β → Forest α) (items : List β) :
    (graft root below items).visit true =
      items.flatMap fun item => (below item).visit true ++ [root item] := by
  -- The trees of the items are visited one after the other.
  induction items with
  | nil => rfl
  | cons item rest ih => rw [graft, visit, ih, if_pos rfl, List.flatMap_cons]

/-- The members of two forests, one after the other. -/
theorem visit_append (post : Bool) (one other : Forest α) :
    (one.append other).visit post = one.visit post ++ other.visit post := by
  -- The second forest is visited where the first one ends.
  induction one with
  | nil => rfl
  | cons root children rest _ ih =>
    rw [append, visit, visit, ih, List.append_assoc]

/-- In either order a forest has the same members. -/
theorem visit_perm (post : Bool) (forest : Forest α) :
    (forest.visit post).Perm (forest.visit false) := by
  -- Behind its children a root is the same member as in front of them.
  induction forest with
  | nil => exact List.Perm.refl _
  | cons root children rest first second =>
    refine List.Perm.append ?_ second
    cases post with
    | false => exact List.Perm.refl _
    | true => exact (List.perm_append_singleton _ _).trans (first.cons root)

/-- Seen from the other end a forest has the same members. -/
theorem mirror_perm (forest : Forest α) :
    (forest.mirror.visit false).Perm (forest.visit false) := by
  -- Only the order of siblings changes, at every level of the forest.
  induction forest with
  | nil => exact List.Perm.refl _
  | cons root children rest first second =>
    rw [mirror, visit_append]
    refine List.perm_append_comm.trans (List.Perm.append ?_ second)
    rw [visit, visit, List.append_nil]
    exact first.cons root

/-- A relation between the siblings of two forests holds in both of them and across. -/
theorem Siblings.append {Before : α → α → Prop} {one other : Forest α}
    (first : one.Siblings Before) (second : other.Siblings Before)
    (across : ∀ earlier ∈ one.roots, ∀ later ∈ other.roots, Before earlier later) :
    (one.append other).Siblings Before := by
  -- A root of the first forest has new siblings behind it, those of the second one.
  induction one with
  | nil => exact second
  | cons root children rest _ ih =>
    obtain ⟨head, below, behind⟩ := first
    refine ⟨?_, below, ih behind fun earlier member => across earlier (List.mem_cons_of_mem _ member)⟩
    intro later member
    rw [roots_append] at member
    rcases List.mem_append.mp member with inside | outside
    · exact head later inside
    · exact across root List.mem_cons_self later outside

/-- Seen from the other end the siblings are related the other way round. -/
theorem Siblings.mirror {Before : α → α → Prop} {forest : Forest α}
    (siblings : forest.Siblings Before) :
    forest.mirror.Siblings fun earlier later => Before later earlier := by
  -- The first root goes behind all others, which are then the earlier ones.
  induction forest with
  | nil => trivial
  | cons root children rest first second =>
    obtain ⟨head, below, behind⟩ := siblings
    refine (second behind).append ⟨?_, first below, trivial⟩ ?_
    · intro later member
      cases member
    · intro earlier inside later outside
      rw [roots_mirror] at inside
      rw [List.mem_singleton.mp outside]
      exact head earlier (List.mem_reverse.mp inside)

/-- The roots of the trees are the roots. -/
theorem trees_roots (forest : Forest α) : forest.trees.map Prod.fst = forest.roots := by
  -- Every tree has its root in front.
  induction forest with
  | nil => rfl
  | cons root children rest _ ih => rw [trees, List.map_cons, ih, roots]

/-- The members with their parents are, tree by tree, the root and what is below it. -/
theorem families_trees (parent : α) (forest : Forest α) :
    forest.families parent =
      forest.trees.flatMap fun tree => (tree.1, parent) :: tree.2.families tree.1 := by
  -- The trees come one after the other.
  induction forest generalizing parent with
  | nil => rfl
  | cons root children rest _ ih =>
    rw [families, trees, List.flatMap_cons, ih parent, List.cons_append]

/-- Each member has one parent. -/
theorem families_visit (parent : α) (forest : Forest α) :
    (forest.families parent).map Prod.fst = forest.visit false := by
  -- Both go depth first, with every root in front of its children.
  induction forest generalizing parent with
  | nil => rfl
  | cons root children rest first second =>
    rw [families, List.map_cons, List.map_append, first root, second parent]
    rfl

/-- The members of a tree are among those of the forest, in the same order. -/
theorem tree_sublist {forest below : Forest α} {root : α} (inside : (root, below) ∈ forest.trees) :
    (root :: below.visit false).Sublist (forest.visit false) := by
  -- The induction is on the trees of the forest, of which one is the tree.
  induction forest with
  | nil => exact nomatch inside
  | cons first children rest _ ih =>
    rcases List.mem_cons.mp inside with same | later
    · cases same
      exact List.sublist_append_left _ _
    · exact (ih later).trans (List.sublist_append_right _ _)

end Forest

end Libbtrfs
