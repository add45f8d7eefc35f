import Libbtrfs.TreeSearch.Builder

/-! The comparisons between the id of a tree and a number, in both directions. -/

namespace Libbtrfs.Search

namespace TreeId

/-- `<TreeId as PartialEq<u64>>::eq`. -/
def eq (self : TreeId) (other : UInt64) : Bool := self.toUInt64 == other

/-- `<TreeId as PartialOrd<u64>>::partial_cmp`. -/
def partialCmp (self : TreeId) (other : UInt64) : Option Ordering :=
  some (compare self.toUInt64 other)

/-- `<TreeId as PartialOrd<u64>>::lt`, as the trait provides it. -/
def lt (self : TreeId) (other : UInt64) : Bool := self.partialCmp other == some .lt

end TreeId

namespace U64

/-- `<u64 as PartialEq<TreeId>>::eq`. -/
def eq (self : UInt64) (other : TreeId) : Bool := other.toUInt64 == self

/-- `<u64 as PartialOrd<TreeId>>::partial_cmp`, which has the number on the right-hand side. -/
def partialCmp (self : UInt64) (other : TreeId) : Option Ordering :=
  some (compare other.toUInt64 self)

/-- `<u64 as PartialOrd<TreeId>>::lt`, as the trait provides it. -/
def lt (self : UInt64) (other : TreeId) : Bool := partialCmp self other == some .lt

end U64

/-- The four comparisons of a tree with two numbers are those of one order. -/
structure OneOrder (a b : UInt64) (t : TreeId) : Prop where
  reversed : U64.partialCmp a t = (t.partialCmp a).map Ordering.swap
  numeric : U64.partialCmp a t = some (compare a t.toUInt64)
  tree_numeric : t.partialCmp a = some (compare t.toUInt64 a)
  equal : U64.eq a t = t.eq a
  numeric_equal : t.eq a = true ↔ a = t.toUInt64
  transitive : U64.lt a t = true → t.lt b = true → a < b

/-- An ordering that is its own reverse is that of equal values. -/
theorem swap_eq_self_iff (ordering : Ordering) : ordering.swap = ordering ↔ ordering = .eq := by
  -- There are three orderings.
  cases ordering <;> decide

/-- Both directions of the equality look at the same two numbers. -/
theorem eq_iff (a : UInt64) (t : TreeId) :
    (t.eq a = true ↔ a = t.toUInt64) ∧ U64.eq a t = t.eq a := by
  -- The equality of numbers is symmetric.
  refine ⟨?_, rfl⟩
  rw [TreeId.eq, beq_iff_eq]
  exact eq_comm

/-- A number is taken to be less than a tree when it is greater. -/
theorem u64_lt_iff (a : UInt64) (t : TreeId) : U64.lt a t = true ↔ t.toUInt64 < a := by
  -- The number is compared from the side of the tree.
  rw [U64.lt, U64.partialCmp, beq_iff_eq, Option.some_inj]
  exact compareOfLessAndEq_eq_lt

/-- A tree is less than a number when its id is. -/
theorem treeId_lt_iff (t : TreeId) (b : UInt64) : t.lt b = true ↔ t.toUInt64 < b := by
  -- The number is compared from the side of the tree.
  rw [TreeId.lt, TreeId.partialCmp, beq_iff_eq, Option.some_inj]
  exact compareOfLessAndEq_eq_lt

/-- Two comparisons lead from a number past a tree to a number that is not greater, or never do. -/
theorem lt_chain_iff (a b : UInt64) (t : TreeId) :
    (U64.lt a t = true → t.lt b = true → a < b) ↔ ¬ (t.toUInt64 < b ∧ b ≤ a) := by
  -- Both of the comparisons pass exactly above the id of the tree.
  rw [u64_lt_iff, treeId_lt_iff]
  simp only [UInt64.lt_iff_toNat_lt, UInt64.le_iff_toNat_le]
  omega

/-- The comparisons are those of one order exactly for the number that is the id of the tree. -/
theorem oneOrder_iff (a b : UInt64) (t : TreeId) : OneOrder a b t ↔ a = t.toUInt64 := by
  refine ⟨fun order => ?_, fun same => ?_⟩
  · -- The two directions return the same ordering, which would have to be its own reverse.
    have dual := order.reversed
    rw [U64.partialCmp, TreeId.partialCmp, Option.map_some, Option.some_inj] at dual
    have equal := (swap_eq_self_iff _).mp dual.symm
    exact (Std.LawfulEqOrd.eq_of_compare equal).symm
  · subst same
    have equal : compare t.toUInt64 t.toUInt64 = .eq := Std.ReflOrd.compare_self
    refine ⟨?_, rfl, rfl, rfl, (eq_iff _ t).1, fun less => ?_⟩
    · rw [U64.partialCmp, TreeId.partialCmp, equal]
      rfl
    · -- Nothing is less than itself.
      rw [u64_lt_iff] at less
      exact absurd less (UInt64.lt_irrefl _)

/-- The comparisons of 6 with the tree whose id is 5 contradict each other. -/
theorem oneOrder_fsTree :
    U64.lt 6 .fsTree = true ∧ TreeId.lt .fsTree 6 = true ∧ ¬ OneOrder 6 6 .fsTree := by
  refine ⟨rfl, rfl, fun order => ?_⟩
  -- The number would be less than itself.
  exact UInt64.lt_irrefl _ (order.transitive rfl rfl)

end Libbtrfs.Search
