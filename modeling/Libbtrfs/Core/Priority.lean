import Mathlib.Data.List.Perm.Basic

/-! Tests that are made one after the other, of which the first one that is passed decides. -/

namespace Libbtrfs

section Priority

variable {α β : Type} {test : α → Bool} {items : List α} {item : α}

/-- An item that passes can be put in front, where it decides. -/
theorem exists_perm_decides (inside : item ∈ items) (passes : test item = true) :
    ∃ order : List α, order.Perm items ∧ order.find? test = some item := by
  -- The items around it follow in the order that they had.
  obtain ⟨front, behind, rfl⟩ := List.append_of_mem inside
  refine ⟨item :: (front ++ behind), List.perm_middle.symm, ?_⟩
  rw [List.find?_cons, passes]

/-- When no two items pass, the same one decides in every order. -/
theorem find?_perm {order : List α} (perm : order.Perm items)
    (single : ∀ one ∈ items, ∀ other ∈ items, test one = true → test other = true → one = other) :
    order.find? test = items.find? test := by
  -- Each of the two is an item that passes, or says that there is none.
  cases found : items.find? test with
  | none =>
    rw [List.find?_eq_none] at found ⊢
    exact fun item member => found item (perm.mem_iff.mp member)
  | some one =>
    have member := List.mem_of_find?_eq_some found
    have passes := List.find?_some found
    cases other : order.find? test with
    | none => exact absurd passes (List.find?_eq_none.mp other one (perm.mem_iff.mpr member))
    | some two =>
      have there := perm.mem_iff.mp (List.mem_of_find?_eq_some other)
      rw [single two there one member (List.find?_some other) passes]

/-- The order of the tests does not matter exactly when no two items pass. -/
theorem order_irrelevant_iff (value : Option α → β)
    (tells : ∀ one ∈ items, ∀ other ∈ items, value (some one) = value (some other) → one = other) :
    (∀ order : List α, order.Perm items → value (order.find? test) = value (items.find? test)) ↔
      ∀ one ∈ items, ∀ other ∈ items, test one = true → test other = true → one = other := by
  constructor
  · intro same one first other second passes passed
    -- In front of all others, either of the two decides.
    obtain ⟨order, perm, decides⟩ := exists_perm_decides first passes
    obtain ⟨swapped, perm', decides'⟩ := exists_perm_decides second passed
    have equal := (same order perm).trans (same swapped perm').symm
    rw [decides, decides'] at equal
    exact tells one first other second equal
  · intro single order perm
    rw [find?_perm perm single]

end Priority

end Libbtrfs
