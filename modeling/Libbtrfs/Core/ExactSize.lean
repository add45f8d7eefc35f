import Mathlib.Logic.Function.Iterate

/-! Iterators that know how many items are left: what they yield, call by call. -/

namespace Libbtrfs

/-- The two operations of an iterator that knows its length. -/
structure ExactSize (I α : Type) where
  next : I → Option α × I
  len : I → Nat

namespace ExactSize

variable {I α : Type} (ops : ExactSize I α)

/-- The iterator after a number of calls of `next`. -/
def after (calls : Nat) (iter : I) : I := (fun iter => (ops.next iter).2)^[calls] iter

/-- The items come one a call, nothing comes behind them, and the length is right before each call. -/
def Yields (iter : I) (items : List α) : Prop :=
  ∀ calls, (ops.next (ops.after calls iter)).1 = items[calls]? ∧
    ops.len (ops.after calls iter) = items.length - calls

/-- The first of several calls is made on the iterator itself. -/
theorem after_succ (calls : Nat) (iter : I) :
    ops.after (calls + 1) iter = ops.after calls (ops.next iter).2 := rfl

/-- An invariant that every call keeps, and that tells the next item and the length, is enough. -/
theorem yields_of_invariant {Holds : I → List α → Prop}
    (finished : ∀ iter, Holds iter [] →
      (ops.next iter).1 = none ∧ ops.len iter = 0 ∧ Holds (ops.next iter).2 [])
    (goes_on : ∀ iter item items, Holds iter (item :: items) →
      (ops.next iter).1 = some item ∧ ops.len iter = (item :: items).length ∧
        Holds (ops.next iter).2 items)
    {iter : I} {items : List α} (holds : Holds iter items) : ops.Yields iter items := by
  intro calls
  -- The induction is on the calls, each of which takes the first item off the list.
  induction calls generalizing iter items with
  | zero =>
    cases items with
    | nil => exact ⟨(finished iter holds).1, (finished iter holds).2.1⟩
    | cons item items =>
      obtain ⟨yielded, length, _⟩ := goes_on iter item items holds
      exact ⟨yielded, length⟩
  | succ calls ih =>
    rw [after_succ]
    cases items with
    | nil =>
      have later := ih (finished iter holds).2.2
      rw [List.length_nil, Nat.zero_sub] at later ⊢
      exact later
    | cons item items =>
      have later := ih (goes_on iter item items holds).2.2
      rw [List.getElem?_cons_succ, List.length_cons, Nat.add_sub_add_right]
      exact later

/-- What an iterator yields is determined by it. -/
theorem Yields.unique {iter : I} {one other : List α} (first : ops.Yields iter one)
    (second : ops.Yields iter other) : one = other := by
  -- Both lists have what the call of the same number returns.
  apply List.ext_getElem?
  intro calls
  rw [← (first calls).1, (second calls).1]

end ExactSize

end Libbtrfs
