import Libbtrfs.Core.Bytes

/-! A bounded first-in first-out ring between one producer and one consumer. -/

namespace Libbtrfs

/-- A ring holds at most its capacity, and knows whether its producer has gone. -/
structure Ring (α : Type) (capacity : Nat) where
  items : List α
  fits : items.length ≤ capacity
  abandoned : Bool

namespace Ring

variable {α : Type} {capacity : Nat}

/-- A fresh ring is empty and has both of its ends. -/
def empty : Ring α capacity := ⟨[], Nat.zero_le _, false⟩

/-- Pushing puts an item behind all others, unless the ring is full. -/
def push (ring : Ring α capacity) (item : α) : Option (Ring α capacity) :=
  if room : ring.items.length < capacity then
    some ⟨ring.items ++ [item], by rw [List.length_append]; exact room, ring.abandoned⟩
  else none

/-- Popping takes the oldest item, unless the ring is empty. -/
def pop (ring : Ring α capacity) : Option (α × Ring α capacity) :=
  match held : ring.items with
  | [] => none
  | item :: rest =>
    some (item, ⟨rest, Nat.le_of_succ_le (by simpa [held] using ring.fits), ring.abandoned⟩)

/-- Dropping the producer's end leaves the items for the consumer to find. -/
def abandon (ring : Ring α capacity) : Ring α capacity := { ring with abandoned := true }

@[simp] theorem empty_items : (empty : Ring α capacity).items = [] := rfl
@[simp] theorem empty_abandoned : (empty : Ring α capacity).abandoned = false := rfl
@[simp] theorem abandon_items (ring : Ring α capacity) : ring.abandon.items = ring.items := rfl

/-- A push that succeeds appends exactly the pushed item. -/
theorem push_some {ring pushed : Ring α capacity} {item : α}
    (done : ring.push item = some pushed) :
    pushed.items = ring.items ++ [item] ∧ pushed.abandoned = ring.abandoned := by
  -- Only the branch with room answers with a ring.
  unfold push at done
  split at done
  · cases done; exact ⟨rfl, rfl⟩
  · cases done

/-- A push that succeeds makes the ring one item longer. -/
theorem push_length {ring pushed : Ring α capacity} {item : α}
    (done : ring.push item = some pushed) :
    pushed.items.length = ring.items.length + 1 := by
  -- The item is appended to the others.
  rw [(push_some done).1, List.length_append, List.length_singleton]

/-- A push fails only on a ring that is full. -/
theorem push_none {ring : Ring α capacity} {item : α} (full : ring.push item = none) :
    ring.items.length = capacity := by
  -- The branch without room is the one that answers with nothing.
  unfold push at full
  split at full
  · cases full
  · rename_i room
    have := ring.fits
    omega

/-- A push into a ring with room succeeds. -/
theorem push_room {ring : Ring α capacity} (item : α) (room : ring.items.length < capacity) :
    ∃ pushed, ring.push item = some pushed := by
  -- The check for room is the only one there is.
  unfold push
  rw [dif_pos room]
  exact ⟨_, rfl⟩

/-- A pop that finds an item takes it from the front and keeps the rest in order. -/
theorem pop_some {ring rest : Ring α capacity} {item : α} (found : ring.pop = some (item, rest)) :
    ring.items = item :: rest.items ∧ rest.abandoned = ring.abandoned := by
  -- The ring was not empty, and its head is what was handed out.
  unfold pop at found
  split at found
  · cases found
  · rename_i held
    cases found
    exact ⟨held, rfl⟩

/-- A pop that finds an item makes the ring one item shorter. -/
theorem pop_length {ring rest : Ring α capacity} {item : α} (found : ring.pop = some (item, rest)) :
    ring.items.length = rest.items.length + 1 := by
  -- The item was the first of them.
  rw [(pop_some found).1, List.length_cons]

/-- A pop finds nothing only in an empty ring. -/
theorem pop_none {ring : Ring α capacity} (nothing : ring.pop = none) : ring.items = [] := by
  -- A ring with a head would have handed it out.
  unfold pop at nothing
  split at nothing
  · assumption
  · cases nothing

/-- A push into a ring that is given by its items. -/
theorem push_items {items : List α} {fits : items.length ≤ capacity} {abandoned : Bool} (item : α)
    (room : (items ++ [item]).length ≤ capacity) :
    push ⟨items, fits, abandoned⟩ item = some ⟨items ++ [item], room, abandoned⟩ := by
  -- The room is what the check of the push asks for.
  have inside : items.length < capacity := by
    rw [List.length_append, List.length_singleton] at room
    omega
  unfold push
  rw [dif_pos inside]

/-- A pop from a ring that is given by its items. -/
theorem pop_items {item : α} {rest : List α} {fits : (item :: rest).length ≤ capacity}
    {abandoned : Bool} :
    pop ⟨item :: rest, fits, abandoned⟩ =
      some (item, ⟨rest, Nat.le_of_succ_le fits, abandoned⟩) := rfl

end Ring

end Libbtrfs
