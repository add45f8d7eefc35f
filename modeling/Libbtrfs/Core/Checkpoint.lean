/-! A counter that is published whenever it enters another block, and how far behind that may lag. -/

namespace Libbtrfs

/-- What was published of a counter lies in the block that the counter is in, and not behind it. -/
structure Checkpoint (size published counter : Nat) : Prop where
  behind : published ≤ counter
  block : published / size = counter / size

namespace Checkpoint

variable {size published counter moved : Nat}

/-- A counter that is published as it is. -/
theorem current (size counter : Nat) : Checkpoint size counter counter := ⟨Nat.le_refl _, rfl⟩

/-- The published value stays good while the counter moves on in its block. -/
theorem stay (checkpoint : Checkpoint size published counter) (moves : counter ≤ moved)
    (same : counter / size = moved / size) : Checkpoint size published moved :=
  ⟨Nat.le_trans checkpoint.behind moves, checkpoint.block.trans same⟩

/-- What was published lags by less than a block. -/
theorem lag (checkpoint : Checkpoint size published counter) (positive : 0 < size) :
    counter - published < size := by
  -- Both lie between the same two multiples of the size.
  have low := Nat.div_mul_le_self published size
  have high : counter < counter / size * size + size := Nat.lt_div_mul_add positive
  rw [checkpoint.block] at low
  omega

end Checkpoint

end Libbtrfs
