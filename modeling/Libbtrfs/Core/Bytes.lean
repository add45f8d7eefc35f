import Mathlib.Data.Nat.Basic
import Mathlib.Tactic.Ring

/-! Byte strings, checked slices of them, and little-endian integers of a fixed width. -/

namespace Libbtrfs

/-- A byte string, held as the list of its bytes. -/
abbrev Bytes := List UInt8

/-- The half-open interval of a slice, or nothing when the bounds do not lie inside it. -/
def getRange {α : Type} (items : List α) (start stop : Nat) : Option (List α) :=
  -- Both checks of a slice index: the bounds are ordered and the upper one is inside.
  if start ≤ stop ∧ stop ≤ items.length then some ((items.drop start).take (stop - start))
  else none

/-- A slice taken inside the bounds has exactly the width between them. -/
theorem getRange_length {α : Type} {items part : List α} {start stop : Nat}
    (taken : getRange items start stop = some part) :
    part.length = stop - start ∧ start ≤ stop ∧ stop ≤ items.length := by
  -- The bounds check is what makes the window as wide as it was asked to be.
  unfold getRange at taken
  split at taken
  · rename_i inside
    cases taken
    refine ⟨?_, inside⟩
    rw [List.length_take, List.length_drop]
    omega
  · cases taken

/-- Slicing from a position on is slicing the rest of the string from its front. -/
theorem getRange_drop {α : Type} (items : List α) {start : Nat}
    (inside : start ≤ items.length) (offset width : Nat) :
    getRange items (start + offset) (start + offset + width) =
      getRange (items.drop start) offset (offset + width) := by
  -- Both sides check the same two bounds, seen from two origins.
  simp only [getRange, List.length_drop, List.drop_drop, Nat.add_sub_cancel_left]
  congr 1
  apply propext
  omega

/-- A window right behind a leading part is the part that follows. -/
theorem getRange_middle {α : Type} (front part back : List α) {start stop : Nat}
    (starts : front.length = start) (stops : start + part.length = stop) :
    getRange (front ++ (part ++ back)) start stop = some part := by
  -- Dropping the leading part puts the wanted one at the front of what is left.
  subst starts stops
  simp [getRange]

/-- A window behind a position is found in what is left of the string from there. -/
theorem getRange_at {α : Type} (front part : List α) {items back : List α} {start first stop : Nat}
    (inside : start ≤ items.length) (rest : items.drop start = front ++ (part ++ back))
    (starts : start + front.length = first) (stops : first + part.length = stop) :
    getRange items first stop = some part := by
  -- Seen from the position, the window is right behind the leading part.
  subst starts stops
  rw [getRange_drop items inside, rest]
  exact getRange_middle front part back rfl rfl

/-- A window that reaches past the end of the string is refused. -/
theorem getRange_past {α : Type} {items : List α} {start stop : Nat}
    (past : items.length < stop) : getRange items start stop = none := by
  -- The upper bound alone fails the check.
  simp [getRange, Nat.not_le.mpr past]

/-- The little-endian bytes of a value, as many as the width asks for. -/
def leBytes : Nat → Nat → Bytes
  | 0, _ => []
  -- The low byte comes first, and the rest of the value follows in the remaining width.
  | width + 1, value => UInt8.ofNat (value % 256) :: leBytes width (value / 256)

/-- The value a run of little-endian bytes stands for. -/
def leNat : Bytes → Nat
  | [] => 0
  | byte :: rest => byte.toNat + 256 * leNat rest

/-- A value is written in exactly the width it was given. -/
@[simp] theorem leBytes_length (width value : Nat) : (leBytes width value).length = width := by
  -- One byte is written for every step of the width.
  induction width generalizing value with
  | zero => rfl
  | succ width ih => simp [leBytes, ih]

/-- A value that fits its width is read back as it was written. -/
theorem leNat_leBytes {width value : Nat} (fits : value < 256 ^ width) :
    leNat (leBytes width value) = value := by
  -- What is left after the low byte still fits the width that is left.
  induction width generalizing value with
  | zero =>
    simp only [Nat.pow_zero, Nat.lt_one_iff] at fits
    simp [leBytes, leNat, fits]
  | succ width ih =>
    have tail : value / 256 < 256 ^ width := by
      rw [Nat.pow_succ] at fits
      omega
    have low : (UInt8.ofNat (value % 256)).toNat = value % 256 := by simp
    simp only [leBytes, leNat, low, ih tail]
    omega

/-- A run of bytes never stands for more than its width can hold. -/
theorem leNat_lt (bytes : Bytes) : leNat bytes < 256 ^ bytes.length := by
  -- Each byte contributes one factor of 256, and every byte is below it.
  induction bytes with
  | nil => simp [leNat]
  | cons byte rest ih =>
    have small := byte.toNat_lt
    simp only [leNat, List.length_cons, Nat.pow_succ]
    omega

/-- Writing back the value of a run of bytes gives the same run. -/
theorem leBytes_leNat (bytes : Bytes) : leBytes bytes.length (leNat bytes) = bytes := by
  -- The low byte is the remainder by 256, and the quotient is the value of the rest.
  induction bytes with
  | nil => rfl
  | cons byte rest ih =>
    have small : byte.toNat < 256 := byte.toNat_lt
    have low : (byte.toNat + 256 * leNat rest) % 256 = byte.toNat := by omega
    have high : (byte.toNat + 256 * leNat rest) / 256 = leNat rest := by omega
    simp only [List.length_cons, leBytes, leNat, low, high, ih, UInt8.ofNat_toNat]

end Libbtrfs
