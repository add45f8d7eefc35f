import Mathlib.Data.List.Basic
import Mathlib.Logic.Function.Iterate

/-! A buffer that is filled from its end towards its front, and doubled when there is no room left. -/

namespace Libbtrfs

/-- A buffer, and the position from which on it is in use. -/
structure Backward (α : Type) where
  buf : List α
  pos : Nat
  inside : pos ≤ buf.length
  room : 0 < buf.length

namespace Backward

variable {α : Type}

/-- The part of the buffer that is in use. -/
def kept (back : Backward α) : List α := back.buf.drop back.pos

/-- The buffer with a copy of itself behind it, and the position that much further on. -/
def double (back : Backward α) : Backward α where
  buf := back.buf ++ back.buf
  pos := back.pos + back.buf.length
  inside := by
    rw [List.length_append]
    exact Nat.add_le_add_right back.inside _
  room := by
    rw [List.length_append]
    exact Nat.add_pos_left back.room _

/-- The buffer is doubled until some room is in front of its position. -/
def grow (needed : Nat) (back : Backward α) : Backward α :=
  if needed > back.pos then grow needed back.double else back
termination_by needed - back.pos
decreasing_by
  have moved := back.room
  simp only [double]
  omega

/-- The position moves towards the front. -/
def retreat (count : Nat) (back : Backward α) (_fits : count ≤ back.pos) : Backward α where
  buf := back.buf
  pos := back.pos - count
  inside := Nat.le_trans (Nat.sub_le _ _) back.inside
  room := back.room

/-- Values are written over those from an offset behind the position on, all inside the buffer. -/
def write (offset : Nat) (values : List α) (back : Backward α)
    (ends : back.pos + offset + values.length ≤ back.buf.length) : Backward α where
  buf := back.buf.take (back.pos + offset) ++ values ++
    back.buf.drop (back.pos + offset + values.length)
  pos := back.pos
  inside := by
    rw [List.length_append, List.length_append, List.length_take, List.length_drop]
    omega
  room := by
    have room := back.room
    rw [List.length_append, List.length_append, List.length_take, List.length_drop]
    omega

/-- A copy behind the buffer leaves what was in use as it was. -/
theorem kept_double (back : Backward α) : back.double.kept = back.kept := by
  -- The position moves by the length of the buffer, onto the same place of the copy.
  show (back.buf ++ back.buf).drop (back.pos + back.buf.length) = back.buf.drop back.pos
  rw [Nat.add_comm, ← List.drop_drop, List.drop_left]

/-- Growing doubles the buffer a number of times, and stops as soon as the room suffices. -/
theorem grow_eq (needed : Nat) (back : Backward α) :
    ∃ times, back.grow needed = double^[times] back ∧ needed ≤ (back.grow needed).pos ∧
      ∀ fewer < times, (double^[fewer] back).pos < needed := by
  -- The induction is on the rounds of the loop.
  fun_induction grow needed back with
  | case1 back short ih =>
    obtain ⟨times, same, enough, before⟩ := ih
    refine ⟨times + 1, same, enough, fun fewer less => ?_⟩
    cases fewer with
    | zero => exact short
    | succ fewer => exact before fewer (Nat.lt_of_succ_lt_succ less)
  | case2 back enough => exact ⟨0, rfl, Nat.le_of_not_lt enough, fun fewer none => nomatch none⟩

/-- Growing leaves what was in use as it was. -/
theorem kept_grow (needed : Nat) (back : Backward α) : (back.grow needed).kept = back.kept := by
  -- The induction is on the rounds of the loop, each of which doubles the buffer.
  fun_induction grow needed back with
  | case1 back short ih => rw [ih, kept_double]
  | case2 back enough => rfl

/-- Behind a retreat by some count, what was in use follows that many values. -/
theorem drop_retreat {count : Nat} (back : Backward α) (fits : count ≤ back.pos) :
    (back.retreat count fits).kept.drop count = back.kept := by
  -- Both are what is left of one buffer behind the same place.
  rw [kept, kept, List.drop_drop, retreat, Nat.sub_add_cancel fits]

/-- Writing changes just the values at its offset in what is in use. -/
theorem kept_write {offset : Nat} {values : List α} (back : Backward α)
    (ends : back.pos + offset + values.length ≤ back.buf.length) :
    (back.write offset values ends).kept =
      back.kept.take offset ++ values ++ back.kept.drop (offset + values.length) := by
  show (back.buf.take (back.pos + offset) ++ values ++
    back.buf.drop (back.pos + offset + values.length)).drop back.pos = _
  have front : (back.buf.take (back.pos + offset)).drop back.pos = back.kept.take offset := by
    rw [List.drop_take, kept, Nat.add_sub_cancel_left]
  have reached : back.pos ≤ (back.buf.take (back.pos + offset)).length := by
    rw [List.length_take]
    omega
  -- The position lies in the part in front of the values, so it is dropped from that alone.
  rw [List.append_assoc, List.drop_append_of_le_length reached, front, ← List.append_assoc, kept,
    List.drop_drop, Nat.add_assoc]

/-- Writing leaves the buffer as long as it was. -/
theorem length_write {offset : Nat} {values : List α} (back : Backward α)
    (ends : back.pos + offset + values.length ≤ back.buf.length) :
    (back.write offset values ends).buf.length = back.buf.length := by
  -- The values are put in place of as many that were there.
  show (back.buf.take (back.pos + offset) ++ values ++
    back.buf.drop (back.pos + offset + values.length)).length = _
  rw [List.length_append, List.length_append, List.length_take, List.length_drop]
  omega

/-- The room of a retreat can be written to. -/
theorem retreat_ends {count offset : Nat} {values : List α} (back : Backward α)
    (fits : count ≤ back.pos) (within : offset + values.length ≤ count) :
    (back.retreat count fits).pos + offset + values.length ≤
      (back.retreat count fits).buf.length := by
  -- The position has only gone down, by the room of the values.
  have inside := back.inside
  simp only [retreat]
  omega

/-- Values at the position come in front of all that is left of what was in use. -/
theorem kept_write_front {values : List α} (back : Backward α)
    (ends : back.pos + 0 + values.length ≤ back.buf.length) :
    (back.write 0 values ends).kept = values ++ back.kept.drop values.length := by
  -- There is nothing between the position and the place of the values.
  rw [kept_write, List.take_zero, List.nil_append, Nat.zero_add]

/-- Values that are written behind others at the position leave those as they are. -/
theorem kept_write_behind {front values rest : List α} (back : Backward α)
    (begins : back.kept = front ++ rest)
    (ends : back.pos + front.length + values.length ≤ back.buf.length) :
    (back.write front.length values ends).kept = front ++ values ++ rest.drop values.length := by
  -- The place of the values is just behind what is in front.
  rw [kept_write, begins, List.take_left, ← List.drop_drop, List.drop_left]

end Backward

end Libbtrfs
