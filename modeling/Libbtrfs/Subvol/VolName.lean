import Libbtrfs.Subvol.Kernel

/-! Names in the arrays of a fixed size that the arguments of the ioctls have for them. -/

namespace Libbtrfs

/-- An array `[c_char; N]`. -/
structure CArray (size : Nat) where
  bytes : Bytes
  sized : bytes.length = size
  deriving DecidableEq

namespace CArray

variable {size : Nat}

/-- An array of zeroes, as in a zeroed argument. -/
def zeroed (size : Nat) : CArray size := ⟨List.replicate size 0, List.length_replicate⟩

/-- Bytes in front of what is left of an array are as many as the array has. -/
theorem overwrite_sized (bytes : Bytes) (dst : CArray size) (fits : bytes.length ≤ size) :
    (bytes ++ dst.bytes.drop bytes.length).length = size := by
  -- As many are dropped as are put in front.
  rw [List.length_append, List.length_drop, dst.sized]
  omega

/-- `ptr::copy_nonoverlapping` to the front of an array. -/
def overwrite (bytes : Bytes) (dst : CArray size) (fits : bytes.length ≤ size) : CArray size :=
  ⟨bytes ++ dst.bytes.drop bytes.length, overwrite_sized bytes dst fits⟩

/-- `copy_bytes_to_c_array!`. -/
def copyBytesToCArray (bytes : Bytes) (dst : CArray size) : Bool × CArray size :=
  if fits : bytes.length < size then (true, overwrite bytes dst (Nat.le_of_lt fits))
  else (false, dst)

/-- `set_vol_name`, with the array that it writes to. -/
def setVolName (name : Bytes) (dst : CArray size) : Except IoError Unit × CArray size :=
  -- Nothing is copied from a name with a zero in it.
  if 0 ∈ name then (.error (.kind .invalidInput), dst)
  else
    match copyBytesToCArray name dst with
    | (false, dst) => (.error (.kind .invalidInput), dst)
    | (true, dst) => (.ok (), dst)

/-- A name without a zero that leaves room for one is copied to the front of the array. -/
theorem setVolName_ok {name : Bytes} (dst : CArray size) (clean : 0 ∉ name)
    (fits : name.length < size) :
    setVolName name dst = (.ok (), overwrite name dst (Nat.le_of_lt fits)) := by
  -- Neither of the two reasons to refuse it is there.
  rw [setVolName, if_neg clean, copyBytesToCArray, dif_pos fits]

/-- Every other name is refused, and the array stays as it is. -/
theorem setVolName_refused {name : Bytes} (dst : CArray size)
    (refused : ¬ (0 ∉ name ∧ name.length < size)) :
    setVolName name dst = (.error (.kind .invalidInput), dst) := by
  by_cases zero : 0 ∈ name
  · rw [setVolName, if_pos zero]
  · -- The name is too long, which the copy notices before it writes anything.
    have long : ¬ name.length < size := fun fits => refused ⟨zero, fits⟩
    rw [setVolName, if_neg zero, copyBytesToCArray, dif_neg long]

/-- Whether a name is accepted is the same for every array of the size that `setVolName` is for. -/
theorem setVolName_result (name : Bytes) (dst : CArray volNameSize) :
    (setVolName name dst).1 = Libbtrfs.setVolName name := by
  rw [Libbtrfs.setVolName]
  by_cases accepted : 0 ∉ name ∧ name.length < volNameSize
  · rw [setVolName_ok dst accepted.1 accepted.2, if_neg]
    -- Neither of the two reasons to refuse it is there.
    rw [not_or, not_not]
    exact accepted
  · rw [setVolName_refused dst accepted, if_pos]
    by_contra neither
    rw [not_or, not_not] at neither
    exact accepted neither

/-- A name that was copied to an array of zeroes is read back as a C string. -/
theorem fromPtr_overwrite {name : Bytes} (clean : 0 ∉ name) (fits : name.length < size) :
    fromPtr (overwrite name (zeroed size) (Nat.le_of_lt fits)).bytes = name := by
  -- The first zero of the array is the one behind the name.
  have ends : (List.replicate size (0 : UInt8)).drop name.length =
      0 :: List.replicate (size - name.length - 1) 0 := by
    rw [List.drop_replicate, ← List.replicate_succ]
    congr 1
    omega
  have nothing : fromPtr (0 :: List.replicate (size - name.length - 1) 0) = [] := rfl
  show fromPtr (name ++ (List.replicate size (0 : UInt8)).drop name.length) = name
  rw [ends, fromPtr_append clean, nothing, List.append_nil]

/-- A name that is accepted reads back from an array of zeroes, and any other one leaves it alone. -/
theorem setVolName_zeroed (size : Nat) (name : Bytes) :
    (((setVolName name (zeroed size)).1 = .ok () ↔ 0 ∉ name ∧ name.length < size) ∧
      ((setVolName name (zeroed size)).1 = .ok () →
        fromPtr (setVolName name (zeroed size)).2.bytes = name) ∧
      ((setVolName name (zeroed size)).1 ≠ .ok () →
        setVolName name (zeroed size) = (.error (.kind .invalidInput), zeroed size))) := by
  by_cases accepted : 0 ∉ name ∧ name.length < size
  · -- The name is copied in front of at least one of the zeroes.
    rw [setVolName_ok _ accepted.1 accepted.2]
    refine ⟨⟨fun _ => accepted, fun _ => rfl⟩, fun _ => ?_, fun refused => absurd rfl refused⟩
    exact fromPtr_overwrite accepted.1 accepted.2
  · rw [setVolName_refused _ accepted]
    refine ⟨⟨fun done => ?_, fun other => absurd other accepted⟩, fun done => ?_, fun _ => rfl⟩
    · cases done
    · cases done

end CArray

end Libbtrfs
