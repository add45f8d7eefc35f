import Libbtrfs.Error
import Mathlib.Data.Prod.Lex

/-! The sort key of a tree search, and the functions that set the key a search goes on from. -/

namespace Libbtrfs.Search

/-- Primary sort key of an item. -/
abbrev ObjectId := UInt64

/-- Secondary sort key of an item. -/
abbrev Ty := UInt32

/-- Tertiary sort key of an item. -/
abbrev Offset := UInt64

/-- The sorting order in which items are returned. -/
abbrev QueryKey := ObjectId × Ty × Offset

/-- What the callback of a query returns, and the key it sets for the next one. -/
class FromQueryKey (K : Type) where
  asQueryKey : K → Outcome (Option QueryKey)

instance : FromQueryKey (Option Unit) := ⟨fun _ => .ok none⟩

instance : FromQueryKey Unit := ⟨fun _ => .ok none⟩

/-- The behaviour that is not yet decided, a `todo!()`. -/
instance : FromQueryKey UInt64 := ⟨fun _ => .error (.panic "not yet implemented")⟩

instance : FromQueryKey QueryKey := ⟨fun key => .ok (some key)⟩

/-- `u64::checked_add`. -/
def checkedAdd64 (value more : UInt64) : Option UInt64 :=
  if value.toNat + more.toNat < 2 ^ 64 then some (value + more) else none

/-- `u8::checked_add`. -/
def checkedAdd8 (value more : UInt8) : Option UInt8 :=
  if value.toNat + more.toNat < 2 ^ 8 then some (value + more) else none

/-- `next_objectid`. -/
def nextObjectid (key : QueryKey) : QueryKey :=
  match checkedAdd64 key.1 1 with
  | none => key
  | some obj => (obj, 0, 0)

/--
`next_type`, for a stack of some depth.

At the last type the function calls itself with the key that it was called with.
-/
def nextType : Nat → QueryKey → Outcome QueryKey
  | 0, _ => .error (.panic "stack overflow")
  | depth + 1, key =>
    match checkedAdd8 key.2.1.toUInt8 1 with
    | none => nextType depth key
    | some ty => .ok (key.1, ty.toUInt32, 0)

/-- `next_offset`, for a stack of some depth. -/
def nextOffset (depth : Nat) (key : QueryKey) : Outcome QueryKey :=
  match checkedAdd64 key.2.2 1 with
  | none => nextType depth key
  | some off => .ok (key.1, key.2.1, off)

/-- Where a key stands in the order of the tree: objectid, then type, then offset. -/
def QueryKey.rank (key : QueryKey) : Lex (ℕ × Lex (ℕ × ℕ)) :=
  toLex (key.1.toNat, toLex (key.2.1.toNat, key.2.2.toNat))

/-- A key is below another one in the first component in which they differ. -/
theorem QueryKey.rank_lt (one other : QueryKey) :
    one.rank < other.rank ↔ one.1.toNat < other.1.toNat ∨ one.1.toNat = other.1.toNat ∧
      (one.2.1.toNat < other.2.1.toNat ∨
        one.2.1.toNat = other.2.1.toNat ∧ one.2.2.toNat < other.2.2.toNat) := by
  -- That is the lexicographic order, twice.
  simp [QueryKey.rank, Prod.Lex.toLex_lt_toLex]

/-- A key is at most another one when no component makes it the greater of the two. -/
theorem QueryKey.rank_le (one other : QueryKey) :
    one.rank ≤ other.rank ↔ one.1.toNat < other.1.toNat ∨ one.1.toNat = other.1.toNat ∧
      (one.2.1.toNat < other.2.1.toNat ∨
        one.2.1.toNat = other.2.1.toNat ∧ one.2.2.toNat ≤ other.2.2.toNat) := by
  -- That is the lexicographic order, twice.
  simp [QueryKey.rank, Prod.Lex.toLex_le_toLex]

/-- Below the last type, the next type is the next value of the type with nothing behind it. -/
theorem nextType_below (depth : Nat) {key : QueryKey} (below : key.2.1 < 255) :
    ∃ ty, nextType (depth + 1) key = .ok (key.1, ty, 0) ∧ ty.toNat = key.2.1.toNat + 1 := by
  -- The type fits a byte, and so does its successor.
  have small : key.2.1.toNat < 255 := by simpa using UInt32.lt_iff_toNat_lt.mp below
  have byte : key.2.1.toUInt8.toNat = key.2.1.toNat := by
    rw [UInt32.toNat_toUInt8]
    omega
  have added : (key.2.1.toUInt8 + 1).toNat = key.2.1.toNat + 1 := by
    rw [UInt8.toNat_add, byte]
    simp
    omega
  have fits : key.2.1.toUInt8.toNat + (1 : UInt8).toNat < 2 ^ 8 := by
    rw [byte]
    simp
    omega
  refine ⟨(key.2.1.toUInt8 + 1).toUInt32, ?_, ?_⟩
  · rw [nextType, checkedAdd8, if_pos fits]
  · rw [UInt8.toNat_toUInt32, added]

/-- A value that can be counted up is one less than the next one. -/
theorem checkedAdd64_fits {value : UInt64} (fits : value.toNat + (1 : UInt64).toNat < 2 ^ 64) :
    checkedAdd64 value 1 = some (value + 1) ∧ (value + 1).toNat = value.toNat + 1 := by
  -- The sum is below the modulus.
  have one : (1 : UInt64).toNat = 1 := rfl
  refine ⟨by rw [checkedAdd64, if_pos fits], ?_⟩
  rw [UInt64.toNat_add]
  omega

/-- With an offset that can be counted up, the key of the next offset is the successor of a key. -/
theorem QueryKey.offset_succ {key : QueryKey}
    (fits : key.2.2.toNat + (1 : UInt64).toNat < 2 ^ 64) :
    key.rank < QueryKey.rank (key.1, key.2.1, key.2.2 + 1) ∧
      ∀ other : QueryKey, key.rank < other.rank →
        QueryKey.rank (key.1, key.2.1, key.2.2 + 1) ≤ other.rank := by
  have added := (checkedAdd64_fits fits).2
  constructor
  · rw [QueryKey.rank_lt]
    exact Or.inr ⟨rfl, Or.inr ⟨rfl, by rw [added]; exact Nat.lt_succ_self _⟩⟩
  · -- Nothing lies between two neighbouring offsets.
    intro other
    rw [QueryKey.rank_le, QueryKey.rank_lt]
    simp only [added]
    omega

/-- Below the last type, the next offset is the successor of the key among all keys. -/
theorem nextOffset_succ (depth : Nat) {key : QueryKey} (below : key.2.1 < 255) :
    ∃ next, nextOffset (depth + 1) key = .ok next ∧ key.rank < next.rank ∧
      ∀ other : QueryKey, key.rank < other.rank → next.rank ≤ other.rank := by
  by_cases fits : key.2.2.toNat + (1 : UInt64).toNat < 2 ^ 64
  · -- The offset is counted up.
    refine ⟨(key.1, key.2.1, key.2.2 + 1), ?_, QueryKey.offset_succ fits⟩
    rw [nextOffset, (checkedAdd64_fits fits).1]
  · -- The offset is the last one of its type, so the first one of the next type follows it.
    have one : (1 : UInt64).toNat = 1 := rfl
    obtain ⟨ty, found, counted⟩ := nextType_below depth below
    refine ⟨(key.1, ty, 0), ?_, ?_, ?_⟩
    · rw [nextOffset, checkedAdd64, if_neg fits]
      exact found
    · rw [QueryKey.rank_lt]
      exact Or.inr ⟨rfl, Or.inl (by rw [counted]; exact Nat.lt_succ_self _)⟩
    · intro other
      have bounded := other.2.2.toNat_lt
      rw [QueryKey.rank_le, QueryKey.rank_lt]
      simp only [counted, UInt64.toNat_zero]
      omega

end Libbtrfs.Search
