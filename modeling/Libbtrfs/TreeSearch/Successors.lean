import Libbtrfs.TreeSearch.Query

/-! The functions that set the key a search goes on from, against the successors in the order of keys. -/

namespace Libbtrfs.Search

namespace QueryKey

/-- A key with a type that an item can have. -/
def Typed (key : QueryKey) : Prop := key.2.1 ≤ 255

instance : DecidablePred Typed := fun key => inferInstanceAs (Decidable (key.2.1 ≤ 255))

/-- A key that stands behind every key of a group. -/
def Behind (group : Set QueryKey) (key : QueryKey) : Prop :=
  key.Typed ∧ ∀ member ∈ group, member.rank < key.rank

/-- The first one of the keys that stand behind a group. -/
def FirstBehind (group : Set QueryKey) (next : QueryKey) : Prop :=
  next.Behind group ∧ ∀ other, Behind group other → next.rank ≤ other.rank

/-- The first key that stands behind a group, or the given key where nothing stands behind it. -/
def Succeeds (group : Set QueryKey) (key next : QueryKey) : Prop :=
  next.FirstBehind group ∨ (∀ other, ¬Behind group other) ∧ next = key

/-- The keys of one object. -/
def ofObjectid (key : QueryKey) : Set QueryKey := {other | other.Typed ∧ other.1 = key.1}

/-- The keys of one type of one object. -/
def ofType (key : QueryKey) : Set QueryKey :=
  {other | other.Typed ∧ other.1 = key.1 ∧ other.2.1 = key.2.1}

end QueryKey

/-- A function that recurses comes back with a result on every stack that is deep enough. -/
def Returns (call : Nat → Outcome QueryKey) (next : QueryKey) : Prop :=
  ∃ enough, ∀ depth, enough ≤ depth → call depth = .ok next

/-- The last offset, as a number. -/
private theorem lastOffset_toNat : (0xFFFFFFFFFFFFFFFF : UInt64).toNat = 2 ^ 64 - 1 := rfl

/-- What is below a bound as a 32-bit value is below it as a number. -/
private theorem typed_toNat {key : QueryKey} (typed : key.Typed) : key.2.1.toNat ≤ 255 := by
  -- 255 is a number of 32 bits.
  simpa using UInt32.le_iff_toNat_le.mp typed

/-- Below the last object, the next one begins behind all the keys of an object. -/
theorem nextObjectid_succeeds (key : QueryKey) :
    key.Succeeds key.ofObjectid (nextObjectid key) := by
  have one : (1 : UInt64).toNat = 1 := rfl
  -- The last key of the object, which everything behind the object has to be above.
  have last : ((key.1, 255, 0xFFFFFFFFFFFFFFFF) : QueryKey) ∈ key.ofObjectid :=
    ⟨UInt32.le_refl _, rfl⟩
  by_cases fits : key.1.toNat + (1 : UInt64).toNat < 2 ^ 64
  · obtain ⟨counted, added⟩ := checkedAdd64_fits fits
    rw [nextObjectid, counted]
    refine Or.inl ⟨⟨UInt32.zero_le, fun member within => ?_⟩, fun other behind => ?_⟩
    · rw [QueryKey.rank_lt]
      exact Or.inl (by rw [within.2, added]; exact Nat.lt_succ_self _)
    · have small := typed_toNat behind.1
      have bounded := other.2.2.toNat_lt
      have above := behind.2 _ last
      rw [QueryKey.rank_lt] at above
      rw [QueryKey.rank_le]
      simp only [lastOffset_toNat, UInt32.reduceToNat] at above
      simp only [added, UInt32.toNat_zero, UInt64.toNat_zero]
      omega
  · rw [nextObjectid, checkedAdd64, if_neg fits]
    refine Or.inr ⟨fun other behind => ?_, rfl⟩
    -- No object is above the last one, and no typed key of it is above its last key.
    have small := typed_toNat behind.1
    have bounded := other.2.2.toNat_lt
    have objects := other.1.toNat_lt
    have above := behind.2 _ last
    rw [QueryKey.rank_lt] at above
    simp only [lastOffset_toNat, UInt32.reduceToNat] at above
    omega

/-- Below the last type, the next one begins behind all the keys of a type. -/
theorem nextType_first {key : QueryKey} (below : key.2.1 < 255) :
    ∃ next, Returns (nextType · key) next ∧ next.FirstBehind key.ofType := by
  obtain ⟨ty, found, counted⟩ := nextType_below 0 below
  have small : key.2.1.toNat < 255 := by simpa using UInt32.lt_iff_toNat_lt.mp below
  have typed : QueryKey.Typed (key.1, ty, 0) := by
    rw [QueryKey.Typed, UInt32.le_iff_toNat_le, counted]
    exact small
  -- The last key of the type, which everything behind the type has to be above.
  have last : ((key.1, key.2.1, 0xFFFFFFFFFFFFFFFF) : QueryKey) ∈ key.ofType :=
    ⟨UInt32.le_of_lt below, rfl, rfl⟩
  refine ⟨(key.1, ty, 0), ⟨1, fun depth enough => ?_⟩, ⟨typed, ?_⟩, ?_⟩
  · obtain ⟨depth, rfl⟩ := Nat.exists_eq_add_of_le' enough
    obtain ⟨other, again, same⟩ := nextType_below depth below
    show nextType (depth + 1) key = _
    rw [again, UInt32.toNat_inj.mp (same.trans counted.symm)]
  · intro member within
    rw [QueryKey.rank_lt]
    refine Or.inr ⟨congrArg _ within.2.1, Or.inl ?_⟩
    rw [within.2.2, counted]
    exact Nat.lt_succ_self _
  · intro other behind
    have bounded := other.2.2.toNat_lt
    have above := behind.2 _ last
    rw [QueryKey.rank_lt] at above
    rw [QueryKey.rank_le]
    simp only [lastOffset_toNat] at above
    simp only [counted, UInt64.toNat_zero]
    omega

/-- At the last type the function never comes back. -/
theorem nextType_last (depth : Nat) {key : QueryKey} (last : key.2.1 = 255) :
    nextType depth key = .error (.panic "stack overflow") := by
  -- The induction is on the stack, of which every call takes one frame.
  induction depth with
  | zero => rfl
  | succ depth ih =>
    have wraps : checkedAdd8 key.2.1.toUInt8 1 = none := by rw [last]; rfl
    rw [nextType, wraps]
    exact ih

/-- The next offset is the successor of the key, as long as one of offset and type can grow. -/
theorem nextOffset_first {key : QueryKey} (typed : key.Typed)
    (grows : key.2.1 < 255 ∨ key.2.2 < 0xFFFFFFFFFFFFFFFF) :
    ∃ next, Returns (nextOffset · key) next ∧ next.FirstBehind {key} := by
  have one : (1 : UInt64).toNat = 1 := rfl
  by_cases fits : key.2.2.toNat + (1 : UInt64).toNat < 2 ^ 64
  · -- The offset is counted up, whatever the type is.
    obtain ⟨above, least⟩ := QueryKey.offset_succ fits
    refine ⟨(key.1, key.2.1, key.2.2 + 1), ⟨0, fun depth _ => ?_⟩, ⟨typed, ?_⟩, ?_⟩
    · show nextOffset depth key = _
      rw [nextOffset, (checkedAdd64_fits fits).1]
    · intro member same
      rw [same]
      exact above
    · intro other behind
      exact least other (behind.2 key rfl)
  · -- The offset is the last one, so the type is the one that grows.
    have below : key.2.1 < 255 := by
      refine grows.resolve_right fun smaller => fits ?_
      have number : key.2.2.toNat < 0xFFFFFFFFFFFFFFFF := by
        simpa using UInt64.lt_iff_toNat_lt.mp smaller
      omega
    obtain ⟨next, ⟨enough, returns⟩, least⟩ := nextType_first below
    refine ⟨next, ⟨enough, fun depth deep => ?_⟩, ?_⟩
    · show nextOffset depth key = _
      rw [nextOffset, checkedAdd64, if_neg fits]
      exact returns depth deep
    · -- The key is the last one of its type, so what is behind it is behind all of them.
      have behind : ∀ other, QueryKey.Behind {key} other ↔ QueryKey.Behind key.ofType other := by
        intro other
        have whole : key ∈ key.ofType := ⟨typed, rfl, rfl⟩
        refine ⟨fun above => ⟨above.1, fun member within => ?_⟩,
          fun above => ⟨above.1, fun member same => above.2 member (same ▸ whole)⟩⟩
        refine lt_of_le_of_lt ?_ (above.2 key rfl)
        have bounded := member.2.2.toNat_lt
        rw [QueryKey.rank_le]
        exact Or.inr ⟨congrArg _ within.2.1, Or.inr ⟨congrArg _ within.2.2, by omega⟩⟩
      simpa only [QueryKey.FirstBehind, behind] using least

/-- At the last offset of the last type the function never comes back. -/
theorem nextOffset_last (depth : Nat) {key : QueryKey} (last : key.2.1 = 255)
    (full : key.2.2 = 0xFFFFFFFFFFFFFFFF) :
    nextOffset depth key = .error (.panic "stack overflow") := by
  -- The offset wraps, so the function goes on to the next type, and there is none.
  have wraps : checkedAdd64 key.2.2 1 = none := by rw [full]; rfl
  rw [nextOffset, wraps]
  exact nextType_last depth last

/-- Where the next offset is found, one of offset and type can grow. -/
theorem nextOffset_grows {depth : Nat} {key low : QueryKey} (typed : key.Typed)
    (returned : nextOffset depth key = .ok low) :
    key.2.1 < 255 ∨ key.2.2 < 0xFFFFFFFFFFFFFFFF := by
  -- With the last offset of the last type the function would not have returned.
  by_contra neither
  obtain ⟨atLast, atEnd⟩ := not_or.mp neither
  have bounded : key.2.2 ≤ 0xFFFFFFFFFFFFFFFF :=
    UInt64.le_iff_toNat_le.mpr (Nat.le_of_lt_succ key.2.2.toNat_lt)
  have last : key.2.1 = 255 := UInt32.le_antisymm typed (UInt32.not_lt.mp atLast)
  have full : key.2.2 = 0xFFFFFFFFFFFFFFFF :=
    UInt64.le_antisymm bounded (UInt64.not_lt.mp atEnd)
  exact nomatch (nextOffset_last depth last full).symm.trans returned

/-- What is found on one stack is found on every deeper one. -/
theorem nextType_deeper {depth : Nat} (more : Nat) {key low : QueryKey}
    (returned : nextType depth key = .ok low) : nextType (depth + more) key = .ok low := by
  -- The induction is on the stack, of which every call takes one frame.
  induction depth with
  | zero => exact nomatch returned
  | succ depth ih =>
    rw [Nat.succ_add]
    rw [nextType] at returned ⊢
    split at returned
    · exact ih returned
    · exact returned

/-- Whatever the next offset returns is the successor of its key. -/
theorem nextOffset_returned {depth : Nat} {key low : QueryKey} (typed : key.Typed)
    (returned : nextOffset depth key = .ok low) : low.FirstBehind {key} := by
  -- On a deep enough stack the function returns the successor, and it returns only one key.
  obtain ⟨next, ⟨enough, returns⟩, first⟩ := nextOffset_first typed (nextOffset_grows typed returned)
  have deeper : nextOffset (depth + enough) key = .ok low := by
    rw [nextOffset] at returned ⊢
    split at returned
    · exact nextType_deeper enough returned
    · exact returned
  have same : nextOffset (depth + enough) key = .ok next :=
    returns (depth + enough) (Nat.le_add_left enough depth)
  cases deeper.symm.trans same
  exact first

/-- A function that fails on every stack never comes back. -/
private theorem Returns.absurd {call : Nat → Outcome QueryKey} {next : QueryKey} {failure : Failure}
    (returns : Returns call next) (fails : ∀ depth, call depth = .error failure) : False := by
  -- It would fail and return on the same stack.
  obtain ⟨enough, found⟩ := returns
  have both := (fails enough).symm.trans (found enough le_rfl)
  exact nomatch both

/-- Each function comes back from a key with the successor that carries as far as its name says. -/
structure QueryKey.Increments (key : QueryKey) : Prop where
  objectid : key.Succeeds key.ofObjectid (nextObjectid key)
  ty : ∃ next, Returns (nextType · key) next ∧ key.Succeeds key.ofType next
  offset : ∃ next, Returns (nextOffset · key) next ∧ key.Succeeds {key} next

/--
The functions are the successors for exactly the keys below the last type.

The next objectid is one for every key.
The next offset is one for the last type too, except behind its last offset.
-/
theorem increments_iff {key : QueryKey} (typed : key.Typed) :
    (key.Increments ↔ key.2.1 < 255) ∧ key.Succeeds key.ofObjectid (nextObjectid key) ∧
      ((∃ next, Returns (nextType · key) next ∧ key.Succeeds key.ofType next) ↔
        key.2.1 < 255) ∧
      ((∃ next, Returns (nextOffset · key) next ∧ key.Succeeds {key} next) ↔
        key.2.1 < 255 ∨ key.2.2 < 0xFFFFFFFFFFFFFFFF) := by
  -- A type that is not below the last one is the last one.
  have reaches : ¬key.2.1 < 255 → key.2.1 = 255 := fun atLast =>
    UInt32.le_antisymm typed (UInt32.not_lt.mp atLast)
  have types : (∃ next, Returns (nextType · key) next ∧ key.Succeeds key.ofType next) ↔
      key.2.1 < 255 := by
    refine ⟨fun ⟨next, returns, _⟩ => ?_, fun below => ?_⟩
    · by_contra atLast
      exact returns.absurd fun depth => nextType_last depth (reaches atLast)
    · obtain ⟨next, returns, first⟩ := nextType_first below
      exact ⟨next, returns, Or.inl first⟩
  have offsets : (∃ next, Returns (nextOffset · key) next ∧ key.Succeeds {key} next) ↔
      key.2.1 < 255 ∨ key.2.2 < 0xFFFFFFFFFFFFFFFF := by
    refine ⟨fun ⟨next, ⟨enough, returned⟩, _⟩ => ?_, fun grows => ?_⟩
    · exact nextOffset_grows typed (returned enough le_rfl)
    · obtain ⟨next, returns, first⟩ := nextOffset_first typed grows
      exact ⟨next, returns, Or.inl first⟩
  refine ⟨⟨fun all => types.mp all.ty, fun below => ?_⟩, nextObjectid_succeeds key, types, offsets⟩
  exact ⟨nextObjectid_succeeds key, types.mpr below, offsets.mpr (Or.inl below)⟩

/-- The key of a chunk, with a type below the last one. -/
def chunkKey : QueryKey := (256, 228, 0x1500000)

/-- A key of a chunk is counted up in all three ways. -/
theorem increments_iff_chunkKey :
    (chunkKey.Increments ↔ chunkKey.2.1 < 255) ∧
      chunkKey.Succeeds chunkKey.ofObjectid (nextObjectid chunkKey) ∧
      ((∃ next, Returns (nextType · chunkKey) next ∧ chunkKey.Succeeds chunkKey.ofType next) ↔
        chunkKey.2.1 < 255) ∧
      ((∃ next, Returns (nextOffset · chunkKey) next ∧ chunkKey.Succeeds {chunkKey} next) ↔
        chunkKey.2.1 < 255 ∨ chunkKey.2.2 < 0xFFFFFFFFFFFFFFFF) :=
  increments_iff (by decide)

/-- The next type of a key with the last type is never found. -/
theorem increments_not_lastType :
    QueryKey.Typed (256, 255, 0) ∧ ¬QueryKey.Increments (256, 255, 0) := by
  refine ⟨by decide, fun increments => ?_⟩
  -- The search for it does not come back, however deep the stack is.
  obtain ⟨next, returns, _⟩ := increments.ty
  exact returns.absurd fun depth => nextType_last depth rfl

end Libbtrfs.Search
