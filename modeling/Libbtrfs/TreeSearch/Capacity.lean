import Libbtrfs.TreeSearch.Builder
import Mathlib.Logic.Function.Iterate

/-! When the block of a boxed search is as large as the search says, from its allocation to its drop. -/

namespace Libbtrfs.Search

/-- The contract of the second ioctl: a buffer that is too small is answered with the size it needs. -/
structure Resizes (before : SearchArgsV2) (answer : Except IoError Unit × SearchArgsV2) : Prop where
  needed : answer.1 = .error (.os eoverflow) → before.bufSize < answer.2.bufSize
  kept : answer.1 ≠ .error (.os eoverflow) → answer.2.bufSize = before.bufSize

/-- An ioctl on the arguments in the block, which does not see how that was allocated. -/
def onArgs (ioctl : SearchArgsV2 → Except IoError Unit × SearchArgsV2)
    (search : BoxedTreeSearch) : Except IoError Unit × BoxedTreeSearch :=
  ((ioctl search.args).1, { search with args := (ioctl search.args).2 })

/-- What a program does with a boxed search before it drops it. -/
inductive Use where
  /-- The methods of `SearchKeyBuilder` set the key. -/
  | setKey (newKey : SearchKey)
  /-- A query, of which some items are taken before the iterator is dropped. -/
  | query {K : Type} (returned : FromQueryKey K) (onDrop : QueryKey → Outcome K) (taken : Nat)

/-- A boxed search and the number of queries that were made with it. -/
structure Usage where
  calls : Nat
  search : BoxedTreeSearch

section Usage

variable (ioctl : Nat → SearchArgsV2 → Except IoError Unit × SearchArgsV2)

/-- The search after one use of it. -/
def Usage.after (usage : Usage) : Use → Usage
  | .setKey newKey => { usage with search := Query.setKey newKey usage.search }
  | .query _ onDrop taken =>
    match query (onArgs (ioctl usage.calls)) usage.search onDrop with
    | (.error _, search) => ⟨usage.calls + 1, search⟩
    | (.ok items, _) =>
      match ((fun items => items.next.2)^[taken] items).drop with
      -- The callback has panicked, which leaves the key as it was.
      | .error _ => ⟨usage.calls + 1, items.search⟩
      | .ok search => ⟨usage.calls + 1, search⟩

/-- A use is a query that is answered with `EOVERFLOW`. -/
def Usage.Overflows (usage : Usage) : Use → Prop
  | .setKey _ => False
  | .query _ _ _ => (ioctl usage.calls usage.search.args).1 = .error (.os eoverflow)

/-- A property holds from the first state on, after every use. -/
def Usage.Throughout (holds : BoxedTreeSearch → Prop) (usage : Usage) : List Use → Prop
  | [] => holds usage.search
  | use :: uses => holds usage.search ∧ (usage.after ioctl use).Throughout holds uses

/-- None of the uses is a query that is answered with `EOVERFLOW`. -/
def Usage.Fits (usage : Usage) : List Use → Prop
  | [] => True
  | use :: uses => ¬ usage.Overflows ioctl use ∧ (usage.after ioctl use).Fits uses

end Usage

/-- The block has the room that the search says, and is freed with the layout of its allocation. -/
structure Capacity (target : Target) (search : BoxedTreeSearch) : Prop where
  allocated : search.layout.size = search.args.bufSize.toNat + argsV2Size
  freed : search.dropLayout target = .ok search.layout

section Capacity

variable {target : Target} {ioctl : Nat → SearchArgsV2 → Except IoError Unit × SearchArgsV2}

/-- Two searches lie in the same block and say the same about its room. -/
def BoxedTreeSearch.SameBlock (one other : BoxedTreeSearch) : Prop :=
  other.layout = one.layout ∧ other.args.bufSize = one.args.bufSize

/-- Taking items leaves the search that the iterator borrows as it is. -/
theorem Iter.taken_search {S K : Type} [Query S] (iter : Iter S K) (taken : Nat) :
    ((fun items : Iter S K => items.next.2)^[taken] iter).search = iter.search := by
  -- An item that is taken moves the offset of the iterator, not what it borrows.
  induction taken with
  | zero => rfl
  | succ taken ih =>
    rw [Function.iterate_succ_apply', ← ih, Iter.next]
    split
    · rfl
    · rfl

/-- A dropped iterator has set nothing but the key of its search. -/
theorem Iter.drop_sameBlock {K : Type} [FromQueryKey K] {iter : Iter BoxedTreeSearch K}
    {search : BoxedTreeSearch} (dropped : iter.drop = .ok search) :
    iter.search.SameBlock search := by
  simp only [Iter.drop, bind, Except.bind] at dropped
  -- Both the callback and the conversion of what it returns have to succeed.
  split at dropped
  · cases dropped
  · split at dropped
    · cases dropped
    · split at dropped
      · cases dropped
        exact ⟨rfl, rfl⟩
      · cases dropped
        exact ⟨rfl, rfl⟩

/-- A query changes what its ioctl changes, and the key. -/
theorem query_sameBlock {K : Type} (answer : SearchArgsV2 → Except IoError Unit × SearchArgsV2)
    (search : BoxedTreeSearch) (onDrop : QueryKey → Outcome K) :
    (onArgs answer search).2.SameBlock (query (onArgs answer) search onDrop).2 ∧
      ∀ items, (query (onArgs answer) search onDrop).1 = .ok items →
        (onArgs answer search).2.SameBlock items.search := by
  -- The key is set in the search that the ioctl has left.
  rw [query]
  cases result : btrfsIoctl (answer search.args).1 with
  | error error =>
    simp only [onArgs, result]
    exact ⟨⟨rfl, rfl⟩, fun items impossible => nomatch impossible⟩
  | ok done =>
    simp only [onArgs, result]
    refine ⟨⟨rfl, rfl⟩, fun items same => ?_⟩
    cases same
    exact ⟨rfl, rfl⟩

/-- A query that is used and dropped leaves what its ioctl leaves of the block. -/
theorem Usage.after_query (ioctl : Nat → SearchArgsV2 → Except IoError Unit × SearchArgsV2)
    (usage : Usage) {K : Type} (returned : FromQueryKey K)
    (onDrop : QueryKey → Outcome K) (taken : Nat) :
    (onArgs (ioctl usage.calls) usage.search).2.SameBlock
      (usage.after ioctl (.query returned onDrop taken)).search := by
  -- The search is that of the query when it fails, and otherwise that of the dropped iterator.
  obtain ⟨failed, borrowed⟩ := query_sameBlock (ioctl usage.calls) usage.search onDrop
  rw [Usage.after]
  cases queried : query (onArgs (ioctl usage.calls)) usage.search onDrop with
  | mk result search =>
    rw [queried] at failed borrowed
    cases result with
    | error error => exact failed
    | ok items =>
      have same := borrowed items rfl
      cases dropped : ((fun items : Iter BoxedTreeSearch K => items.next.2)^[taken] items).drop with
      | error failure => simpa only [dropped] using same
      | ok last =>
        have set := Iter.drop_sameBlock dropped
        rw [Iter.taken_search] at set
        simp only [dropped]
        exact ⟨set.1.trans same.1, set.2.trans same.2⟩

/-- A use that is not answered with `EOVERFLOW` leaves the block and what is said of its room. -/
theorem Usage.after_kept (resizes : ∀ call before, Resizes before (ioctl call before))
    {usage : Usage} {use : Use} (fits : ¬ usage.Overflows ioctl use) :
    usage.search.SameBlock (usage.after ioctl use).search := by
  -- A key that is set lies in front of the size of the buffer.
  cases use with
  | setKey newKey => exact ⟨rfl, rfl⟩
  | query returned onDrop taken =>
    obtain ⟨layout, size⟩ := Usage.after_query ioctl usage returned onDrop taken
    exact ⟨layout, size.trans ((resizes usage.calls usage.search.args).kept fits)⟩

/-- A query that is answered with `EOVERFLOW` has the search say more than its block has room for. -/
theorem Usage.after_overflow (resizes : ∀ call before, Resizes before (ioctl call before))
    {usage : Usage} {use : Use} (overflows : usage.Overflows ioctl use) :
    (usage.after ioctl use).search.layout = usage.search.layout ∧
      usage.search.args.bufSize < (usage.after ioctl use).search.args.bufSize := by
  -- Only a query is answered at all, and the answer is larger than the size that it was told.
  cases use with
  | setKey newKey => cases overflows
  | query returned onDrop taken =>
    obtain ⟨layout, size⟩ := Usage.after_query ioctl usage returned onDrop taken
    refine ⟨layout, ?_⟩
    rw [size]
    exact (resizes usage.calls usage.search.args).needed overflows

/-- The first state of a run is one of those in which a property holds throughout. -/
theorem Usage.Throughout.start {holds : BoxedTreeSearch → Prop} {usage : Usage} {uses : List Use}
    (throughout : usage.Throughout ioctl holds uses) : holds usage.search := by
  -- A run has a first state, whether it goes on or not.
  cases uses with
  | nil => exact throughout
  | cons use uses => exact throughout.1

/-- The capacity is a matter of the block and of what is said of its room. -/
theorem Capacity.sameBlock {one other : BoxedTreeSearch} (same : one.SameBlock other)
    (capacity : Capacity target one) : Capacity target other := by
  -- The layout of the drop is computed from the size that the search says.
  obtain ⟨layout, size⟩ := same
  refine ⟨?_, ?_⟩
  · rw [layout, size]
    exact capacity.allocated
  · rw [BoxedTreeSearch.dropLayout, layout, size]
    exact capacity.freed

/-- A run that starts with the right capacity keeps it exactly when no query is too large for it. -/
theorem capacity_throughout (resizes : ∀ call before, Resizes before (ioctl call before))
    {usage : Usage} (capacity : Capacity target usage.search) (uses : List Use) :
    usage.Throughout ioctl (Capacity target) uses ↔ usage.Fits ioctl uses := by
  -- The induction is on the uses, and the capacity is that of the state they start from.
  induction uses generalizing usage with
  | nil => exact ⟨fun _ => trivial, fun _ => capacity⟩
  | cons use uses ih =>
    constructor
    · rintro ⟨_, rest⟩
      have fits : ¬ usage.Overflows ioctl use := by
        intro overflows
        obtain ⟨layout, more⟩ := usage.after_overflow resizes overflows
        have later := rest.start.allocated
        rw [layout, capacity.allocated] at later
        have larger := UInt64.lt_iff_toNat_lt.mp more
        omega
      exact ⟨fits, (ih (capacity.sameBlock (Usage.after_kept resizes fits))).mp rest⟩
    · rintro ⟨fits, rest⟩
      exact ⟨capacity, (ih (capacity.sameBlock (Usage.after_kept resizes fits))).mpr rest⟩

/-- The computed size is that of the buffer and the fixed part exactly when `usize` holds the sum. -/
theorem blockLayout_size {bufSize : UInt64} {layout : Layout}
    (computed : target.blockLayout bufSize = .ok layout) :
    layout.size = bufSize.toNat + argsV2Size ↔
      bufSize.toNat + argsV2Size < 2 ^ target.usizeBits := by
  have positive : 0 < 2 ^ target.usizeBits := Nat.two_pow_pos _
  simp only [Target.blockLayout, bind, Except.bind, Target.addUsize, Target.layout] at computed
  generalize 2 ^ target.usizeBits = limit at computed positive ⊢
  have low := Nat.mod_lt bufSize.toNat positive
  have exact_low : bufSize.toNat < limit → bufSize.toNat % limit = bufSize.toNat := Nat.mod_eq_of_lt
  -- The size is the sum, or what is left of it when neither the cast nor the addition is exact.
  split at computed
  · cases computed
  · rename_i size added
    split at computed
    · cases computed
      split at added
      · cases added
        dsimp only
        omega
      · rename_i beyond
        split at added
        · cases added
        · cases added
          have wrapped := Nat.mod_lt (bufSize.toNat % limit + argsV2Size) positive
          dsimp only
          omega
    · cases computed

/-- A built search has the right capacity exactly when the size of its block does not wrap. -/
theorem capacity_built {alloc : Layout → Bool} {bufSize : UInt64} {key : SearchKey}
    {search : BoxedTreeSearch} (built : buildBoxed target alloc bufSize key = .ok search) :
    Capacity target search ↔ bufSize.toNat + argsV2Size < 2 ^ target.usizeBits := by
  -- The layout that is asked for is the one that the drop computes again.
  simp only [buildBoxed, bind, Except.bind] at built
  split at built
  · cases built
  · rename_i layout computed
    split at built
    · cases built
      exact ⟨fun capacity => (blockLayout_size computed).mp capacity.allocated,
        fun fits => ⟨(blockLayout_size computed).mpr fits, computed⟩⟩
    · cases built

end Capacity

/--
A boxed search has the right capacity from its building to its drop exactly when the size of its
block fits `usize` and no query is answered with `EOVERFLOW`.
-/
theorem buildBoxed_capacity_iff (target : Target) {alloc : Layout → Bool} {bufSize : UInt64}
    {key : SearchKey} {search : BoxedTreeSearch}
    (built : buildBoxed target alloc bufSize key = .ok search)
    {ioctl : Nat → SearchArgsV2 → Except IoError Unit × SearchArgsV2}
    (resizes : ∀ call before, Resizes before (ioctl call before)) (uses : List Use) :
    (Usage.mk 0 search).Throughout ioctl (Capacity target) uses ↔
      bufSize.toNat + argsV2Size < 2 ^ target.usizeBits ∧
        (Usage.mk 0 search).Fits ioctl uses := by
  -- The built search starts with the capacity, or never has it.
  constructor
  · intro throughout
    have capacity := throughout.start
    exact ⟨(capacity_built built).mp capacity,
      (capacity_throughout resizes capacity uses).mp throughout⟩
  · rintro ⟨sized, fits⟩
    have capacity := (capacity_built built).mpr sized
    exact (capacity_throughout resizes capacity uses).mpr fits

/-- A kernel whose next item needs a hundred bytes. -/
def needsHundred (_call : Nat) (before : SearchArgsV2) : Except IoError Unit × SearchArgsV2 :=
  if before.bufSize < 100 then (.error (.os eoverflow), { before with bufSize := 100 })
  else (.ok (), { before with key := { before.key with nrItems := 0 } })

/-- That kernel meets the contract. -/
theorem needsHundred_resizes (call : Nat) (before : SearchArgsV2) :
    Resizes before (needsHundred call before) := by
  -- It writes a hundred where there is less.
  rw [needsHundred]
  split
  · rename_i small
    exact ⟨fun _ => small, fun other => absurd rfl other⟩
  · exact ⟨fun impossible => (nomatch impossible), fun _ => rfl⟩

/-- A search with a buffer of sixteen bytes, on a machine of 64 bits. -/
def smallBoxed : BoxedTreeSearch := ⟨⟨.default, 16, List.replicate 16 0⟩, ⟨128, 8⟩⟩

/-- One query of the small search, for a kernel that needs more. -/
theorem buildBoxed_capacity_iff_small :
    (Usage.mk 0 smallBoxed).Throughout needsHundred (Capacity ⟨64, true⟩)
        [.query inferInstance (fun _ => .ok ()) 0] ↔
      (16 : UInt64).toNat + argsV2Size < 2 ^ 64 ∧
        (Usage.mk 0 smallBoxed).Fits needsHundred [.query inferInstance (fun _ => .ok ()) 0] :=
  @buildBoxed_capacity_iff ⟨64, true⟩ (fun _ => true) 16 .default smallBoxed rfl needsHundred
    needsHundred_resizes _

/-- After that query the search says that it has a hundred bytes, and would be freed as such. -/
theorem buildBoxed_overflows_small :
    buildBoxed ⟨64, true⟩ (fun _ => true) 16 .default = .ok smallBoxed ∧
      (∀ call before, Resizes before (needsHundred call before)) ∧
      ¬ (Usage.mk 0 smallBoxed).Throughout needsHundred (Capacity ⟨64, true⟩)
        [.query inferInstance (fun _ => .ok ()) 0] := by
  -- The block has 128 bytes, and 100 behind the fixed part would make it 212.
  refine ⟨rfl, needsHundred_resizes, ?_⟩
  rintro ⟨_, after⟩
  have allocated := after.allocated
  revert allocated
  decide

end Libbtrfs.Search
