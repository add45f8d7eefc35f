import Libbtrfs.Core.ExactSize
import Libbtrfs.TreeSearch.Builder

/-! The space infos of a filesystem, counted by one ioctl and filled in by a second one. -/

namespace Libbtrfs.Search

/-- The product of two `usize` values, which panics or wraps when it overflows. -/
def Target.mulUsize (target : Target) (one other : Nat) : Outcome Nat :=
  if one * other < 2 ^ target.usizeBits then .ok (one * other)
  else if target.overflowChecks then .error (.panic "attempt to multiply with overflow")
  else .ok ((one * other) % 2 ^ target.usizeBits)

end Libbtrfs.Search

namespace Libbtrfs.Space

open Search

/-- `btrfs_ioctl_space_info`, and `SpaceInfo` around it. -/
structure SpaceInfo where
  flags : UInt64
  totalBytes : UInt64
  usedBytes : UInt64
  deriving DecidableEq

/-- `btrfs_ioctl_space_args`, with its slots. A slot is `none` until it is written. -/
structure SpaceArgs where
  spaceSlots : UInt64
  totalSpaces : UInt64
  spaces : List (Option SpaceInfo)
  deriving DecidableEq

/-- `size_of::<btrfs_ioctl_space_info>()`. -/
def spaceInfoSize : Nat := 24

/-- `size_of::<btrfs_ioctl_space_args>()`. -/
def spaceArgsSize : Nat := 16

/-- `align_of::<btrfs_ioctl_space_args>()`. -/
def spaceArgsAlign : Nat := 8

/-- `fs::Iter`. -/
structure Iter where
  total : Nat
  current : Nat
  args : SpaceArgs
  layout : Layout
  within : current ≤ total

/-- `BTRFS_IOC_SPACE_INFO`, for each of the calls and what it is passed. -/
abbrev SpaceIoctl : Type := Nat → SpaceArgs → Except IoError SpaceArgs

namespace Iter

/-- What is read at an offset of the slots, which is nothing where none was written. -/
def read (iter : Iter) (off : Nat) : Option SpaceInfo := (iter.args.spaces[off]?).join

/-- `Iter::next`. -/
def next (iter : Iter) : Option (Option SpaceInfo) × Iter :=
  if finished : iter.current = iter.total then (none, iter)
  else
    (some (iter.read iter.current),
      { iter with
        current := iter.current + 1
        within := Nat.lt_of_le_of_ne iter.within finished })

/-- `Iter::size_hint`, which `ExactSizeIterator::len` returns. -/
def sizeHint (iter : Iter) : Nat := iter.total - iter.current

/-- `Drop for Iter`: the layout that is passed to `dealloc`. -/
def dropLayout (iter : Iter) : Layout := iter.layout

/-- The iterator with its length. -/
def exactSize : ExactSize Iter (Option SpaceInfo) := ⟨next, sizeHint⟩

/-- What is read at the offsets that the iterator still goes through. -/
def rest (iter : Iter) : List (Option SpaceInfo) :=
  (List.range' iter.current (iter.total - iter.current)).map iter.read

end Iter

/-- The size of the block for a number of slots, on a target whose `usize` has 64 bits. -/
def blockSize (overflowChecks : Bool) (totalSpaces : Nat) : Outcome Nat := do
  let slots ← Target.mulUsize ⟨64, overflowChecks⟩ totalSpaces spaceInfoSize
  Target.addUsize ⟨64, overflowChecks⟩ slots spaceArgsSize

/-- `fs::fd::get_spaces`, which aborts when the allocator has no block of the layout. -/
def getSpaces (overflowChecks : Bool) (alloc : Layout → Bool) (ioctl : SpaceIoctl) :
    Outcome Iter := do
  let args ← (btrfsIoctl (ioctl 0 ⟨0, 0, []⟩)).mapError .io
  let size ← blockSize overflowChecks args.totalSpaces.toNat
  let layout ← Target.layout ⟨64, overflowChecks⟩ size spaceArgsAlign
  if alloc layout then
    -- The block comes from the allocator as it is, so that none of its slots is written yet.
    let slots := List.replicate ((size - spaceArgsSize) / spaceInfoSize) none
    let argp ← (btrfsIoctl (ioctl 1 ⟨args.totalSpaces, 0, slots⟩)).mapError .io
    return ⟨args.totalSpaces.toNat, 0, argp, layout, Nat.zero_le _⟩
  else throw (.panic "memory allocation failed")

/-- The space infos that a filesystem has at some moment. Their number is a 64-bit value. -/
structure SpaceInfos where
  entries : List SpaceInfo
  counted : entries.length < 2 ^ 64

namespace SpaceInfos

/-- The number of space infos. -/
def count (infos : SpaceInfos) : UInt64 := UInt64.ofNat infos.entries.length

/-- The entries for which there are slots. -/
def written (infos : SpaceInfos) (slots : UInt64) : List SpaceInfo :=
  infos.entries.take slots.toNat

/-- The contract of the ioctl: without slots it counts, and with slots it fills as many as it can. -/
def answer (infos : SpaceInfos) (args : SpaceArgs) : SpaceArgs :=
  if args.spaceSlots = 0 then { args with totalSpaces := infos.count }
  else
    let written := infos.written args.spaceSlots
    { args with
      totalSpaces := UInt64.ofNat written.length
      spaces := (written.map some).take args.spaces.length ++ args.spaces.drop written.length }

/-- The count is the length of the list. -/
@[simp] theorem count_toNat (infos : SpaceInfos) : infos.count.toNat = infos.entries.length :=
  UInt64.toNat_ofNat_of_lt' infos.counted

/-- Without slots, the ioctl tells the number of space infos and writes nothing. -/
theorem answer_counts (infos : SpaceInfos) : infos.answer ⟨0, 0, []⟩ = ⟨0, infos.count, []⟩ := by
  -- The kernel looks at the number of slots first.
  rw [answer, if_pos rfl]

end SpaceInfos

/-- The ioctl on a filesystem that has some space infos at each of the calls. -/
def onCalls (infos : Nat → SpaceInfos) : SpaceIoctl := fun call args => .ok ((infos call).answer args)

/-- Behind the last of its slots the iterator stays where it is. -/
theorem Iter.next_finished {iter : Iter} (finished : iter.current = iter.total) :
    iter.next = (none, iter) := by
  -- The two counts are equal.
  rw [next, dif_pos finished]

/-- Before that it yields what is read at its offset, and goes on to the next one. -/
theorem Iter.next_more {iter : Iter} (more : iter.current ≠ iter.total) :
    iter.next.1 = some (iter.read iter.current) ∧
      iter.rest = iter.read iter.current :: iter.next.2.rest := by
  -- The first of the offsets is the current one, and the others start behind it.
  have within := iter.within
  have apart : iter.total - iter.current = iter.total - (iter.current + 1) + 1 := by omega
  rw [rest, apart, List.range'_succ, List.map_cons, next, dif_neg more]
  exact ⟨rfl, rfl⟩

/-- The iterator yields what is in the slots that it goes through, and knows how many these are. -/
theorem Iter.yields_rest (iter : Iter) : exactSize.Yields iter iter.rest := by
  have length : ∀ iter : Iter, iter.rest.length = iter.total - iter.current := by
    intro iter
    rw [rest, List.length_map, List.length_range']
  -- The invariant is that the list is what the iterator still goes through.
  apply @ExactSize.yields_of_invariant _ _ _ fun iter items => items = iter.rest
  · intro iter nothing
    have none_left : iter.total - iter.current = 0 := by
      rw [← length, ← nothing, List.length_nil]
    have within := iter.within
    have returned := next_finished (show iter.current = iter.total by omega)
    refine ⟨congrArg Prod.fst returned, none_left, ?_⟩
    show [] = (next iter).2.rest
    rw [returned]
    exact nothing
  · intro iter item items equal
    have left : (item :: items).length = iter.total - iter.current := by rw [← length, equal]
    have more : iter.current ≠ iter.total := by
      rw [List.length_cons] at left
      omega
    obtain ⟨yielded, found⟩ := next_more more
    obtain ⟨head, tail⟩ := List.cons.inj (equal.trans found)
    refine ⟨?_, left.symm, tail⟩
    rw [head]
    exact yielded
  · rfl

/-- The size of the block, where it does not wrap. -/
theorem blockSize_fits {overflowChecks : Bool} {totalSpaces : Nat}
    (fits : totalSpaces * spaceInfoSize + spaceArgsSize < 2 ^ 64) :
    blockSize overflowChecks totalSpaces =
      .ok (totalSpaces * spaceInfoSize + spaceArgsSize) := by
  have slots : totalSpaces * spaceInfoSize < 2 ^ 64 := by omega
  rw [blockSize, Target.mulUsize, if_pos slots]
  -- Neither the product nor the sum is too large for a `usize`.
  show Target.addUsize ⟨64, overflowChecks⟩ _ _ = _
  rw [Target.addUsize, if_pos fits]

/-- The block has room for the slots unless its size has wrapped. -/
theorem slots_iff {overflowChecks : Bool} {totalSpaces size : Nat}
    (sized : blockSize overflowChecks totalSpaces = .ok size) (small : size < 2 ^ 64) :
    totalSpaces ≤ (size - spaceArgsSize) / spaceInfoSize ↔
      totalSpaces * spaceInfoSize + spaceArgsSize < 2 ^ 64 := by
  by_cases fits : totalSpaces * spaceInfoSize + spaceArgsSize < 2 ^ 64
  · -- The size is the one that is asked for.
    rw [blockSize_fits fits] at sized
    cases sized
    refine ⟨fun _ => fits, fun _ => ?_⟩
    rw [Nat.add_sub_cancel, Nat.mul_div_cancel _ (by decide)]
  · -- Any size of a block is smaller than what the slots would take.
    refine ⟨fun enough => ?_, fun impossible => absurd impossible fits⟩
    have room := (Nat.le_div_iff_mul_le (show 0 < spaceInfoSize by decide)).mp enough
    simp only [spaceInfoSize, spaceArgsSize] at room fits ⊢
    omega

/-- What the two calls make of the block. -/
theorem getSpaces_returned {overflowChecks : Bool} {alloc : Layout → Bool}
    {infos : Nat → SpaceInfos} {iter : Iter}
    (returned : getSpaces overflowChecks alloc (onCalls infos) = .ok iter) :
    ∃ size, blockSize overflowChecks (infos 0).entries.length = .ok size ∧ size < 2 ^ 64 ∧
      iter.total = (infos 0).entries.length ∧ iter.current = 0 ∧
      iter.args = (infos 1).answer ⟨(infos 0).count, 0,
        List.replicate ((size - spaceArgsSize) / spaceInfoSize) none⟩ := by
  simp only [getSpaces, onCalls, btrfsIoctl, SpaceInfos.answer_counts, Except.mapError, bind,
    Except.bind, SpaceInfos.count_toNat] at returned
  -- Each of the steps in front of the iterator has succeeded.
  cases sized : blockSize overflowChecks (infos 0).entries.length with
  | error failure =>
    rw [sized] at returned
    cases returned
  | ok size =>
    rw [sized] at returned
    simp only [Target.layout] at returned
    by_cases rounds : size + (spaceArgsAlign - 1) < 2 ^ (64 - 1)
    · simp only [if_pos rounds] at returned
      split at returned
      · cases returned
        have small : size < 2 ^ 64 := by
          simp only [spaceArgsAlign] at rounds
          omega
        exact ⟨size, rfl, small, rfl, rfl, rfl⟩
      · cases returned
    · simp only [if_neg rounds] at returned
      cases returned

/-- The offsets of the slots that were written are read as what was written there. -/
theorem map_read {iter : Iter} {written : List SpaceInfo} {back : List (Option SpaceInfo)}
    (filled : iter.args.spaces = written.map some ++ back) :
    (List.range' 0 written.length).map iter.read = written.map some := by
  -- Position by position, a slot is read as it was written.
  apply List.ext_getElem
  · simp
  · intro off _ inside
    rw [List.length_map] at inside
    simp [Iter.read, filled, List.getElem?_append, inside]

/--
The entries that the second call has written are yielded exactly when there are not fewer of them
than the first call has counted, and the size of the block for these has not wrapped.
-/
theorem getSpaces_iff {overflowChecks : Bool} {alloc : Layout → Bool} {infos : Nat → SpaceInfos}
    {iter : Iter} (returned : getSpaces overflowChecks alloc (onCalls infos) = .ok iter) :
    Iter.exactSize.Yields iter (((infos 1).written (infos 0).count).map some) ↔
      (infos 0).entries.length ≤ (infos 1).entries.length ∧
        (infos 0).entries.length * spaceInfoSize + spaceArgsSize < 2 ^ 64 := by
  obtain ⟨size, sized, small, total, current, args⟩ := getSpaces_returned returned
  rw [← slots_iff sized small]
  generalize (size - spaceArgsSize) / spaceInfoSize = slots at args ⊢
  have rest : iter.rest = (List.range' 0 (infos 0).entries.length).map iter.read := by
    rw [Iter.rest, current, total, Nat.sub_zero]
  have length : ((infos 1).written (infos 0).count).length =
      min (infos 0).entries.length (infos 1).entries.length := by
    rw [SpaceInfos.written, List.length_take, SpaceInfos.count_toNat]
  -- What is yielded is what is read, so that the two lists have to be the same.
  have same : Iter.exactSize.Yields iter (((infos 1).written (infos 0).count).map some) ↔
      iter.rest = ((infos 1).written (infos 0).count).map some := by
    refine ⟨fun yields => ?_, fun equal => ?_⟩
    · exact ExactSize.Yields.unique _ iter.yields_rest yields
    · rw [← equal]
      exact iter.yields_rest
  rw [same, rest]
  by_cases none_counted : (infos 0).count = 0
  · -- Without slots nothing is yielded and nothing is written.
    have nothing : (infos 0).entries.length = 0 := by
      rw [← SpaceInfos.count_toNat, none_counted]
      rfl
    simp [nothing, SpaceInfos.written, none_counted]
  · rw [SpaceInfos.answer, if_neg none_counted] at args
    refine ⟨fun equal => ?_, fun ⟨enough, room⟩ => ?_⟩
    · have lengths := congrArg List.length equal
      rw [List.length_map, List.length_map, List.length_range', length] at lengths
      refine ⟨by omega, ?_⟩
      by_contra short
      -- The last slot lies outside of the block, and is read although nothing was written there.
      have last := congrArg (fun items => items[(infos 0).entries.length - 1]?) equal
      have positive : (infos 0).entries.length - 1 < (infos 0).entries.length := by omega
      have inside : (infos 0).entries.length - 1 <
          ((infos 1).written (infos 0).count).length := by omega
      have outside : iter.args.spaces[(infos 0).entries.length - 1]? = none := by
        rw [args]
        apply List.getElem?_eq_none
        simp only [List.length_append, List.length_take, List.length_map, List.length_drop,
          List.length_replicate]
        omega
      simp [Iter.read, positive, inside, outside] at last
    · have whole : ((infos 1).written (infos 0).count).length = (infos 0).entries.length := by
        rw [length, Nat.min_eq_left enough]
      rw [← whole] at room ⊢
      apply map_read
      -- There is a slot for each of the entries.
      rw [args]
      show (((infos 1).written _).map some).take _ ++ _ = _
      rw [List.length_replicate, List.take_of_length_le (by rw [List.length_map]; exact room)]

/-- An iterator is returned where the block is small enough and the allocator has it. -/
theorem getSpaces_returns {overflowChecks : Bool} {alloc : Layout → Bool} {infos : Nat → SpaceInfos}
    (fits : (infos 0).entries.length * spaceInfoSize + spaceArgsSize + (spaceArgsAlign - 1) <
      2 ^ (64 - 1))
    (allocated : alloc ⟨(infos 0).entries.length * spaceInfoSize + spaceArgsSize, spaceArgsAlign⟩ =
      true) :
    ∃ iter, getSpaces overflowChecks alloc (onCalls infos) = .ok iter := by
  have small : (infos 0).entries.length * spaceInfoSize + spaceArgsSize < 2 ^ 64 := by omega
  -- None of the steps in front of the iterator fails.
  simp only [getSpaces, onCalls, btrfsIoctl, SpaceInfos.answer_counts, Except.mapError, bind,
    Except.bind, SpaceInfos.count_toNat, blockSize_fits small, Target.layout, if_pos fits,
    allocated, if_true]
  exact ⟨_, rfl⟩

/-- The space info of some data. -/
def dataSpace : SpaceInfo := ⟨1, 8192, 4096⟩

/-- The space info of some metadata. -/
def metadataSpace : SpaceInfo := ⟨4, 8192, 4096⟩

/-- The first of two space infos are few enough to be counted. -/
theorem shrinking_counted (call : Nat) :
    ([dataSpace, metadataSpace].take (2 - call)).length < 2 ^ 64 := by
  -- There are two of them at most.
  rw [List.length_take]
  show min (2 - call) 2 < _
  omega

/-- A filesystem that has one space info less at every call. -/
def shrinking (call : Nat) : SpaceInfos :=
  ⟨[dataSpace, metadataSpace].take (2 - call), shrinking_counted call⟩

/-- The iterator on that filesystem, whose second slot was never written. -/
def shrunkIter : Iter :=
  ⟨2, 0, ⟨2, 1, [some dataSpace, none]⟩, ⟨64, 8⟩, Nat.zero_le 2⟩

/-- It is the one that is returned. -/
theorem shrunkIter_returned :
    getSpaces true (fun _ => true) (onCalls shrinking) = .ok shrunkIter := rfl

/-- All that was counted is iterated over just if no less was there at the second call. -/
theorem getSpaces_iff_shrinking :
    Iter.exactSize.Yields shrunkIter (((shrinking 1).written (shrinking 0).count).map some) ↔
      (shrinking 0).entries.length ≤ (shrinking 1).entries.length ∧
        (shrinking 0).entries.length * spaceInfoSize + spaceArgsSize < 2 ^ 64 :=
  getSpaces_iff shrunkIter_returned

/-- With one space info less at the second call there is a slot that was never written. -/
theorem getSpaces_unwritten :
    getSpaces true (fun _ => true) (onCalls shrinking) = .ok shrunkIter ∧
      (shrinking 1).written (shrinking 0).count = [dataSpace] ∧
      ¬ Iter.exactSize.Yields shrunkIter (((shrinking 1).written (shrinking 0).count).map some) := by
  -- The second call of `next` yields what is in a slot that was not written.
  refine ⟨rfl, rfl, fun yields => ?_⟩
  have second : some none = none := (yields 1).1
  cases second

end Libbtrfs.Space
