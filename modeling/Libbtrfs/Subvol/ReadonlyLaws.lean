import Libbtrfs.Subvol.Readonly

/-! Exactly when the queries for the read-only state agree, before it is set and behind that. -/

namespace Libbtrfs

open Search

section Words

variable (flags word : UInt64)

/-- The bits of a mask that two words have together are those that each of them has. -/
theorem or_masked (one other mask : UInt64) :
    (one ||| other) &&& mask = (one &&& mask) ||| (other &&& mask) := by
  -- It is so for each bit.
  rw [← UInt64.toBitVec_inj]
  exact BitVec.and_or_distrib_right

/-- The flags that are returned for a word say what the word says. -/
theorem flagReadonly_translated : flagReadonly (translated word) = diskReadonly word := by
  -- The state is translated from the one bit to the other.
  rw [translated]
  cases diskReadonly word with
  | false => rfl
  | true => rfl

/-- The flags are compared with the wanted state by their only bit. -/
theorem translated_same (readonly : Bool) :
    subvolRdonly &&& translated word = subvolRdonly * readonly.toUInt64 ↔
      diskReadonly word = readonly := by
  rw [translated]
  -- There are four cases, in two of which both sides hold.
  cases diskReadonly word <;> cases readonly <;> decide

/-- The flags with their bit turned round are those of the other state. -/
theorem translated_turned {readonly : Bool} (other : diskReadonly word ≠ readonly) :
    translated word ^^^ subvolRdonly = subvolRdonly * readonly.toUInt64 := by
  rw [translated]
  -- Of the four combinations two are excluded, and in the others the bit is the new state.
  cases on_disk : diskReadonly word with
  | false =>
    cases readonly with
    | false => exact absurd on_disk other
    | true => rfl
  | true =>
    cases readonly with
    | false => rfl
    | true => exact absurd on_disk other

/-- The flags of a state say what it is. -/
theorem flagReadonly_state (readonly : Bool) :
    flagReadonly (subvolRdonly * readonly.toUInt64) = readonly := by
  -- There are two of them.
  cases readonly with
  | false => rfl
  | true => rfl

/-- Behind setting some flags the word on the disk says what the flags say. -/
theorem diskReadonly_marked : diskReadonly (marked flags word) = flagReadonly flags := by
  rw [marked]
  -- The bit on the disk is cleared or set.
  cases flagReadonly flags with
  | false =>
    have cleared : word &&& ~~~rootSubvolRdonly &&& rootSubvolRdonly = 0 := by
      rw [UInt64.and_assoc]
      exact UInt64.and_zero
    simp [diskReadonly, cleared]
  | true =>
    have set : (word ||| rootSubvolRdonly) &&& rootSubvolRdonly ≠ 0 := by
      rw [or_masked]
      intro zero
      have none := (UInt64.or_eq_zero_iff.mp zero).2
      exact absurd none (by decide)
    simp [diskReadonly, set]

/-- Setting some flags leaves the bit that the ioctls use for the state as it was on the disk. -/
theorem flagReadonly_marked : flagReadonly (marked flags word) = flagReadonly word := by
  -- The two bits are different ones, so the one of the ioctls is not touched.
  have same : marked flags word &&& subvolRdonly = word &&& subvolRdonly := by
    rw [marked]
    split
    · rw [or_masked]
      exact UInt64.or_zero
    · rw [UInt64.and_assoc]
      rfl
  rw [flagReadonly, flagReadonly, same]

/-- Setting some flags leaves all other bits of the word as they were. -/
theorem marked_others : marked flags word &&& ~~~rootSubvolRdonly = word &&& ~~~rootSubvolRdonly := by
  -- The bit that is set or cleared is the one that is masked out.
  rw [marked]
  split
  · rw [or_masked]
    exact UInt64.or_zero
  · rw [UInt64.and_assoc, UInt64.and_self]

end Words

section Exposed

variable {Fd World : Type} {kernel : FlagKernel Fd World} {subvol : Fd} {treeid : UInt64}
  {word : World → UInt64} {tree : World → InfoTree}

/-- `get_info_by_id` returns the word on the disk, but for the top-level subvolume. -/
theorem Exposes.getInfoById (exposes : Exposes kernel subvol treeid word tree)
    (nested : treeid ≠ TreeId.fsTree.toUInt64) (world : World) :
    ∃ rounds info, (getInfoById (kernel.treeSearch world) treeid rounds).ended = some (.ok info) ∧
      info.flags = some (word world) := by
  -- The first batch has the `ROOT_ITEM` in it, and no name in it is refused.
  have serves := exposes.search world
  obtain ⟨_, batch, answers⟩ := GetInfo.served serves nested 0 rfl
  obtain ⟨root, found⟩ := exposes.root world
  have in_batch := GetInfo.batch_root nested found answers
  obtain ⟨rest, whole⟩ := answers.initial
  have selected : ∀ item ∈ batch, item ∈ (tree world).items ∧ item.objectid = treeid := by
    intro item member
    have inside := (tree world).batch_matching whole.symm member
    obtain ⟨present, same, _⟩ := (GetInfo.mem_infoSearch nested (tree world).toTree item).mp inside
    exact ⟨present, same⟩
  rcases GetInfo.first_batch serves nested answers in_batch with
    ⟨⟨ref, member, ty, zero⟩, _⟩ | ⟨collected, reflects, ended⟩
  · exact absurd zero (exposes.names world ref (selected ref member).1 ty)
  · obtain ⟨_, item, ⟨ty, front, back, split, _⟩, behind, fields⟩ := reflects.rootItem in_batch
    have member : item ∈ batch := split ▸ List.mem_append_right front List.mem_cons_self
    obtain ⟨present, same⟩ := selected item member
    obtain ⟨inside, on_disk⟩ := exposes.flags world item ⟨present, same, ty⟩
    refine ⟨2, _, ended, ?_⟩
    show collected.info.flags = _
    rw [fields.flags, ← on_disk]
    exact congrArg some (RootItem.le64_append behind inside)

/-- `is_readonly` returns the state on the disk. -/
theorem Exposes.isReadonly (exposes : Exposes kernel subvol treeid word tree) (world : World) :
    isReadonly kernel subvol world = .ok (diskReadonly (word world)) := by
  -- The flags of the ioctl are translated from those on the disk.
  rw [Libbtrfs.isReadonly, exposes.getflags world, ← flagReadonly_translated]
  rfl

/-- The queries have an answer in common exactly when both bits of the word are that answer. -/
theorem Exposes.answered_iff (exposes : Exposes kernel subvol treeid word tree) (world : World)
    (readonly : Bool) :
    Answered kernel subvol treeid world readonly ↔
      treeid ≠ TreeId.fsTree.toUInt64 ∧ diskReadonly (word world) = readonly ∧
        flagReadonly (word world) = readonly := by
  have read : ∀ info : InfoArgs, info.flags = some (word world) →
      info.readonly = some (flagReadonly (word world)) := by
    intro info flags
    rw [InfoArgs.readonly, flags]
    rfl
  constructor
  · intro answered
    obtain ⟨state, ⟨info, got, same⟩, rounds, other, ended, other_same⟩ := answered
    rw [exposes.isReadonly] at state
    obtain ⟨exposed, returned, flags⟩ := exposes.info world
    rw [getInfo, returned] at got
    cases got
    rw [read _ flags] at same
    refine ⟨?_, Except.ok.inj state, Option.some.inj same⟩
    -- The information about the top-level subvolume has no flags.
    rintro rfl
    cases GetInfo.ended_unique ended (GetInfo.toplevel (kernel.treeSearch world))
    cases other_same
  · rintro ⟨nested, on_disk, in_flags⟩
    obtain ⟨exposed, returned, flags⟩ := exposes.info world
    obtain ⟨rounds, info, ended, by_id⟩ := exposes.getInfoById nested world
    constructor
    · rw [exposes.isReadonly, on_disk]
    · refine ⟨exposed, ?_, ?_⟩
      · rw [getInfo, returned]
        rfl
      · rw [read _ flags, in_flags]
    · refine ⟨rounds, info, ended, ?_⟩
      rw [read _ by_id, in_flags]

/-- What setting the state comes to: there is nothing to do, or the flags of it are set. -/
theorem Exposes.setReadonly (exposes : Exposes kernel subvol treeid word tree) (world : World)
    (readonly : Bool) :
    setReadonly kernel subvol readonly world =
      if diskReadonly (word world) = readonly then (.ok (), world)
      else
        (btrfsIoctl (kernel.setflags subvol (subvolRdonly * readonly.toUInt64) world).1,
          (kernel.setflags subvol (subvolRdonly * readonly.toUInt64) world).2) := by
  rw [Libbtrfs.setReadonly, exposes.getflags world]
  simp only [btrfsIoctl, translated_same]
  -- The flags are compared with the ones that are wanted, and differ in the bit.
  by_cases same : diskReadonly (word world) = readonly
  · rw [if_pos same, if_pos same]
  · rw [if_neg same, if_neg same, translated_turned _ same]

/-- Behind a change that succeeds `is_readonly` returns the new state, and nothing else has changed. -/
theorem Exposes.isReadonly_set (exposes : Exposes kernel subvol treeid word tree)
    {world after : World} {readonly : Bool}
    (passed : Libbtrfs.setReadonly kernel subvol readonly world = (.ok (), after)) :
    Libbtrfs.isReadonly kernel subvol after = .ok readonly ∧
      word after &&& ~~~rootSubvolRdonly = word world &&& ~~~rootSubvolRdonly := by
  rw [exposes.isReadonly]
  rw [exposes.setReadonly] at passed
  by_cases same : diskReadonly (word world) = readonly
  · rw [if_pos same] at passed
    cases passed
    exact ⟨by rw [same], rfl⟩
  · rw [if_neg same] at passed
    obtain ⟨result, later⟩ := Prod.mk.inj passed
    -- The flags were set, and the word on the disk follows them.
    have set : kernel.setflags subvol (subvolRdonly * readonly.toUInt64) world = (.ok (), after) :=
      Prod.ext (btrfsIoctl_passed result) later
    rw [exposes.setflags _ _ _ set, diskReadonly_marked, flagReadonly_state]
    exact ⟨rfl, marked_others _ _⟩

end Exposed

/--
The queries for the read-only state agree exactly when the bit of the flag ioctls has the same value
on the disk as the bit that the disk has for it, and setting the state need not change that.
-/
theorem readonly_agrees_iff {Fd World : Type} (kernel : FlagKernel Fd World) (subvol : Fd)
    (treeid : UInt64) (word : World → UInt64) (tree : World → InfoTree)
    (exposes : Exposes kernel subvol treeid word tree) (world : World) (readonly : Bool) :
    ReadonlyAgrees kernel subvol treeid word world readonly ↔
      treeid ≠ TreeId.fsTree.toUInt64 ∧
        diskReadonly (word world) = flagReadonly (word world) ∧
        (diskReadonly (word world) = readonly ∨
          ∃ error, (kernel.setflags subvol (subvolRdonly * readonly.toUInt64) world).1 =
            .error error) := by
  constructor
  · intro agrees
    obtain ⟨⟨answer, answered⟩, set⟩ := agrees
    obtain ⟨nested, on_disk, in_flags⟩ := (exposes.answered_iff world answer).mp answered
    refine ⟨nested, on_disk.trans in_flags.symm, ?_⟩
    by_cases same : diskReadonly (word world) = readonly
    · exact Or.inl same
    · right
      cases called : kernel.setflags subvol (subvolRdonly * readonly.toUInt64) world with
      | mk result after =>
        cases result with
        | error error => exact ⟨error, rfl⟩
        | ok done =>
          -- The bit that `readonly` tests is not changed by setting the flags.
          have passed : setReadonly kernel subvol readonly world = (.ok (), after) := by
            rw [exposes.setReadonly, if_neg same, called]
            rfl
          obtain ⟨_, _, later⟩ :=
            (exposes.answered_iff after readonly).mp (set after passed).1
          rw [exposes.setflags _ _ _ called, flagReadonly_marked, in_flags, ← on_disk] at later
          exact absurd later same
  · intro condition
    obtain ⟨nested, same, settled⟩ := condition
    have answered := (exposes.answered_iff world (diskReadonly (word world))).mpr
      ⟨nested, rfl, same.symm⟩
    refine ⟨⟨_, answered⟩, ?_⟩
    intro after passed
    rw [exposes.setReadonly] at passed
    rcases settled with wanted | ⟨error, refused⟩
    · rw [if_pos wanted] at passed
      cases passed
      rw [← wanted]
      exact ⟨answered, rfl⟩
    · by_cases wanted : diskReadonly (word world) = readonly
      · rw [if_pos wanted] at passed
        cases passed
        rw [← wanted]
        exact ⟨answered, rfl⟩
      · -- The kernel refuses, and so does the function.
        rw [if_neg wanted, refused] at passed
        obtain ⟨other, failed⟩ := @btrfsIoctl_error Unit error
        rw [failed] at passed
        cases congrArg Prod.fst passed

/-- A `ROOT_ITEM` of subvolume 256 with some flags, whose other fields are zero. -/
def flaggedData (word : UInt64) : Bytes :=
  List.replicate 208 0 ++ (leBytes 8 word.toNat ++ List.replicate 223 0)

/-- Its size is that of a `btrfs_root_item`. -/
theorem flaggedData_length (word : UInt64) : (flaggedData word).length = RootItem.size := by
  -- The word has 8 bytes between the zeroes.
  rw [flaggedData, List.length_append, List.length_append, List.length_replicate, leBytes_length,
    List.length_replicate]
  rfl

/-- An item has room for it. -/
theorem flaggedData_bounded (word : UInt64) : (flaggedData word).length < 2 ^ 32 := by
  -- An item may be much longer.
  rw [flaggedData_length]
  decide

/-- The item. -/
def flaggedRoot (word : UInt64) : Item :=
  ⟨256, RootItem.key, 0, 0, flaggedData word, flaggedData_bounded word⟩

/-- Its flags are read back. -/
theorem flaggedRoot_flags (word : UInt64) : RootItem.flags ⟨(flaggedRoot word).data⟩ = word := by
  -- They stand behind 208 zeroes.
  have read := @readLe_at (List.replicate 208 0) (List.replicate 223 0) 208 8 word.toNat
    List.length_replicate word.toNat_lt
  have kept : readLe (flaggedRoot word).data 208 8 = word.toNat := read
  rw [RootItem.flags, RootItem.le64, kept]
  exact UInt64.ofNat_toNat

/-- Nothing but this item is in the root tree. -/
def flaggedTree (word : UInt64) : InfoTree where
  items := [flaggedRoot word]
  ascending := List.pairwise_singleton _ _
  refs := by
    intro item member ty
    rw [List.mem_singleton.mp member] at ty
    have other : RootItem.key = RootBackref.key := ty
    exact absurd other (by decide)
  fits := by
    intro item member _ _
    rw [List.mem_singleton.mp member, Item.size, flaggedRoot, flaggedData_length]
    decide

/-- A kernel with that tree, for which the word on the disk is all that changes. -/
def flaggedKernel : FlagKernel Unit UInt64 where
  getflags _ word := .ok (translated word)
  setflags _ flags word := (.ok (), marked flags word)
  getSubvolInfo _ word :=
    .ok (subvolInfoArgsFromRootItem ⟨(flaggedRoot word).data⟩ InfoArgs.uninit)
  treeSearch word := serveFull (flaggedTree word).toTree

/-- The kernel answers as it is to, whatever the word. -/
theorem flagged_exposes : Exposes flaggedKernel () 256 id flaggedTree where
  getflags _ := rfl
  setflags := by
    intro flags word after set
    exact (congrArg Prod.snd set).symm
  info word := ⟨_, rfl, congrArg some (flaggedRoot_flags word)⟩
  search word := serveFull_serves _
  root word := ⟨flaggedRoot word, List.mem_cons_self, rfl, rfl⟩
  flags := by
    -- The tree has no other item, and that one has its flags.
    intro word item root
    rw [List.mem_singleton.mp root.1]
    refine ⟨?_, flaggedRoot_flags word⟩
    rw [flaggedRoot, flaggedData_length]
    decide
  names := by
    intro word item member ty
    rw [List.mem_singleton.mp member] at ty
    have other : RootItem.key = RootBackref.key := ty
    exact absurd other (by decide)

/-- Of a subvolume with both bits in its word, which is to stay read-only, all queries say so. -/
theorem readonly_agrees_iff_both :
    ReadonlyAgrees flaggedKernel () 256 id 3 true :=
  (readonly_agrees_iff flaggedKernel () 256 id flaggedTree flagged_exposes 3 true).mpr
    ⟨by decide, by decide, Or.inl (by decide)⟩

/-- A subvolume that is read-only on the disk is not for `SubvolInfo::readonly`. -/
theorem readonly_disagrees :
    Exposes flaggedKernel () 256 id flaggedTree ∧ isReadonly flaggedKernel () 1 = .ok true ∧
      (∃ info, getInfo flaggedKernel () 1 = .ok info ∧ info.readonly = some false) ∧
      ¬ ReadonlyAgrees flaggedKernel () 256 id 1 true := by
  refine ⟨flagged_exposes, flagged_exposes.isReadonly 1, ⟨_, rfl, ?_⟩, ?_⟩
  · show some (decide (RootItem.flags ⟨(flaggedRoot 1).data⟩ &&& subvolRdonly ≠ 0)) = some false
    rw [flaggedRoot_flags]
    rfl
  · -- The two bits differ in the word, and no answer is both of them.
    intro agrees
    obtain ⟨answer, answered⟩ := agrees.1
    obtain ⟨_, on_disk, in_flags⟩ := (flagged_exposes.answered_iff 1 answer).mp answered
    exact absurd (on_disk.trans in_flags.symm) (by decide)

end Libbtrfs
