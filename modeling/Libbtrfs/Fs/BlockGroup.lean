import Libbtrfs.Core.Priority
import Libbtrfs.Fs.Spaces
import Mathlib.Data.Nat.Bitwise

/-! Block groups and raid profiles, which the flags of a space info name. -/

namespace Libbtrfs.Space

/-- `BTRFS_BLOCK_GROUP_DATA`. -/
def blockGroupData : UInt64 := 1

/-- `BTRFS_BLOCK_GROUP_SYSTEM`. -/
def blockGroupSystem : UInt64 := 2

/-- `BTRFS_BLOCK_GROUP_METADATA`. -/
def blockGroupMetadata : UInt64 := 4

/-- `BTRFS_BLOCK_GROUP_RAID0`. -/
def blockGroupRaid0 : UInt64 := 8

/-- `BTRFS_BLOCK_GROUP_RAID1`. -/
def blockGroupRaid1 : UInt64 := 16

/-- `BTRFS_BLOCK_GROUP_DUP`. -/
def blockGroupDup : UInt64 := 32

/-- `BTRFS_BLOCK_GROUP_RAID10`. -/
def blockGroupRaid10 : UInt64 := 64

/-- `BTRFS_BLOCK_GROUP_RAID5`. -/
def blockGroupRaid5 : UInt64 := 128

/-- `BTRFS_BLOCK_GROUP_RAID6`. -/
def blockGroupRaid6 : UInt64 := 256

/-- `BTRFS_BLOCK_GROUP_RAID1C3`. -/
def blockGroupRaid1c3 : UInt64 := 512

/-- `BTRFS_BLOCK_GROUP_RAID1C4`. -/
def blockGroupRaid1c4 : UInt64 := 1024

/-- `BTRFS_BLOCK_GROUP_TYPE_MASK`. -/
def blockGroupTypeMask : UInt64 := 4103

/-- `BTRFS_BLOCK_GROUP_PROFILE_MASK`. -/
def blockGroupProfileMask : UInt64 := 2040

/-- `BTRFS_BLOCK_GROUP_RESERVED`. -/
def blockGroupReserved : UInt64 := 844424930131968

/-- `BTRFS_SPACE_INFO_GLOBAL_RSV`. -/
def spaceInfoGlobalRsv : UInt64 := 562949953421312

/-- `BTRFS_ERROR_DEV_RAID1_MIN_NOT_MET`. -/
def errorDevRaid1MinNotMet : UInt32 := 1

/-- `BTRFS_ERROR_DEV_RAID10_MIN_NOT_MET`. -/
def errorDevRaid10MinNotMet : UInt32 := 2

/-- `BTRFS_ERROR_DEV_RAID5_MIN_NOT_MET`. -/
def errorDevRaid5MinNotMet : UInt32 := 3

/-- `BTRFS_ERROR_DEV_RAID6_MIN_NOT_MET`. -/
def errorDevRaid6MinNotMet : UInt32 := 4

/-- `BTRFS_ERROR_DEV_RAID1C3_MIN_NOT_MET`. -/
def errorDevRaid1c3MinNotMet : UInt32 := 9

/-- `BTRFS_ERROR_DEV_RAID1C4_MIN_NOT_MET`. -/
def errorDevRaid1c4MinNotMet : UInt32 := 10

/-- Possible block group types. -/
inductive BlockType where
  | data | system | metadata | globalReserve | unknown
  deriving DecidableEq

/-- `From<u64>` of `BlockType`. -/
def BlockType.from (value : UInt64) : BlockType :=
  let value := value &&& (blockGroupTypeMask ||| spaceInfoGlobalRsv)
  if value = blockGroupData then .data
  else if value = blockGroupSystem then .system
  else if value = blockGroupMetadata then .metadata
  else if value = spaceInfoGlobalRsv then .globalReserve
  else .unknown

/-- Information about a block group profile. -/
structure RaidProfile where
  subStripes : UInt32
  devStripes : UInt32
  devsMax : UInt32
  devsMin : UInt32
  toleratedFailures : UInt32
  devsIncrement : UInt32
  ncopies : UInt32
  nparity : UInt32
  mindevError : UInt32
  lowerName : String
  upperName : String
  bgFlag : UInt64
  deriving DecidableEq

/-- `BTRFS_RAID_RAID10`. -/
def raidRaid10 : RaidProfile where
  subStripes := 2
  devStripes := 1
  devsMax := 0
  devsMin := 2
  toleratedFailures := 1
  devsIncrement := 2
  ncopies := 2
  nparity := 0
  lowerName := "raid10"
  upperName := "RAID10"
  bgFlag := blockGroupRaid10
  mindevError := errorDevRaid10MinNotMet

/-- `BTRFS_RAID_RAID1`. -/
def raidRaid1 : RaidProfile where
  subStripes := 1
  devStripes := 1
  devsMax := 2
  devsMin := 2
  toleratedFailures := 1
  devsIncrement := 2
  ncopies := 2
  nparity := 0
  lowerName := "raid1"
  upperName := "RAID1"
  bgFlag := blockGroupRaid1
  mindevError := errorDevRaid1MinNotMet

/-- `BTRFS_RAID_DUP`. -/
def raidDup : RaidProfile where
  subStripes := 1
  devStripes := 2
  devsMax := 1
  devsMin := 1
  toleratedFailures := 0
  devsIncrement := 1
  ncopies := 2
  nparity := 0
  lowerName := "dup"
  upperName := "DUP"
  bgFlag := blockGroupDup
  mindevError := 0

/-- `BTRFS_RAID_RAID0`. -/
def raidRaid0 : RaidProfile where
  subStripes := 1
  devStripes := 1
  devsMax := 0
  devsMin := 1
  toleratedFailures := 0
  devsIncrement := 1
  ncopies := 1
  nparity := 0
  lowerName := "raid0"
  upperName := "RAID0"
  bgFlag := blockGroupRaid0
  mindevError := 0

/-- `BTRFS_RAID_SINGLE`. -/
def raidSingle : RaidProfile where
  subStripes := 1
  devStripes := 1
  devsMax := 1
  devsMin := 1
  toleratedFailures := 0
  devsIncrement := 1
  ncopies := 1
  nparity := 0
  lowerName := "single"
  upperName := "SINGLE"
  bgFlag := 0
  mindevError := 0

/-- `BTRFS_RAID_RAID5`. -/
def raidRaid5 : RaidProfile where
  subStripes := 1
  devStripes := 1
  devsMax := 0
  devsMin := 2
  toleratedFailures := 1
  devsIncrement := 1
  ncopies := 1
  nparity := 1
  lowerName := "raid5"
  upperName := "RAID5"
  bgFlag := blockGroupRaid5
  mindevError := errorDevRaid5MinNotMet

/-- `BTRFS_RAID_RAID6`. -/
def raidRaid6 : RaidProfile where
  subStripes := 1
  devStripes := 1
  devsMax := 0
  devsMin := 3
  toleratedFailures := 2
  devsIncrement := 1
  ncopies := 1
  nparity := 2
  lowerName := "raid6"
  upperName := "RAID6"
  bgFlag := blockGroupRaid6
  mindevError := errorDevRaid6MinNotMet

/-- `BTRFS_RAID_RAID1C3`. -/
def raidRaid1c3 : RaidProfile where
  subStripes := 1
  devStripes := 1
  devsMax := 3
  devsMin := 3
  toleratedFailures := 2
  devsIncrement := 3
  ncopies := 3
  nparity := 0
  lowerName := "raid1c3"
  upperName := "RAID1C3"
  bgFlag := blockGroupRaid1c3
  mindevError := errorDevRaid1c3MinNotMet

/-- `BTRFS_RAID_RAID1C4`. -/
def raidRaid1c4 : RaidProfile where
  subStripes := 1
  devStripes := 1
  devsMax := 4
  devsMin := 4
  toleratedFailures := 3
  devsIncrement := 4
  ncopies := 4
  nparity := 0
  lowerName := "raid1c4"
  upperName := "RAID1C4"
  bgFlag := blockGroupRaid1c4
  mindevError := errorDevRaid1c4MinNotMet

/-- `RAID_ARRAY`. -/
def raidArray : List RaidProfile :=
  [raidRaid10, raidRaid1, raidDup, raidRaid0, raidSingle, raidRaid5, raidRaid6, raidRaid1c3,
    raidRaid1c4]

/-- Used to index into the array of profiles. -/
inductive RaidIndex where
  | raid10 | raid1 | dup | raid0 | single | raid5 | raid6 | raid1c3 | raid1c4 | max
  deriving DecidableEq

namespace RaidIndex

/-- `index as usize`. -/
def toNat : RaidIndex → Nat
  | .raid10 => 0
  | .raid1 => 1
  | .dup => 2
  | .raid0 => 3
  | .single => 4
  | .raid5 => 5
  | .raid6 => 6
  | .raid1c3 => 7
  | .raid1c4 => 8
  | .max => 9

/-- `RAID_ARRAY[index as usize]`, which panics behind the end of the array. -/
def profile (index : RaidIndex) : Outcome RaidProfile :=
  match raidArray[index.toNat]? with
  | some profile => .ok profile
  | none => .error (.panic "index out of bounds")

end RaidIndex

/-- `TryFrom<u64>` of `RaidProfile`. -/
def RaidProfile.tryFrom (value : UInt64) : Outcome RaidProfile :=
  let value := value &&& ~~~(blockGroupTypeMask ||| blockGroupReserved)
  if value &&& ~~~blockGroupProfileMask ≠ 0 then .error (.io (.kind .invalidInput))
  else RaidIndex.profile <|
    if value &&& blockGroupRaid10 ≠ 0 then .raid10
    else if value &&& blockGroupRaid1 ≠ 0 then .raid1
    else if value &&& blockGroupRaid1c3 ≠ 0 then .raid1c3
    else if value &&& blockGroupRaid1c4 ≠ 0 then .raid1c4
    else if value &&& blockGroupDup ≠ 0 then .dup
    else if value &&& blockGroupRaid0 ≠ 0 then .raid0
    else if value &&& blockGroupRaid5 ≠ 0 then .raid5
    else if value &&& blockGroupRaid6 ≠ 0 then .raid6
    else .single

/-- `SpaceInfo::block_type`. -/
def SpaceInfo.blockType (info : SpaceInfo) : BlockType := .from info.flags

/-- `SpaceInfo::raid_profile`. -/
def SpaceInfo.raidProfile (info : SpaceInfo) : Outcome RaidProfile :=
  RaidProfile.tryFrom info.flags

namespace RaidIndex

/-- The flag of a profile. -/
def flag : RaidIndex → UInt64
  | .raid10 => blockGroupRaid10
  | .raid1 => blockGroupRaid1
  | .dup => blockGroupDup
  | .raid0 => blockGroupRaid0
  | .single => 0
  | .raid5 => blockGroupRaid5
  | .raid6 => blockGroupRaid6
  | .raid1c3 => blockGroupRaid1c3
  | .raid1c4 => blockGroupRaid1c4
  | .max => 0

/-- The profiles that have a flag, in the order in which the flags are tested. -/
def tested : List RaidIndex :=
  [.raid10, .raid1, .raid1c3, .raid1c4, .dup, .raid0, .raid5, .raid6]

/-- Whether flags have that of a profile. -/
def inside (value : UInt64) (index : RaidIndex) : Bool := value &&& index.flag ≠ 0

end RaidIndex

/-- Whether flags have a bit that is none of those of types and profiles, and is not reserved. -/
def Foreign (value : UInt64) : Prop :=
  value &&& ~~~(blockGroupTypeMask ||| blockGroupReserved) &&& ~~~blockGroupProfileMask ≠ 0

instance (value : UInt64) : Decidable (Foreign value) := inferInstanceAs (Decidable (_ ≠ _))

/-- The profile of flags, if the tests are made in some order. -/
def RaidProfile.tryFromIn (order : List RaidIndex) (value : UInt64) : Outcome RaidProfile :=
  if Foreign value then .error (.io (.kind .invalidInput))
  else ((order.find? (RaidIndex.inside value)).getD .single).profile

/-- The flags of types and what is reserved are none of the profiles'. -/
theorem RaidIndex.masked_inside (value : UInt64) (index : RaidIndex) :
    inside (value &&& ~~~(blockGroupTypeMask ||| blockGroupReserved)) index =
      inside value index := by
  -- The flag of a profile is among the bits that are kept.
  have apart : ~~~(blockGroupTypeMask ||| blockGroupReserved) &&& index.flag = index.flag := by
    cases index <;> decide
  rw [inside, inside, UInt64.and_assoc, apart]

/-- The first test that is passed decides, and behind the last one there is the other value. -/
theorem RaidIndex.find?_getD_cons (value : UInt64) (index other : RaidIndex)
    (rest : List RaidIndex) :
    ((index :: rest).find? (inside value)).getD other =
      if value &&& index.flag ≠ 0 then index else (rest.find? (inside value)).getD other := by
  -- The first one passes or is left out.
  rw [List.find?_cons, inside]
  by_cases passes : value &&& index.flag ≠ 0
  · rw [decide_eq_true passes, if_pos passes]
    rfl
  · rw [decide_eq_false passes, if_neg passes]

/-- The source makes the tests of the profiles that have a flag. -/
theorem RaidProfile.tryFrom_eq (value : UInt64) :
    tryFrom value = tryFromIn RaidIndex.tested value := by
  -- The mask takes nothing from the flags of the profiles, and the tests are in that order.
  have same : RaidIndex.inside value =
      RaidIndex.inside (value &&& ~~~(blockGroupTypeMask ||| blockGroupReserved)) :=
    funext fun index => (RaidIndex.masked_inside value index).symm
  rw [tryFrom, tryFromIn, same, RaidIndex.tested]
  simp only [RaidIndex.find?_getD_cons]
  rfl

/-- A flag of a profile is a single bit, which is there as a whole or not at all. -/
theorem RaidIndex.flag_bit {value : UInt64} {index : RaidIndex}
    (passes : index.inside value = true) :
    value &&& index.flag = index.flag := by
  -- The bit is known for every profile, and two of them have none.
  have bit : index.flag = 0 ∨ ∃ position, index.flag.toNat = 2 ^ position := by
    cases index with
    | raid10 => exact Or.inr ⟨6, rfl⟩
    | raid1 => exact Or.inr ⟨4, rfl⟩
    | dup => exact Or.inr ⟨5, rfl⟩
    | raid0 => exact Or.inr ⟨3, rfl⟩
    | single => exact Or.inl rfl
    | raid5 => exact Or.inr ⟨7, rfl⟩
    | raid6 => exact Or.inr ⟨8, rfl⟩
    | raid1c3 => exact Or.inr ⟨9, rfl⟩
    | raid1c4 => exact Or.inr ⟨10, rfl⟩
    | max => exact Or.inl rfl
  have there : value &&& index.flag ≠ 0 := of_decide_eq_true passes
  rcases bit with nothing | ⟨position, power⟩
  · rw [nothing, UInt64.and_zero] at there
    exact absurd rfl there
  · rw [← UInt64.toNat_inj, UInt64.toNat_and, power, Nat.and_two_pow]
    cases set : value.toNat.testBit position with
    | true => exact Nat.one_mul _
    | false =>
      refine absurd (UInt64.toNat_inj.mp ?_) there
      rw [UInt64.toNat_and, power, Nat.and_two_pow, set]
      exact Nat.zero_mul _

/-- A mask is applied to each part of a value on its own. -/
theorem and_or_left (value one other : UInt64) :
    value &&& (one ||| other) = value &&& one ||| value &&& other :=
  UInt64.toBitVec_inj.mp BitVec.and_or_distrib_left

/-- Values that have no bit in common with each of some flags have none with all of them. -/
theorem and_foldr_or {value : UInt64} {indices : List RaidIndex}
    (zero : ∀ index ∈ indices, value &&& index.flag = 0) :
    value &&& indices.foldr (fun index mask => index.flag ||| mask) 0 = 0 := by
  -- The induction is on the flags.
  induction indices with
  | nil => exact UInt64.and_zero
  | cons index rest ih =>
    rw [List.foldr_cons, and_or_left, zero index List.mem_cons_self,
      ih fun other member => zero other (.tail _ member)]
    rfl

/-- Flags that pass no test have no bit of a profile. -/
theorem RaidIndex.none_inside {value : UInt64}
    (nothing : ∀ index ∈ tested, index.inside value = false) :
    value &&& blockGroupProfileMask = 0 := by
  have zero : ∀ index ∈ tested, value &&& index.flag = 0 := by
    intro index member
    simpa [inside] using nothing index member
  -- The mask is made of the flags of the profiles.
  have mask : blockGroupProfileMask = tested.foldr (fun index mask => index.flag ||| mask) 0 := by
    decide
  rw [mask]
  exact and_foldr_or zero

/-- Every profile with a flag is in the array, at its own place. -/
theorem RaidIndex.profile_tested : ∀ index ∈ tested, ∃ profile ∈ raidArray,
    index.profile = .ok profile ∧ profile.bgFlag = index.flag := by
  -- There are nine of them to look at.
  decide

/-- No two profiles with a flag are the same. -/
theorem RaidIndex.profile_injective : ∀ one ∈ tested, ∀ other ∈ tested,
    one.profile = other.profile → one = other := by
  -- There are nine of them to compare.
  decide

/--
The conversion fails exactly on a foreign bit, and never panics.

Otherwise it returns a profile of the array whose flag is set, or the single one when none is. The
order of its tests matters exactly when the flags of several profiles are set.
-/
theorem raidProfile_order_iff (value : UInt64) :
    (Foreign value → RaidProfile.tryFrom value = .error (.io (.kind .invalidInput))) ∧
    (¬Foreign value → ∃ profile ∈ raidArray, RaidProfile.tryFrom value = .ok profile ∧
      value &&& profile.bgFlag = profile.bgFlag ∧
      (profile.bgFlag = 0 → value &&& blockGroupProfileMask = 0)) ∧
    ((∀ order : List RaidIndex, order.Perm RaidIndex.tested →
        RaidProfile.tryFromIn order value = RaidProfile.tryFrom value) ↔
      Foreign value ∨ ∀ one ∈ RaidIndex.tested, ∀ other ∈ RaidIndex.tested,
        one.inside value = true → other.inside value = true → one = other) := by
  rw [RaidProfile.tryFrom_eq]
  refine ⟨fun foreign => ?_, fun known => ?_, ?_⟩
  · rw [RaidProfile.tryFromIn, if_pos foreign]
  · rw [RaidProfile.tryFromIn, if_neg known]
    cases found : RaidIndex.tested.find? (RaidIndex.inside value) with
    | none =>
      have nothing := List.find?_eq_none.mp found
      refine ⟨raidSingle, by decide, rfl, UInt64.and_zero, fun _ => ?_⟩
      exact RaidIndex.none_inside fun index member => eq_false_of_ne_true (nothing index member)
    | some index =>
      have member := List.mem_of_find?_eq_some found
      obtain ⟨profile, inArray, result, flag⟩ := RaidIndex.profile_tested index member
      have set := RaidIndex.flag_bit (List.find?_some found)
      refine ⟨profile, inArray, result, flag ▸ set, fun nothing => ?_⟩
      -- No profile that is tested for has the flag zero.
      have positive : ∀ index ∈ RaidIndex.tested, index.flag ≠ 0 := by decide
      exact absurd (flag.symm.trans nothing) (positive index member)
  · by_cases foreign : Foreign value
    · refine ⟨fun _ => Or.inl foreign, fun _ order _ => ?_⟩
      rw [RaidProfile.tryFromIn, RaidProfile.tryFromIn, if_pos foreign, if_pos foreign]
    · simp only [RaidProfile.tryFromIn, if_neg foreign]
      rw [or_iff_right foreign]
      exact order_irrelevant_iff (fun found : Option RaidIndex => (found.getD .single).profile)
        RaidIndex.profile_injective

/-- What flags of types and of one profile are read as does not depend on each other. -/
theorem SpaceInfo.reads_both {info : SpaceInfo} {types : UInt64} {index : RaidIndex}
    (listed : index ≠ .max) (known : types &&& ~~~(blockGroupTypeMask ||| blockGroupReserved) = 0)
    (flags : info.flags = types ||| index.flag) :
    info.blockType = .from types ∧ info.raidProfile = index.profile := by
  constructor
  · -- The flag of a profile is not in the mask of the types.
    have apart : (blockGroupTypeMask ||| spaceInfoGlobalRsv) &&& index.flag = 0 := by
      cases index <;> decide
    have same : info.flags &&& (blockGroupTypeMask ||| spaceInfoGlobalRsv) =
        types &&& (blockGroupTypeMask ||| spaceInfoGlobalRsv) := by
      rw [flags, UInt64.and_comm, and_or_left, apart, UInt64.or_zero, UInt64.and_comm]
    rw [SpaceInfo.blockType, BlockType.from, BlockType.from, same]
  · -- What is left when the types are masked out is the flag of the profile.
    have masked : info.flags &&& ~~~(blockGroupTypeMask ||| blockGroupReserved) = index.flag := by
      rw [flags, UInt64.and_comm, and_or_left, UInt64.and_comm, known, UInt64.zero_or]
      cases index <;> decide
    rw [SpaceInfo.raidProfile, RaidProfile.tryFrom, masked]
    revert listed
    cases index <;> decide

end Libbtrfs.Space
