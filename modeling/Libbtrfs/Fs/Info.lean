import Libbtrfs.Subvol.Iterator
import Libbtrfs.Subvol.Kernel

/-! Information about a filesystem, parts of which are there only if they were asked for. -/

namespace Libbtrfs

/-- `BTRFS_FS_INFO_FLAG_CSUM_INFO`. -/
def fsInfoFlagCsumInfo : UInt64 := 1

/-- `BTRFS_FS_INFO_FLAG_GENERATION`. -/
def fsInfoFlagGeneration : UInt64 := 2

/-- `BTRFS_FS_INFO_FLAG_METADATA_UUID`. -/
def fsInfoFlagMetadataUuid : UInt64 := 4

namespace Flags

/-- `Flags::NONE`. -/
def none : Flags := ⟨0⟩

/-- `Flags::CSUM_INFO`. -/
def csumInfo : Flags := ⟨8⟩

/-- `Flags::GENERATION`. -/
def generation : Flags := ⟨16⟩

/-- `Flags::METADATA_UUID`. -/
def metadataUuid : Flags := ⟨32⟩

/-- `Flags::from_bits_truncate`, which keeps the bits that are flags. -/
def fromBitsTruncate (bits : UInt64) : Flags := ⟨bits &&& 0x7FF⟩

/-- `Flags::check_invalid`, for the text by which flags are shown. -/
def checkInvalid (show' : Flags → String) (flags : Flags) (mask : UInt64) : Except IoError Unit :=
  let invalidBits := flags.bits &&& ~~~mask
  if invalidBits ≠ 0 then
    .error (.custom .invalidInput ("Invalid flags: " ++ show' (fromBitsTruncate invalidBits)))
  else .ok ()

/-- `build_raw_flag!`. -/
def buildRawFlag (flags : Flags) (pairs : List (Flags × UInt64)) : UInt64 :=
  pairs.foldl (fun bits pair => if flags.contains pair.1 then bits ||| pair.2 else bits) 0

/-- `Flags::FS_INFO_MASK`. -/
def fsInfoMask : UInt64 := csumInfo.bits ||| generation.bits ||| metadataUuid.bits

/-- The flags that ask for parts of the information, and their raw counterparts. -/
def fsInfoFlags : List (Flags × UInt64) :=
  [(csumInfo, fsInfoFlagCsumInfo), (generation, fsInfoFlagGeneration),
    (metadataUuid, fsInfoFlagMetadataUuid)]

/-- `Flags::to_raw_fs_info_flags`. -/
def toRawFsInfoFlags (show' : Flags → String) (flags : Flags) : Except IoError UInt64 := do
  flags.checkInvalid show' fsInfoMask
  return flags.buildRawFlag fsInfoFlags

end Flags

/-- `btrfs_ioctl_fs_info_args`. -/
structure FsInfoArgs where
  maxId : UInt64
  numDevices : UInt64
  fsid : Bytes
  nodesize : UInt32
  sectorsize : UInt32
  cloneAlignment : UInt32
  csumType : UInt16
  csumSize : UInt16
  flags : UInt64
  generation : UInt64
  metadataUuid : Bytes

/-- `FsInfo`. -/
structure FsInfo where
  args : FsInfoArgs

/-- The arguments of the ioctl, with nothing in them. -/
def FsInfoArgs.zeroed : FsInfoArgs :=
  ⟨0, 0, List.replicate 16 0, 0, 0, 0, 0, 0, 0, 0, List.replicate 16 0⟩

/-- `BTRFS_IOC_FS_INFO`, which overwrites its arguments. -/
abbrev FsInfoIoctl : Type := FsInfoArgs → Except IoError Unit × FsInfoArgs

namespace FsInfo

/-- `FsInfo::max_id`. -/
def maxId (info : FsInfo) : UInt64 := info.args.maxId

/-- `FsInfo::num_devices`. -/
def numDevices (info : FsInfo) : UInt64 := info.args.numDevices

/-- `fs::fd::info`. -/
def info (show' : Flags → String) (ioctl : FsInfoIoctl) (flags : Flags) : Except IoError FsInfo := do
  let raw ← flags.toRawFsInfoFlags show'
  let answer := ioctl { FsInfoArgs.zeroed with flags := raw }
  btrfsIoctl answer.1
  return ⟨answer.2⟩

/-- A part that is there if it was asked for, `then_some` and `expect`. -/
def part {α : Type} (flag : UInt64) (message : String) (field : FsInfoArgs → α) (info : FsInfo) :
    Outcome α :=
  if info.args.flags &&& flag ≠ 0 then .ok (field info.args) else .error (.panic message)

/-- `FsInfo::csum_type`. -/
def csumType : FsInfo → Outcome UInt16 :=
  part fsInfoFlagCsumInfo "CSUM_INFO Flag not provided" FsInfoArgs.csumType

/-- `FsInfo::csum_size`. -/
def csumSize : FsInfo → Outcome UInt16 :=
  part fsInfoFlagCsumInfo "CSUM_INFO Flag not provided" FsInfoArgs.csumSize

/-- `FsInfo::generation`. -/
def generation : FsInfo → Outcome UInt64 :=
  part fsInfoFlagGeneration "GENERATION Flag not provided" FsInfoArgs.generation

/-- `FsInfo::metadata_uuid`. -/
def metadataUuid : FsInfo → Outcome Bytes :=
  part fsInfoFlagMetadataUuid "METADATA_UUID Flag not provided" FsInfoArgs.metadataUuid

end FsInfo

/-- The contract of the ioctl: of what it is asked for it fills in what it knows, and says so. -/
def FillsIn (ioctl : FsInfoIoctl) (known : UInt64) : Prop :=
  ∀ asked, (ioctl asked).1 = .ok () → (ioctl asked).2.flags = asked.flags &&& known

section Info

variable {show' : Flags → String} {ioctl : FsInfoIoctl} {known : UInt64} {flags : Flags}
  {info : FsInfo} {pair : Flags × UInt64}

/-- A raw flag is asked for exactly when its counterpart is. -/
theorem Flags.buildRawFlag_and (flags : Flags) (member : pair ∈ fsInfoFlags) :
    flags.buildRawFlag fsInfoFlags &&& pair.2 = if flags.contains pair.1 then pair.2 else 0 := by
  simp only [fsInfoFlags, List.mem_cons, List.not_mem_nil, or_false] at member
  simp only [buildRawFlag, fsInfoFlags, List.foldl_cons, List.foldl_nil]
  -- Each of the three flags is there or not.
  rcases member with rfl | rfl | rfl <;>
    cases flags.contains csumInfo <;> cases flags.contains Flags.generation <;>
      cases flags.contains Flags.metadataUuid <;> rfl

/-- Where the information is there, the flags have passed the check and the ioctl has succeeded. -/
theorem FsInfo.info_ok (returned : FsInfo.info show' ioctl flags = .ok info) :
    flags.bits &&& ~~~Flags.fsInfoMask = 0 ∧
      ∃ asked : FsInfoArgs, asked.flags = flags.buildRawFlag Flags.fsInfoFlags ∧
        (ioctl asked).1 = .ok () ∧ info.args = (ioctl asked).2 := by
  unfold FsInfo.info Flags.toRawFsInfoFlags Flags.checkInvalid at returned
  simp only at returned
  split at returned
  · -- Flags for something else end it at once.
    cases returned
  · rename_i valid
    change (btrfsIoctl (ioctl { FsInfoArgs.zeroed with flags := _ }).1 >>= fun _ => _) = _
      at returned
    cases passed : btrfsIoctl
        (ioctl { FsInfoArgs.zeroed with flags := flags.buildRawFlag Flags.fsInfoFlags }).1 with
    | error error =>
      rw [passed] at returned
      cases returned
    | ok =>
      rw [passed] at returned
      cases returned
      exact ⟨not_not.mp valid, _, rfl, btrfsIoctl_passed passed, rfl⟩

/-- A filesystem that has been asked has returned what it knows of the flags. -/
theorem FsInfo.info_flags (fills : FillsIn ioctl known)
    (returned : FsInfo.info show' ioctl flags = .ok info) :
    info.args.flags = flags.buildRawFlag Flags.fsInfoFlags &&& known := by
  -- The flags of the answer are those of the question that are known.
  obtain ⟨_, asked, same, passed, answer⟩ := info_ok returned
  rw [answer, fills asked passed, same]

/-- Flags that are for something else are refused, whatever the filesystem would answer. -/
theorem FsInfo.info_refuses (invalid : flags.bits &&& ~~~Flags.fsInfoMask ≠ 0) :
    FsInfo.info show' ioctl flags = .error (.custom .invalidInput
      ("Invalid flags: " ++ show' (.fromBitsTruncate (flags.bits &&& ~~~Flags.fsInfoMask)))) := by
  -- The check comes before the ioctl.
  unfold FsInfo.info Flags.toRawFsInfoFlags Flags.checkInvalid
  rw [if_pos invalid]
  rfl

/-- A part is there exactly when it was asked for and the filesystem knows it. -/
theorem FsInfo.part_panics {α : Type} (fills : FillsIn ioctl known)
    (returned : FsInfo.info show' ioctl flags = .ok info) (member : pair ∈ Flags.fsInfoFlags)
    (message : String) (field : FsInfoArgs → α) :
    (info.part pair.2 message field).Panics ↔
      ¬(flags.contains pair.1 = true ∧ known &&& pair.2 ≠ 0) := by
  -- Of the flags in the answer, this one is there if it was asked for and is known.
  have kept : info.args.flags &&& pair.2 =
      known &&& if flags.contains pair.1 then pair.2 else 0 := by
    rw [info_flags fills returned, UInt64.and_comm _ known, UInt64.and_assoc,
      flags.buildRawFlag_and member]
  rw [part, kept]
  cases flags.contains pair.1 with
  | false => simp
  | true =>
    by_cases knows : known &&& pair.2 = 0
    · simp [knows]
    · simp [knows]

end Info

/--
Asking for information is refused for flags that are for something else.

Otherwise the accessor of a part panics exactly when the part was not asked for or is not known to
the filesystem, of which the documentation names the first case only.
-/
theorem info_accessors_iff (show' : Flags → String) {ioctl : FsInfoIoctl} {known : UInt64}
    (fills : FillsIn ioctl known) (flags : Flags) :
    (flags.bits &&& ~~~Flags.fsInfoMask ≠ 0 →
      FsInfo.info show' ioctl flags = .error (.custom .invalidInput
        ("Invalid flags: " ++ show' (.fromBitsTruncate (flags.bits &&& ~~~Flags.fsInfoMask))))) ∧
    ∀ info, FsInfo.info show' ioctl flags = .ok info →
      flags.bits &&& ~~~Flags.fsInfoMask = 0 ∧
      (info.csumType.Panics ↔
        ¬(flags.contains Flags.csumInfo = true ∧ known &&& fsInfoFlagCsumInfo ≠ 0)) ∧
      (info.csumSize.Panics ↔
        ¬(flags.contains Flags.csumInfo = true ∧ known &&& fsInfoFlagCsumInfo ≠ 0)) ∧
      (info.generation.Panics ↔
        ¬(flags.contains Flags.generation = true ∧ known &&& fsInfoFlagGeneration ≠ 0)) ∧
      (info.metadataUuid.Panics ↔
        ¬(flags.contains Flags.metadataUuid = true ∧ known &&& fsInfoFlagMetadataUuid ≠ 0)) := by
  refine ⟨FsInfo.info_refuses, fun info returned => ?_⟩
  -- The four accessors are the same function, for three of the flags.
  have csum : (Flags.csumInfo, fsInfoFlagCsumInfo) ∈ Flags.fsInfoFlags := List.mem_cons_self
  have generation : (Flags.generation, fsInfoFlagGeneration) ∈ Flags.fsInfoFlags :=
    List.mem_cons_of_mem _ List.mem_cons_self
  have metadata : (Flags.metadataUuid, fsInfoFlagMetadataUuid) ∈ Flags.fsInfoFlags :=
    List.mem_cons_of_mem _ (List.mem_cons_of_mem _ List.mem_cons_self)
  exact ⟨(FsInfo.info_ok returned).1, FsInfo.part_panics fills returned csum _ _,
    FsInfo.part_panics fills returned csum _ _, FsInfo.part_panics fills returned generation _ _,
    FsInfo.part_panics fills returned metadata _ _⟩

/-- A kernel that knows nothing but the checksum. -/
def csumKernel : FsInfoIoctl := fun asked =>
  (.ok (), { asked with flags := asked.flags &&& fsInfoFlagCsumInfo, csumType := 1, csumSize := 8 })

/-- It is asked for the generation as well, which then cannot be looked at. -/
theorem info_accessors_iff_csumKernel :
    ∃ info, FsInfo.info (fun _ => "") csumKernel (Flags.csumInfo.union Flags.generation) = .ok info ∧
      ¬ info.csumType.Panics ∧ info.generation.Panics := by
  have returned : FsInfo.info (fun _ => "") csumKernel (Flags.csumInfo.union Flags.generation) =
      .ok ⟨{ FsInfoArgs.zeroed with flags := 1, csumType := 1, csumSize := 8 }⟩ := rfl
  -- The contract holds of this kernel for any question.
  have fills : FillsIn csumKernel fsInfoFlagCsumInfo := fun asked passed => rfl
  obtain ⟨_, csum, _, generation, _⟩ :=
    (info_accessors_iff (fun _ => "") fills (Flags.csumInfo.union Flags.generation)).2 _ returned
  exact ⟨_, returned, fun panics => csum.mp panics ⟨rfl, by decide⟩,
    generation.mpr fun both => both.2 rfl⟩

end Libbtrfs
