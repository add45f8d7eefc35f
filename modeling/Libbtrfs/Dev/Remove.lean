import Libbtrfs.Subvol.VolName

/-! Removing a device by its name, with an older ioctl for kernels that do not have the newer one. -/

namespace Libbtrfs

/-- `io::Error::raw_os_error`. -/
def IoError.rawOsError : IoError → Option Nat
  | .os code => some code
  | _ => none

end Libbtrfs

namespace Libbtrfs.Dev

/-- `EOPNOTSUPP`. -/
def eopnotsupp : Nat := 95

/-- The room for a name in `btrfs_ioctl_vol_args`, with the zero at its end. -/
def pathNameSize : Nat := 4088

/-- The two ioctls that remove a device, with the name that they are passed. -/
inductive RmIoctl where
  | rmDevV2 (name : CArray volNameSize)
  | rmDev (name : CArray pathNameSize)

/-- What the kernel answers to each of the ioctls: nothing, or an error number. -/
abbrev RmKernel : Type := RmIoctl → Except Nat Unit

/-- The ioctls that were issued, and what came of them. -/
structure Removed where
  calls : List RmIoctl
  result : Except IoError Unit

/-- `syscall!(ioctl(..))`. -/
def ioctl (kernel : RmKernel) (call : RmIoctl) : Except IoError Unit := (kernel call).mapError .os

/-- The name goes into a zeroed argument, which is passed to one of the ioctls. -/
def issue {size : Nat} (op : CArray size → RmIoctl) (kernel : RmKernel) (device : Bytes) :
    Removed :=
  match CArray.setVolName device (.zeroed size) with
  | (.error error, _) => ⟨[], .error error⟩
  | (.ok (), name) => ⟨[op name], btrfsIoctl (ioctl kernel (op name))⟩

/-- `rm_dev_v1`. -/
def rmDevV1 (kernel : RmKernel) (device : Bytes) : Removed := issue .rmDev kernel device

/-- `dev::fd::rm`. -/
def rm (kernel : RmKernel) (device : Bytes) : Removed :=
  let res := issue .rmDevV2 kernel device
  match res.result with
  | .ok () => res
  | .error e =>
    if e.rawOsError = some enotty ∨ e.rawOsError = some eopnotsupp then
      let later := rmDevV1 kernel device
      ⟨res.calls ++ later.calls, later.result⟩
    else res

/-- A zeroed argument with a name in it. -/
def nameField (size : Nat) (name : Bytes) : CArray size := (CArray.setVolName name (.zeroed size)).2

/-- What the removal of a device is to do, whatever the kernel answers. -/
structure FallsBack (kernel : RmKernel) (device : Bytes) : Prop where
  name : fromPtr (nameField volNameSize device).bytes = device
  old_name : fromPtr (nameField pathNameSize device).bytes = device
  falls_back :
    kernel (.rmDevV2 (nameField volNameSize device)) = .error enotty ∨
      kernel (.rmDevV2 (nameField volNameSize device)) = .error eopnotsupp →
    rm kernel device =
      ⟨[.rmDevV2 (nameField volNameSize device), .rmDev (nameField pathNameSize device)],
        btrfsIoctl (ioctl kernel (.rmDev (nameField pathNameSize device)))⟩
  answers :
    kernel (.rmDevV2 (nameField volNameSize device)) ≠ .error enotty →
    kernel (.rmDevV2 (nameField volNameSize device)) ≠ .error eopnotsupp →
    rm kernel device =
      ⟨[.rmDevV2 (nameField volNameSize device)],
        ioctl kernel (.rmDevV2 (nameField volNameSize device))⟩

/-- A name that fits is read back from its field. -/
theorem fromPtr_nameField {size : Nat} {name : Bytes} (clean : 0 ∉ name)
    (fits : name.length < size) : fromPtr (nameField size name).bytes = name := by
  -- The field is an array of zeroes that the name was copied to.
  rw [nameField, CArray.setVolName_ok _ clean fits]
  exact CArray.fromPtr_overwrite clean fits

/-- A name that fits is passed to the ioctl. -/
theorem issue_name {size : Nat} (op : CArray size → RmIoctl) (kernel : RmKernel) {device : Bytes}
    (clean : 0 ∉ device) (fits : device.length < size) :
    issue op kernel device =
      ⟨[op (nameField size device)], btrfsIoctl (ioctl kernel (op (nameField size device)))⟩ := by
  -- The name is copied in front of the ioctl.
  rw [issue, nameField, CArray.setVolName_ok _ clean fits]

/-- A name that fits the newer argument fits the older one too. -/
theorem fits_older {device : Bytes} (fits : device.length < volNameSize) :
    device.length < pathNameSize := by
  -- The older field is the longer one by 8 bytes.
  unfold volNameSize at fits
  unfold pathNameSize
  omega

section Rm

variable {kernel : RmKernel} {device : Bytes} (clean : 0 ∉ device)
  (fits : device.length < volNameSize)

include clean fits

/-- The wrapper hides the number of the error that older kernels answer with. -/
theorem rm_enotty (old : kernel (.rmDevV2 (nameField volNameSize device)) = .error enotty) :
    rm kernel device =
      ⟨[.rmDevV2 (nameField volNameSize device)], .error (.kind .unsupported)⟩ := by
  have answered : btrfsIoctl (ioctl kernel (.rmDevV2 (nameField volNameSize device))) =
      .error (.kind .unsupported) := by
    rw [ioctl, old]
    rfl
  -- An error without a number is neither of the two that are looked for.
  rw [rm, issue_name .rmDevV2 kernel clean fits, answered]
  rfl

/-- The other error that is looked for gets through the wrapper. -/
theorem rm_eopnotsupp
    (old : kernel (.rmDevV2 (nameField volNameSize device)) = .error eopnotsupp) :
    rm kernel device =
      ⟨[.rmDevV2 (nameField volNameSize device), .rmDev (nameField pathNameSize device)],
        btrfsIoctl (ioctl kernel (.rmDev (nameField pathNameSize device)))⟩ := by
  have answered : btrfsIoctl (ioctl kernel (.rmDevV2 (nameField volNameSize device))) =
      .error (.os eopnotsupp) := by
    rw [ioctl, old]
    rfl
  rw [rm, issue_name .rmDevV2 kernel clean fits, answered]
  -- The older ioctl is issued behind the newer one.
  show (⟨[_] ++ (rmDevV1 kernel device).calls, (rmDevV1 kernel device).result⟩ : Removed) = _
  rw [rmDevV1, issue_name .rmDev kernel clean (fits_older fits)]
  rfl

/-- Any other answer is the result. -/
theorem rm_answers (known : kernel (.rmDevV2 (nameField volNameSize device)) ≠ .error enotty)
    (supported : kernel (.rmDevV2 (nameField volNameSize device)) ≠ .error eopnotsupp) :
    rm kernel device =
      ⟨[.rmDevV2 (nameField volNameSize device)],
        ioctl kernel (.rmDevV2 (nameField volNameSize device))⟩ := by
  rw [rm, issue_name .rmDevV2 kernel clean fits]
  cases answered : kernel (.rmDevV2 (nameField volNameSize device)) with
  | ok done =>
    simp only [ioctl, answered, Except.mapError, btrfsIoctl]
  | error code =>
    rw [answered] at known supported
    have not_enotty : code ≠ enotty := fun same => known (by rw [same])
    have not_eopnotsupp : code ≠ eopnotsupp := fun same => supported (by rw [same])
    -- The wrapper leaves the error as it is, and it is neither of the two that are looked for.
    simp [ioctl, answered, Except.mapError, btrfsIoctl, IoError.rawOsError, not_enotty,
      not_eopnotsupp]

/-- Removing a device falls back as it should exactly when the kernel does not answer `ENOTTY`. -/
theorem rm_fallsBack_iff :
    FallsBack kernel device ↔
      kernel (.rmDevV2 (nameField volNameSize device)) ≠ .error enotty := by
  refine ⟨fun falls old => ?_, fun known => ?_⟩
  · -- The older ioctl is not issued, although it should be.
    have removed := falls.falls_back (Or.inl old)
    rw [rm_enotty clean fits old] at removed
    have calls := congrArg (fun removed => removed.calls.length) removed
    cases calls
  · refine ⟨fromPtr_nameField clean fits, fromPtr_nameField clean (fits_older fits), ?_, ?_⟩
    · intro old
      exact rm_eopnotsupp clean fits (old.resolve_left known)
    · exact rm_answers clean fits

end Rm

/-- A kernel without the newer ioctl. -/
def oldKernel : RmKernel
  | .rmDevV2 _ => .error enotty
  | .rmDev _ => .ok ()

/-- The name of a device. -/
def sdb : Bytes := [47, 100, 101, 118, 47, 115, 100, 98]

/-- An older kernel with a short name is asked as it is to be just if it knows the newer ioctl. -/
theorem rm_fallsBack_iff_oldKernel :
    FallsBack oldKernel sdb ↔
      oldKernel (.rmDevV2 (nameField volNameSize sdb)) ≠ .error enotty :=
  rm_fallsBack_iff (by decide) (by decide)

/-- An older kernel does not know the newer ioctl, and is not asked with the older one. -/
theorem rm_oldKernel :
    rm oldKernel sdb = ⟨[.rmDevV2 (nameField volNameSize sdb)], .error (.kind .unsupported)⟩ ∧
      ¬ FallsBack oldKernel sdb := by
  have removed := @rm_enotty oldKernel sdb (by decide) (by decide) rfl
  refine ⟨removed, fun falls => ?_⟩
  -- The device would be removed by the older ioctl.
  have expected := falls.falls_back (Or.inl rfl)
  rw [removed] at expected
  have calls := congrArg (fun removed => removed.calls.length) expected
  cases calls

end Libbtrfs.Dev
