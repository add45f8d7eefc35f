import Libbtrfs.Error
import Mathlib.Data.List.TakeWhile

/-! The calls into the kernel that the subvolume operations make, and the C strings they exchange. -/

namespace Libbtrfs

/-- `CStr::from_ptr`: the bytes in front of the first zero. -/
def fromPtr (memory : Bytes) : Bytes := memory.takeWhile (· ≠ 0)

/-- `CStr::to_bytes_with_nul`. -/
def toBytesWithNul (text : Bytes) : Bytes := text ++ [0]

/-- `MAIN_SEPARATOR`. -/
def separator : UInt8 := 47

/-- A path that starts at the root. -/
def Absolute (path : Bytes) : Prop := path.head? = some separator

instance (path : Bytes) : Decidable (Absolute path) :=
  inferInstanceAs (Decidable (path.head? = some separator))

/-- The component `.` of a path. -/
def curDir : Bytes := [46]

/-- The component `..` of a path. -/
def parentDir : Bytes := [46, 46]

/-- `ENOENT`. -/
def enoent : Nat := 2

/-- `EACCES`. -/
def eacces : Nat := 13

/-- `EINVAL`. -/
def einval : Nat := 22

/-- `ENOTTY`. -/
def enotty : Nat := 25

/-- `ENAMETOOLONG`. -/
def enametoolong : Nat := 36

/-- `ENOTEMPTY`. -/
def enotempty : Nat := 39

/-- `EOVERFLOW`. -/
def eoverflow : Nat := 75

/-- `PATH_MAX`, the room for a path and the zero behind it. -/
def pathMax : Nat := 4096

/-- `BTRFS_INO_LOOKUP_USER_PATH_MAX`. -/
def inoLookupUserPathMax : Nat := 3824

/-- `BTRFS_FIRST_FREE_OBJECTID`. -/
def firstFreeObjectid : UInt64 := 256

/-- `btrfs_ioctl_timespec`. -/
structure IoctlTimespec where
  sec : UInt64
  nsec : UInt32
  deriving DecidableEq

/-- One entry of `btrfs_ioctl_get_subvol_rootref_args`. -/
structure Rootref where
  treeid : UInt64
  dirid : UInt64
  deriving DecidableEq

/-- The system calls and ioctls that read the filesystem, over the open files of the process. -/
structure Kernel (Fd : Type) where
  /-- `BTRFS_IOC_GET_SUBVOL_ROOTREF` from a tree on: the slots, and how many of them are filled. -/
  getSubvolRootref : Fd → UInt64 → Except IoError (List Rootref × UInt8)
  /-- `BTRFS_IOC_INO_LOOKUP_USER` of a directory and a tree: the memory of the path and the name. -/
  inoLookupUser : Fd → UInt64 → UInt64 → Except IoError (Bytes × Bytes)
  /-- `BTRFS_IOC_INO_LOOKUP` of an object in the tree of the file: the tree. -/
  inoLookup : Fd → UInt64 → Except IoError UInt64
  /-- `openat` for reading, which takes its path up to the first zero. -/
  openat : Fd → Bytes → Except IoError Fd

/-- The ioctl wrapper, for which a file on another filesystem is unsupported. -/
def btrfsIoctl {α : Type} (result : Except IoError α) : Except IoError α :=
  match result with
  | .error (.os code) =>
    if code = enotty then .error (.kind .unsupported) else .error (.os code)
  | other => other

/-- The room for a name in `btrfs_ioctl_vol_args_v2`, with the zero at its end. -/
def volNameSize : Nat := 4040

/-- `set_vol_name`. -/
def setVolName (name : Bytes) : Except IoError Unit :=
  if 0 ∈ name ∨ ¬ name.length < volNameSize then .error (.kind .invalidInput) else .ok ()

/-- `UserLookup::path_str`: the directory and the name of a subvolume inside its parent. -/
def pathStr {Fd : Type} (kernel : Kernel Fd) (f : Fd) (dirid treeid : UInt64) :
    Except IoError (Bytes × Bytes) :=
  match btrfsIoctl (kernel.inoLookupUser f dirid treeid) with
  | .error error => .error error
  | .ok (path, name) => .ok (fromPtr path, fromPtr name)

/-- `Lookup::treeid`: the tree of the subvolume that a file lies in. -/
def lookupTreeid {Fd : Type} (kernel : Kernel Fd) (f : Fd) : Except IoError UInt64 :=
  btrfsIoctl (kernel.inoLookup f firstFreeObjectid)

/-- A C string reads back without the zero at its end. -/
theorem fromPtr_toBytesWithNul {text : Bytes} (clean : 0 ∉ text) :
    fromPtr (toBytesWithNul text) = text := by
  -- None of its own bytes is a zero, so reading stops at the one behind them.
  unfold fromPtr toBytesWithNul
  rw [List.takeWhile_append_of_pos]
  · simp
  · intro byte member
    simp only [ne_eq, decide_eq_true_eq]
    intro zero
    exact clean (zero ▸ member)

/-- Behind a text with a zero in it nothing is read. -/
theorem fromPtr_front {text memory : Bytes} (zero : 0 ∈ text) (begins : text <+: memory) :
    fromPtr memory = fromPtr text := by
  obtain ⟨rest, rfl⟩ := begins
  unfold fromPtr
  rw [List.takeWhile_append, if_neg]
  intro whole
  -- The zero itself is not taken.
  have same := (List.takeWhile_prefix (· ≠ (0 : UInt8))).eq_of_length whole
  rw [← same] at zero
  have other := List.mem_takeWhile_imp zero
  simp at other

/-- A text without a zero is read whole, together with what is behind it. -/
theorem fromPtr_append {front back : Bytes} (clean : 0 ∉ front) :
    fromPtr (front ++ back) = front ++ fromPtr back := by
  -- Nothing in front of the appended bytes ends the string.
  unfold fromPtr
  refine List.takeWhile_append_of_pos fun byte member => ?_
  simp only [ne_eq, decide_eq_true_eq]
  intro zero
  exact clean (zero ▸ member)

/-- The zero at the end of a text is not read. -/
theorem fromPtr_withNul (text : Bytes) : fromPtr (toBytesWithNul text) = fromPtr text := by
  -- The first zero is that of the text, if it has one, or the one behind it.
  by_cases zero : 0 ∈ text
  · exact fromPtr_front zero (List.prefix_append _ _)
  · have empty : fromPtr [0] = [] := rfl
    have whole : fromPtr text = text := by
      rw [← List.append_nil text, fromPtr_append zero]
      rfl
    rw [toBytesWithNul, fromPtr_append zero, empty, List.append_nil, whole]

/-- A path and a name behind it are read back as one string. -/
theorem fromPtr_joined {path name : Bytes} (path_clean : 0 ∉ path) (name_clean : 0 ∉ name) :
    fromPtr (path ++ toBytesWithNul name) = path ++ name := by
  -- Neither of the two has a zero in it, so only the one at the end stops the reading.
  have clean : 0 ∉ path ++ name := by simp [path_clean, name_clean]
  have read := fromPtr_toBytesWithNul clean
  rwa [toBytesWithNul, List.append_assoc] at read

/-- An ioctl that fails does so through the wrapper too. -/
theorem btrfsIoctl_error {α : Type} (error : IoError) :
    ∃ other, btrfsIoctl (.error error : Except IoError α) = .error other := by
  -- The wrapper changes one error number into another error, and no error into a value.
  unfold btrfsIoctl
  split
  · split
    · exact ⟨_, rfl⟩
    · exact ⟨_, rfl⟩
  · exact ⟨_, rfl⟩

/-- Without an error the wrapper has changed nothing. -/
theorem btrfsIoctl_passed {α : Type} {result : Except IoError α} {value : α}
    (passed : btrfsIoctl result = .ok value) : result = .ok value := by
  -- An error stays an error, of whichever kind.
  cases result with
  | ok other => exact passed
  | error error =>
    obtain ⟨other, failed⟩ := @btrfsIoctl_error α error
    rw [failed] at passed
    cases passed

end Libbtrfs
