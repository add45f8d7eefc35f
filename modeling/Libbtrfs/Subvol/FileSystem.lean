import Libbtrfs.Core.Pathname
import Libbtrfs.Subvol.Kernel
import Mathlib.Data.List.Sort

/-! A filesystem as the directories in it, some of them subvolumes, and what the kernel says of it. -/

namespace Libbtrfs

/-- What a directory may be called. -/
def Named (bytes : Bytes) : Prop :=
  bytes ≠ [] ∧ bytes ≠ curDir ∧ bytes ≠ parentDir ∧ 0 ∉ bytes ∧ separator ∉ bytes ∧
    bytes.length ≤ 255

instance (bytes : Bytes) : Decidable (Named bytes) :=
  inferInstanceAs (Decidable (_ ∧ _ ∧ _ ∧ _ ∧ _ ∧ _))

/-- The name of a directory. -/
structure Name where
  bytes : Bytes
  named : Named bytes
  deriving DecidableEq

/-- Where a directory is: the names on the way to it from the root of the filesystem. -/
abbrev Place := List Name

/-- A directory, with the tree that it lies in and its inode there. -/
structure Dir where
  place : Place
  treeid : UInt64
  ino : UInt64
  -- The tree and the inode of the directory that it is listed in.
  parentId : UInt64
  dirid : UInt64
  deriving DecidableEq

namespace Dir

/-- Whether the directory is the root of its tree, a subvolume. -/
def Subvol (dir : Dir) : Prop := dir.ino = firstFreeObjectid

instance (dir : Dir) : Decidable dir.Subvol := inferInstanceAs (Decidable (_ = _))

/-- The name of the directory, which the root of the filesystem does not have. -/
def name (dir : Dir) : Bytes := (dir.place.getLast?.map Name.bytes).getD []

/-- How the subvolume is listed. -/
def rootref (dir : Dir) : Rootref := ⟨dir.treeid, dir.dirid⟩

end Dir

/-- The directories of a filesystem, each of them inside another one. -/
structure Fs where
  dirs : List Dir
  distinct : (dirs.map Dir.place).Nodup
  parents : ∀ dir ∈ dirs, dir.place ≠ [] → ∃ parent ∈ dirs,
    parent.place = dir.place.dropLast ∧ parent.treeid = dir.parentId ∧ parent.ino = dir.dirid
  inside : ∀ dir ∈ dirs, ¬ dir.Subvol → dir.place ≠ [] ∧ dir.treeid = dir.parentId
  trees : ∀ one ∈ dirs, ∀ other ∈ dirs, one.Subvol → other.Subvol →
    one.treeid = other.treeid → one = other

/-- The text of names on the way through directories, each with the separator behind it. -/
def text (names : List Name) : Bytes := terminated separator (names.map Name.bytes)

namespace Fs

/-- The directory at a place. -/
def at? (fs : Fs) (place : Place) : Option Dir := fs.dirs.find? (·.place = place)

/-- The subvolumes that are listed in a tree, by their tree ids. -/
def children (fs : Fs) (treeid : UInt64) : List Dir :=
  (fs.dirs.filter fun dir => dir.Subvol ∧ dir.place ≠ [] ∧ dir.parentId = treeid).insertionSort
    fun one other => one.treeid ≤ other.treeid

/-- A path is followed component by component, through directories that exist. -/
def walk (fs : Fs) : Place → List Bytes → Except IoError Place
  | place, [] => .ok place
  | place, component :: rest =>
    if component = [] ∨ component = curDir then fs.walk place rest
    else if component = parentDir then fs.walk place.dropLast rest
    else if named : Named component then
      match fs.at? (place ++ [⟨component, named⟩]) with
      | none => .error (.os enoent)
      | some dir => fs.walk dir.place rest
    else .error (.os enametoolong)

/-- `openat`: a path that begins with a separator is followed from the root. -/
def openat (fs : Fs) (f : Place) (path : Bytes) : Except IoError Place :=
  if path = [] then .error (.os enoent)
  else fs.walk (if path.head? = some separator then [] else f) (path.splitOn separator)

/-- `BTRFS_IOC_GET_SUBVOL_ROOTREF`, which has room for 255 subvolumes. -/
def getSubvolRootref (fs : Fs) (f : Place) (minTreeid : UInt64) :
    Except IoError (List Rootref × UInt8) :=
  match fs.at? f with
  | none => .error (.os enoent)
  | some dir =>
    let refs := (fs.children dir.treeid).filter (minTreeid ≤ ·.treeid)
    if refs.length ≤ 255 then .ok (refs.map Dir.rootref, UInt8.ofNat refs.length)
    else .error (.os eoverflow)

/-- `BTRFS_IOC_INO_LOOKUP_USER`, for a subvolume that is listed in the tree of the file. -/
def inoLookupUser (fs : Fs) (f : Place) (dirid treeid : UInt64) : Except IoError (Bytes × Bytes) :=
  match fs.at? f with
  | none => .error (.os enoent)
  | some dir =>
    match (fs.children dir.treeid).find? fun child => child.rootref = ⟨treeid, dirid⟩ with
    | none => .error (.os enoent)
    | some child =>
      -- The directory of the subvolume has to lie below the one that is open.
      if f <+: child.place.dropLast then
        .ok (toBytesWithNul (text (child.place.dropLast.drop f.length)), toBytesWithNul child.name)
      else .error (.os eacces)

/-- `BTRFS_IOC_INO_LOOKUP`: the tree that a file lies in. -/
def inoLookup (fs : Fs) (f : Place) : Except IoError UInt64 :=
  match fs.at? f with
  | none => .error (.os enoent)
  | some dir => .ok dir.treeid

/-- The calls that read the filesystem. An open file is the place of a directory. -/
def kernel (fs : Fs) : Kernel Place where
  getSubvolRootref := fs.getSubvolRootref
  inoLookupUser := fs.inoLookupUser
  inoLookup f _ := fs.inoLookup f
  openat := fs.openat

/-- The same calls, with no more room for paths in them than the kernel has. -/
def limited (fs : Fs) : Kernel Place :=
  { fs.kernel with
    openat := fun f path =>
      if path.length < pathMax then fs.openat f path else .error (.os enametoolong)
    inoLookupUser := fun f dirid treeid =>
      match fs.inoLookupUser f dirid treeid with
      | .error error => .error error
      | .ok (path, name) =>
        if path.length ≤ inoLookupUserPathMax then .ok (path, name)
        else .error (.os enametoolong) }

/-- The directories that are not at or below one of the places. -/
def without (fs : Fs) (gone : List Place) : Fs where
  dirs := fs.dirs.filter fun dir => ∀ place ∈ gone, ¬ place <+: dir.place
  distinct := fs.distinct.sublist (List.filter_sublist.map _)
  parents := by
    intro dir member inner
    rw [List.mem_filter, decide_eq_true_eq] at member
    obtain ⟨parent, found, front, listed⟩ := fs.parents dir member.1 inner
    refine ⟨parent, ?_, front, listed⟩
    rw [List.mem_filter, decide_eq_true_eq]
    -- What is not below a place is not in a directory below it either.
    refine ⟨found, fun place removed below => member.2 place removed ?_⟩
    rw [front] at below
    exact below.trans (List.dropLast_prefix _)
  inside := by
    intro dir member
    exact fs.inside dir (List.mem_of_mem_filter member)
  trees := by
    intro one first other second
    exact fs.trees one (List.mem_of_mem_filter first) other (List.mem_of_mem_filter second)

/-- `BTRFS_IOC_SNAP_DESTROY_V2` of a name in a directory, for a subvolume with none inside it. -/
def snapDestroy (fs : Fs) (dir : Place) (name : Bytes) : Except IoError Place :=
  if named : Named name then
    match fs.at? (dir ++ [⟨name, named⟩]) with
    | none => .error (.os enoent)
    | some subvol =>
      if ¬ subvol.Subvol then .error (.os einval)
      else if fs.children subvol.treeid ≠ [] then .error (.os enotempty)
      else .ok subvol.place
  else .error (.os einval)

end Fs

end Libbtrfs
