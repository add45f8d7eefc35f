import Libbtrfs.Subvol.Destroy
import Libbtrfs.Subvol.FileSystemLaws
import Libbtrfs.Subvol.Readonly

/-! Creating a subvolume or a snapshot by its path, over the ioctls of the kernel for it. -/

namespace Libbtrfs

namespace Dir

/-- A new subvolume in a directory. -/
def created (parent : Dir) (name : Name) (treeid : UInt64) : Dir where
  place := parent.place ++ [name]
  treeid := treeid
  ino := firstFreeObjectid
  parentId := parent.treeid
  dirid := parent.ino

/-- A directory inside a new subvolume, by its place from there. -/
def placed (root : Place) (treeid : UInt64) (dir : Dir) : Dir where
  place := root ++ dir.place
  treeid := treeid
  ino := dir.ino
  parentId := treeid
  dirid := dir.dirid

/-- The root of a new subvolume is one. -/
theorem created_subvol (parent : Dir) (name : Name) (treeid : UInt64) :
    (created parent name treeid).Subvol := rfl

end Dir

/-- The directories that a new subvolume has inside, by their places from there. -/
structure Contents where
  dirs : List Dir
  distinct : (dirs.map Dir.place).Nodup
  plain : ∀ dir ∈ dirs, ¬ dir.Subvol
  inside : ∀ dir ∈ dirs, dir.place ≠ []
  parents : ∀ dir ∈ dirs, dir.place.dropLast = [] ∧ dir.dirid = firstFreeObjectid ∨
    ∃ parent ∈ dirs, parent.place = dir.place.dropLast ∧ parent.ino = dir.dirid

namespace Fs

/-- No tree has the id yet. -/
def Fresh (fs : Fs) (treeid : UInt64) : Prop := ∀ dir ∈ fs.dirs, dir.treeid ≠ treeid

instance (fs : Fs) (treeid : UInt64) : Decidable (fs.Fresh treeid) :=
  inferInstanceAs (Decidable (∀ dir ∈ fs.dirs, _))

/-- Nothing lies below a place where nothing is. -/
theorem nothing_below {fs : Fs} {place : Place} (free : fs.at? place = none) :
    ∀ dir ∈ fs.dirs, ¬ place <+: dir.place := by
  intro dir member below
  -- What is on the way to a directory exists.
  obtain ⟨other, found, there⟩ := on_the_way member below
  rw [at?_eq_some.mpr ⟨found, there⟩] at free
  cases free

/-- A filesystem with a subvolume more, in a directory where its name is free. -/
def adding (fs : Fs) (parent : Dir) (member : parent ∈ fs.dirs) (name : Name) (treeid : UInt64)
    (free : fs.at? (parent.place ++ [name]) = none) (fresh : fs.Fresh treeid)
    (contents : Contents) : Fs where
  dirs := fs.dirs ++ Dir.created parent name treeid ::
    contents.dirs.map (Dir.placed (parent.place ++ [name]) treeid)
  distinct := by
    have inner : (contents.dirs.map (Dir.placed (parent.place ++ [name]) treeid)).map Dir.place =
        (contents.dirs.map Dir.place).map ((parent.place ++ [name]) ++ ·) := by
      rw [List.map_map, List.map_map]
      rfl
    rw [List.map_append, List.map_cons, inner, List.nodup_append]
    refine ⟨fs.distinct, List.nodup_cons.mpr ⟨?_, ?_⟩, ?_⟩
    · rintro again
      obtain ⟨place, listed, same⟩ := List.mem_map.mp again
      obtain ⟨dir, found, rfl⟩ := List.mem_map.mp listed
      exact contents.inside dir found (List.append_right_eq_self.mp same)
    · exact contents.distinct.map fun one other => List.append_cancel_left
    · -- Whatever is new lies at or below the free place.
      rintro place old other new rfl
      obtain ⟨dir, found, rfl⟩ := List.mem_map.mp old
      refine nothing_below free dir found ?_
      rcases List.mem_cons.mp new with here | below
      · exact here ▸ List.prefix_refl _
      · obtain ⟨rest, _, same⟩ := List.mem_map.mp below
        exact same ▸ List.prefix_append _ _
  parents := by
    intro dir listed inner
    rcases List.mem_append.mp listed with old | new
    · obtain ⟨other, found, rest⟩ := fs.parents dir old inner
      exact ⟨other, List.mem_append_left _ found, rest⟩
    · rcases List.mem_cons.mp new with rfl | below
      · refine ⟨parent, List.mem_append_left _ member, ?_, rfl, rfl⟩
        simp [Dir.created]
      · obtain ⟨source, found, rfl⟩ := List.mem_map.mp below
        have front : (Dir.placed (parent.place ++ [name]) treeid source).place.dropLast =
            (parent.place ++ [name]) ++ source.place.dropLast :=
          List.dropLast_append_of_ne_nil (contents.inside source found)
        rcases contents.parents source found with ⟨top, ino⟩ | ⟨other, there, place, ino⟩
        · refine ⟨Dir.created parent name treeid,
            List.mem_append_right _ List.mem_cons_self, ?_, rfl, ino.symm⟩
          rw [front, top, List.append_nil]
          rfl
        · refine ⟨Dir.placed (parent.place ++ [name]) treeid other, List.mem_append_right _
            (List.mem_cons_of_mem _ (List.mem_map_of_mem there)), ?_, rfl, ino⟩
          rw [front, ← place]
          rfl
  inside := by
    intro dir listed plain
    rcases List.mem_append.mp listed with old | new
    · exact fs.inside dir old plain
    · rcases List.mem_cons.mp new with rfl | below
      · exact absurd (Dir.created_subvol parent name treeid) plain
      · obtain ⟨source, found, rfl⟩ := List.mem_map.mp below
        exact ⟨List.append_ne_nil_of_right_ne_nil _ (contents.inside source found), rfl⟩
  trees := by
    -- Of what is new only the root is a subvolume, and no other has its id.
    have new_root : ∀ dir ∈ Dir.created parent name treeid ::
        contents.dirs.map (Dir.placed (parent.place ++ [name]) treeid),
        dir.Subvol → dir = Dir.created parent name treeid := by
      intro dir new isSubvol
      rcases List.mem_cons.mp new with same | below
      · exact same
      · obtain ⟨source, found, rfl⟩ := List.mem_map.mp below
        exact absurd isSubvol (contents.plain source found)
    intro one first other second isSubvol otherSubvol same
    rcases List.mem_append.mp first with old | new
    · rcases List.mem_append.mp second with old' | new'
      · exact fs.trees one old other old' isSubvol otherSubvol same
      · rw [new_root other new' otherSubvol] at same
        exact absurd same (fresh one old)
    · rcases List.mem_append.mp second with old' | new'
      · rw [new_root one new isSubvol] at same
        exact absurd same.symm (fresh other old')
      · rw [new_root one new isSubvol, new_root other new' otherSubvol]

end Fs

/-- The ioctls that create and destroy subvolumes, in a state that nothing else changes. -/
structure VolumeKernel (State : Type) where
  fs : State → Fs
  readonly : State → UInt64 → Bool
  -- `BTRFS_IOC_SUBVOL_CREATE_V2` of a name in a directory.
  subvolCreate : State → Place → Bytes → Except IoError Unit × State
  -- `BTRFS_IOC_SNAP_CREATE_V2` of a name in a directory, with the source and the flags.
  snapCreate : State → Place → UInt64 → Place → Bytes → Except IoError Unit × State
  -- `BTRFS_IOC_SNAP_DESTROY_V2` of a name in a directory.
  snapDestroy : State → Place → Bytes → Except IoError Unit × State

namespace VolumeKernel

variable {State : Type} (kernel : VolumeKernel State)

/-- There is a subvolume more, in a directory where its name was free, and none inside it. -/
def Grows (dir : Place) (name : Bytes) (flags : UInt64) (before after : State) : Prop :=
  ∃ (parent : Dir) (member : parent ∈ (kernel.fs before).dirs) (last : Name) (treeid : UInt64)
    (free : (kernel.fs before).at? (parent.place ++ [last]) = none)
    (fresh : (kernel.fs before).Fresh treeid) (contents : Contents),
    parent.place = dir ∧ last.bytes = name ∧
      kernel.fs after = (kernel.fs before).adding parent member last treeid free fresh contents ∧
      kernel.readonly after treeid = flagReadonly flags ∧
      ∀ other, other ≠ treeid → kernel.readonly after other = kernel.readonly before other

/-- What the ioctls do when they succeed. -/
structure Documented : Prop where
  subvolCreate : ∀ dir name state after,
    kernel.subvolCreate state dir name = (.ok (), after) → kernel.Grows dir name 0 state after
  snapCreate : ∀ source dir flags name state after,
    kernel.snapCreate state source flags dir name = (.ok (), after) →
      kernel.Grows dir name flags state after
  snapDestroy : ∀ dir name state after, ∀ subvol ∈ (kernel.fs state).dirs,
    subvol.place = dir ++ [name] → kernel.snapDestroy state dir name.bytes = (.ok (), after) →
      kernel.fs after = (kernel.fs state).without [subvol.place]

/-- The caller may destroy every subvolume that has none inside it. -/
def Permits : Prop :=
  ∀ state dir name, ∀ subvol ∈ (kernel.fs state).dirs, subvol.Subvol →
    subvol.place = dir ++ [name] → (kernel.fs state).children subvol.treeid = [] →
      (kernel.snapDestroy state dir name.bytes).1 = .ok ()

end VolumeKernel

namespace Subvol

variable {State : Type} (kernel : VolumeKernel State)

/-- `subvol::fd::create`. -/
def Fd.create (state : State) (dir : Place) (name : Bytes) : Except IoError Unit × State :=
  namedIoctl name state fun state => kernel.subvolCreate state dir name

/-- `subvol::create`. -/
def create (state : State) (cwd : Place) (pathname : Bytes) : Except IoError Unit × State :=
  match openParentWith (kernel.fs state).limited.openat cwd pathname with
  | .error error => (.error error, state)
  | .ok (dir, name) => Fd.create kernel state dir name

/-- `subvol::snap::fd::create`. -/
def Snap.Fd.create (state : State) (source destdir : Place) (name : Bytes) (readonly : Bool) :
    Except IoError Unit × State :=
  namedIoctl name state fun state =>
    kernel.snapCreate state source (if readonly then subvolRdonly else 0) destdir name

/-- `subvol::snap::create`. -/
def Snap.create (state : State) (cwd : Place) (source destination : Bytes) (readonly : Bool) :
    Except IoError Unit × State :=
  -- `File::open` does not take a path with a zero in it.
  if 0 ∈ source then (.error (.kind .invalidInput), state)
  else
    match (kernel.fs state).limited.openat cwd source with
    | .error error => (.error error, state)
    | .ok source =>
      match openParentWith (kernel.fs state).limited.openat cwd destination with
      | .error error => (.error error, state)
      | .ok (dir, name) => Snap.Fd.create kernel state source dir name readonly

/-- `subvol::destroy`, over the ioctls for subvolumes. -/
def destroyBy (state : State) (cwd : Place) (subvol : Bytes) : Except IoError Unit × State :=
  destroyWith (fun state => (kernel.fs state).limited.openat) kernel.snapDestroy state cwd subvol

end Subvol

end Libbtrfs
