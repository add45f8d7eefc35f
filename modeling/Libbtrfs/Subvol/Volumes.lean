import Libbtrfs.Subvol.Create
import Libbtrfs.Subvol.DestroyLaws

/-! A filesystem in which subvolumes and snapshots are created and destroyed, all of it permitted. -/

namespace Libbtrfs

/-- `EEXIST`. -/
def eexist : Nat := 17

/-- `ENOSPC`. -/
def enospc : Nat := 28

/-- `BTRFS_EMPTY_SUBVOL_DIR_OBJECTID`. -/
def emptySubvolDirObjectid : UInt64 := 2

/-- A subvolume that is not a snapshot is empty. -/
def Contents.empty : Contents where
  dirs := []
  distinct := List.nodup_nil
  plain := nofun
  inside := nofun
  parents := nofun

namespace Fs

/-- A new subvolume goes into a directory, if its name is free there and its id is new. -/
def create (fs : Fs) (dir : Place) (name : Bytes) (treeid : UInt64) (contents : Contents) :
    Except IoError (Dir × Fs) :=
  match found : fs.at? dir with
  | none => .error (.os enoent)
  | some parent =>
    if named : Named name then
      if free : fs.at? (parent.place ++ [⟨name, named⟩]) = none then
        if fresh : fs.Fresh treeid then
          .ok (Dir.created parent ⟨name, named⟩ treeid,
            fs.adding parent (at?_eq_some.mp found).1 ⟨name, named⟩ treeid free fresh contents)
        else .error (.os enospc)
      else .error (.os eexist)
    else .error (.os einval)

/-- The directories of a subvolume as a snapshot has them, with an empty one for each inside it. -/
def copied (subvol dir : Dir) : Dir :=
  { dir with
    place := dir.place.drop subvol.place.length
    ino := if dir.Subvol then emptySubvolDirObjectid else dir.ino }

section Snapshot

variable {fs : Fs} {subvol dir : Dir}

/-- What has its entry in the tree of a subvolume lies below that. -/
theorem entry_below (member : subvol ∈ fs.dirs) (isSubvol : subvol.Subvol) (found : dir ∈ fs.dirs)
    (inner : dir.place ≠ []) (parentId : dir.parentId = subvol.treeid) :
    subvol.place <+: dir.place.dropLast := by
  obtain ⟨parent, present, place, treeid, _⟩ := fs.parents dir found inner
  obtain ⟨owning, there, owningSubvol, same, above, _⟩ := owner present
  -- The subvolume that the entry is in is the only one with this id.
  cases fs.trees owning there subvol member owningSubvol isSubvol
    (same.trans (treeid.trans parentId))
  exact place ▸ above

/-- So its place from there is not empty, and is found again behind that of the subvolume. -/
theorem entry_place (member : subvol ∈ fs.dirs) (isSubvol : subvol.Subvol) (found : dir ∈ fs.dirs)
    (inner : dir.place ≠ []) (parentId : dir.parentId = subvol.treeid) :
    subvol.place ++ dir.place.drop subvol.place.length = dir.place ∧
      dir.place.drop subvol.place.length ≠ [] ∧
      dir.place.dropLast.drop subvol.place.length =
        (dir.place.drop subvol.place.length).dropLast := by
  -- The directory that it lies in is inside the subvolume, and its name comes last.
  have front := entry_below member isSubvol found inner parentId
  obtain ⟨last, whole, _⟩ := place_name inner
  obtain ⟨between, split⟩ := front
  rw [← split, List.append_assoc] at whole
  rw [whole]
  simp only [List.drop_left, true_and]
  refine ⟨by simp, ?_⟩
  rw [← List.append_assoc, List.dropLast_concat, List.drop_left, List.dropLast_concat]

end Snapshot

/-- What a snapshot of a subvolume has inside. -/
def contents (fs : Fs) (subvol : Dir) (member : subvol ∈ fs.dirs) (isSubvol : subvol.Subvol) :
    Contents where
  dirs := (fs.dirs.filter fun dir => dir.place ≠ [] ∧ dir.parentId = subvol.treeid).map
    (copied subvol)
  distinct := by
    have places : ((fs.dirs.filter fun dir => dir.place ≠ [] ∧ dir.parentId = subvol.treeid).map
        Dir.place).Nodup := fs.distinct.sublist (List.filter_sublist.map _)
    rw [List.map_map]
    refine places.of_map.map_on ?_
    intro one first other second same
    obtain ⟨present, inner, parentId⟩ := by simpa using List.mem_filter.mp first
    obtain ⟨present', inner', parentId'⟩ := by simpa using List.mem_filter.mp second
    have whole := (entry_place member isSubvol present inner parentId).1
    have whole' := (entry_place member isSubvol present' inner' parentId').1
    have again : one.place.drop subvol.place.length = other.place.drop subvol.place.length := same
    refine List.inj_on_of_nodup_map fs.distinct present present' ?_
    rw [← whole, ← whole', again]
  plain := by
    intro dir listed
    obtain ⟨source, _, rfl⟩ := List.mem_map.mp listed
    show ¬ (if source.Subvol then emptySubvolDirObjectid else source.ino) = firstFreeObjectid
    by_cases nested : source.Subvol
    · rw [if_pos nested]
      decide
    · rw [if_neg nested]
      exact nested
  inside := by
    intro dir listed
    obtain ⟨source, chosen, rfl⟩ := List.mem_map.mp listed
    obtain ⟨present, inner, parentId⟩ := by simpa using List.mem_filter.mp chosen
    exact (entry_place member isSubvol present inner parentId).2.1
  parents := by
    intro dir listed
    obtain ⟨source, chosen, rfl⟩ := List.mem_map.mp listed
    obtain ⟨present, inner, parentId⟩ := by simpa using List.mem_filter.mp chosen
    obtain ⟨parent, found, place, treeid, ino⟩ := fs.parents source present inner
    obtain ⟨_, _, front⟩ := entry_place member isSubvol present inner parentId
    by_cases top : parent.Subvol
    · -- The entry is in the root of the subvolume itself.
      cases fs.trees parent found subvol member top isSubvol (treeid.trans parentId)
      refine Or.inl ⟨?_, ino.symm.trans top⟩
      show (source.place.drop _).dropLast = []
      rw [← front, ← place, List.drop_length]
    · obtain ⟨outer, sameTree⟩ := fs.inside parent found top
      have entry : parent.parentId = subvol.treeid := by rw [← sameTree, treeid, parentId]
      refine Or.inr ⟨copied subvol parent, List.mem_map_of_mem (List.mem_filter.mpr
        ⟨found, by simp [outer, entry]⟩), ?_, ?_⟩
      · show parent.place.drop _ = (source.place.drop _).dropLast
        rw [place, front]
      · show (if parent.Subvol then _ else parent.ino) = source.dirid
        rw [if_neg top, ino]

end Fs

namespace Fs

/-- What is created is a subvolume in the directory, with the name. -/
theorem create_ok {fs after : Fs} {dir : Place} {name : Bytes} {treeid : UInt64}
    {contents : Contents} {subvol : Dir}
    (done : fs.create dir name treeid contents = .ok (subvol, after)) :
    ∃ (parent : Dir) (member : parent ∈ fs.dirs) (last : Name)
      (free : fs.at? (parent.place ++ [last]) = none) (fresh : fs.Fresh treeid),
      parent.place = dir ∧ last.bytes = name ∧ subvol = Dir.created parent last treeid ∧
        after = fs.adding parent member last treeid free fresh contents := by
  -- Each of the checks is passed.
  unfold create at done
  split at done
  · cases done
  · rename_i parent found
    split at done
    · rename_i named
      split at done
      · rename_i free
        split at done
        · rename_i fresh
          cases done
          obtain ⟨member, there⟩ := at?_eq_some.mp found
          exact ⟨parent, member, ⟨name, named⟩, free, fresh, there, rfl, rfl, rfl⟩
        · cases done
      · cases done
    · cases done

end Fs

/-- A filesystem, which of its subvolumes are read-only, and the next tree id. -/
structure Volumes where
  fs : Fs
  readonly : UInt64 → Bool
  next : UInt64

namespace Volumes

/-- What a call that creates something comes to. -/
def grow (volumes : Volumes) (flags : UInt64) :
    Except IoError (Dir × Fs) → Except IoError Unit × Volumes
  | .error error => (.error error, volumes)
  | .ok (_, fs) =>
    (.ok (), {
      fs := fs
      readonly := fun id =>
        if id = volumes.next then flagReadonly flags else volumes.readonly id
      next := volumes.next + 1 })

/-- A new subvolume is empty. -/
def subvolCreate (volumes : Volumes) (dir : Place) (name : Bytes) :
    Except IoError Unit × Volumes :=
  volumes.grow 0 (volumes.fs.create dir name volumes.next .empty)

/-- A snapshot has what its source has. -/
def snapCreate (volumes : Volumes) (source : Place) (flags : UInt64) (dir : Place) (name : Bytes) :
    Except IoError Unit × Volumes :=
  match found : volumes.fs.at? source with
  | none => (.error (.os enoent), volumes)
  | some subvol =>
    if isSubvol : subvol.Subvol then
      volumes.grow flags (volumes.fs.create dir name volumes.next
        (volumes.fs.contents subvol (Fs.at?_eq_some.mp found).1 isSubvol))
    else (.error (.os einval), volumes)

/-- A subvolume with none inside it is destroyed. -/
def snapDestroy (volumes : Volumes) (dir : Place) (name : Bytes) :
    Except IoError Unit × Volumes :=
  match volumes.fs.snapDestroy dir name with
  | .error error => (.error error, volumes)
  | .ok place => (.ok (), { volumes with fs := volumes.fs.without [place] })

/-- The ioctls of such a filesystem. -/
def kernel : VolumeKernel Volumes where
  fs := Volumes.fs
  readonly := Volumes.readonly
  subvolCreate := subvolCreate
  snapCreate := snapCreate
  snapDestroy := snapDestroy

/-- What is created is new, and read-only when that was asked for. -/
theorem grow_ok {volumes after : Volumes} {flags : UInt64} {dir : Place} {name : Bytes}
    {contents : Contents}
    (done : volumes.grow flags (volumes.fs.create dir name volumes.next contents) =
      (.ok (), after)) : kernel.Grows dir name flags volumes after := by
  -- Only where something was created the filesystem has changed.
  cases made : volumes.fs.create dir name volumes.next contents with
  | error error =>
    rw [made] at done
    cases done
  | ok pair =>
    obtain ⟨subvol, fs⟩ := pair
    rw [made] at done
    cases done
    obtain ⟨parent, member, last, free, fresh, there, named, _, rfl⟩ := Fs.create_ok made
    refine ⟨parent, member, last, volumes.next, free, fresh, contents, there, named, rfl, ?_, ?_⟩
    · exact if_pos rfl
    · intro other different
      exact if_neg different

/-- The ioctls do what they are documented to do. -/
theorem kernel_documented : kernel.Documented := by
  refine ⟨fun dir name volumes after done => grow_ok done, ?_, ?_⟩
  · intro source dir flags name volumes after done
    have called : volumes.snapCreate source flags dir name = (.ok (), after) := done
    unfold snapCreate at called
    -- Without a subvolume as its source there is no snapshot.
    split at called
    · cases called
    · split at called
      · exact grow_ok called
      · cases called
  · intro dir name volumes after subvol member there done
    have called : volumes.snapDestroy dir name.bytes = (.ok (), after) := done
    have found : volumes.fs.at? (dir ++ [name]) = some subvol :=
      Fs.at?_eq_some.mpr ⟨member, there⟩
    rw [snapDestroy, Fs.snapDestroy_name, found] at called
    simp only at called
    split at called
    · cases called
    · rename_i place reached
      cases called
      split at reached
      · cases reached
      · split at reached
        · cases reached
        · cases reached
          rfl

/-- No one is kept from destroying subvolumes. -/
theorem kernel_permits : kernel.Permits := by
  intro volumes dir name subvol member isSubvol there empty
  have found : volumes.fs.at? (dir ++ [name]) = some subvol :=
    Fs.at?_eq_some.mpr ⟨member, there⟩
  have none_inside : volumes.fs.children subvol.treeid = [] := empty
  show (volumes.snapDestroy dir name.bytes).1 = .ok ()
  -- The one reason to refuse would be a subvolume inside it.
  rw [snapDestroy, Fs.snapDestroy_name, found]
  simp only [isSubvol, not_true_eq_false, if_false, none_inside, ne_eq]

end Volumes

end Libbtrfs
