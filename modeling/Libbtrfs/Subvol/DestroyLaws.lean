import Libbtrfs.Subvol.Destroy
import Libbtrfs.Subvol.FileSystemLaws

/-! What destroying a subvolume by a path of names comes to. -/

namespace Libbtrfs

/-- A path of names is taken apart in front of the last one. -/
theorem parseParentAndName_names (front : List Name) (middle last : Name) :
    parseParentAndName (text (front ++ [middle]) ++ last.bytes) =
      (text front ++ middle.bytes, last.bytes) := by
  obtain ⟨nonempty, _, _, _, single, _⟩ := last.named
  obtain ⟨start, final, split⟩ := List.eq_nil_or_concat last.bytes |>.resolve_left nonempty
  have whole : text (front ++ [middle]) ++ last.bytes =
      (text front ++ middle.bytes) ++ separator :: last.bytes := by
    simp [text]
  -- The path does not end in a separator, since its last name has none.
  have untrimmed : rposition (· ≠ separator) (text (front ++ [middle]) ++ last.bytes) =
      some (text (front ++ [middle]) ++ start).length := by
    rw [split, List.concat_eq_append, ← List.append_assoc]
    refine rposition_middle _ [] ?_ (by simp)
    rw [split, List.concat_eq_append] at single
    simp only [decide_eq_true_eq]
    rintro rfl
    exact single (List.mem_append_right _ List.mem_cons_self)
  have all : (text (front ++ [middle]) ++ last.bytes).take
      ((text (front ++ [middle]) ++ start).length + 1) =
        text (front ++ [middle]) ++ last.bytes := by
    refine List.take_of_length_le ?_
    rw [split]
    simp
    omega
  -- The last separator is the one in front of that name.
  have found : rposition (· = separator) (text (front ++ [middle]) ++ last.bytes) =
      some (text front ++ middle.bytes).length := by
    rw [whole]
    refine rposition_middle _ _ (by simp) ?_
    intro byte member
    simp only [decide_eq_false_iff_not]
    rintro rfl
    exact single member
  have positive : (text front ++ middle.bytes).length ≠ 0 := by
    rw [List.length_append]
    have := List.length_pos_iff.mpr middle.named.1
    omega
  rw [parseParentAndName]
  simp only [untrimmed, all, found, if_neg positive]
  have behind : ((text front ++ middle.bytes) ++ separator :: last.bytes).drop
      ((text front ++ middle.bytes).length + 1) = last.bytes := by
    rw [← List.drop_drop, List.drop_left]
    rfl
  rw [whole, List.take_left, behind]

/-- The directory of a path of names is the one that the names in front of the last lead to. -/
theorem openParentWithName_names (fs : Fs) (cwd : Place) (front : List Name) (middle last : Name) :
    openParentWithName fs cwd (text (front ++ [middle]) ++ last.bytes) =
      match fs.walk cwd ((front ++ [middle]).map Name.bytes) with
      | .error error => .error error
      | .ok parent => .ok (parent, last.bytes) := by
  -- Neither part of a path of names has a zero in it.
  rw [openParentWithName, openParentWith, parseParentAndName_names, ← Fs.openat_names]
  exact if_neg (Fs.path_clean front middle)

/-- The path that the loop makes in its buffer, behind the name that the buffer begins with. -/
theorem buffer_names {baseSubvol : Bytes} {name : Name}
    (begins : baseSubvol.take (name.bytes.length + 1) = text [name]) (front : List Name)
    (last : Name) : ∃ (start : List Name) (middle : Name), name :: front = start ++ [middle] ∧
      baseSubvol.take (name.bytes.length + 1) ++ (text front ++ last.bytes) =
        text (start ++ [middle]) ++ last.bytes ∧
      (text (start ++ [middle]) ++ last.bytes).take (name.bytes.length + 1) = text [name] := by
  -- The last of the names in front of its own is that of the directory.
  obtain ⟨start, middle, split⟩ :=
    (List.eq_nil_or_concat (name :: front)).resolve_left (List.cons_ne_nil _ _)
  rw [List.concat_eq_append] at split
  have whole : baseSubvol.take (name.bytes.length + 1) ++ (text front ++ last.bytes) =
      text (start ++ [middle]) ++ last.bytes := by
    rw [begins, ← split, ← List.append_assoc, ← Fs.text_append, List.singleton_append]
  refine ⟨start, middle, split, whole, ?_⟩
  rw [← whole, List.take_append_of_le_length, List.take_take, Nat.min_self]
  · exact begins
  · rw [begins]
    simp [text]

/-- A name fits its place in the arguments of the ioctl. -/
theorem setVolName_name (name : Name) : setVolName name.bytes = .ok () := by
  -- A name has at most 255 bytes, for which there is room.
  obtain ⟨_, _, _, clean, _, short⟩ := name.named
  have fits : name.bytes.length < volNameSize := by
    unfold volNameSize
    omega
  rw [setVolName, if_neg]
  rintro (inside | long)
  · exact clean inside
  · exact long fits

/-- The ioctl finds the name in the directory. -/
theorem Fs.snapDestroy_name (fs : Fs) (dir : Place) (name : Name) :
    fs.snapDestroy dir name.bytes =
      match fs.at? (dir ++ [name]) with
      | none => .error (.os enoent)
      | some subvol =>
        if ¬ subvol.Subvol then .error (.os einval)
        else if fs.children subvol.treeid ≠ [] then .error (.os enotempty)
        else .ok subvol.place := by
  -- A name passes the check for separators and the two names for other directories.
  unfold snapDestroy
  exact dif_pos name.named

namespace Subvol

/-- A subvolume with none inside it is destroyed. -/
theorem Fd.destroy_done {world : World} {dir : Place} {name : Name} {subvol : Dir}
    (member : subvol ∈ world.fs.dirs) (isSubvol : subvol.Subvol)
    (there : subvol.place = dir ++ [name]) (empty : world.fs.children subvol.treeid = []) :
    Fd.destroy world dir name.bytes =
      (.ok (), ⟨world.fs.without [subvol.place], world.destroyed ++ [subvol.place]⟩) := by
  -- The ioctl has no reason to refuse.
  have done : world.fs.snapDestroy dir name.bytes = .ok subvol.place := by
    rw [Fs.snapDestroy_name, Fs.at?_eq_some.mpr ⟨member, there⟩]
    simp only [isSubvol, not_true_eq_false, if_false, empty, ne_eq]
  simp only [Fd.destroy, Fd.destroyWith, namedIoctl, setVolName_name, World.snapDestroy, done,
    btrfsIoctl]

/-- Nothing is destroyed but the place that is named. -/
theorem Fd.destroy_only (world : World) (dir : Place) (name : Name) :
    (Fd.destroy world dir name.bytes).2 = world ∨
      (Fd.destroy world dir name.bytes).2 =
        ⟨world.fs.without [dir ++ [name]], world.destroyed ++ [dir ++ [name]]⟩ := by
  -- Unless the ioctl refuses, it destroys what is at the place, and logs it there.
  simp only [Fd.destroy, Fd.destroyWith, namedIoctl, setVolName_name, World.snapDestroy,
    Fs.snapDestroy_name]
  cases found : world.fs.at? (dir ++ [name]) with
  | none => exact Or.inl rfl
  | some subvol =>
    rw [← (Fs.at?_eq_some.mp found).2]
    by_cases refused : ¬ subvol.Subvol
    · simp only [if_pos refused]
      exact Or.inl trivial
    · simp only [if_neg refused]
      by_cases full : world.fs.children subvol.treeid ≠ []
      · simp only [if_pos full]
        exact Or.inl trivial
      · simp only [if_neg full]
        exact Or.inr trivial

/-- A subvolume is destroyed by its path in the directory that it is in. -/
theorem destroy_eq (world : World) (cwd : Place) (subvol : Bytes) :
    destroy world cwd subvol =
      match openParentWithName world.fs cwd subvol with
      | .error error => (.error error, world)
      | .ok (dir, name) => Fd.destroy world dir name := rfl

/-- By a path of names, a subvolume with none inside it is destroyed. -/
theorem destroy_done {world : World} {cwd : Place} {front : List Name} {middle last : Name}
    {subvol : Dir} (member : subvol ∈ world.fs.dirs) (isSubvol : subvol.Subvol)
    (there : subvol.place = cwd ++ (front ++ [middle] ++ [last]))
    (empty : world.fs.children subvol.treeid = []) :
    destroy world cwd (text (front ++ [middle]) ++ last.bytes) =
      (.ok (), ⟨world.fs.without [subvol.place], world.destroyed ++ [subvol.place]⟩) := by
  rw [← List.append_assoc] at there
  -- The directory that it is in is on the way to it.
  obtain ⟨parent, found, place⟩ := Fs.on_the_way member
    (there ▸ List.prefix_append _ _ : cwd ++ (front ++ [middle]) <+: subvol.place)
  rw [destroy_eq, openParentWithName_names, Fs.walk_there found place]
  simp only
  rw [place]
  exact Fd.destroy_done member isSubvol there empty

/-- By a path of names, nothing is destroyed but the place that they name from the directory on. -/
theorem destroy_only (world : World) (cwd : Place) (front : List Name) (middle last : Name) :
    (destroy world cwd (text (front ++ [middle]) ++ last.bytes)).2 = world ∨
      (destroy world cwd (text (front ++ [middle]) ++ last.bytes)).2 =
        ⟨world.fs.without [cwd ++ (front ++ [middle] ++ [last])],
          world.destroyed ++ [cwd ++ (front ++ [middle] ++ [last])]⟩ := by
  -- If the names in front of the last lead anywhere, they lead to the place they name.
  rw [destroy_eq, openParentWithName_names]
  cases leads : world.fs.walk cwd ((front ++ [middle]).map Name.bytes) with
  | error error => exact Or.inl rfl
  | ok parent =>
    simp only
    rw [← List.append_assoc, ← Fs.walk_leads leads]
    exact Fd.destroy_only world parent last

section Rounds

variable {sweep : Sweep} (unharmed : sweep.panicked = none) {vol : SubvolItem Place} {path : Bytes}
  (text : vol.pathText = .ok path) (cwd : Place) (baseLen : Nat)

include unharmed

/-- Unless the loop has panicked, the end of `destroy_all` destroys the subvolume itself. -/
theorem Fd.finish_destroys (dir : Place) (name : Bytes) :
    Fd.finish dir name sweep =
      match Fd.destroy sweep.world dir name with
      | (.ok (), world) => (.ok (), { sweep with world := world })
      | (.error error, world) => (.error (.io error), { sweep with world := world }) := by
  -- There is no panic to pass on.
  rw [Fd.finish, Fd.finishWith, unharmed]
  rfl

include text

/-- A round of the loop for a subvolume destroys it by its path, over any calls for it. -/
theorem Sweep.roundWith_destroys (kernel : Fs → Kernel Place)
    (ioctl : World → Place → Bytes → Except IoError Unit × World) :
    sweep.roundWith kernel ioctl cwd baseLen (.ok vol) =
      sweep.record (sweep.baseSubvol.take baseLen ++ path)
        (destroyWith (fun world => (kernel world.fs).openat) ioctl sweep.world cwd
          (sweep.baseSubvol.take baseLen ++ path)) := by
  -- The loop has not panicked, and its iterator gives the path.
  simp only [Sweep.roundWith, unharmed, Option.isSome_none, Bool.false_eq_true, if_false, text]

/-- A round of the loop for a subvolume destroys it by its path. -/
theorem Sweep.round_destroys :
    sweep.round cwd baseLen (.ok vol) =
      sweep.record (sweep.baseSubvol.take baseLen ++ path)
        (destroy sweep.world cwd (sweep.baseSubvol.take baseLen ++ path)) :=
  roundWith_destroys unharmed text cwd baseLen Fs.kernel World.snapDestroy

end Rounds

end Subvol

end Libbtrfs
