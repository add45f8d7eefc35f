import Libbtrfs.Subvol.DestroyElsewhere
import Libbtrfs.Subvol.ParentName
import Libbtrfs.Subvol.Volumes

/-! What is created by a path is found by that path, and destroying it by the path undoes it all. -/

namespace Libbtrfs

namespace Fs

section Walking

variable {fs : Fs}

/-- Empty components lead nowhere else. -/
theorem walk_components (fs : Fs) (place : Place) (parts : List Bytes) :
    fs.walk place (parts.filter (· ≠ [])) = fs.walk place parts := by
  -- The induction is on the components, each of which is followed in the same way on both sides.
  induction parts generalizing place with
  | nil => rfl
  | cons part rest ih =>
    by_cases empty : part = []
    · rw [List.filter_cons_of_neg (by simpa using empty), ih, walk, if_pos (Or.inl empty)]
    · rw [List.filter_cons_of_pos (by simpa using empty), walk, walk]
      simp only [ih]

/-- A path is followed by its components, from the root or from the open directory. -/
theorem openat_components (fs : Fs) (f : Place) {path : Bytes} (some_path : path ≠ []) :
    fs.openat f path = fs.walk (if Absolute path then [] else f) (components separator path) := by
  -- Empty components are no steps of a walk.
  rw [openat, if_neg some_path, components, walk_components]
  rfl

/-- Components are followed in two goes. -/
theorem walk_append (fs : Fs) (place : Place) (front back : List Bytes) :
    fs.walk place (front ++ back) =
      match fs.walk place front with
      | .error error => .error error
      | .ok stop => fs.walk stop back := by
  -- The induction is on the components of the first go.
  induction front generalizing place with
  | nil => rfl
  | cons part rest ih =>
    rw [List.cons_append, walk, walk]
    simp only [ih]
    split
    · rfl
    · split
      · rfl
      · split
        · cases fs.at? (place ++ [⟨part, by assumption⟩]) with
          | none => rfl
          | some dir => rfl
        · rfl

/-- Opening a path is opening its parent, and in that what has the name. -/
theorem openat_parent (fs : Fs) (f : Place) {path : Bytes} {name : Name}
    (last : (parseParentAndName path).2 = name.bytes) :
    fs.openat f path =
      match fs.openat f (parseParentAndName path).1 with
      | .error error => .error error
      | .ok parent => fs.walk parent [name.bytes] := by
  have something : ∃ byte ∈ path, byte ≠ separator := by
    by_contra nothing
    have only : ∀ byte ∈ path, byte = separator := fun byte member =>
      Classical.not_not.mp fun other => nothing ⟨byte, member, other⟩
    exact name.named.1 (last.symm.trans (parseParentAndName_separators only))
  obtain ⟨_, _, absolute, single, parts⟩ := parseParentAndName_addresses something
  have some_path : path ≠ [] := by
    rintro rfl
    obtain ⟨byte, impossible, _⟩ := something
    cases impossible
  rw [last] at parts
  rw [openat_components fs f some_path, parts, walk_append]
  by_cases alone : Single path
  · -- The parent is the current directory, which has no component of its own.
    rw [if_pos alone, single alone, if_neg alone.1]
    rfl
  · have some_dir : (parseParentAndName path).1 ≠ [] := by
      intro nothing
      rw [if_neg alone, nothing, components_nil, List.nil_append] at parts
      refine alone ⟨fun starts => ?_, by rw [parts, List.length_singleton]⟩
      rw [← absolute, nothing] at starts
      cases starts
    rw [if_neg alone, openat_components fs f some_dir]
    simp only [absolute]

end Walking

section Growing

variable {fs after : Fs} (more : fs.dirs ⊆ after.dirs)

include more

/-- What is at a place still is when there are more directories. -/
theorem at?_more {place : Place} {dir : Dir} (found : fs.at? place = some dir) :
    after.at? place = some dir := by
  -- It is still there, and it has not moved.
  obtain ⟨present, there⟩ := at?_eq_some.mp found
  exact at?_eq_some.mpr ⟨more present, there⟩

/-- What can be followed still leads to where it does. -/
theorem walk_more {place stop : Place} {parts : List Bytes}
    (leads : fs.walk place parts = .ok stop) : after.walk place parts = .ok stop := by
  -- The induction is on the components, with the directories found on the way.
  induction parts generalizing place with
  | nil => exact leads
  | cons part rest ih =>
    rw [walk] at leads ⊢
    split at leads
    · rename_i skipped
      rw [if_pos skipped]
      exact ih leads
    · rename_i counts
      rw [if_neg counts]
      split at leads
      · rename_i up
        rw [if_pos up]
        exact ih leads
      · rename_i down
        rw [if_neg down]
        split at leads
        · rename_i named
          rw [dif_pos named]
          cases found : fs.at? (place ++ [⟨part, named⟩]) with
          | none =>
            rw [found] at leads
            cases leads
          | some dir =>
            rw [found] at leads
            rw [at?_more more found]
            exact ih leads
        · cases leads

/-- Every path that can be opened still opens what it does. -/
theorem openat_more {f stop : Place} {path : Bytes} (opened : fs.openat f path = .ok stop) :
    after.openat f path = .ok stop := by
  -- The walk is through directories that were there before.
  rw [openat] at opened ⊢
  split at opened
  · cases opened
  · rename_i some_path
    rw [if_neg some_path]
    exact walk_more more opened

end Growing

/-- What the kernel has room for is opened as any other path is. -/
theorem limited_openat {fs : Fs} {f stop : Place} {path : Bytes} :
    fs.limited.openat f path = .ok stop ↔ path.length < pathMax ∧ fs.openat f path = .ok stop := by
  -- Without room there is an error.
  rw [limited]
  by_cases short : path.length < pathMax
  · simp only [if_pos short]
    exact (and_iff_right short).symm
  · simp only [if_neg short]
    exact ⟨fun impossible => (by cases impossible), fun both => absurd both.1 short⟩

section Adding

variable {fs : Fs} {parent : Dir} (member : parent ∈ fs.dirs) {name : Name} {treeid : UInt64}
  (free : fs.at? (parent.place ++ [name]) = none) (fresh : fs.Fresh treeid) (contents : Contents)

/-- The new subvolume is at its place. -/
theorem at?_adding_root :
    (fs.adding parent member name treeid free fresh contents).at? (parent.place ++ [name]) =
      some (Dir.created parent name treeid) :=
  at?_eq_some.mpr ⟨List.mem_append_right _ List.mem_cons_self, rfl⟩

/-- There is nothing inside the new subvolume that would keep it from being destroyed. -/
theorem children_adding :
    (fs.adding parent member name treeid free fresh contents).children treeid = [] := by
  rw [List.eq_nil_iff_forall_not_mem]
  intro child listed
  obtain ⟨present, isSubvol, inner, parentId⟩ := mem_children.mp listed
  rcases List.mem_append.mp present with old | new
  · -- The directory that it is in would have had the id before.
    obtain ⟨directory, found, _, same, _⟩ := fs.parents child old inner
    exact fresh directory found (same.trans parentId)
  · rcases List.mem_cons.mp new with rfl | below
    · exact fresh parent member parentId
    · obtain ⟨source, found, rfl⟩ := List.mem_map.mp below
      exact contents.plain source found isSubvol

/-- Without the new subvolume the filesystem is what it was. -/
theorem adding_without :
    (fs.adding parent member name treeid free fresh contents).without [parent.place ++ [name]] =
      fs := by
  refine ext_dirs ?_
  have old : fs.dirs.filter (fun dir => ∀ place ∈ [parent.place ++ [name]], ¬ place <+: dir.place) =
      fs.dirs := by
    rw [List.filter_eq_self]
    intro dir present
    simpa using nothing_below free dir present
  have new : (Dir.created parent name treeid ::
      contents.dirs.map (Dir.placed (parent.place ++ [name]) treeid)).filter
        (fun dir => ∀ place ∈ [parent.place ++ [name]], ¬ place <+: dir.place) = [] := by
    rw [List.filter_eq_nil_iff]
    intro dir present
    -- All that is new lies at or below the place.
    have below : parent.place ++ [name] <+: dir.place := by
      rcases List.mem_cons.mp present with rfl | inside
      · exact List.prefix_refl _
      · obtain ⟨source, _, rfl⟩ := List.mem_map.mp inside
        exact List.prefix_append _ _
    simpa using below
  rw [without, adding]
  simp only [List.filter_append]
  rw [old, new, List.append_nil]

end Adding

end Fs

/-- A call that creates a subvolume or a snapshot. -/
inductive Creation where
  | subvol (pathname : Bytes)
  | snapshot (source destination : Bytes) (readonly : Bool)

namespace Creation

/-- The path of what is created. -/
def path : Creation → Bytes
  | .subvol pathname => pathname
  | .snapshot _ destination _ => destination

/-- Whether what is created is to be read-only. -/
def readonly : Creation → Bool
  | .subvol _ => false
  | .snapshot _ _ readonly => readonly

section Running

variable {State : Type} (kernel : VolumeKernel State)

/-- The call itself, from a current directory. -/
def run (cwd : Place) (state : State) : Creation → Except IoError Unit × State
  | .subvol pathname => Subvol.create kernel state cwd pathname
  | .snapshot source destination readonly =>
    Subvol.Snap.create kernel state cwd source destination readonly

/-- Calls one after the other, up to the first that fails. -/
def runAll (cwd : Place) : List Creation → State → Except IoError Unit × State
  | [], state => (.ok (), state)
  | call :: rest, state =>
    match call.run kernel cwd state with
    | (.error error, state) => (.error error, state)
    | (.ok (), state) => runAll cwd rest state

/-- What a call does that succeeds: a new subvolume lies in the parent of its path. -/
structure Makes (cwd : Place) (before : State) (call : Creation) (after : State) (subvol : Dir) :
    Prop where
  grown : ∃ (parent : Dir) (member : parent ∈ (kernel.fs before).dirs) (name : Name)
    (treeid : UInt64) (free : (kernel.fs before).at? (parent.place ++ [name]) = none)
    (fresh : (kernel.fs before).Fresh treeid) (contents : Contents),
    subvol = Dir.created parent name treeid ∧
      openParentWith (kernel.fs before).limited.openat cwd call.path =
        .ok (parent.place, name.bytes) ∧
      kernel.fs after = (kernel.fs before).adding parent member name treeid free fresh contents
  readonly : kernel.readonly after subvol.treeid = call.readonly
  others : ∀ other, other ≠ subvol.treeid →
    kernel.readonly after other = kernel.readonly before other

end Running

variable {State : Type} {kernel : VolumeKernel State} (documented : kernel.Documented)
  {cwd : Place} {before after : State} {call : Creation} {subvol : Dir}

/-- An ioctl behind the check of its name succeeds only if that passes. -/
theorem namedIoctl_ok {name : Bytes} {ioctl : State → Except IoError Unit × State}
    (done : Subvol.namedIoctl name before ioctl = (.ok (), after)) :
    ioctl before = (.ok (), after) := by
  -- Behind the check the result is that of the ioctl.
  unfold Subvol.namedIoctl at done
  split at done
  · cases done
  · obtain ⟨result, later⟩ := Prod.mk.inj done
    exact Prod.ext (btrfsIoctl_passed result) later

/-- A call that succeeds has added a subvolume where its path says. -/
theorem makes_of_grows {dir : Place} {name : Bytes} {flags : UInt64}
    (opened : openParentWith (kernel.fs before).limited.openat cwd call.path = .ok (dir, name))
    (asked : flagReadonly flags = call.readonly)
    (grows : kernel.Grows dir name flags before after) :
    ∃ subvol, call.Makes kernel cwd before after subvol := by
  -- The new directory is the one that the filesystem has grown by.
  obtain ⟨parent, member, last, treeid, free, fresh, contents, rfl, rfl, fs, readonly, others⟩ :=
    grows
  exact ⟨Dir.created parent last treeid,
    ⟨parent, member, last, treeid, free, fresh, contents, rfl, opened, fs⟩,
    readonly.trans asked, others⟩

include documented

/-- So it is with each of the two calls. -/
theorem run_ok (done : call.run kernel cwd before = (.ok (), after)) :
    ∃ subvol, call.Makes kernel cwd before after subvol := by
  cases call with
  | subvol pathname =>
    rw [run, Subvol.create] at done
    split at done
    · cases done
    · rename_i dir name opened
      have called := namedIoctl_ok done
      exact makes_of_grows opened rfl (documented.subvolCreate dir name before after called)
  | snapshot source destination readonly =>
    rw [run, Subvol.Snap.create] at done
    split at done
    · cases done
    · split at done
      · cases done
      · split at done
        · cases done
        · rename_i _ dir name opened
          have called := namedIoctl_ok done
          refine makes_of_grows opened ?_ (documented.snapCreate _ dir _ name before after called)
          -- The flag says what was asked for.
          cases readonly with
          | false => rfl
          | true => rfl

omit documented

namespace Makes

/-- The parent of a path is opened together with its name. -/
theorem parent_opened {fs : Fs} {path name : Bytes} {place : Place}
    (opened : openParentWith fs.limited.openat cwd path = .ok (place, name)) :
    0 ∉ (parseParentAndName path).1 ∧
      fs.limited.openat cwd (parseParentAndName path).1 = .ok place ∧
      (parseParentAndName path).2 = name := by
  -- The name is what is left of the path.
  simp only [openParentWith] at opened
  split at opened
  · cases opened
  · rename_i clean
    split at opened
    · cases opened
    · rename_i parent found
      cases opened
      exact ⟨clean, found, rfl⟩

/-- Nothing that was there is gone. -/
theorem more (makes : call.Makes kernel cwd before after subvol) :
    (kernel.fs before).dirs ⊆ (kernel.fs after).dirs := by
  obtain ⟨⟨_, _, _, _, _, _, _, _, _, fs⟩, _, _⟩ := makes
  -- The new directories are behind the others.
  rw [fs]
  exact List.subset_append_left _ _

/-- What was there is as read-only as before. -/
theorem kept (makes : call.Makes kernel cwd before after subvol) {dir : Dir}
    (member : dir ∈ (kernel.fs before).dirs) :
    kernel.readonly after dir.treeid = kernel.readonly before dir.treeid := by
  obtain ⟨⟨_, _, _, _, _, fresh, _, rfl, _, _⟩, _, others⟩ := makes
  -- Its id is not that of the new subvolume.
  exact others dir.treeid (fresh dir member)

/-- The path of the call leads to the new subvolume. -/
theorem opens (makes : call.Makes kernel cwd before after subvol) :
    subvol ∈ (kernel.fs after).dirs ∧ subvol.Subvol ∧
      (kernel.fs after).openat cwd call.path = .ok subvol.place := by
  have more := makes.more
  obtain ⟨⟨parent, member, name, treeid, free, fresh, contents, rfl, opened, fs⟩, _, _⟩ := makes
  obtain ⟨_, found, last⟩ := parent_opened opened
  obtain ⟨_, found⟩ := Fs.limited_openat.mp found
  have here : (kernel.fs after).at? (parent.place ++ [name]) =
      some (Dir.created parent name treeid) := by
    rw [fs]
    exact Fs.at?_adding_root member free fresh contents
  refine ⟨(Fs.at?_eq_some.mp here).1, rfl, ?_⟩
  -- The parent is opened as before, and the new name in it.
  rw [Fs.openat_parent _ _ last, Fs.openat_more more found]
  simp only
  rw [Fs.walk_name, here]
  rfl

/-- Destroying what the path leads to is one ioctl, for a subvolume with none inside it. -/
theorem destroy_calls (makes : call.Makes kernel cwd before after subvol) {late : State}
    (same : kernel.fs late = kernel.fs after) :
    ∃ (dir : Place) (name : Name), subvol.place = dir ++ [name] ∧
      subvol ∈ (kernel.fs late).dirs ∧ (kernel.fs late).children subvol.treeid = [] ∧
      (kernel.fs late).without [subvol.place] = kernel.fs before ∧
      Subvol.destroyBy kernel late cwd call.path =
        (btrfsIoctl (kernel.snapDestroy late dir name.bytes).1,
          (kernel.snapDestroy late dir name.bytes).2) := by
  -- The parent is opened by the path as it was, and the name is the last one of the path.
  have more := makes.more
  obtain ⟨present, _, _⟩ := makes.opens
  obtain ⟨⟨parent, member, name, treeid, free, fresh, contents, rfl, opened, fs⟩, _, _⟩ := makes
  obtain ⟨clean, found, last⟩ := parent_opened opened
  obtain ⟨short, found⟩ := Fs.limited_openat.mp found
  have again : openParentWith (kernel.fs late).limited.openat cwd call.path =
      .ok (parent.place, name.bytes) := by
    have reached := Fs.limited_openat.mpr ⟨short, Fs.openat_more more found⟩
    rw [openParentWith]
    simp only [if_neg clean, same, reached, last]
  refine ⟨parent.place, name, rfl, same ▸ present, ?_, ?_, ?_⟩
  · rw [same, fs]
    exact Fs.children_adding member free fresh contents
  · rw [same, fs]
    exact Fs.adding_without member free fresh contents
  · rw [Subvol.destroyBy, Subvol.destroyWith, again]
    simp only [Subvol.Fd.destroyWith, Subvol.namedIoctl, setVolName_name]

end Makes

end Creation

/-- Subvolumes are destroyed by their paths, up to the first failure. -/
def Subvol.destroyEach {State : Type} (kernel : VolumeKernel State) (cwd : Place) :
    List Bytes → State → Except IoError Unit × State
  | [], state => (.ok (), state)
  | path :: rest, state =>
    match Subvol.destroyBy kernel state cwd path with
    | (.error error, state) => (.error error, state)
    | (.ok (), state) => Subvol.destroyEach kernel cwd rest state

/-- One path more is one subvolume more to be destroyed at the end, if the others have been. -/
theorem Subvol.destroyEach_concat {State : Type} (kernel : VolumeKernel State) {cwd : Place}
    {front : List Bytes} {path : Bytes} {state : State} :
    Subvol.destroyEach kernel cwd (front ++ [path]) state =
      match Subvol.destroyEach kernel cwd front state with
      | (.error error, state) => (.error error, state)
      | (.ok (), state) => Subvol.destroyBy kernel state cwd path := by
  -- The induction is on the paths in front, the first of which may fail.
  induction front generalizing state with
  | nil =>
    have only : Subvol.destroyEach kernel cwd [path] state =
        Subvol.destroyBy kernel state cwd path := by
      rw [Subvol.destroyEach]
      rcases Subvol.destroyBy kernel state cwd path with ⟨_ | _, later⟩
      · rfl
      · rfl
    exact only
  | cons first rest ih =>
    rw [List.cons_append, Subvol.destroyEach, Subvol.destroyEach]
    rcases Subvol.destroyBy kernel state cwd first with ⟨_ | _, later⟩
    · rfl
    · exact ih

/-- What has been created by a call is where its path leads, if that is not too long to be opened. -/
structure Creation.Found {State : Type} (kernel : VolumeKernel State) (cwd : Place) (state : State)
    (call : Creation) (subvol : Dir) : Prop where
  member : subvol ∈ (kernel.fs state).dirs
  isSubvol : subvol.Subvol
  opens : call.path.length < pathMax →
    (kernel.fs state).limited.openat cwd call.path = .ok subvol.place
  readonly : kernel.readonly state subvol.treeid = call.readonly

section Undoing

variable {State : Type} {kernel : VolumeKernel State} {cwd : Place}

/-- What has been created is still there when another call has succeeded. -/
theorem Creation.Found.later {before after : State} {call other : Creation} {subvol added : Dir}
    (found : call.Found kernel cwd before subvol)
    (makes : other.Makes kernel cwd before after added) :
    call.Found kernel cwd after subvol where
  member := makes.more found.member
  isSubvol := found.isSubvol
  opens short :=
    Fs.limited_openat.mpr ⟨short, Fs.openat_more makes.more (Fs.limited_openat.mp (found.opens short)).2⟩
  readonly := (makes.kept found.member).trans found.readonly

variable (documented : kernel.Documented) {calls : List Creation} {before after : State}
  (done : Creation.runAll kernel cwd calls before = (.ok (), after))

include documented done

/-- What every call that succeeds keeps is kept by all of them. -/
theorem Creation.runAll_keeps {Holds : State → Prop}
    (keeps : ∀ (call : Creation) (before after : State) (subvol : Dir),
      call.Makes kernel cwd before after subvol → Holds before → Holds after)
    (holds : Holds before) : Holds after := by
  -- The induction is on the calls, none of which fails.
  induction calls generalizing before with
  | nil =>
    cases done
    exact holds
  | cons call rest ih =>
    rw [runAll] at done
    rcases called : call.run kernel cwd before with ⟨_ | _, middle⟩
    · rw [called] at done
      cases done
    · rw [called] at done
      obtain ⟨subvol, makes⟩ := run_ok documented called
      exact ih done (keeps call before middle subvol makes holds)

/-- Every call has created something that is found in the end. -/
theorem Creation.runAll_found :
    ∃ subvols : List Dir, List.Forall₂ (Creation.Found kernel cwd after) calls subvols := by
  -- The induction is on the calls, behind the first of which the others leave it alone.
  induction calls generalizing before with
  | nil => exact ⟨[], .nil⟩
  | cons call rest ih =>
    rw [runAll] at done
    rcases called : call.run kernel cwd before with ⟨_ | _, middle⟩
    · rw [called] at done
      cases done
    · rw [called] at done
      obtain ⟨subvol, makes⟩ := run_ok documented called
      obtain ⟨member, isSubvol, opens⟩ := makes.opens
      have found : call.Found kernel cwd middle subvol :=
        ⟨member, isSubvol, fun short => Fs.limited_openat.mpr ⟨short, opens⟩, makes.readonly⟩
      have later := runAll_keeps documented done
        (fun other before after added makes found => Found.later found makes) found
      obtain ⟨subvols, others⟩ := ih done
      exact ⟨subvol :: subvols, .cons later others⟩

/-- Destroying by the same paths in the opposite order gives the filesystem back. -/
theorem Creation.runAll_undone :
    (∀ last, Subvol.destroyEach kernel cwd (calls.map Creation.path).reverse after =
      (.ok (), last) → kernel.fs last = kernel.fs before) ∧
    (kernel.Permits → ∃ last, Subvol.destroyEach kernel cwd (calls.map Creation.path).reverse after =
      (.ok (), last)) := by
  -- The induction is on the calls, the first of which is the last to be undone.
  induction calls generalizing before with
  | nil =>
    cases done
    refine ⟨fun last destroyed => ?_, fun _ => ⟨_, rfl⟩⟩
    cases destroyed
    rfl
  | cons call rest ih =>
    rw [runAll] at done
    rcases called : call.run kernel cwd before with ⟨_ | _, middle⟩
    · rw [called] at done
      cases done
    · rw [called] at done
      obtain ⟨subvol, makes⟩ := run_ok documented called
      obtain ⟨back, permitted⟩ := ih done
      rw [List.map_cons, List.reverse_cons, Subvol.destroyEach_concat]
      constructor
      · intro last destroyed
        rcases others : Subvol.destroyEach kernel cwd (rest.map Creation.path).reverse after with
          ⟨_ | _, late⟩
        · rw [others] at destroyed
          cases destroyed
        · rw [others] at destroyed
          obtain ⟨dir, name, there, member, _, gone, one⟩ := makes.destroy_calls (back late others)
          obtain ⟨result, ended⟩ := Prod.mk.inj (one.symm.trans destroyed)
          have passed : kernel.snapDestroy late dir name.bytes = (.ok (), last) :=
            Prod.ext (btrfsIoctl_passed result) ended
          rw [documented.snapDestroy dir name late last subvol member there passed, gone]
      · intro permits
        obtain ⟨late, others⟩ := permitted permits
        rw [others]
        obtain ⟨dir, name, there, member, empty, _, one⟩ := makes.destroy_calls (back late others)
        have allowed := permits late dir name subvol member makes.opens.2.1 there empty
        refine ⟨(kernel.snapDestroy late dir name.bytes).2, ?_⟩
        simp only [one, allowed, btrfsIoctl]

/--
Subvolumes and snapshots that are created by paths, one after the other, in or beside each other,
are all found by their paths in the end, as read-only as was asked for, and every other path still
leads to where it did.

Destroying them by the same paths in the opposite order gives back the filesystem when the kernel
refuses none of it, as it does not where the caller may destroy subvolumes.
-/
theorem creations_undone :
    (∃ subvols : List Dir, List.Forall₂ (Creation.Found kernel cwd after) calls subvols) ∧
    (∀ f path stop, (kernel.fs before).limited.openat f path = .ok stop →
      (kernel.fs after).limited.openat f path = .ok stop) ∧
    (∀ dir ∈ (kernel.fs before).dirs,
      kernel.readonly after dir.treeid = kernel.readonly before dir.treeid) ∧
    (∀ last, Subvol.destroyEach kernel cwd (calls.map Creation.path).reverse after =
      (.ok (), last) → kernel.fs last = kernel.fs before) ∧
    (kernel.Permits → ∃ last, Subvol.destroyEach kernel cwd (calls.map Creation.path).reverse after =
      (.ok (), last)) := by
  refine ⟨Creation.runAll_found documented done, fun f path stop opened => ?_,
    fun dir member => ?_, Creation.runAll_undone documented done⟩
  · -- What can be opened needs no more than the directories that there were.
    have keeps : ∀ (call : Creation) (one other : State) (subvol : Dir),
        call.Makes kernel cwd one other subvol →
        (kernel.fs one).limited.openat f path = .ok stop →
        (kernel.fs other).limited.openat f path = .ok stop := by
      intro call one other subvol makes opened
      obtain ⟨short, leads⟩ := Fs.limited_openat.mp opened
      exact Fs.limited_openat.mpr ⟨short, Fs.openat_more makes.more leads⟩
    exact Creation.runAll_keeps documented done keeps opened
  · have keeps : ∀ (call : Creation) (one other : State) (subvol : Dir),
        call.Makes kernel cwd one other subvol →
        (dir ∈ (kernel.fs one).dirs ∧
          kernel.readonly one dir.treeid = kernel.readonly before dir.treeid) →
        dir ∈ (kernel.fs other).dirs ∧
          kernel.readonly other dir.treeid = kernel.readonly before dir.treeid := by
      rintro call one other subvol makes ⟨present, same⟩
      exact ⟨makes.more present, (makes.kept present).trans same⟩
    exact (Creation.runAll_keeps documented done keeps ⟨member, rfl⟩).2

end Undoing

/-- Calls from the directory `x` of `twinFs`: `c//`, the snapshot `/x/c/s` of `/x/a`, `../x/c/d`. -/
def twinCalls : List Creation :=
  [.subvol [99, 47, 47], .snapshot [47, 120, 47, 97] [47, 120, 47, 99, 47, 115] true,
    .subvol [46, 46, 47, 120, 47, 99, 47, 100]]

/-- The filesystem `twinFs`, whose ids go on at 300. -/
def twinVolumes : Volumes := ⟨Subvol.twinFs, fun _ => false, 300⟩

/-- All three of the calls succeed. -/
theorem twinCalls_done :
    (Creation.runAll Volumes.kernel [Subvol.nameX] twinCalls twinVolumes).1 = .ok () := by
  -- The three calls are run.
  decide

/-- What these calls create in `twinFs` is destroyed by the same paths again. -/
theorem creations_undone_twin :
    let after := (Creation.runAll Volumes.kernel [Subvol.nameX] twinCalls twinVolumes).2
    ∃ last, Subvol.destroyEach Volumes.kernel [Subvol.nameX]
        (twinCalls.map Creation.path).reverse after = (.ok (), last) ∧
      last.fs = Subvol.twinFs := by
  intro after
  -- None of the calls fails, and nothing is refused.
  obtain ⟨_, _, _, back, permitted⟩ := creations_undone Volumes.kernel_documented
    (Prod.ext twinCalls_done rfl :
      Creation.runAll Volumes.kernel [Subvol.nameX] twinCalls twinVolumes = (.ok (), after))
  obtain ⟨last, destroyed⟩ := permitted Volumes.kernel_permits
  exact ⟨last, destroyed, back last destroyed⟩

end Libbtrfs
