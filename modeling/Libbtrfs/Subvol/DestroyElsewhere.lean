import Libbtrfs.Subvol.DestroyAll

/-! From another directory, `destroy_all` misses what is inside the subvolume that it is given. -/

namespace Libbtrfs

/-- What the kernel tells of a subvolume leads to one that is there. -/
theorem Fs.inoLookupUser_ok {fs : Fs} {f : Place} {dirid treeid : UInt64} {path name : Bytes}
    (told : fs.inoLookupUser f dirid treeid = .ok (path, name)) :
    ∃ child ∈ fs.dirs, child.Subvol ∧ ∃ (front : List Name) (last : Name),
      child.place = f ++ (front ++ [last]) ∧ path = toBytesWithNul (text front) ∧
        name = toBytesWithNul last.bytes := by
  -- The kernel looks among what is listed in the tree, and only below the open directory.
  unfold inoLookupUser at told
  cases here : fs.at? f with
  | none =>
    rw [here] at told
    cases told
  | some dir =>
    rw [here] at told
    simp only at told
    split at told
    · cases told
    · rename_i child found
      split at told
      · rename_i above
        cases told
        obtain ⟨present, childSubvol, inner, _⟩ :=
          mem_children.mp (List.mem_of_find?_eq_some found)
        obtain ⟨last, whole, named⟩ := place_name inner
        obtain ⟨front, inside⟩ := above
        refine ⟨child, present, childSubvol, front, last, ?_, ?_, ?_⟩
        · rw [← List.append_assoc, inside]
          exact whole
        · rw [← inside, List.drop_left]
        · rw [named]
      · cases told

namespace Subvol

/-- An item of the iterator tells where inside the subvolume it lies. -/
def Located (fs : Fs) (base f : Place) (path : Option Bytes) : Prop :=
  ∃ (front : List Name) (last : Name), f = base ++ (front ++ [last]) ∧
    path = some (toBytesWithNul (text front ++ last.bytes)) ∧
      ∃ nested ∈ fs.dirs, nested.Subvol ∧ nested.place = f

/-- An entry of the stack is the subvolume itself, or one inside it with its path. -/
def EntLocated (fs : Fs) (base : Place) : Ent Place → Prop
  | .rootVol _ f => f = base
  | .vol _ _ f _ path => Located fs base f path

/-- All that an iterator with these flags has on its stack lies inside the subvolume. -/
structure IterLocated (fs : Fs) (base : Place) (iter : Iter Place) : Prop where
  flags : iter.flags = sweepFlags
  stack : ∀ ent ∈ iter.stack, EntLocated fs base ent

section Pushing

variable {fs now : Fs} {base f : Place} {chain : Option UnixPath} {iter : Iter Place}
  (shrunk : ∀ dir ∈ now.dirs, dir ∈ fs.dirs) (leads : Leads base chain f)

include shrunk leads

/-- What one round of `push_refs` puts on the stack lies inside the subvolume. -/
theorem pushRef_located (parentId : UInt64) (isRoot : Bool) (color : Color) (rref : Rootref)
    (located : IterLocated fs base iter) :
    IterLocated fs base (Iter.pushRef now.kernel parentId f isRoot color
      (some (chain.map UnixPath.bytes)) rref iter).2 := by
  unfold Iter.pushRef pathStr
  cases told : now.kernel.inoLookupUser f rref.dirid rref.treeid with
  | error error =>
    obtain ⟨other, fails⟩ := @btrfsIoctl_error (Bytes × Bytes) error
    rw [fails]
    simp only
    split
    · exact located
    · exact located
  | ok found =>
    obtain ⟨path, name⟩ := found
    obtain ⟨child, present, childSubvol, front, last, there, rfl, rfl⟩ := Fs.inoLookupUser_ok told
    have last_clean := last.named.2.2.2.1
    have front_read := fromPtr_toBytesWithNul (Fs.text_clean front)
    have last_read := fromPtr_toBytesWithNul last_clean
    -- The path is that of a subvolume with these names, behind the path of its parent.
    have path := Iter.entPath_path chain
      ⟨child.treeid, child.dirid, ⟨text front, Fs.text_clean front⟩, ⟨last.bytes, last_clean⟩,
        child.place⟩
    have dropped := Iter.entPath_drop (Iter.basePath chain) (text front) (toBytesWithNul last.bytes)
    rw [path_chainText] at path
    simp only [Iter.basePath] at path dropped
    simp only [btrfsIoctl, front_read, last_read, dropped, Iter.pushEnt,
      fromPtr_joined (Fs.text_clean front) last_clean]
    rw [path]
    cases opened : now.kernel.openat f (text front ++ last.bytes) with
    | error error => exact located
    | ok entFd =>
      refine ⟨located.flags, fun ent member => ?_⟩
      rcases List.mem_cons.mp member with rfl | below
      · -- What has been opened is what the names lead to.
        have followed : now.openat f (text front ++ last.bytes) = .ok entFd := opened
        rw [Fs.openat_names] at followed
        have reached := Fs.walk_leads followed
        obtain ⟨names, start, chained⟩ := leads
        refine ⟨names ++ front, last, ?_, ?_, child, shrunk child present, childSubvol, ?_⟩
        · rw [reached, start]
          simp
        · rw [chained, Fs.text_append, List.append_assoc]
        · rw [there, reached]
      · exact located.stack ent below

/-- What `push_refs` puts on the stack lies inside the subvolume. -/
theorem pushRefs_located (parentId : UInt64) (isRoot : Bool) (color : Color)
    (located : IterLocated fs base iter) :
    IterLocated fs base (Iter.pushRefs now.kernel parentId f isRoot color
      (some (chain.map UnixPath.bytes)) iter).2 := by
  -- The loop of `push_refs` keeps what each of its rounds keeps, also when it is cut short.
  have loop : ∀ refs iter, IterLocated fs base iter →
      IterLocated fs base (Iter.pushLoop now.kernel parentId f isRoot color
        (some (chain.map UnixPath.bytes)) refs iter).2 := by
    intro refs
    induction refs with
    | nil => exact fun iter kept => kept
    | cons rref rest ih =>
      intro iter kept
      have first := pushRef_located shrunk leads parentId isRoot color rref kept
      rw [Iter.pushLoop]
      split
      · rename_i error later step
        rw [step] at first
        exact first
      · rename_i later step
        rw [step] at first
        exact ih later first
  unfold Iter.pushRefs
  split
  · exact located
  · exact loop _ iter located

end Pushing

/-- The path of a located item is one that leads to it. -/
theorem Located.leads {fs : Fs} {base f : Place} {path : Option Bytes}
    (located : Located fs base f path) : ∃ chain : Option UnixPath,
      Leads base chain f ∧
        path.map (fun pathBuf => some (fromPtr pathBuf)) = some (chain.map UnixPath.bytes) := by
  -- The path of an item has no zero inside, so it is read back whole.
  obtain ⟨front, last, place, told, _⟩ := located
  have clean := Fs.path_clean front last
  have read := fromPtr_toBytesWithNul clean
  refine ⟨some ⟨text front ++ last.bytes, clean⟩, ⟨front ++ [last], place, ?_⟩, ?_⟩
  · simp [chainText, text]
  · rw [told, Option.map_some, read]
    rfl

/-- What a round returns, and what the iterator is left with, lies inside the subvolume. -/
def RoundLocated (fs : Fs) (base : Place) : Iter.Round Place → Prop
  | .finished => True
  | .again later => IterLocated fs base later
  | .returns item later =>
    IterLocated fs base later ∧ ∀ vol, item = .ok vol → Located fs base vol.f vol.path

/-- One round of the iterator stays inside the subvolume. -/
theorem round_located {fs now : Fs} {base : Place} {iter : Iter Place}
    (shrunk : ∀ dir ∈ now.dirs, dir ∈ fs.dirs) (located : IterLocated fs base iter) :
    RoundLocated fs base (Iter.round now.kernel iter) := by
  obtain ⟨flags, stack⟩ := located
  obtain ⟨entries, itsFlags, buffer⟩ := iter
  simp only at flags stack
  subst flags
  have withPath : sweepFlags.contains .getPath = true := by decide
  cases entries with
  | nil => trivial
  | cons ent below =>
    have first := stack ent List.mem_cons_self
    have lower : ∀ other ∈ below, EntLocated fs base other :=
      fun other member => stack other (List.mem_cons_of_mem _ member)
    cases ent with
    | rootVol treeid f =>
      -- The root is replaced by what is listed in it.
      have leads : Leads base none f := ⟨[], by rw [List.append_nil]; exact first, rfl⟩
      have kept := pushRefs_located shrunk leads treeid true
        (if sweepFlags.contains .postOrder then .grey else .preOrd)
        (⟨rfl, lower⟩ : IterLocated fs base ⟨below, sweepFlags, buffer⟩)
      have asked : (if sweepFlags.contains .getPath then some none else none) =
          some ((none : Option UnixPath).map UnixPath.bytes) := if_pos withPath
      rw [← asked] at kept
      exact Iter.round_pushed _ .again
        (fun _ => ⟨kept, fun vol impossible => by cases impossible⟩) kept
    | vol treeid parentId f color path =>
      obtain ⟨chain, leads, chained⟩ := first.leads
      cases color with
      | black => exact ⟨⟨rfl, lower⟩, fun vol same => by cases same; exact first⟩
      | grey =>
        -- The entry stays on the stack, below what is listed in the subvolume.
        have again : ∀ other ∈ Ent.vol treeid parentId f .black path :: below,
            EntLocated fs base other := by
          intro other member
          rcases List.mem_cons.mp member with rfl | behind
          · exact first
          · exact lower other behind
        have kept := pushRefs_located shrunk leads treeid false .grey
          (⟨rfl, again⟩ : IterLocated fs base
            ⟨Ent.vol treeid parentId f .black path :: below, sweepFlags, buffer⟩)
        rw [← chained] at kept
        exact Iter.round_pushed _ .again
          (fun _ => ⟨kept, fun vol impossible => by cases impossible⟩) kept
      | preOrd =>
        have kept := pushRefs_located shrunk leads treeid false .preOrd
          (⟨rfl, lower⟩ : IterLocated fs base ⟨below, sweepFlags, buffer⟩)
        rw [← chained] at kept
        exact Iter.round_pushed _ (.returns (.ok _))
          (fun _ => ⟨kept, fun vol impossible => by cases impossible⟩)
          ⟨kept, fun vol same => by cases same; exact first⟩

/-- The loop has destroyed nothing but what the paths name from the current directory on. -/
structure Strays (fs : Fs) (cwd : Place) (name : Name) (base : Place) (sweep : Sweep)
    (iter : Iter Place) : Prop where
  shrunk : ∀ dir ∈ sweep.world.fs.dirs, dir ∈ fs.dirs
  buffer : sweep.baseSubvol.take (name.bytes.length + 1) = text [name]
  destroyed : ∀ place ∈ sweep.world.destroyed, ∃ names, place = cwd ++ name :: names ∧
    names ≠ [] ∧ ∃ nested ∈ fs.dirs, nested.Subvol ∧ nested.place = base ++ names
  located : IterLocated fs base iter

/-- A round of the loop destroys nothing but what the path names from the current directory on. -/
theorem Strays.round {fs : Fs} {cwd : Place} {name : Name} {base : Place} {sweep : Sweep}
    {iter later : Iter Place} {item : Except IoError (SubvolItem Place)}
    (strays : Strays fs cwd name base sweep iter)
    (found : Iter.round sweep.world.fs.kernel iter = .returns item later) :
    Strays fs cwd name base (sweep.round cwd (name.bytes.length + 1) item) later := by
  obtain ⟨shrunk, buffer, destroyed, located⟩ := strays
  have rounded := round_located shrunk located
  rw [found] at rounded
  obtain ⟨rest, items⟩ := rounded
  cases panicked : sweep.panicked with
  | some failure =>
    -- A loop that has panicked does nothing any more.
    have same : sweep.round cwd (name.bytes.length + 1) item = sweep :=
      if_pos (by rw [panicked]; rfl)
    rw [same]
    exact ⟨shrunk, buffer, destroyed, rest⟩
  | none =>
    cases item with
    | error error =>
      have same : sweep.round cwd (name.bytes.length + 1) (.error error) =
          { sweep with errors := sweep.errors ++ [(none, error)] } :=
        if_neg (by rw [panicked]; exact Bool.false_ne_true)
      rw [same]
      exact ⟨shrunk, buffer, destroyed, rest⟩
    | ok vol =>
      obtain ⟨front, last, place, path, nested, present, nestedSubvol, there⟩ := items vol rfl
      have read := fromPtr_toBytesWithNul (Fs.path_clean front last)
      obtain ⟨start, middle, split, whole, begins⟩ := buffer_names buffer front last
      -- The names that the path is made of are those from the subvolume on.
      have only := destroy_only sweep.world cwd start middle last
      rw [← split] at only
      have kept : ∀ world, (world = sweep.world ∨ world =
          ⟨sweep.world.fs.without [cwd ++ (name :: front ++ [last])],
            sweep.world.destroyed ++ [cwd ++ (name :: front ++ [last])]⟩) →
          (∀ dir ∈ world.fs.dirs, dir ∈ fs.dirs) ∧
            ∀ place ∈ world.destroyed, ∃ names, place = cwd ++ name :: names ∧ names ≠ [] ∧
              ∃ nested ∈ fs.dirs, nested.Subvol ∧ nested.place = base ++ names := by
        rintro world (rfl | rfl)
        · exact ⟨shrunk, destroyed⟩
        · refine ⟨fun dir member => shrunk dir (Fs.mem_without.mp member).1, ?_⟩
          intro gone member
          rcases List.mem_append.mp member with before | now
          · exact destroyed gone before
          · refine ⟨front ++ [last], List.mem_singleton.mp now, by simp, nested, present,
              nestedSubvol, ?_⟩
            rw [there, place]
      have told : vol.pathText = .ok (text front ++ last.bytes) := by
        simp only [SubvolItem.pathText, path, read]
      rw [Sweep.round_destroys panicked told, whole]
      rw [split] at kept only
      obtain ⟨still, log⟩ := kept _ only
      cases result : destroy sweep.world cwd (text (start ++ [middle]) ++ last.bytes) with
      | mk outcome world =>
        rw [result] at still log
        cases outcome with
        | ok _ => exact ⟨still, begins, log, rest⟩
        | error error => exact ⟨still, begins, log, rest⟩

/-- Behind its loop `destroy_all` destroys nothing but the subvolume itself. -/
theorem Fd.finish_destroyed (dir : Place) (name : Name) (sweep : Sweep) :
    ∀ place ∈ (Fd.finish dir name.bytes sweep).2.world.destroyed,
      place ∈ sweep.world.destroyed ∨ place = dir ++ [name] := by
  -- Only the last ioctl changes the log, and it names the subvolume itself.
  intro place member
  cases panicked : sweep.panicked with
  | some failure =>
    have same : Fd.finish dir name.bytes sweep = (.error failure, sweep) := by
      simp only [Fd.finish, Fd.finishWith, panicked]
    rw [same] at member
    exact Or.inl member
  | none =>
    have only := Fd.destroy_only sweep.world dir name
    rw [Fd.finish_destroys panicked] at member
    have inside : place ∈ (Fd.destroy sweep.world dir name.bytes).2.destroyed := by
      split at member
      · rename_i world result
        rw [result]
        exact member
      · rename_i error world result
        rw [result]
        exact member
    rcases only with same | gone
    · rw [same] at inside
      exact Or.inl inside
    · rw [gone] at inside
      rcases List.mem_append.mp inside with before | now
      · exact Or.inl before
      · exact Or.inr (List.mem_singleton.mp now)

section Whole

variable {fs : Fs} {cwd dir : Place} {name : Name} {base : Dir} (member : base ∈ fs.dirs)
  (rooted : base.Subvol) (there : base.place = dir ++ [name])

include member rooted there

/-- What `destroy_all` has destroyed is the subvolume, or named from the current directory on. -/
theorem destroyAll_strays {fuel : Nat} {outcome : Outcome Unit} {sweep : Sweep}
    (done : Fd.destroyAll cwd ⟨fs, []⟩ dir name.bytes fuel = some (outcome, sweep)) :
    ∀ place ∈ sweep.world.destroyed, place = base.place ∨
      ∃ names, place = cwd ++ name :: names ∧ names ≠ [] ∧
        ∃ nested ∈ fs.dirs, nested.Subvol ∧ nested.place = base.place ++ names := by
  rw [Fd.destroyAll_loop member rooted there] at done
  obtain ⟨after, looped, finished⟩ := Option.map_eq_some_iff.mp done
  -- Every round of the loop keeps to this.
  have start : Strays fs cwd name base.place (Sweep.start fs name)
      ⟨[.rootVol base.treeid base.place], sweepFlags, []⟩ := by
    refine ⟨fun dir present => present, (Swept.start fs name).buffer, ?_, rfl, ?_⟩
    · intro place impossible
      cases impossible
    · intro ent only
      rw [List.mem_singleton.mp only]
      rfl
  obtain ⟨_, strays⟩ := (drains_of_forEach looped).keeps
    (fun now iter later kept goes => by
      have rounded := round_located kept.shrunk kept.located
      rw [goes] at rounded
      exact ⟨kept.shrunk, kept.buffer, kept.destroyed, rounded⟩)
    (fun now iter later item kept found => kept.round found) start
  intro place gone
  have origin := Fd.finish_destroyed dir name after place
  rw [finished] at origin
  rcases origin gone with before | itself
  · exact Or.inr (strays.destroyed place before)
  · rw [there]
    exact Or.inl itself

/-- With subvolumes inside, it is only from the directory itself that all of them are destroyed. -/
theorem destroysAll_only_here (destroys : DestroysAll fs cwd dir name) {nested : Dir}
    (present : nested ∈ fs.dirs) (nestedSubvol : nested.Subvol)
    (inside : base.place <+: nested.place) (different : nested.place ≠ base.place) :
    cwd = dir := by
  -- All that is inside is destroyed by paths, so each of these lies where another one does.
  obtain ⟨enough, done⟩ := destroys
  obtain ⟨sweep, result, _, exactly, _⟩ := done enough (Nat.le_refl _)
  rw [← there] at exactly
  have strays := destroyAll_strays member rooted there result
  obtain ⟨start, whole⟩ := inside
  obtain ⟨bound, short⟩ := fs.bounded
  refine @same_front Name cwd dir name
    (fun names => names ≠ [] ∧ ∃ nested ∈ fs.dirs, nested.Subvol ∧ nested.place = base.place ++ names)
    bound ?_ start ⟨?_, nested, present, nestedSubvol, whole.symm⟩ ?_
  · rintro names ⟨_, other, found, _, place⟩
    have length := short other found
    rw [place, List.length_append] at length
    omega
  · rintro rfl
    exact different (by rw [← whole, List.append_nil])
  · -- Each of them has been destroyed, and is thus named from the current directory on.
    rintro names ⟨further, other, found, otherSubvol, place⟩
    have gone := (exactly other.place).mpr
      ⟨⟨other, found, otherSubvol, rfl⟩, by rw [place]; exact List.prefix_append _ _⟩
    rcases strays other.place gone with itself | ⟨names', same, nonempty, origin⟩
    · rw [place] at itself
      exact absurd (List.append_right_eq_self.mp itself) further
    · refine ⟨names', ⟨nonempty, origin⟩, ?_⟩
      rw [← same, place, there]
      simp

end Whole

/--
`destroy_all` destroys a subtree from the current directory, or where nothing is inside the subvolume.

It finds what is inside by its paths from the subvolume on, and destroys it by the name of the
subvolume and these paths. Such a path leads there from the directory that the subvolume is in,
which is open, but it is followed from the current one.
-/
theorem destroyAll_iff (fs : Fs) (cwd dir : Place) (name : Name) (base : Dir)
    (member : base ∈ fs.dirs) (rooted : base.Subvol) (there : base.place = dir ++ [name])
    (few : ∀ nested ∈ fs.dirs, nested.Subvol → base.place <+: nested.place →
      (fs.children nested.treeid).length ≤ 255) :
    DestroysAll fs cwd dir name ↔
      cwd = dir ∨ ∀ nested ∈ fs.dirs, nested.Subvol → base.place <+: nested.place →
        nested.place = base.place := by
  -- Nothing inside leaves nothing to miss, and anything inside tells the two directories apart.
  constructor
  · intro destroys
    refine Classical.or_iff_not_imp_left.mpr fun elsewhere nested present nestedSubvol inside => ?_
    by_contra different
    exact elsewhere (destroysAll_only_here member rooted there destroys present nestedSubvol inside
      different)
  · rintro (here | alone)
    · exact destroysAll_here member rooted there here few
    · exact destroysAll_leaf member rooted there alone

/-- The name `a`. -/
def nameA : Name := ⟨[97], by decide⟩

/-- The name `b`. -/
def nameB : Name := ⟨[98], by decide⟩

/-- The name `x`. -/
def nameX : Name := ⟨[120], by decide⟩

/-- The subvolume `a` of `twinFs`, with the subvolume `b` inside it. -/
def twinBase : Dir := ⟨[nameA], 256, 256, 5, 256⟩

/-- A filesystem with the subvolumes `a`, `a/b`, `x/a` and `x/a/b`, where `x` is a directory. -/
def twinFs : Fs where
  dirs := [⟨[], 5, 256, 0, 0⟩, twinBase, ⟨[nameA, nameB], 257, 256, 256, 256⟩,
    ⟨[nameX], 5, 257, 5, 256⟩, ⟨[nameX, nameA], 258, 256, 5, 257⟩,
    ⟨[nameX, nameA, nameB], 259, 256, 258, 256⟩]
  distinct := by decide
  parents := by decide
  inside := by decide
  trees := by decide

/-- From the directory that `a` lies in, `a` and `a/b` are destroyed. -/
theorem destroyAll_iff_twin : DestroysAll twinFs [] [] nameA :=
  (destroyAll_iff twinFs [] [] nameA twinBase (by decide) (by decide) rfl (by decide)).mpr
    (Or.inl rfl)

/-- From the directory `x`, the subvolume `x/a/b` is destroyed instead of `a/b`, and `a` is not. -/
theorem destroyAll_twin_strays :
    twinBase ∈ twinFs.dirs ∧ twinBase.Subvol ∧ twinBase.place = [] ++ [nameA] ∧
      (∀ nested ∈ twinFs.dirs, nested.Subvol → twinBase.place <+: nested.place →
        (twinFs.children nested.treeid).length ≤ 255) ∧
      (∀ fuel, 12 ≤ fuel → (Fd.destroyAll [nameX] ⟨twinFs, []⟩ [] nameA.bytes fuel).map
          (fun result => (result.1, result.2.world.destroyed)) =
        some (.error (.io (.os enotempty)), [[nameX, nameA, nameB]])) ∧
      ¬ DestroysAll twinFs [nameX] [] nameA := by
  -- What happens with some fuel is evaluated, and happens with any more of it.
  have member : twinBase ∈ twinFs.dirs := by decide
  have rooted : twinBase.Subvol := by decide
  have once : (Fd.destroyAll [nameX] ⟨twinFs, []⟩ [] nameA.bytes 12).map
      (fun result => (result.1, result.2.world.destroyed)) =
        some (.error (.io (.os enotempty)), [[nameX, nameA, nameB]]) := by rfl
  obtain ⟨result, done, shown⟩ := Option.map_eq_some_iff.mp once
  have always : ∀ fuel, 12 ≤ fuel →
      Fd.destroyAll [nameX] ⟨twinFs, []⟩ [] nameA.bytes fuel = some result :=
    fun fuel more => Fd.destroyAll_mono member rooted rfl more done
  refine ⟨member, rooted, rfl, by decide, ?_, ?_⟩
  · intro fuel more
    rw [always fuel more, Option.map_some, shown]
  · rintro ⟨enough, succeeds⟩
    obtain ⟨sweep, succeeded, _⟩ := succeeds (max enough 12) (Nat.le_max_left _ _)
    rw [always _ (Nat.le_max_right _ _)] at succeeded
    cases succeeded
    cases shown

end Subvol

end Libbtrfs
