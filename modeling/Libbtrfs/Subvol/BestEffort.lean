import Libbtrfs.Subvol.DestroyElsewhere
import Libbtrfs.Subvol.Handling

/-! `destroy_all` where the kernel refuses some of its calls: what stays has been reported. -/

namespace Libbtrfs

/-- The error numbers with which the kernel refuses to destroy subvolumes that it could destroy. -/
abbrev Refusals := Dir → Option Nat

/-- `BTRFS_IOC_SNAP_DESTROY_V2` where subvolumes may be refused, whatever is inside them. -/
def Fs.snapDestroyUnless (fs : Fs) (refuses : Refusals) (dir : Place) (name : Bytes) :
    Except IoError Place :=
  if named : Named name then
    match fs.at? (dir ++ [⟨name, named⟩]) with
    | none => .error (.os enoent)
    | some subvol =>
      if ¬ subvol.Subvol then .error (.os einval)
      else
        match refuses subvol with
        | some code => .error (.os code)
        | none =>
          if fs.children subvol.treeid ≠ [] then .error (.os enotempty) else .ok subvol.place
  else .error (.os einval)

/-- The ioctl takes the subvolume away with the directories in it, if it does not refuse. -/
def World.snapDestroyUnless (refuses : Refusals) (world : World) (dir : Place) (name : Bytes) :
    Except IoError Unit × World :=
  match world.fs.snapDestroyUnless refuses dir name with
  | .error error => (.error error, world)
  | .ok place => (.ok (), ⟨world.fs.without [place], world.destroyed ++ [place]⟩)

/-- Without refusals it is the ioctl that destroys all that is empty. -/
theorem World.snapDestroyUnless_never :
    World.snapDestroyUnless (fun _ => none) = World.snapDestroy := by
  funext world dir name
  -- Nothing comes between the check for a subvolume and the check for what is inside it.
  rfl

/-- The kernel refuses to destroy something at the place or inside it. -/
def Fs.Held (fs : Fs) (refuses : Refusals) (place : Place) : Prop :=
  ∃ nested ∈ fs.dirs, nested.Subvol ∧ place <+: nested.place ∧ (refuses nested).isSome

instance (fs : Fs) (refuses : Refusals) (place : Place) : Decidable (fs.Held refuses place) :=
  inferInstanceAs (Decidable (∃ nested ∈ fs.dirs, _))

/-- Why what is at a place is not destroyed: it is refused itself, or only something inside it. -/
def Fs.refusal (fs : Fs) (refuses : Refusals) (place : Place) : IoError :=
  match (fs.at? place).bind refuses with
  | some code => if code = enotty then .kind .unsupported else .os code
  | none => .os enotempty

/-- What holds something holds all that it is inside of. -/
theorem Fs.Held.above {fs : Fs} {refuses : Refusals} {place front : Place}
    (held : fs.Held refuses place) (above : front <+: place) : fs.Held refuses front := by
  -- What is refused there is inside of both.
  obtain ⟨nested, member, isSubvol, inside, refused⟩ := held
  exact ⟨nested, member, isSubvol, above.trans inside, refused⟩

section Refusing

variable {fs : Fs} {refuses : Refusals} {gone : List Place} {nested : Dir}

/-- A subvolume that is held, but is not refused itself, still has something inside it. -/
theorem Fs.children_held (member : nested ∈ fs.dirs) (isSubvol : nested.Subvol)
    (held : fs.Held refuses nested.place) (open_to : refuses nested = none)
    (spared : ∀ place ∈ gone, ¬ fs.Held refuses place) :
    (fs.without gone).children nested.treeid ≠ [] := by
  -- What is refused lies at or below something that is listed in the subvolume.
  obtain ⟨other, there, otherSubvol, inside, refused⟩ := held
  have different : nested.place ≠ other.place := by
    intro same
    rw [← List.inj_on_of_nodup_map fs.distinct member there same, open_to] at refused
    cases refused
  obtain ⟨child, listed, front⟩ :=
    Fs.nested_child member isSubvol there otherSubvol inside different
  obtain ⟨present, childSubvol, inner, parentId⟩ := Fs.mem_children.mp listed
  -- So it is held as well, and nothing at or above it has been destroyed.
  have still : child ∈ (fs.without gone).dirs := by
    refine Fs.mem_without.mpr ⟨present, fun place removed above => spared place removed ?_⟩
    exact ⟨other, there, otherSubvol, above.trans front, refused⟩
  exact List.ne_nil_of_mem (Fs.mem_children.mpr ⟨still, childSubvol, inner, parentId⟩)

namespace Subvol

/-- Without what is inside it, a subvolume is destroyed unless it is held. -/
theorem Fd.destroyWith_at {world : World} (here : world.fs = fs.without gone) {dir : Place}
    {name : Name} (member : nested ∈ (fs.without gone).dirs) (isSubvol : nested.Subvol)
    (there : nested.place = dir ++ [name]) (spared : ∀ place ∈ gone, ¬ fs.Held refuses place)
    (behind : ∀ child ∈ fs.children nested.treeid,
      child.place ∈ gone ∨ fs.Held refuses child.place) :
    Fd.destroyWith (World.snapDestroyUnless refuses) world dir name.bytes =
      if fs.Held refuses nested.place then (.error (fs.refusal refuses nested.place), world)
      else (.ok (), ⟨world.fs.without [nested.place], world.destroyed ++ [nested.place]⟩) := by
  obtain ⟨present, _⟩ := Fs.mem_without.mp member
  have found : world.fs.at? (dir ++ [name]) = some nested := by
    rw [here]
    exact Fs.at?_eq_some.mpr ⟨member, there⟩
  have before : fs.at? nested.place = some nested := Fs.at?_eq_some.mpr ⟨present, rfl⟩
  have called : world.fs.snapDestroyUnless refuses dir name.bytes =
      match refuses nested with
      | some code => .error (.os code)
      | none =>
        if world.fs.children nested.treeid ≠ [] then .error (.os enotempty)
        else .ok nested.place := by
    rw [Fs.snapDestroyUnless]
    simp only [dif_pos name.named, found, isSubvol, not_true_eq_false, if_false]
  simp only [Fd.destroyWith, namedIoctl, setVolName_name, World.snapDestroyUnless, called]
  cases refused : refuses nested with
  | some code =>
    -- A refusal holds the subvolume that it is about.
    have held : fs.Held refuses nested.place :=
      ⟨nested, present, isSubvol, List.prefix_refl _, by rw [refused]; rfl⟩
    rw [if_pos held, Fs.refusal, before]
    simp only [btrfsIoctl, Option.bind_some, refused]
    split
    · rfl
    · rfl
  | none =>
    by_cases held : fs.Held refuses nested.place
    · have inside := Fs.children_held present isSubvol held refused spared
      rw [← here] at inside
      rw [if_pos held, Fs.refusal, before]
      simp only [Option.bind_some, refused, if_pos inside, btrfsIoctl]
      rfl
    · -- Nothing inside is held, so all of it has been destroyed.
      have none_left : (fs.without gone).children nested.treeid = [] := by
        refine Fs.childless_without fun child listed => ?_
        have front := (Fs.child_below present isSubvol listed).trans (List.dropLast_prefix _)
        exact (behind child listed).resolve_right fun inner => held (inner.above front)
      rw [← here] at none_left
      rw [if_neg held, if_neg (by simp [none_left])]
      rfl

/-- By a path of names as well, it is destroyed unless it is held. -/
theorem destroyWith_at {world : World} (here : world.fs = fs.without gone) {cwd : Place}
    {front : List Name} {middle last : Name} (member : nested ∈ (fs.without gone).dirs)
    (isSubvol : nested.Subvol) (there : nested.place = cwd ++ (front ++ [middle] ++ [last]))
    (spared : ∀ place ∈ gone, ¬ fs.Held refuses place)
    (behind : ∀ child ∈ fs.children nested.treeid,
      child.place ∈ gone ∨ fs.Held refuses child.place)
    (short : (text front ++ middle.bytes).length < pathMax) :
    destroyWith (fun world => world.fs.limited.openat) (World.snapDestroyUnless refuses) world cwd
        (text (front ++ [middle]) ++ last.bytes) =
      if fs.Held refuses nested.place then (.error (fs.refusal refuses nested.place), world)
      else (.ok (), ⟨world.fs.without [nested.place], world.destroyed ++ [nested.place]⟩) := by
  rw [← List.append_assoc] at there
  -- The directory that it is in is on the way to it.
  obtain ⟨parent, found, place⟩ := Fs.on_the_way member
    (there ▸ List.prefix_append _ _ : cwd ++ (front ++ [middle]) <+: nested.place)
  have opened : openParentWith world.fs.limited.openat cwd (text (front ++ [middle]) ++ last.bytes) =
      .ok (parent.place, last.bytes) := by
    rw [openParentWith, parseParentAndName_names]
    simp only [Fs.limited, if_pos short, if_neg (Fs.path_clean front middle), Fs.openat_names, here,
      Fs.walk_there found place]
  rw [destroyWith, opened]
  simp only
  rw [place]
  exact Fd.destroyWith_at here member isSubvol there spared behind

end Subvol

end Refusing

namespace Subvol

/-- What the loop has destroyed of the places that it has seen. -/
def freed (fs : Fs) (refuses : Refusals) (seen : List Place) : List Place :=
  seen.filter fun place => ¬ fs.Held refuses place

/-- What the loop has not been able to destroy of the places that it has seen. -/
def stuck (fs : Fs) (refuses : Refusals) (seen : List Place) : List Place :=
  seen.filter fun place => fs.Held refuses place

/-- What `on_error` is told about what stays at a place: its path from the directory on, and why. -/
def report (fs : Fs) (refuses : Refusals) (dir place : Place) : Option Bytes × IoError :=
  (some (namesPath (place.drop dir.length)), fs.refusal refuses place)

/-- The loop has seen some places, has destroyed what is free of them, and has reported the rest. -/
structure Tried (fs : Fs) (refuses : Refusals) (dir : Place) (name : Name) (seen : List Place)
    (sweep : Sweep) : Prop where
  world : sweep.world = ⟨fs.without (freed fs refuses seen), freed fs refuses seen⟩
  buffer : sweep.baseSubvol.take (name.bytes.length + 1) = text [name]
  errors : sweep.errors = (stuck fs refuses seen).map (report fs refuses dir)
  unharmed : sweep.panicked = none

section Trying

variable {fs : Fs} {refuses : Refusals} {dir : Place} {name : Name} {seen : List Place}
  {sweep : Sweep}

/-- What has been destroyed was not held. -/
theorem freed_spared : ∀ place ∈ freed fs refuses seen, ¬ fs.Held refuses place := by
  -- It is filtered by just that.
  intro place removed
  simpa using (List.mem_filter.mp removed).2

/-- What has been seen is destroyed or held. -/
theorem freed_or_held {place : Place} (before : place ∈ seen) :
    place ∈ freed fs refuses seen ∨ fs.Held refuses place := by
  -- The one who is not held passes the filter.
  by_cases held : fs.Held refuses place
  · exact Or.inr held
  · exact Or.inl (List.mem_filter.mpr ⟨before, by simpa using held⟩)

/-- Nothing that has been destroyed is new to those who have seen the places. -/
theorem freed_seen {place : Place} (removed : place ∈ freed fs refuses seen) : place ∈ seen :=
  List.mem_of_mem_filter removed

/-- Before the first subvolume nothing was tried. -/
theorem Tried.start (fs : Fs) (refuses : Refusals) (dir : Place) (name : Name) :
    Tried fs refuses dir name [] (Sweep.start fs name) := by
  -- In front of the loop the buffer is that of the loop that is never refused anything.
  refine ⟨?_, (Swept.start fs name).buffer, rfl, rfl⟩
  rw [Sweep.start, freed, List.filter_nil, Fs.without_nil]

/-- A round of the loop destroys the subvolume of its path, or reports it. -/
theorem Tried.round (tried : Tried fs refuses dir name seen sweep) {nested : Dir}
    (member : nested ∈ fs.dirs) (isSubvol : nested.Subvol) {front : List Name} {last : Name}
    (there : nested.place = (dir ++ [name]) ++ (front ++ [last])) {item : SubvolItem Place}
    (path : item.pathText = .ok (text front ++ last.bytes))
    (kept : ∀ place ∈ seen, ¬ place <+: nested.place)
    (behind : ∀ child ∈ fs.children nested.treeid, child.place ∈ seen)
    (short : (namesPath (nested.place.dropLast.drop dir.length)).length < pathMax) :
    Tried fs refuses dir name (seen ++ [nested.place])
      (sweep.roundWith Fs.limited (World.snapDestroyUnless refuses) dir (name.bytes.length + 1)
        (.ok item)) := by
  obtain ⟨world, buffer, errors, unharmed⟩ := tried
  obtain ⟨start, middle, split, whole, begins⟩ := buffer_names buffer front last
  have present : nested ∈ (fs.without (freed fs refuses seen)).dirs :=
    Fs.mem_without.mpr ⟨member, fun place removed => kept place (freed_seen removed)⟩
  have named : nested.place = dir ++ (start ++ [middle] ++ [last]) := by
    rw [there, ← split]
    simp
  have here : sweep.world.fs = fs.without (freed fs refuses seen) := by rw [world]
  -- The path names the subvolume from the current directory on.
  have told : report fs refuses dir nested.place =
      (some (text (start ++ [middle]) ++ last.bytes), fs.refusal refuses nested.place) := by
    rw [report]
    conv_lhs => rw [named, List.drop_left, namesPath_append]
    rw [← named]
  have room : (text start ++ middle.bytes).length < pathMax := by
    rw [named, ← List.append_assoc, List.dropLast_concat, List.drop_left, namesPath_append] at short
    exact short
  have done := destroyWith_at here present isSubvol named freed_spared
    (fun child listed => freed_or_held (behind child listed)) room
  rw [Sweep.roundWith_destroys unharmed path, whole, done]
  by_cases held : fs.Held refuses nested.place
  · simp only [if_pos held, Sweep.record]
    refine ⟨?_, begins, ?_, unharmed⟩
    · rw [world, freed, freed, List.filter_append]
      simp [held]
    · rw [errors, stuck, stuck, List.filter_append, List.map_append]
      simp [held, told]
  · simp only [if_neg held, Sweep.record]
    refine ⟨?_, begins, ?_, unharmed⟩
    · rw [world, freed, freed, List.filter_append]
      simp [held, Fs.without_without]
    · rw [errors, stuck, stuck, List.filter_append]
      simp [held]

/-- The loop of `destroy_all` handles the subvolumes inside another one, with any refusals. -/
theorem tried_handles (fs : Fs) (refuses : Refusals) (dir : Place) (name : Name)
    (roomy : ∀ nested ∈ fs.dirs, nested.Subvol → dir ++ [name] <+: nested.place → fs.Roomy nested)
    (short : ∀ nested ∈ fs.dirs, nested.Subvol → dir ++ [name] <+: nested.place →
      (namesPath (nested.place.dropLast.drop dir.length)).length < pathMax) :
    Handles fs (dir ++ [name]) (fun sweep : Sweep => sweep.world.fs.limited)
      (Sweep.roundWith Fs.limited (World.snapDestroyUnless refuses) dir (name.bytes.length + 1))
      (Tried fs refuses dir name) := by
  constructor
  · intro seen sweep subvol tried member isSubvol below apart
    have present : subvol ∈ (fs.without (freed fs refuses seen)).dirs :=
      Fs.mem_without.mpr ⟨member, fun place removed => (apart place (freed_seen removed)).1⟩
    -- What is inside it lies apart from what is gone too, so it is listed as before.
    have same : (fs.without (freed fs refuses seen)).children subvol.treeid =
        fs.children subvol.treeid := by
      refine Fs.children_without fun child listed place removed => ?_
      have front := (Fs.child_below member isSubvol listed).trans (List.dropLast_prefix _)
      exact ((apart place (freed_seen removed)).continued front).1
    rw [tried.world]
    exact (roomy subvol member isSubvol below).answers present isSubvol same
  · intro seen sweep nested front last item tried member isSubvol there path kept behind
    have below : dir ++ [name] <+: nested.place := there ▸ List.prefix_append _ _
    exact tried.round member isSubvol there path kept behind (short nested member isSubvol below)

end Trying

/--
What `destroy_all` comes to where the kernel refuses: all that is not held is destroyed, from the
inside, and all that is held stays and is reported, once and by its path.
-/
structure BestEffort (fs : Fs) (refuses : Refusals) (dir : Place) (name : Name)
    (result : Outcome Unit) (sweep : Sweep) : Prop where
  destroyed : ∀ place, place ∈ sweep.world.destroyed ↔
    (∃ subvol ∈ fs.dirs, subvol.Subvol ∧ subvol.place = place) ∧ dir ++ [name] <+: place ∧
      ¬ fs.Held refuses place
  inside_first : sweep.world.destroyed.Pairwise fun earlier later => ¬ earlier <+: later
  left : ∀ other, other ∈ sweep.world.fs.dirs ↔
    other ∈ fs.dirs ∧ ∀ place ∈ sweep.world.destroyed, ¬ place <+: other.place
  reported : ∃ kept : List Place, sweep.errors = kept.map (report fs refuses dir) ∧
    (kept.Pairwise fun earlier later => ¬ earlier <+: later) ∧
    ∀ place, place ∈ kept ↔
      (∃ subvol ∈ fs.dirs, subvol.Subvol ∧ subvol.place = place) ∧ dir ++ [name] <+: place ∧
        dir ++ [name] ≠ place ∧ fs.Held refuses place
  returns : result =
    if fs.Held refuses (dir ++ [name]) then .error (.io (fs.refusal refuses (dir ++ [name])))
    else .ok ()

section Whole

variable {fs : Fs} {refuses : Refusals} {dir : Place} {name : Name} {base : Dir}
  (member : base ∈ fs.dirs) (rooted : base.Subvol) (there : base.place = dir ++ [name])

include member rooted there

/-- With limited room for paths `destroy_all` comes to its loop, too. -/
theorem Fd.destroyAllWith_limited (ioctl : World → Place → Bytes → Except IoError Unit × World)
    (cwd : Place) (fuel : Nat) :
    Fd.destroyAllWith Fs.limited ioctl cwd ⟨fs, []⟩ dir name.bytes fuel =
      (forEach (fun sweep : Sweep => sweep.world.fs.limited)
        (Sweep.roundWith Fs.limited ioctl cwd (name.bytes.length + 1)) fuel (Sweep.start fs name)
        ⟨[.rootVol base.treeid base.place], sweepFlags, []⟩).map
          (Fd.finishWith ioctl dir name.bytes) := by
  -- A name is never too long to be opened.
  have short : name.bytes.length < pathMax := name.named.2.2.2.2.2.trans_lt (by decide)
  exact Fd.destroyAllWith_loop member rooted ioctl
    ((if_pos short).trans (openat_base member there)) (fun _ _ => rfl) fuel

/-- Behind the loop the subvolume itself is destroyed, unless it is held. -/
theorem Fd.finishWith_tried {seen : List Place} {sweep : Sweep}
    (tried : Tried fs refuses dir name seen sweep)
    (inside : ∀ place, place ∈ seen ↔
      (∃ nested ∈ fs.dirs, nested.Subvol ∧ nested.place = place) ∧
        base.place <+: place ∧ base.place ≠ place) :
    Fd.finishWith (World.snapDestroyUnless refuses) dir name.bytes sweep =
      if fs.Held refuses base.place then
        (.error (.io (fs.refusal refuses base.place)), sweep)
      else
        (.ok (), { sweep with
          world := ⟨fs.without (freed fs refuses seen ++ [base.place]),
            freed fs refuses seen ++ [base.place]⟩ }) := by
  have present : base ∈ (fs.without (freed fs refuses seen)).dirs := by
    refine Fs.mem_without.mpr ⟨member, fun place removed below => ?_⟩
    obtain ⟨_, above, different⟩ := (inside place).mp (freed_seen removed)
    exact different (above.eq_of_length_le below.length_le)
  -- The loop has seen all that is listed in it.
  have behind : ∀ child ∈ fs.children base.treeid,
      child.place ∈ freed fs refuses seen ∨ fs.Held refuses child.place := by
    intro child listed
    obtain ⟨found, childSubvol, _⟩ := Fs.mem_children.mp listed
    have deeper := Fs.child_deeper member rooted listed
    refine freed_or_held ((inside child.place).mpr ⟨⟨child, found, childSubvol, rfl⟩,
      (Fs.child_below member rooted listed).trans (List.dropLast_prefix _), ?_⟩)
    intro same
    rw [same] at deeper
    omega
  obtain ⟨world, buffer, errors, panicked⟩ := sweep
  obtain rfl : panicked = none := tried.unharmed
  obtain rfl : world = _ := tried.world
  have last := @Fd.destroyWith_at fs refuses _ base
    ⟨fs.without (freed fs refuses seen), freed fs refuses seen⟩ rfl dir name present rooted there
    freed_spared behind
  simp only [Fd.finishWith, last]
  by_cases held : fs.Held refuses base.place
  · simp only [if_pos held]
  · simp only [if_neg held, Fs.without_without]

section Tree

variable {depth : Nat} (deep : fs.Deep depth base) {after : Sweep}
  (tried : Tried fs refuses dir name (fs.places depth base) after)

include deep

/-- Of what is inside the subvolume, the loop destroys all that is not held. -/
theorem mem_freed_places (place : Place) :
    place ∈ freed fs refuses (fs.places depth base) ↔
      ((∃ nested ∈ fs.dirs, nested.Subvol ∧ nested.place = place) ∧
        dir ++ [name] <+: place ∧ dir ++ [name] ≠ place) ∧ ¬ fs.Held refuses place := by
  -- The loop sees all that is inside the subvolume, and nothing else.
  rw [freed, List.mem_filter, Fs.mem_places deep member rooted, there, decide_eq_true_eq]

include tried

/-- All that is held inside the subvolume is reported, what is inside it first. -/
theorem Tried.reported :
    ∃ kept : List Place, after.errors = kept.map (report fs refuses dir) ∧
      (kept.Pairwise fun earlier later => ¬ earlier <+: later) ∧
      ∀ place, place ∈ kept ↔
        (∃ subvol ∈ fs.dirs, subvol.Subvol ∧ subvol.place = place) ∧ dir ++ [name] <+: place ∧
          dir ++ [name] ≠ place ∧ fs.Held refuses place := by
  -- The loop sees a subvolume behind those inside it.
  refine ⟨stuck fs refuses (fs.places depth base), tried.errors,
    (Fs.places_order deep member rooted).filter _, fun place => ?_⟩
  rw [stuck, List.mem_filter, Fs.mem_places deep member rooted, there, decide_eq_true_eq, and_assoc,
    and_assoc]

/-- A subvolume that is held stays, with what it is held by. -/
theorem bestEffort_held (held : fs.Held refuses (dir ++ [name])) :
    BestEffort fs refuses dir name (.error (.io (fs.refusal refuses (dir ++ [name])))) after := by
  refine ⟨fun place => ?_, ?_, fun other => ?_, tried.reported member rooted there deep,
    (if_pos held).symm⟩
  · rw [tried.world, mem_freed_places member rooted there deep]
    -- The subvolume itself is not destroyed, as it is held.
    constructor
    · rintro ⟨⟨exists_there, above, _⟩, free⟩
      exact ⟨exists_there, above, free⟩
    · rintro ⟨exists_there, above, free⟩
      refine ⟨⟨exists_there, above, fun same => free ?_⟩, free⟩
      rwa [← same]
  · rw [tried.world]
    exact (Fs.places_order deep member rooted).filter _
  · rw [tried.world]
    exact Fs.mem_without

/-- A subvolume that is not held is destroyed behind all that is inside it. -/
theorem bestEffort_free (free_base : ¬ fs.Held refuses (dir ++ [name])) :
    BestEffort fs refuses dir name (.ok ()) { after with
      world := ⟨fs.without (freed fs refuses (fs.places depth base) ++ [base.place]),
        freed fs refuses (fs.places depth base) ++ [base.place]⟩ } := by
  have freed_iff := @mem_freed_places fs refuses dir name base member rooted there depth deep
  refine ⟨fun place => ?_, ?_, fun other => Fs.mem_without, tried.reported member rooted there deep,
    (if_neg free_base).symm⟩
  · simp only
    rw [List.mem_append, freed_iff, List.mem_singleton, there]
    constructor
    · rintro (⟨⟨exists_there, above, _⟩, free⟩ | rfl)
      · exact ⟨exists_there, above, free⟩
      · exact ⟨⟨base, member, rooted, there⟩, List.prefix_refl _, free_base⟩
    · rintro ⟨exists_there, above, free⟩
      by_cases same : dir ++ [name] = place
      · exact Or.inr same.symm
      · exact Or.inl ⟨⟨exists_there, above, same⟩, free⟩
  · simp only
    rw [List.pairwise_append]
    refine ⟨(Fs.places_order deep member rooted).filter _, List.pairwise_singleton _ _, ?_⟩
    -- What is inside the subvolume does not have it inside.
    intro earlier removed later here above
    rw [List.mem_singleton.mp here, there] at above
    obtain ⟨⟨_, front, different⟩, _⟩ := (freed_iff earlier).mp removed
    exact different (front.eq_of_length_le above.length_le)

end Tree

/--
Whatever the kernel refuses, `destroy_all` destroys all of a subtree that is not held by a refusal,
reports the subvolumes that stay, and fails with the reason why the subvolume itself stays, if it
does.
-/
theorem destroyAll_best_effort
    (roomy : ∀ nested ∈ fs.dirs, nested.Subvol → base.place <+: nested.place → fs.Roomy nested)
    (short : ∀ nested ∈ fs.dirs, nested.Subvol → base.place <+: nested.place →
      (namesPath (nested.place.dropLast.drop dir.length)).length < pathMax) :
    ∃ enough, ∀ fuel, enough ≤ fuel → ∃ result sweep,
      Fd.destroyAllWith Fs.limited (World.snapDestroyUnless refuses) dir ⟨fs, []⟩ dir name.bytes fuel =
          some (result, sweep) ∧
        BestEffort fs refuses dir name result sweep := by
  -- There are no more levels than names on the way to the deepest directory.
  obtain ⟨depth, bound⟩ := fs.bounded
  have deep : fs.Deep depth base := by
    intro other present
    have short := bound other present
    omega
  obtain ⟨after, drains, tried⟩ := (tried_handles fs refuses dir name (there ▸ roomy)
    (there ▸ short)).drains member rooted there deep (Tried.start fs refuses dir name)
  obtain ⟨enough, done⟩ := drains.forEach
  have finished := Fd.finishWith_tried member rooted there tried
    (fun _ => Fs.mem_places deep member rooted)
  refine ⟨enough, fun fuel more => ⟨_, _, by
    rw [Fd.destroyAllWith_limited member rooted there, done fuel more, Option.map_some, finished], ?_⟩⟩
  by_cases held : fs.Held refuses base.place
  · rw [if_pos held, there]
    rw [there] at held
    exact bestEffort_held member rooted there deep tried held
  · rw [if_neg held]
    rw [there] at held
    exact bestEffort_free member rooted there deep tried held

end Whole

/-- A kernel that does not let go of the subvolume `a/b` of `twinFs`. -/
def twinRefusals : Refusals := fun dir => if dir.treeid = 257 then some 1 else none

/-- From the root of `twinFs`, both `a/b` and `a` stay, and `a/b` has been reported. -/
theorem destroyAll_best_effort_twin :
    ∃ enough, ∀ fuel, enough ≤ fuel → ∃ result sweep,
      Fd.destroyAllWith Fs.limited (World.snapDestroyUnless twinRefusals) [] ⟨twinFs, []⟩ [] nameA.bytes fuel =
          some (result, sweep) ∧
        BestEffort twinFs twinRefusals [] nameA result sweep :=
  @destroyAll_best_effort twinFs twinRefusals [] nameA twinBase (by decide) (by decide) rfl
    (by decide) (by decide)

end Subvol

end Libbtrfs
