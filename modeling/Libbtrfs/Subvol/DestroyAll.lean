import Libbtrfs.Subvol.DestroyLaws
import Libbtrfs.Subvol.Nested

/-! The loop of `destroy_all` destroys all that is inside a subvolume, when it finds it by its paths. -/

namespace Libbtrfs

namespace Subvol

/-- The flags that `destroy_all` iterates with. -/
abbrev sweepFlags : Flags := Flags.postOrder.union .getPath

/-- The variables of `destroy_all` in front of its loop. -/
def Sweep.start (fs : Fs) (name : Name) : Sweep := ⟨⟨fs, []⟩, name.bytes ++ [separator], [], none⟩

/-- The loop has destroyed what was at some places, without an error. -/
structure Swept (fs : Fs) (name : Name) (gone : List Place) (sweep : Sweep) : Prop where
  world : sweep.world = ⟨fs.without gone, gone⟩
  -- The buffer begins with the name and a separator, whatever has come behind them.
  buffer : sweep.baseSubvol.take (name.bytes.length + 1) = text [name]
  silent : sweep.errors = []
  unharmed : sweep.panicked = none

/-- Before the first subvolume nothing was destroyed. -/
theorem Swept.start (fs : Fs) (name : Name) : Swept fs name [] (Sweep.start fs name) := by
  -- The buffer has been filled with the name and the separator, and nothing is gone yet.
  refine ⟨?_, ?_, rfl, rfl⟩
  · rw [Sweep.start, Fs.without_nil]
  · refine (List.take_of_length_le ?_).trans ?_
    · simp [Sweep.start]
    · simp [Sweep.start, text]

/-- A round of the loop destroys the subvolume that its path leads to. -/
theorem Swept.round {fs : Fs} {cwd : Place} {name : Name} {gone : List Place} {sweep : Sweep}
    (swept : Swept fs name gone sweep) {nested : Dir} (member : nested ∈ fs.dirs)
    (isSubvol : nested.Subvol) {front : List Name} {last : Name}
    (there : nested.place = cwd ++ (name :: front ++ [last])) {item : SubvolItem Place}
    (path : item.pathText = .ok (text front ++ last.bytes))
    (kept : ∀ place ∈ gone, ¬ place <+: nested.place)
    (empty : ∀ child ∈ fs.children nested.treeid, child.place ∈ gone) :
    Swept fs name (gone ++ [nested.place])
      (sweep.round cwd (name.bytes.length + 1) (.ok item)) := by
  -- The path names the subvolume from the current directory on, and nothing is left in it.
  obtain ⟨world, buffer, silent, unharmed⟩ := swept
  obtain ⟨start, middle, split, whole, begins⟩ := buffer_names buffer front last
  have present : nested ∈ (fs.without gone).dirs := Fs.mem_without.mpr ⟨member, kept⟩
  have none_left := Fs.childless_without empty
  rw [split] at there
  have done := @destroy_done sweep.world cwd start middle last nested
    (by rw [world]; exact present) isSubvol there (by rw [world]; exact none_left)
  rw [Sweep.round_destroys unharmed path, whole, done, Sweep.record]
  refine ⟨?_, begins, silent, unharmed⟩
  rw [world, Fs.without_without]

/-- The path of a subvolume with the separator that comes behind it, if there is one. -/
def chainText : Option UnixPath → Bytes
  | none => []
  | some path => path.bytes ++ [separator]

/-- The path of a subvolume continues that of its parent. -/
theorem path_chainText (chain : Option UnixPath) (node : SubvolNode Place) :
    (node.path chain).bytes = chainText chain ++ (node.lookup.bytes ++ node.name.bytes) := by
  -- The separator comes behind the path of the parent, if that has one.
  cases chain with
  | none => rfl
  | some parent => simp [SubvolNode.path, chainText]

/-- A path tells the names from one subvolume to another one inside it. -/
def Leads (base : Place) (chain : Option UnixPath) (place : Place) : Prop :=
  ∃ names, place = base ++ names ∧ chainText chain = text names

/-- The path of what is listed in a subvolume tells its names as well. -/
theorem Leads.child {fs : Fs} {base : Place} {chain : Option UnixPath} {subvol child : Dir}
    (leads : Leads base chain subvol.place) (member : subvol ∈ fs.dirs) (isSubvol : subvol.Subvol)
    (listed : child ∈ fs.children subvol.treeid) :
    ∃ (front : List Name) (last : Name), child.place = base ++ (front ++ [last]) ∧
      ((subvol.node child).path chain).bytes = text front ++ last.bytes := by
  -- The names from the parent to the child come behind those to the parent.
  obtain ⟨names, there, told⟩ := leads
  obtain ⟨front, last, place, lookup, name⟩ := Fs.child_names member isSubvol listed
  refine ⟨names ++ front, last, ?_, ?_⟩
  · rw [place, there]
    simp
  · rw [path_chainText, told, lookup, name, Fs.text_append, List.append_assoc]

/-- The loop gets through a forest of subvolumes, and has then destroyed what was at some places. -/
structure Sweeps (fs : Fs) (cwd : Place) (name : Name) (parentId : UInt64)
    (chain : Option UnixPath) (forest : Forest (SubvolNode Place)) (gone more : List Place)
    (sweep : Sweep) : Prop where
  lives : forest.Lives (fun sweep : Sweep => sweep.world.fs.kernel)
    (Sweep.round cwd (name.bytes.length + 1)) sweepFlags parentId chain sweep
  swept : Swept fs name (gone ++ more) (visited (Sweep.round cwd (name.bytes.length + 1)) sweepFlags
    sweep (forest.items (sweepFlags.contains .getPath) parentId chain))

section Sweeping

variable {fs : Fs} {cwd : Place} {name : Name}

/-- The kernel still answers about a subvolume that lies apart from all that has been destroyed. -/
theorem Swept.answers {gone : List Place} {sweep : Sweep} (swept : Swept fs name gone sweep)
    {subvol : Dir} (member : subvol ∈ fs.dirs) (isSubvol : subvol.Subvol)
    (few : (fs.children subvol.treeid).length ≤ 255)
    (apart : ∀ place ∈ gone, Apart place subvol.place) :
    Answers sweep.world.fs.kernel subvol.place
      ((fs.children subvol.treeid).map (Dir.node subvol)) := by
  have present : subvol ∈ (fs.without gone).dirs :=
    Fs.mem_without.mpr ⟨member, fun place removed => (apart place removed).1⟩
  -- What is inside it lies apart from that too, so it is listed as before.
  have kept : (fs.without gone).children subvol.treeid = fs.children subvol.treeid := by
    refine Fs.children_without fun child listed place removed => ?_
    have front := (Fs.child_below member isSubvol listed).trans (List.dropLast_prefix _)
    exact ((apart place removed).continued front).1
  rw [swept.world, ← kept]
  exact Fs.answers present isSubvol (by rw [kept]; exact few)

/-- What the loop does about one of the subvolumes that are listed in another one. -/
theorem sweeps_child {depth : Nat} {subvol child : Dir} {chain : Option UnixPath}
    (member : subvol ∈ fs.dirs) (isSubvol : subvol.Subvol)
    (leads : Leads (cwd ++ [name]) chain subvol.place) (listed : child ∈ fs.children subvol.treeid)
    (few : (fs.children child.treeid).length ≤ 255) (lower : fs.Deep depth child)
    (parentId : UInt64) {gone : List Place} {sweep : Sweep}
    (apart : ∀ place ∈ gone, Apart place child.place) (swept : Swept fs name gone sweep)
    (inner : Sweeps fs cwd name child.treeid (some ((subvol.node child).path chain))
      (fs.below depth child) gone (fs.places depth child) sweep) :
    Sweeps fs cwd name parentId chain
      (.cons (subvol.node child) (fs.below depth child) .nil) gone
      (fs.places depth child ++ [child.place]) sweep := by
  -- In post order the loop comes to the child when all that is inside it has been destroyed.
  obtain ⟨present, childSubvol, _⟩ := Fs.mem_children.mp listed
  obtain ⟨front, last, there, path⟩ := leads.child member isSubvol listed
  have named : child.place = cwd ++ (name :: front ++ [last]) := by
    rw [there]
    simp
  have post : sweepFlags.contains .postOrder = true := by decide
  have ascending : ¬ sweepFlags.contains .descending = true := by decide
  constructor
  · refine ⟨?_, ?_, trivial⟩
    · rw [Iter.returned, if_neg ascending, Fs.roots_below lower present childSubvol]
      exact swept.answers present childSubvol few apart
    · rw [if_pos post]
      exact inner.lives
  · rw [Forest.items, Forest.items, visited_post post, ← List.append_assoc]
    refine inner.swept.round present childSubvol named ?_ ?_ ?_
    · rw [← path]
      exact Forest.item_pathText parentId chain (subvol.node child)
    · -- What is gone is not above the child, only apart from it or inside it.
      intro place removed
      rcases List.mem_append.mp removed with before | inside
      · exact (apart place before).1
      · obtain ⟨_, above, different⟩ := (Fs.mem_places lower present childSubvol).mp inside
        intro below
        exact different (above.eq_of_length_le below.length_le)
    · intro grandchild further
      obtain ⟨there', grandSubvol, _⟩ := Fs.mem_children.mp further
      have deeper := Fs.child_deeper present childSubvol further
      refine List.mem_append_right _ ((Fs.mem_places lower present childSubvol).mpr
        ⟨⟨grandchild, there', grandSubvol, rfl⟩,
          (Fs.child_below present childSubvol further).trans (List.dropLast_prefix _), ?_⟩)
      intro same
      rw [same] at deeper
      omega

/-- What the loop does about subvolumes that are listed in another one, one after the other. -/
theorem sweeps_listed {depth : Nat} {subvol : Dir} {chain : Option UnixPath} {parentId : UInt64}
    {listed : List Dir} (parted : listed.Pairwise fun one other => Apart one.place other.place)
    (deep : ∀ child ∈ listed, child ∈ fs.dirs ∧ child.Subvol ∧ fs.Deep depth child)
    (step : ∀ child ∈ listed, ∀ gone sweep, (∀ place ∈ gone, Apart place child.place) →
      Swept fs name gone sweep → Sweeps fs cwd name parentId chain
        (.cons (subvol.node child) (fs.below depth child) .nil) gone
        (fs.places depth child ++ [child.place]) sweep)
    {gone : List Place} {sweep : Sweep}
    (apart : ∀ child ∈ listed, ∀ place ∈ gone, Apart place child.place)
    (swept : Swept fs name gone sweep) :
    Sweeps fs cwd name parentId chain (.graft (Dir.node subvol) (fs.below depth) listed) gone
      (listed.flatMap fun child => fs.places depth child ++ [child.place]) sweep := by
  induction listed generalizing gone sweep with
  | nil =>
    refine ⟨trivial, ?_⟩
    rw [List.flatMap_nil, List.append_nil]
    exact swept
  | cons child rest ih =>
    obtain ⟨first, others⟩ := List.pairwise_cons.mp parted
    obtain ⟨present, childSubvol, lower⟩ := deep child List.mem_cons_self
    have done := step child List.mem_cons_self gone sweep (apart child List.mem_cons_self) swept
    -- All that is gone with the child lies apart from the others.
    have still_apart : ∀ other ∈ rest,
        ∀ place ∈ gone ++ (fs.places depth child ++ [child.place]), Apart place other.place := by
      intro other member place removed
      rcases List.mem_append.mp removed with before | now
      · exact apart other (List.mem_cons_of_mem _ member) place before
      · rcases List.mem_append.mp now with inside | here
        · obtain ⟨_, above, _⟩ := (Fs.mem_places lower present childSubvol).mp inside
          exact ((first other member).symm.continued above).symm
        · rw [List.mem_singleton.mp here]
          exact first other member
    have later := ih others (fun other member => deep other (List.mem_cons_of_mem _ member))
      (fun other member => step other (List.mem_cons_of_mem _ member)) still_apart done.swept
    constructor
    · exact ⟨done.lives.1, done.lives.2.1, later.lives⟩
    · rw [Forest.graft, Forest.items, visited_cons, List.flatMap_cons, ← List.append_assoc]
      exact later.swept

/-- What the loop does about all that is inside a subvolume. -/
theorem sweeps_below {depth : Nat} {subvol : Dir} {chain : Option UnixPath}
    (member : subvol ∈ fs.dirs) (isSubvol : subvol.Subvol)
    (leads : Leads (cwd ++ [name]) chain subvol.place) (deep : fs.Deep depth subvol)
    (few : ∀ nested ∈ fs.dirs, nested.Subvol → subvol.place <+: nested.place →
      (fs.children nested.treeid).length ≤ 255) {gone : List Place} {sweep : Sweep}
    (apart : ∀ place ∈ gone, Apart place subvol.place) (swept : Swept fs name gone sweep) :
    Sweeps fs cwd name subvol.treeid chain (fs.below depth subvol) gone (fs.places depth subvol)
      sweep := by
  -- The induction is on the levels that there are left below the subvolume.
  induction depth generalizing subvol chain gone sweep with
  | zero =>
    refine ⟨trivial, ?_⟩
    rw [Fs.places, Fs.below, Forest.visit, List.map_nil, List.append_nil]
    exact swept
  | succ depth ih =>
    rw [Fs.below, Fs.places_succ]
    have front : ∀ child ∈ fs.children subvol.treeid, subvol.place <+: child.place :=
      fun child listed => (Fs.child_below member isSubvol listed).trans (List.dropLast_prefix _)
    refine sweeps_listed (Fs.children_apart member isSubvol) ?_ ?_ ?_ swept
    · intro child listed
      obtain ⟨present, childSubvol, _⟩ := Fs.mem_children.mp listed
      exact ⟨present, childSubvol, deep.child member isSubvol listed⟩
    · intro child listed before now child_apart child_swept
      obtain ⟨present, childSubvol, _⟩ := Fs.mem_children.mp listed
      have lower := deep.child member isSubvol listed
      obtain ⟨names, last, there, path⟩ := leads.child member isSubvol listed
      refine sweeps_child member isSubvol leads listed
        (few child present childSubvol (front child listed)) lower subvol.treeid child_apart
        child_swept (ih present childSubvol ⟨names ++ [last], there, ?_⟩ lower ?_ child_apart
          child_swept)
      · rw [chainText, path]
        simp [text]
      · intro nested there' nestedSubvol inside
        exact few nested there' nestedSubvol ((front child listed).trans inside)
    · intro child listed place removed
      exact (apart place removed).continued (front child listed)

end Sweeping

/-- What `destroy_all` is for: a subtree is destroyed from the inside, and nothing else is. -/
structure Destroyed (fs : Fs) (base : Place) (sweep : Sweep) : Prop where
  silent : sweep.errors = []
  exactly : ∀ place, place ∈ sweep.world.destroyed ↔
    (∃ subvol ∈ fs.dirs, subvol.Subvol ∧ subvol.place = place) ∧ base <+: place
  inside_first : sweep.world.destroyed.Pairwise fun earlier later => ¬ earlier <+: later
  left : ∀ dir, dir ∈ sweep.world.fs.dirs ↔ dir ∈ fs.dirs ∧ ¬ base <+: dir.place

/-- With enough fuel, `destroy_all` succeeds and has destroyed the subtree. -/
def DestroysAll (fs : Fs) (cwd dir : Place) (name : Name) : Prop :=
  ∃ enough, ∀ fuel, enough ≤ fuel → ∃ sweep,
    Fd.destroyAll cwd ⟨fs, []⟩ dir name.bytes fuel = some (.ok (), sweep) ∧
      Destroyed fs (dir ++ [name]) sweep

section Whole

variable {fs : Fs} {cwd dir : Place} {name : Name} {base : Dir} (member : base ∈ fs.dirs)
  (rooted : base.Subvol) (there : base.place = dir ++ [name])

include member rooted

/-- For a subvolume that can be opened, `destroy_all` comes to its loop over any calls for it. -/
theorem Fd.destroyAllWith_loop {kernel : Fs → Kernel Place}
    (ioctl : World → Place → Bytes → Except IoError Unit × World)
    (opened : (kernel fs).openat dir name.bytes = .ok base.place)
    (looked : ∀ f ino, (kernel fs).inoLookup f ino = fs.inoLookup f) (fuel : Nat) :
    Fd.destroyAllWith kernel ioctl cwd ⟨fs, []⟩ dir name.bytes fuel =
      (forEach (fun sweep : Sweep => kernel sweep.world.fs)
        (Sweep.roundWith kernel ioctl cwd (name.bytes.length + 1)) fuel (Sweep.start fs name)
        ⟨[.rootVol base.treeid base.place], sweepFlags, []⟩).map
          (Fd.finishWith ioctl dir name.bytes) := by
  -- None of the checks in front of the loop fails for a subvolume.
  have here : fs.at? base.place = some base := Fs.at?_eq_some.mpr ⟨member, rfl⟩
  have yes : isSubvol fs base.place = .ok true := by
    rw [isSubvol, here]
    simp [rooted]
  have made : Iter.new (kernel fs) base.place sweepFlags =
      .ok ⟨[.rootVol base.treeid base.place], sweepFlags, []⟩ := by
    simp [Iter.new, lookupTreeid, looked, Fs.inoLookup, here, btrfsIoctl]
  simp only [Fd.destroyAllWith, if_neg name.named.2.2.2.1, opened, yes, made]
  rfl

include there

omit rooted in
/-- The subvolume is opened by its name in the directory that it is in. -/
theorem openat_base : fs.openat dir name.bytes = .ok base.place := by
  -- Its name alone is a path of names that leads to it.
  have followed := Fs.openat_names fs dir [] name
  rw [List.nil_append, Fs.walk_there member there] at followed
  exact followed

/-- For a subvolume, `destroy_all` comes to its loop. -/
theorem Fd.destroyAll_loop (fuel : Nat) :
    Fd.destroyAll cwd ⟨fs, []⟩ dir name.bytes fuel =
      (forEach (fun sweep : Sweep => sweep.world.fs.kernel)
        (Sweep.round cwd (name.bytes.length + 1)) fuel (Sweep.start fs name)
        ⟨[.rootVol base.treeid base.place], sweepFlags, []⟩).map (Fd.finish dir name.bytes) := by
  -- The kernel of the filesystem opens the subvolume by its name.
  exact Fd.destroyAllWith_loop member rooted World.snapDestroy (openat_base member there)
    (fun _ _ => rfl) fuel

/-- With any more fuel `destroy_all` comes to the same. -/
theorem Fd.destroyAll_mono {fuel later : Nat} (more : fuel ≤ later)
    {result : Outcome Unit × Sweep}
    (done : Fd.destroyAll cwd ⟨fs, []⟩ dir name.bytes fuel = some result) :
    Fd.destroyAll cwd ⟨fs, []⟩ dir name.bytes later = some result := by
  -- The loop is the only part that takes fuel.
  rw [Fd.destroyAll_loop member rooted there] at done ⊢
  obtain ⟨after, looped, finished⟩ := Option.map_eq_some_iff.mp done
  rw [forEach_mono more looped, Option.map_some, finished]

/-- When all that is inside it has been destroyed, `destroy_all` ends with the subvolume itself. -/
theorem Fd.finish_swept {gone : List Place} {after : Sweep} (swept : Swept fs name gone after)
    (inside : ∀ place, place ∈ gone ↔
      (∃ nested ∈ fs.dirs, nested.Subvol ∧ nested.place = place) ∧
        base.place <+: place ∧ base.place ≠ place) :
    Fd.finish dir name.bytes after = (.ok (), { after with
      world := ⟨fs.without (gone ++ [base.place]), gone ++ [base.place]⟩ }) := by
  -- The subvolume itself is still there, with nothing inside it.
  obtain ⟨world, _, silent, unharmed⟩ := swept
  have present : base ∈ (fs.without gone).dirs := by
    refine Fs.mem_without.mpr ⟨member, fun place removed below => ?_⟩
    obtain ⟨_, above, different⟩ := (inside place).mp removed
    exact different (above.eq_of_length_le below.length_le)
  have none_left : (fs.without gone).children base.treeid = [] := by
    refine Fs.childless_without fun child listed => ?_
    obtain ⟨found, childSubvol, _⟩ := Fs.mem_children.mp listed
    have deeper := Fs.child_deeper member rooted listed
    refine (inside child.place).mpr ⟨⟨child, found, childSubvol, rfl⟩,
      (Fs.child_below member rooted listed).trans (List.dropLast_prefix _), ?_⟩
    intro same
    rw [same] at deeper
    omega
  have last := @Fd.destroy_done after.world dir name base (by rw [world]; exact present) rooted there
    (by rw [world]; exact none_left)
  rw [world] at last
  rw [Fd.finish_destroys unharmed, world, last]
  simp only [Fs.without_without]

/-- When the loop has destroyed all that is inside the subvolume, `destroy_all` has done its work. -/
theorem destroysAll_swept {gone : List Place} {after : Sweep}
    (drains : Drains (fun sweep : Sweep => sweep.world.fs.kernel)
      (Sweep.round cwd (name.bytes.length + 1)) (Sweep.start fs name)
      ⟨[.rootVol base.treeid base.place], sweepFlags, []⟩ after)
    (swept : Swept fs name gone after)
    (inside : ∀ place, place ∈ gone ↔
      (∃ nested ∈ fs.dirs, nested.Subvol ∧ nested.place = place) ∧
        base.place <+: place ∧ base.place ≠ place)
    (order : gone.Pairwise fun earlier later => ¬ earlier <+: later) :
    DestroysAll fs cwd dir name := by
  obtain ⟨enough, done⟩ := drains.forEach
  refine ⟨enough, fun fuel more => ?_⟩
  have finished := Fd.finish_swept member rooted there swept inside
  refine ⟨_, by rw [Fd.destroyAll_loop member rooted there, done fuel more, Option.map_some,
    finished], ?_⟩
  rw [← there]
  constructor
  · exact swept.silent
  · intro place
    simp only
    rw [List.mem_append, inside, List.mem_singleton]
    constructor
    · rintro (⟨exists_there, above, _⟩ | rfl)
      · exact ⟨exists_there, above⟩
      · exact ⟨⟨base, member, rooted, rfl⟩, List.prefix_refl _⟩
    · rintro ⟨exists_there, above⟩
      by_cases same : base.place = place
      · exact Or.inr same.symm
      · exact Or.inl ⟨exists_there, above, same⟩
  · simp only
    rw [List.pairwise_append]
    refine ⟨order, List.pairwise_singleton _ _, ?_⟩
    intro earlier removed later here above
    rw [List.mem_singleton.mp here] at above
    obtain ⟨_, front, different⟩ := (inside earlier).mp removed
    exact different (front.eq_of_length_le above.length_le)
  · intro other
    simp only
    rw [Fs.mem_without]
    refine and_congr_right fun _ => ?_
    -- All that has been destroyed lies at or below the subvolume.
    constructor
    · intro spared
      exact spared base.place (List.mem_append_right _ List.mem_cons_self)
    · intro outside place removed below
      rcases List.mem_append.mp removed with before | here
      · exact outside (((inside place).mp before).2.1.trans below)
      · rw [List.mem_singleton.mp here] at below
        exact outside below

/-- From the directory that is open, `destroy_all` destroys the subtree. -/
theorem destroysAll_here (current : cwd = dir)
    (few : ∀ nested ∈ fs.dirs, nested.Subvol → base.place <+: nested.place →
      (fs.children nested.treeid).length ≤ 255) : DestroysAll fs cwd dir name := by
  subst current
  -- There are no more levels than names on the way to the deepest directory.
  obtain ⟨depth, bound⟩ := fs.bounded
  have deep : fs.Deep depth base := by
    intro other present
    have short := bound other present
    omega
  have leads : Leads (cwd ++ [name]) none base.place := ⟨[], by rw [there, List.append_nil], rfl⟩
  have sweeps := sweeps_below member rooted leads deep few
    (fun place impossible => by cases impossible) (Swept.start fs name)
  have root_answers := (Swept.start fs name).answers member rooted
    (few base member rooted (List.prefix_refl _)) (fun place impossible => by cases impossible)
  rw [← Fs.roots_below deep member rooted] at root_answers
  refine destroysAll_swept member rooted there (drains_root ?_ sweeps.lives) sweeps.swept ?_ ?_
  · exact root_answers
  · intro place
    rw [List.nil_append]
    exact Fs.mem_places deep member rooted
  · exact Fs.places_order deep member rooted

/-- A subvolume with none inside it is destroyed from any directory. -/
theorem destroysAll_leaf (alone : ∀ nested ∈ fs.dirs, nested.Subvol →
    base.place <+: nested.place → nested.place = base.place) : DestroysAll fs cwd dir name := by
  -- The iterator has nothing to return, so only the subvolume itself is destroyed.
  have unlisted : fs.children base.treeid = [] := by
    rw [List.eq_nil_iff_forall_not_mem]
    intro child listed
    obtain ⟨found, childSubvol, _⟩ := Fs.mem_children.mp listed
    have deeper := Fs.child_deeper member rooted listed
    rw [alone child found childSubvol
      ((Fs.child_below member rooted listed).trans (List.dropLast_prefix _))] at deeper
    omega
  have root_answers := (Swept.start fs name).answers member rooted (by rw [unlisted]; simp)
    (fun place impossible => by cases impossible)
  rw [unlisted] at root_answers
  refine destroysAll_swept member rooted there
    (@drains_root _ _ _ _ sweepFlags .nil _ _ _ root_answers trivial) (Swept.start fs name) ?_
    List.Pairwise.nil
  intro place
  constructor
  · intro impossible
    cases impossible
  · rintro ⟨⟨nested, found, nestedSubvol, rfl⟩, above, different⟩
    exact absurd (alone nested found nestedSubvol above).symm different

end Whole

end Subvol

end Libbtrfs
