import Libbtrfs.Subvol.DestroyAll

/-! A loop over the subvolumes inside another one, in post order and by their paths. -/

namespace Libbtrfs

namespace Subvol

variable {World : Type} {kernel : World → Kernel Place}
  {body : World → Except IoError (SubvolItem Place) → World} {fs : Fs} {base : Place}
  {Holds : List Place → World → Prop}

/--
What holds of the world when the loop has seen some places is kept by its next round.

The kernel has to answer as before about a subvolume inside that lies apart from all these places.
-/
structure Handles (fs : Fs) (base : Place) (kernel : World → Kernel Place)
    (body : World → Except IoError (SubvolItem Place) → World)
    (Holds : List Place → World → Prop) : Prop where
  answers {seen : List Place} {world : World} {subvol : Dir} (holds : Holds seen world)
    (member : subvol ∈ fs.dirs) (isSubvol : subvol.Subvol) (inside : base <+: subvol.place)
    (apart : ∀ place ∈ seen, Apart place subvol.place) :
    Answers (kernel world) subvol.place ((fs.children subvol.treeid).map (Dir.node subvol))
  round {seen : List Place} {world : World} {nested : Dir} {front : List Name} {last : Name}
    {item : SubvolItem Place} (holds : Holds seen world) (member : nested ∈ fs.dirs)
    (isSubvol : nested.Subvol) (there : nested.place = base ++ (front ++ [last]))
    (path : item.pathText = .ok (text front ++ last.bytes))
    (kept : ∀ place ∈ seen, ¬ place <+: nested.place)
    (behind : ∀ child ∈ fs.children nested.treeid, child.place ∈ seen) :
    Holds (seen ++ [nested.place]) (body world (.ok item))

/-- The loop gets through a forest of subvolumes, and has then seen some more places. -/
structure GetsThrough (kernel : World → Kernel Place)
    (body : World → Except IoError (SubvolItem Place) → World) (Holds : List Place → World → Prop)
    (parentId : UInt64) (chain : Option UnixPath) (forest : Forest (SubvolNode Place))
    (seen more : List Place) (world : World) : Prop where
  lives : forest.Lives kernel body sweepFlags parentId chain world
  holds : Holds (seen ++ more)
    (visited body sweepFlags world (forest.items (sweepFlags.contains .getPath) parentId chain))

/-- What the loop does about one of the subvolumes that are listed in another one. -/
theorem Handles.child (handles : Handles fs base kernel body Holds) {depth : Nat}
    {subvol child : Dir} {chain : Option UnixPath} (member : subvol ∈ fs.dirs)
    (isSubvol : subvol.Subvol) (leads : Leads base chain subvol.place)
    (listed : child ∈ fs.children subvol.treeid) (lower : fs.Deep depth child)
    (parentId : UInt64) {seen : List Place} {world : World}
    (apart : ∀ place ∈ seen, Apart place child.place) (holds : Holds seen world)
    (inner : GetsThrough kernel body Holds child.treeid (some ((subvol.node child).path chain))
      (fs.below depth child) seen (fs.places depth child) world) :
    GetsThrough kernel body Holds parentId chain (.cons (subvol.node child) (fs.below depth child) .nil)
      seen (fs.places depth child ++ [child.place]) world := by
  -- In post order the loop comes to the child when it has seen all that is inside it.
  obtain ⟨present, childSubvol, _⟩ := Fs.mem_children.mp listed
  obtain ⟨front, last, there, path⟩ := leads.child member isSubvol listed
  have post : sweepFlags.contains .postOrder = true := by decide
  have ascending : ¬ sweepFlags.contains .descending = true := by decide
  constructor
  · refine ⟨?_, ?_, trivial⟩
    · rw [Iter.returned, if_neg ascending, Fs.roots_below lower present childSubvol]
      exact handles.answers holds present childSubvol (there ▸ List.prefix_append _ _) apart
    · rw [if_pos post]
      exact inner.lives
  · rw [Forest.items, Forest.items, visited_post post, ← List.append_assoc]
    refine handles.round inner.holds present childSubvol there ?_ ?_ ?_
    · rw [← path]
      exact Forest.item_pathText parentId chain (subvol.node child)
    · -- What has been seen is not above the child, only apart from it or inside it.
      intro place before
      rcases List.mem_append.mp before with outside | inside
      · exact (apart place outside).1
      · obtain ⟨_, above, different⟩ := (Fs.mem_places lower present childSubvol).mp inside
        intro below
        exact different (above.eq_of_length_le below.length_le)
    · intro grandchild further
      obtain ⟨there', grandSubvol, _⟩ := Fs.mem_children.mp further
      have deeper := Fs.child_deeper present childSubvol further
      refine List.mem_append_right _ ((Fs.mem_places lower present childSubvol).mpr
        ⟨⟨grandchild, there', grandSubvol, rfl⟩,
          (Fs.child_below present childSubvol further).trans (List.dropLast_prefix _), ?_⟩)
      intro same
      rw [same] at deeper
      omega

/-- What the loop does about subvolumes that are listed in another one, one after the other. -/
theorem getsThrough_listed {depth : Nat} {subvol : Dir} {chain : Option UnixPath} {parentId : UInt64}
    {listed : List Dir} (parted : listed.Pairwise fun one other => Apart one.place other.place)
    (deep : ∀ child ∈ listed, child ∈ fs.dirs ∧ child.Subvol ∧ fs.Deep depth child)
    (step : ∀ child ∈ listed, ∀ seen world, (∀ place ∈ seen, Apart place child.place) →
      Holds seen world → GetsThrough kernel body Holds parentId chain
        (.cons (subvol.node child) (fs.below depth child) .nil) seen
        (fs.places depth child ++ [child.place]) world)
    {seen : List Place} {world : World}
    (apart : ∀ child ∈ listed, ∀ place ∈ seen, Apart place child.place)
    (holds : Holds seen world) :
    GetsThrough kernel body Holds parentId chain
      (.graft (Dir.node subvol) (fs.below depth) listed) seen
      (listed.flatMap fun child => fs.places depth child ++ [child.place]) world := by
  -- The induction is on the subvolumes that there still are to come.
  induction listed generalizing seen world with
  | nil =>
    refine ⟨trivial, ?_⟩
    rw [List.flatMap_nil, List.append_nil]
    exact holds
  | cons child rest ih =>
    obtain ⟨first, others⟩ := List.pairwise_cons.mp parted
    obtain ⟨present, childSubvol, lower⟩ := deep child List.mem_cons_self
    have done := step child List.mem_cons_self seen world (apart child List.mem_cons_self) holds
    -- All that has been seen of the child lies apart from the others.
    have still_apart : ∀ other ∈ rest,
        ∀ place ∈ seen ++ (fs.places depth child ++ [child.place]), Apart place other.place := by
      intro other member place before
      rcases List.mem_append.mp before with outside | now
      · exact apart other (List.mem_cons_of_mem _ member) place outside
      · rcases List.mem_append.mp now with inside | here
        · obtain ⟨_, above, _⟩ := (Fs.mem_places lower present childSubvol).mp inside
          exact ((first other member).symm.continued above).symm
        · rw [List.mem_singleton.mp here]
          exact first other member
    have later := ih others (fun other member => deep other (List.mem_cons_of_mem _ member))
      (fun other member => step other (List.mem_cons_of_mem _ member)) still_apart done.holds
    constructor
    · exact ⟨done.lives.1, done.lives.2.1, later.lives⟩
    · rw [Forest.graft, Forest.items, visited_cons, List.flatMap_cons, ← List.append_assoc]
      exact later.holds

/-- What the loop does about all that is inside a subvolume. -/
theorem Handles.below (handles : Handles fs base kernel body Holds) {depth : Nat} {subvol : Dir}
    {chain : Option UnixPath} (member : subvol ∈ fs.dirs) (isSubvol : subvol.Subvol)
    (leads : Leads base chain subvol.place) (deep : fs.Deep depth subvol) {seen : List Place} {world : World}
    (apart : ∀ place ∈ seen, Apart place subvol.place) (holds : Holds seen world) :
    GetsThrough kernel body Holds subvol.treeid chain (fs.below depth subvol) seen
      (fs.places depth subvol) world := by
  -- The induction is on the levels that there are left below the subvolume.
  induction depth generalizing subvol chain seen world with
  | zero =>
    refine ⟨trivial, ?_⟩
    rw [Fs.places, Fs.below, Forest.visit, List.map_nil, List.append_nil]
    exact holds
  | succ depth ih =>
    rw [Fs.below, Fs.places_succ]
    have front : ∀ child ∈ fs.children subvol.treeid, subvol.place <+: child.place :=
      fun child listed => (Fs.child_below member isSubvol listed).trans (List.dropLast_prefix _)
    refine getsThrough_listed (Fs.children_apart member isSubvol) ?_ ?_ ?_ holds
    · intro child listed
      obtain ⟨present, childSubvol, _⟩ := Fs.mem_children.mp listed
      exact ⟨present, childSubvol, deep.child member isSubvol listed⟩
    · intro child listed before now child_apart child_holds
      obtain ⟨present, childSubvol, _⟩ := Fs.mem_children.mp listed
      have lower := deep.child member isSubvol listed
      obtain ⟨names, last, there, path⟩ := leads.child member isSubvol listed
      refine handles.child member isSubvol leads listed lower subvol.treeid child_apart
        child_holds (ih present childSubvol ⟨names ++ [last], there, ?_⟩ lower child_apart
          child_holds)
      rw [chainText, path]
      simp [text]
    · intro child listed place before
      exact (apart place before).continued (front child listed)

/-- The whole loop runs to its end, and has then seen all that is inside the subvolume. -/
theorem Handles.drains (handles : Handles fs base kernel body Holds) {depth : Nat} {subvol : Dir}
    (member : subvol ∈ fs.dirs) (isSubvol : subvol.Subvol) (there : subvol.place = base)
    (deep : fs.Deep depth subvol) {world : World} (holds : Holds [] world) :
    ∃ after, Drains kernel body world ⟨[.rootVol subvol.treeid subvol.place], sweepFlags, []⟩ after ∧
      Holds (fs.places depth subvol) after := by
  have leads : Leads base none subvol.place := ⟨[], by rw [there, List.append_nil], rfl⟩
  have through := handles.below member isSubvol leads deep
    (fun place impossible => by cases impossible) holds
  have root_answers := handles.answers holds member isSubvol (there ▸ List.prefix_refl _)
    (fun place impossible => by cases impossible)
  rw [← Fs.roots_below deep member isSubvol] at root_answers
  -- The root itself is not returned, only what is inside it.
  exact ⟨_, drains_root root_answers through.lives, through.holds⟩

end Subvol

end Libbtrfs
