import Libbtrfs.Subvol.FileSystem

/-! How the subvolumes of a filesystem lie in each other, and what following a path leads to. -/

namespace Libbtrfs

namespace Fs

/-- What is at a place is the directory that has it. -/
theorem at?_eq_some {fs : Fs} {place : Place} {dir : Dir} :
    fs.at? place = some dir ↔ dir ∈ fs.dirs ∧ dir.place = place := by
  constructor
  · intro found
    exact ⟨List.mem_of_find?_eq_some found, by simpa using List.find?_some found⟩
  · rintro ⟨member, same⟩
    -- Something is found there, and no two directories have one place.
    cases found : fs.at? place with
    | none =>
      have missing := List.find?_eq_none.mp found dir member
      simp [same] at missing
    | some other =>
      have inside := List.mem_of_find?_eq_some found
      have there : other.place = place := by simpa using List.find?_some found
      rw [List.inj_on_of_nodup_map fs.distinct inside member (there.trans same.symm)]

/-- All directories on the way to one exist. -/
theorem on_the_way {fs : Fs} {dir : Dir} (member : dir ∈ fs.dirs) {front : Place}
    (above : front <+: dir.place) : ∃ other ∈ fs.dirs, other.place = front := by
  -- The induction is on how far down the directory is.
  induction steps : dir.place.length generalizing dir with
  | zero =>
    have empty := List.eq_nil_of_length_eq_zero steps
    rw [empty] at above
    exact ⟨dir, member, by rw [empty, List.prefix_nil.mp above]⟩
  | succ depth ih =>
    by_cases here : front = dir.place
    · exact ⟨dir, member, here.symm⟩
    · have inner : dir.place ≠ [] := by
        intro empty
        rw [empty] at steps
        cases steps
      obtain ⟨parent, found, place, _, _⟩ := fs.parents dir member inner
      refine ih found (by rw [place]; exact prefix_dropLast above here) ?_
      rw [place, List.length_dropLast]
      omega

/-- No directory is further down than some number of names. -/
theorem bounded (fs : Fs) : ∃ bound, ∀ dir ∈ fs.dirs, dir.place.length ≤ bound := by
  -- The list of directories is finite, so one of them is furthest down.
  by_cases empty : fs.dirs = []
  · refine ⟨0, fun dir member => ?_⟩
    rw [empty] at member
    cases member
  · have some_length : fs.dirs.map (fun dir => dir.place.length) ≠ [] := by
      simpa using empty
    refine ⟨(fs.dirs.map fun dir => dir.place.length).max some_length, fun dir member => ?_⟩
    have inside : dir.place.length ∈ fs.dirs.map fun dir => dir.place.length :=
      List.mem_map.mpr ⟨dir, member, rfl⟩
    exact List.le_max_of_mem inside

/-- The children of a subvolume are those that name it as their parent. -/
theorem mem_children {fs : Fs} {treeid : UInt64} {dir : Dir} :
    dir ∈ fs.children treeid ↔
      dir ∈ fs.dirs ∧ dir.Subvol ∧ dir.place ≠ [] ∧ dir.parentId = treeid := by
  -- Sorting by tree ids changes the order only.
  rw [children, List.mem_insertionSort, List.mem_filter, decide_eq_true_eq]

/-- The subvolume that a directory lies in is the innermost one on the way to it. -/
theorem owner {fs : Fs} {dir : Dir} (member : dir ∈ fs.dirs) :
    ∃ subvol ∈ fs.dirs, subvol.Subvol ∧ subvol.treeid = dir.treeid ∧ subvol.place <+: dir.place ∧
      ∀ other ∈ fs.dirs, other.Subvol → other.place <+: dir.place → other.place <+: subvol.place := by
  -- A plain directory lies in the tree that the directory above it lies in.
  induction steps : dir.place.length generalizing dir with
  | zero =>
    by_cases root : dir.Subvol
    · exact ⟨dir, member, root, rfl, List.prefix_refl _, fun other _ _ above => above⟩
    · exact absurd (List.eq_nil_of_length_eq_zero steps) (fs.inside dir member root).1
  | succ depth ih =>
    by_cases root : dir.Subvol
    · exact ⟨dir, member, root, rfl, List.prefix_refl _, fun other _ _ above => above⟩
    · -- A plain directory lies in the same tree as the directory that it is in.
      obtain ⟨inner, same⟩ := fs.inside dir member root
      obtain ⟨parent, found, place, tree, _⟩ := fs.parents dir member inner
      have shorter : parent.place.length = depth := by
        rw [place, List.length_dropLast]
        omega
      obtain ⟨subvol, present, isSubvol, owns, above, innermost⟩ := ih found shorter
      refine ⟨subvol, present, isSubvol, by rw [owns, tree, same], ?_, ?_⟩
      · rw [place] at above
        exact above.trans (List.dropLast_prefix _)
      · intro other there otherSubvol on_way
        refine innermost other there otherSubvol ?_
        rw [place]
        refine prefix_dropLast on_way fun equal => root ?_
        rwa [← List.inj_on_of_nodup_map fs.distinct there member equal]

section Nested

variable {fs : Fs} {subvol : Dir} (member : subvol ∈ fs.dirs) (isSubvol : subvol.Subvol)

include member isSubvol

/-- What is listed in a subvolume lies below it. -/
theorem child_below {child : Dir} (listed : child ∈ fs.children subvol.treeid) :
    subvol.place <+: child.place.dropLast := by
  obtain ⟨found, _, inner, parentId⟩ := mem_children.mp listed
  obtain ⟨parent, present, place, tree, _⟩ := fs.parents child found inner
  -- The directory that it is in lies in the subvolume, which is then on the way to it.
  obtain ⟨other, there, otherSubvol, owns, above, _⟩ := owner present
  rw [fs.trees subvol member other there isSubvol otherSubvol (by rw [owns, tree, parentId]),
    ← place]
  exact above

/-- There is no subvolume between one and what is listed in it. -/
theorem child_next {child other : Dir} (listed : child ∈ fs.children subvol.treeid)
    (there : other ∈ fs.dirs) (otherSubvol : other.Subvol) (above : other.place <+: child.place)
    (different : other.place ≠ child.place) : other.place <+: subvol.place := by
  -- The directory that the child is in lies in the subvolume, its innermost one on the way.
  obtain ⟨found, _, inner, parentId⟩ := mem_children.mp listed
  obtain ⟨parent, present, place, tree, _⟩ := fs.parents child found inner
  obtain ⟨owning, inside, owningSubvol, owns, _, innermost⟩ := owner present
  rw [fs.trees subvol member owning inside isSubvol owningSubvol (by rw [owns, tree, parentId])]
  refine innermost other there otherSubvol ?_
  rw [place]
  exact prefix_dropLast above different

/-- What is listed in a subvolume is further down than it. -/
theorem child_deeper {child : Dir} (listed : child ∈ fs.children subvol.treeid) :
    subvol.place.length < child.place.length := by
  -- The directory that it is in is at or below the subvolume already.
  have shorter := (child_below member isSubvol listed).length_le
  have inner := List.length_pos_iff.mpr (mem_children.mp listed).2.2.1
  rw [List.length_dropLast] at shorter
  omega

/-- What is listed in a subvolume does not lie in something else that is. -/
theorem children_apart :
    (fs.children subvol.treeid).Pairwise fun one other => Apart one.place other.place := by
  have once : (fs.children subvol.treeid).Nodup := by
    refine (List.perm_insertionSort _ _).nodup_iff.mpr (List.Nodup.filter _ ?_)
    exact List.Nodup.of_map _ fs.distinct
  -- One above the other would be between the other one and the subvolume.
  have not_above : ∀ one ∈ fs.children subvol.treeid, ∀ other ∈ fs.children subvol.treeid,
      one ≠ other → ¬ one.place <+: other.place := by
    intro one first other second different above
    obtain ⟨found, oneSubvol, _⟩ := mem_children.mp first
    have places : one.place ≠ other.place := fun same =>
      different (List.inj_on_of_nodup_map fs.distinct found (mem_children.mp second).1 same)
    have before := (child_next member isSubvol second found oneSubvol above places).length_le
    have deeper := child_deeper member isSubvol first
    omega
  refine once.imp_of_mem ?_
  intro one other first second different
  exact ⟨not_above one first other second different,
    not_above other second one first (Ne.symm different)⟩

/-- A subvolume below another one is at or below something that is listed in it. -/
theorem nested_child {nested : Dir} (there : nested ∈ fs.dirs) (nestedSubvol : nested.Subvol)
    (below : subvol.place <+: nested.place) (different : subvol.place ≠ nested.place) :
    ∃ child ∈ fs.children subvol.treeid, child.place <+: nested.place := by
  -- The induction is on how far down it is, from the subvolume that it is listed in.
  induction depth : nested.place.length using Nat.strong_induction_on generalizing nested with
  | _ depth ih =>
    have inner : nested.place ≠ [] := by
      intro empty
      rw [empty, List.prefix_nil] at below
      exact different (by rw [below, empty])
    obtain ⟨parent, present, place, tree, _⟩ := fs.parents nested there inner
    obtain ⟨owning, inside, owningSubvol, owns, above, innermost⟩ := owner present
    by_cases same : subvol.place = owning.place
    · have equal := List.inj_on_of_nodup_map fs.distinct member inside same
      refine ⟨nested, mem_children.mpr ⟨there, nestedSubvol, inner, ?_⟩, List.prefix_refl _⟩
      rw [equal, owns, tree]
    · rw [place] at above
      have further := above.length_le
      rw [List.length_dropLast] at further
      have positive := List.length_pos_iff.mpr inner
      obtain ⟨child, listed, front⟩ := ih owning.place.length (by omega) inside owningSubvol
        (innermost subvol member isSubvol (by rw [place]; exact prefix_dropLast below different))
        same rfl
      exact ⟨child, listed, front.trans (above.trans (List.dropLast_prefix _))⟩

end Nested

/-- The last name on the way to a directory is its own. -/
theorem place_name {dir : Dir} (inner : dir.place ≠ []) :
    ∃ last : Name, dir.place = dir.place.dropLast ++ [last] ∧ dir.name = last.bytes := by
  -- Every directory but the root of the filesystem is inside another one.
  refine ⟨dir.place.getLast inner, (List.dropLast_append_getLast inner).symm, ?_⟩
  rw [Dir.name, List.getLast?_eq_some_getLast inner]
  rfl

/-- The text of names on the way has no zero in it. -/
theorem text_clean (names : List Name) : 0 ∉ text names := by
  -- Names have no zero in them, and neither is the separator one.
  refine not_mem_terminated separator (by decide) ?_
  intro bytes member
  obtain ⟨name, _, same⟩ := List.mem_map.mp member
  rw [← same]
  exact name.named.2.2.2.1

/-- A path of names has no zero in it. -/
theorem path_clean (front : List Name) (last : Name) : 0 ∉ text front ++ last.bytes := by
  -- The last name has no separator behind it.
  rw [List.mem_append]
  rintro (inside | inside)
  · exact text_clean front inside
  · exact last.named.2.2.2.1 inside

@[simp] theorem text_append (one other : List Name) :
    text (one ++ other) = text one ++ text other := by
  -- Each of the names has its separator behind it.
  simp [text]

/-- A component that is a name leads into the directory with that name. -/
theorem walk_name (fs : Fs) (place : Place) (name : Name) (rest : List Bytes) :
    fs.walk place (name.bytes :: rest) =
      match fs.at? (place ++ [name]) with
      | none => .error (.os enoent)
      | some dir => fs.walk dir.place rest := by
  -- A name is neither empty nor one of the two that stand for other directories.
  obtain ⟨nonempty, notCur, notParent, _⟩ := name.named
  have passed : ¬ (name.bytes = [] ∨ name.bytes = curDir) := by simp [nonempty, notCur]
  rw [walk]
  exact (if_neg passed).trans ((if_neg notParent).trans (dif_pos name.named))

/-- The names on the way to a directory lead there. -/
theorem walk_there {fs : Fs} {dir : Dir} (member : dir ∈ fs.dirs) {place : Place}
    {names : List Name} (there : dir.place = place ++ names) :
    fs.walk place (names.map Name.bytes) = .ok dir.place := by
  induction names generalizing place with
  | nil => rw [there, List.map_nil, walk, List.append_nil]
  | cons name rest ih =>
    -- The first step leads to a directory on the way.
    have further : dir.place = (place ++ [name]) ++ rest := by rw [there]; simp
    obtain ⟨other, found, here⟩ := on_the_way member
      (further ▸ List.prefix_append _ _ : place ++ [name] <+: dir.place)
    rw [List.map_cons, walk_name, at?_eq_some.mpr ⟨found, here⟩]
    simp only [here]
    exact ih further

/-- Names lead nowhere else than to the place that they name. -/
theorem walk_leads {fs : Fs} {place stop : Place} {names : List Name}
    (leads : fs.walk place (names.map Name.bytes) = .ok stop) : stop = place ++ names := by
  -- Each name is followed into the directory that has it as the last one of its place.
  induction names generalizing place with
  | nil =>
    rw [List.map_nil, walk] at leads
    cases leads
    rw [List.append_nil]
  | cons name rest ih =>
    rw [List.map_cons, walk_name] at leads
    cases found : fs.at? (place ++ [name]) with
    | none =>
      rw [found] at leads
      cases leads
    | some dir =>
      rw [found] at leads
      simp only [(at?_eq_some.mp found).2] at leads
      rw [ih leads, List.append_assoc, List.singleton_append]

/-- A path of names is followed from the open directory on. -/
theorem openat_names (fs : Fs) (f : Place) (front : List Name) (last : Name) :
    fs.openat f (text front ++ last.bytes) = fs.walk f ((front ++ [last]).map Name.bytes) := by
  have split : (text front ++ last.bytes).splitOn separator =
      (front ++ [last]).map Name.bytes := by
    rw [text, splitOn_terminated, List.map_append, List.map_singleton]
    · intro bytes member
      obtain ⟨name, _, same⟩ := List.mem_map.mp member
      rw [← same]
      exact name.named.2.2.2.2.1
    · exact last.named.2.2.2.2.1
  -- The path begins with the first byte of a name, which is not a separator.
  have begins : ∀ (name : Name) (rest : Bytes),
      name.bytes ++ rest ≠ [] ∧ (name.bytes ++ rest).head? ≠ some separator := by
    intro name rest
    obtain ⟨nonempty, _, _, _, single, _⟩ := name.named
    obtain ⟨byte, bytes, same⟩ := List.exists_cons_of_ne_nil nonempty
    rw [same] at single ⊢
    refine ⟨by simp, ?_⟩
    intro equal
    simp only [List.cons_append, List.head?_cons, Option.some.injEq] at equal
    exact single (equal ▸ List.mem_cons_self)
  have first : text front ++ last.bytes ≠ [] ∧
      (text front ++ last.bytes).head? ≠ some separator := by
    cases front with
    | nil => simpa [text] using begins last []
    | cons name rest =>
      have := begins name (separator :: text rest ++ last.bytes)
      simpa [text] using this
  rw [openat, if_neg first.1, if_neg first.2, split]

section Without

variable {fs : Fs} {gone more : List Place} {dir : Dir}

/-- What is left is not inside of anything that is gone. -/
theorem mem_without :
    dir ∈ (fs.without gone).dirs ↔ dir ∈ fs.dirs ∧ ∀ place ∈ gone, ¬ place <+: dir.place := by
  -- The directories are filtered by that.
  rw [without, List.mem_filter, decide_eq_true_eq]

/-- Filesystems with the same directories are the same. -/
theorem ext_dirs {one other : Fs} (same : one.dirs = other.dirs) : one = other := by
  -- All other fields are proofs about the directories.
  cases one
  cases other
  cases same
  rfl

/-- Without anything gone all of it is left. -/
theorem without_nil : fs.without [] = fs := by
  -- The filter drops nothing.
  refine ext_dirs (List.filter_eq_self.mpr ?_)
  simp

/-- Taking away what is below some places and then below others takes it away below all. -/
theorem without_without : (fs.without gone).without more = fs.without (gone ++ more) := by
  -- A directory is left if it is below none of the places, in whichever order they go.
  refine ext_dirs ?_
  simp only [without, List.filter_filter]
  refine List.filter_congr fun dir _ => ?_
  simp only [List.mem_append, or_imp, forall_and, Bool.decide_and]
  exact Bool.and_comm _ _

/-- What is listed in a tree stays so as long as nothing of it is taken away. -/
theorem children_without {treeid : UInt64}
    (kept : ∀ child ∈ fs.children treeid, ∀ place ∈ gone, ¬ place <+: child.place) :
    (fs.without gone).children treeid = fs.children treeid := by
  -- A child that is not below any of the places is still among the directories.
  rw [children, children, without, List.filter_filter]
  congr 1
  refine List.filter_congr fun dir member => ?_
  rw [Bool.and_eq_left_iff_imp, decide_eq_true_eq, decide_eq_true_eq]
  rintro ⟨isSubvol, inner, parentId⟩
  exact kept dir (mem_children.mpr ⟨member, isSubvol, inner, parentId⟩)

/-- Nothing is listed in a tree any longer when all that was has been taken away. -/
theorem childless_without {treeid : UInt64}
    (all : ∀ child ∈ fs.children treeid, child.place ∈ gone) :
    (fs.without gone).children treeid = [] := by
  -- A child that is left was one before, and its own place is one of those.
  rw [List.eq_nil_iff_forall_not_mem]
  intro child listed
  obtain ⟨still, isSubvol, inner, parentId⟩ := mem_children.mp listed
  obtain ⟨found, spared⟩ := mem_without.mp still
  exact spared child.place (all child (mem_children.mpr ⟨found, isSubvol, inner, parentId⟩))
    (List.prefix_refl _)

end Without

end Fs

end Libbtrfs
