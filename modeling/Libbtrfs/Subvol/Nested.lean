import Libbtrfs.Subvol.FileSystemLaws
import Libbtrfs.Subvol.Traversal

/-! The subvolumes inside one of a filesystem, as a forest that the kernel answers about. -/

namespace Libbtrfs

/-- The name of a directory has no zero in it. -/
theorem Dir.name_clean (dir : Dir) : 0 ∉ dir.name := by
  -- The root has no name, and any other one is that of a directory.
  unfold Dir.name
  cases dir.place.getLast? with
  | none => simp
  | some name => exact name.named.2.2.2.1

/-- The path that names make, with separators between them. -/
def namesPath (names : List Name) : Bytes :=
  text names.dropLast ++ (names.getLast?.map Name.bytes).getD []

@[simp] theorem namesPath_append (front : List Name) (last : Name) :
    namesPath (front ++ [last]) = text front ++ last.bytes := by
  -- The last name has no separator behind it.
  simp [namesPath]

/-- A subvolume as the iterator comes to know it from the one that it is listed in. -/
def Dir.node (parent child : Dir) : SubvolNode Place where
  treeid := child.treeid
  dirid := child.dirid
  lookup := ⟨text (child.place.dropLast.drop parent.place.length), Fs.text_clean _⟩
  name := ⟨child.name, child.name_clean⟩
  f := child.place

namespace Fs

/-- The subvolumes inside another one, so many levels of them. -/
def below (fs : Fs) : Nat → Dir → Forest (SubvolNode Place)
  | 0, _ => .nil
  | depth + 1, subvol =>
    .graft (Dir.node subvol) (fs.below depth) (fs.children subvol.treeid)

section Child

variable {fs : Fs} {subvol child : Dir} (member : subvol ∈ fs.dirs) (isSubvol : subvol.Subvol)
  (listed : child ∈ fs.children subvol.treeid)

include member isSubvol listed

/-- The names from a subvolume to one that is listed in it. -/
theorem child_names : ∃ (front : List Name) (last : Name),
    child.place = subvol.place ++ (front ++ [last]) ∧
      (subvol.node child).lookup.bytes = text front ∧ (subvol.node child).name.bytes = last.bytes := by
  -- The subvolume is on the way to the directory that the child is in.
  obtain ⟨last, whole, name⟩ := place_name (mem_children.mp listed).2.2.1
  obtain ⟨front, inside⟩ := child_below member isSubvol listed
  refine ⟨front, last, ?_, ?_, name⟩
  · rw [← List.append_assoc, inside]
    exact whole
  · simp only [Dir.node, ← inside, List.drop_left]

/-- The kernel opens what is listed in a subvolume by its path from there. -/
theorem child_opens : fs.openat subvol.place
    ((subvol.node child).lookup.bytes ++ (subvol.node child).name.bytes) = .ok child.place := by
  -- Following its names from the subvolume leads to the child, which exists.
  obtain ⟨front, last, place, lookup, name⟩ := child_names member isSubvol listed
  rw [lookup, name, openat_names]
  exact walk_there (mem_children.mp listed).1 place

/-- The kernel tells the directory and the name of what is listed in a subvolume. -/
theorem child_lookup : fs.inoLookupUser subvol.place child.dirid child.treeid =
    .ok (toBytesWithNul (subvol.node child).lookup.bytes,
      toBytesWithNul (subvol.node child).name.bytes) := by
  have here : fs.at? subvol.place = some subvol := at?_eq_some.mpr ⟨member, rfl⟩
  -- No other subvolume has its tree id.
  have found : (fs.children subvol.treeid).find?
      (fun other => other.rootref = ⟨child.treeid, child.dirid⟩) = some child := by
    cases search : (fs.children subvol.treeid).find?
        (fun other => other.rootref = ⟨child.treeid, child.dirid⟩) with
    | none =>
      have missing := List.find?_eq_none.mp search child listed
      simp [Dir.rootref] at missing
    | some other =>
      have same := List.find?_some search
      simp only [Dir.rootref, Rootref.mk.injEq, decide_eq_true_eq] at same
      obtain ⟨there, otherSubvol, _⟩ := mem_children.mp (List.mem_of_find?_eq_some search)
      obtain ⟨present, childSubvol, _⟩ := mem_children.mp listed
      rw [fs.trees other there child present otherSubvol childSubvol same.1]
  simp only [inoLookupUser, here, found]
  rw [if_pos (child_below member isSubvol listed)]
  rfl

end Child

/-- The kernel lists what is inside a subvolume, as long as there is room for it. -/
theorem answers {fs : Fs} {subvol : Dir} (member : subvol ∈ fs.dirs) (isSubvol : subvol.Subvol)
    (few : (fs.children subvol.treeid).length ≤ 255) :
    Answers fs.kernel subvol.place ((fs.children subvol.treeid).map (Dir.node subvol)) := by
  constructor
  · have here : fs.at? subvol.place = some subvol := at?_eq_some.mpr ⟨member, rfl⟩
    -- All tree ids come behind the one that the search starts at.
    have all : (fs.children subvol.treeid).filter (fun child => (0 : UInt64) ≤ child.treeid) =
        fs.children subvol.treeid := by
      rw [List.filter_eq_self]
      intro child _
      simp
    refine ⟨_, _, by
      simp only [kernel, getSubvolRootref, here, all, if_pos few]
      exact rfl, ?_⟩
    have count : (UInt8.ofNat (fs.children subvol.treeid).length).toNat =
        (fs.children subvol.treeid).length := by
      rw [UInt8.toNat_ofNat']
      omega
    rw [count, List.take_of_length_le (by rw [List.length_map]), List.map_map]
    rfl
  · intro node member'
    obtain ⟨child, listed, same⟩ := List.mem_map.mp member'
    rw [← same]
    refine ⟨_, _, child_lookup member isSubvol listed, ?_, ?_⟩
    · exact fromPtr_toBytesWithNul (subvol.node child).lookup.clean
    · exact fromPtr_toBytesWithNul (subvol.node child).name.clean
  · intro node member'
    obtain ⟨child, listed, same⟩ := List.mem_map.mp member'
    rw [← same]
    exact child_opens member isSubvol listed

/-- The kernel has room for the subvolumes that are listed in one, and for the paths to them. -/
structure Roomy (fs : Fs) (subvol : Dir) : Prop where
  few : (fs.children subvol.treeid).length ≤ 255
  lookups : ∀ child ∈ fs.children subvol.treeid,
    (text (child.place.dropLast.drop subvol.place.length)).length < inoLookupUserPathMax

instance (fs : Fs) (subvol : Dir) : Decidable (fs.Roomy subvol) :=
  decidable_of_iff
    ((fs.children subvol.treeid).length ≤ 255 ∧ ∀ child ∈ fs.children subvol.treeid,
      (text (child.place.dropLast.drop subvol.place.length)).length < inoLookupUserPathMax)
    ⟨fun both => ⟨both.1, both.2⟩, fun roomy => ⟨roomy.few, roomy.lookups⟩⟩

/-- Where it has room for them, the kernel lists what is inside a subvolume. -/
theorem Roomy.answers {fs now : Fs} {subvol : Dir} (roomy : fs.Roomy subvol)
    (member : subvol ∈ now.dirs) (isSubvol : subvol.Subvol)
    (same : now.children subvol.treeid = fs.children subvol.treeid) :
    Answers now.limited subvol.place ((fs.children subvol.treeid).map (Dir.node subvol)) := by
  obtain ⟨few, lookups⟩ := roomy
  rw [← same] at few lookups ⊢
  obtain ⟨refs, _, opened⟩ := Fs.answers member isSubvol few
  refine ⟨refs, fun node listing => ?_, fun node listing => ?_⟩
  · obtain ⟨child, listed, rfl⟩ := List.mem_map.mp listing
    refine ⟨_, _, ?_, fromPtr_toBytesWithNul (subvol.node child).lookup.clean,
      fromPtr_toBytesWithNul (subvol.node child).name.clean⟩
    have room := lookups child listed
    have called := child_lookup member isSubvol listed
    have short : (toBytesWithNul (subvol.node child).lookup.bytes).length ≤ inoLookupUserPathMax := by
      rw [toBytesWithNul, List.length_append]
      exact room
    simp only [limited, Dir.node] at called short ⊢
    rw [called]
    exact if_pos short
  · have found := opened node listing
    obtain ⟨child, listed, rfl⟩ := List.mem_map.mp listing
    -- A name takes no more than 255 bytes behind the directory that it is in.
    obtain ⟨front, last, _, _, name⟩ := child_names member isSubvol listed
    have room := lookups child listed
    have short := last.named.2.2.2.2.2
    have fits : ((subvol.node child).lookup.bytes ++ (subvol.node child).name.bytes).length <
        pathMax := by
      rw [List.length_append, name]
      have inside : (subvol.node child).lookup.bytes.length < 3824 := room
      show _ < 4096
      omega
    exact (if_pos fits).trans found

/-- A filesystem goes no more than so many levels deeper than a subvolume. -/
def Deep (fs : Fs) (depth : Nat) (subvol : Dir) : Prop :=
  ∀ dir ∈ fs.dirs, dir.place.length ≤ subvol.place.length + depth

/-- Where the subvolumes inside another one are, each behind those inside it. -/
def places (fs : Fs) (depth : Nat) (subvol : Dir) : List Place :=
  ((fs.below depth subvol).visit true).map SubvolNode.f

/-- The places in a subvolume are those in its children, and theirs behind them. -/
theorem places_succ (fs : Fs) (depth : Nat) (subvol : Dir) :
    fs.places (depth + 1) subvol =
      (fs.children subvol.treeid).flatMap fun child => fs.places depth child ++ [child.place] := by
  -- In post order each child comes behind what is inside it.
  rw [places, below, Forest.visit_graft, List.map_flatMap]
  simp only [List.map_append]
  rfl

section Places

variable {fs : Fs} {depth : Nat} {subvol : Dir}

/-- From what is listed in a subvolume, a filesystem goes one level less deep. -/
theorem Deep.child (deep : fs.Deep (depth + 1) subvol) (member : subvol ∈ fs.dirs)
    (isSubvol : subvol.Subvol) {child : Dir} (listed : child ∈ fs.children subvol.treeid) :
    fs.Deep depth child := by
  -- The child is at least one name further down.
  intro dir there
  have bound := deep dir there
  have further := child_deeper member isSubvol listed
  omega

/-- No subvolume is listed in one from which the filesystem does not go any deeper. -/
theorem Deep.bottom (deep : fs.Deep 0 subvol) (member : subvol ∈ fs.dirs)
    (isSubvol : subvol.Subvol) : fs.children subvol.treeid = [] := by
  -- A child would be further down than anything is.
  rw [List.eq_nil_iff_forall_not_mem]
  intro child listed
  have bound := deep child (mem_children.mp listed).1
  have further := child_deeper member isSubvol listed
  omega

/-- The roots of what is inside a subvolume are those that are listed in it. -/
theorem roots_below (deep : fs.Deep depth subvol) (member : subvol ∈ fs.dirs)
    (isSubvol : subvol.Subvol) :
    (fs.below depth subvol).roots = (fs.children subvol.treeid).map (Dir.node subvol) := by
  -- At the bottom there are no children.
  cases depth with
  | zero => rw [deep.bottom member isSubvol, below, Forest.roots, List.map_nil]
  | succ depth => rw [below, Forest.roots_graft]

/-- The places are those of the subvolumes inside. -/
theorem mem_places (deep : fs.Deep depth subvol) (member : subvol ∈ fs.dirs)
    (isSubvol : subvol.Subvol) {place : Place} :
    place ∈ fs.places depth subvol ↔
      (∃ nested ∈ fs.dirs, nested.Subvol ∧ nested.place = place) ∧
        subvol.place <+: place ∧ subvol.place ≠ place := by
  -- The induction is on the levels: what is inside lies at or below one of the children.
  induction depth generalizing subvol with
  | zero =>
    refine ⟨fun impossible => ?_, ?_⟩
    · cases impossible
    · rintro ⟨⟨nested, there, nestedSubvol, rfl⟩, inside, different⟩
      obtain ⟨child, listed, _⟩ := nested_child member isSubvol there nestedSubvol inside different
      rw [deep.bottom member isSubvol] at listed
      cases listed
  | succ depth ih =>
    rw [places_succ]
    constructor
    · intro found
      obtain ⟨child, listed, inside⟩ := List.mem_flatMap.mp found
      obtain ⟨present, childSubvol, inner, _⟩ := mem_children.mp listed
      have front : subvol.place <+: child.place :=
        (child_below member isSubvol listed).trans (List.dropLast_prefix _)
      have further := child_deeper member isSubvol listed
      rcases List.mem_append.mp inside with deeper | here
      · obtain ⟨exists_there, below_child, _⟩ :=
          (ih (deep.child member isSubvol listed) present childSubvol).mp deeper
        refine ⟨exists_there, front.trans below_child, ?_⟩
        rintro rfl
        have back := below_child.length_le
        omega
      · rw [List.mem_singleton.mp here]
        refine ⟨⟨child, present, childSubvol, rfl⟩, front, ?_⟩
        intro same
        rw [same] at further
        omega
    · rintro ⟨⟨nested, there, nestedSubvol, rfl⟩, inside, different⟩
      obtain ⟨child, listed, front⟩ :=
        nested_child member isSubvol there nestedSubvol inside different
      obtain ⟨present, childSubvol, _⟩ := mem_children.mp listed
      refine List.mem_flatMap.mpr ⟨child, listed, List.mem_append.mpr ?_⟩
      by_cases same : child.place = nested.place
      · exact Or.inr (List.mem_singleton.mpr same.symm)
      · exact Or.inl ((ih (deep.child member isSubvol listed) present childSubvol).mpr
          ⟨⟨nested, there, nestedSubvol, rfl⟩, front, same⟩)

/-- No subvolume comes in front of one inside it, and none comes twice. -/
theorem places_order (deep : fs.Deep depth subvol) (member : subvol ∈ fs.dirs)
    (isSubvol : subvol.Subvol) :
    (fs.places depth subvol).Pairwise fun earlier later => ¬ earlier <+: later := by
  induction depth generalizing subvol with
  | zero => exact List.Pairwise.nil
  | succ depth ih =>
    rw [places_succ, List.pairwise_flatMap]
    -- All that comes with a child of the subvolume lies at or below the child.
    have within : ∀ child ∈ fs.children subvol.treeid,
        ∀ place ∈ fs.places depth child ++ [child.place], child.place <+: place := by
      intro child listed place inside
      obtain ⟨present, childSubvol, _⟩ := mem_children.mp listed
      rcases List.mem_append.mp inside with deeper | here
      · exact ((mem_places (deep.child member isSubvol listed) present childSubvol).mp deeper).2.1
      · obtain rfl := List.mem_singleton.mp here
        exact List.prefix_refl _
    constructor
    · intro child listed
      obtain ⟨present, childSubvol, _⟩ := mem_children.mp listed
      have lower := deep.child member isSubvol listed
      rw [List.pairwise_append]
      refine ⟨ih lower present childSubvol, List.pairwise_singleton _ _, ?_⟩
      intro earlier inside later here above
      rw [List.mem_singleton.mp here] at above
      obtain ⟨_, front, different⟩ := (mem_places lower present childSubvol).mp inside
      exact different (front.eq_of_length_le above.length_le)
    · refine (children_apart member isSubvol).imp_of_mem ?_
      intro one other first second apart earlier before later behind above
      have parted := (apart.symm.continued (within one first earlier before)).symm.continued
        (within other second later behind)
      exact parted.1 above

end Places

end Fs

end Libbtrfs
