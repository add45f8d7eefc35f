import Libbtrfs.Subvol.Traversal

/-! Listing the direct children of a subvolume, by a callback and by the iterator, in one page. -/

namespace Libbtrfs.Subvol

section Listing

variable {Fd S : Type} (kernel : Kernel Fd) (f : Fd)
  (callback : Rootref → Bytes → Bytes → S → Except IoError Unit × S)

/-- The loop of `get_rootref`, which the first error ends. -/
def rootrefLoop : List Rootref → S → Except IoError Unit × S
  | [], state => (.ok (), state)
  | rref :: refs, state =>
    match pathStr kernel f rref.dirid rref.treeid with
    | .error error => (.error error, state)
    | .ok (lookup, name) =>
      match callback rref lookup name state with
      | (.error error, state) => (.error error, state)
      | (.ok (), state) => rootrefLoop refs state

/-- `subvol::fd::get_rootref`. -/
def getRootref (state : S) : Except IoError Unit × S :=
  match btrfsIoctl (kernel.getSubvolRootref f 0) with
  | .error error => (.error error, state)
  | .ok (rootref, numItems) => rootrefLoop kernel f callback (rootref.take numItems.toNat) state

/-- A callback that also writes down what it is called with. -/
def recording (callback : Rootref → Bytes → Bytes → S → Except IoError Unit × S) (rref : Rootref)
    (lookup name : Bytes) (state : S × List (Rootref × Bytes × Bytes)) :
    Except IoError Unit × S × List (Rootref × Bytes × Bytes) :=
  ((callback rref lookup name state.1).1,
    (callback rref lookup name state.1).2, state.2 ++ [(rref, lookup, name)])

end Listing

section Children

variable {Fd S : Type} {kernel : Kernel Fd} {f : Fd} {children : List (SubvolNode Fd)}
  {callback : Rootref → Bytes → Bytes → S → Except IoError Unit × S}

/-- How many children `btrfs_ioctl_get_subvol_rootref_args` has room for. -/
def rootrefMax : Nat := 255

/--
What the kernel lists: the children from a tree on, unless there are more of them than fit.

The room is always there, and behind the listed ones it holds something else.
-/
structure Lists (kernel : Kernel Fd) (f : Fd) (children : List (SubvolNode Fd)) : Prop where
  fits : ∀ minTreeid,
    (children.filter fun child => minTreeid ≤ child.treeid).length ≤ rootrefMax →
    ∃ slots count, kernel.getSubvolRootref f minTreeid = .ok (slots, count) ∧
      slots.length = rootrefMax ∧ slots.take count.toNat =
        (children.filter fun child => minTreeid ≤ child.treeid).map SubvolNode.rootref
  overflows : ∀ minTreeid,
    rootrefMax < (children.filter fun child => minTreeid ≤ child.treeid).length →
    kernel.getSubvolRootref f minTreeid = .error (.os eoverflow)

/-- The tree of an entry of the stack. -/
def treeidOf : Ent Fd → UInt64
  | .vol treeid _ _ _ _ => treeid
  | .rootVol treeid _ => treeid

/-- What the callback is called with for a child. -/
def called (child : SubvolNode Fd) : Rootref × Bytes × Bytes :=
  (child.rootref, child.lookup.bytes, child.name.bytes)

/-- The callback fails for none of the children that another one comes behind. -/
def Passes (callback : Rootref → Bytes → Bytes → S → Except IoError Unit × S) :
    List (SubvolNode Fd) → S → Prop
  | [], _ => True
  | [_], _ => True
  | child :: next :: rest, state =>
    (callback child.rootref child.lookup.bytes child.name.bytes state).1 = .ok () ∧
      Passes callback (next :: rest)
        (callback child.rootref child.lookup.bytes child.name.bytes state).2

/-- `get_rootref` calls its callback once for each of the children. -/
def CallsEach (kernel : Kernel Fd) (f : Fd) (children : List (SubvolNode Fd))
    (callback : Rootref → Bytes → Bytes → S → Except IoError Unit × S) (state : S) : Prop :=
  (getRootref kernel f (recording callback) (state, [])).2.2.Perm (children.map called)

/-- The first expansion of the iterator leaves each of the children on the stack once. -/
def PushesEach (kernel : Kernel Fd) (children : List (SubvolNode Fd)) (iter : Iter Fd) : Prop :=
  ∃ later, Iter.round kernel iter = .again later ∧
    (later.stack.map treeidOf).Perm (children.map SubvolNode.treeid)

/-- Every child comes from the first tree on. -/
private theorem filter_all (children : List (SubvolNode Fd)) :
    (children.filter fun child => 0 ≤ child.treeid) = children := by
  -- There is no smaller id.
  simp

/-- Children that fit are listed whole by the only ioctl that is made. -/
theorem Lists.page (lists : Lists kernel f children) (few : children.length ≤ rootrefMax) :
    ∃ slots count, btrfsIoctl (kernel.getSubvolRootref f 0) = .ok (slots, count) ∧
      slots.take count.toNat = children.map SubvolNode.rootref := by
  -- From the first tree on nothing is left out.
  have fits := lists.fits 0
  rw [filter_all] at fits
  obtain ⟨slots, count, answered, _, listed⟩ := fits few
  exact ⟨slots, count, by rw [answered]; rfl, listed⟩

/-- More children than fit are not listed at all. -/
theorem Lists.overflow (lists : Lists kernel f children) (many : rootrefMax < children.length) :
    btrfsIoctl (kernel.getSubvolRootref f 0) = .error (.os eoverflow) := by
  -- From the first tree on nothing is left out.
  have overflows := lists.overflows 0
  rw [filter_all] at overflows
  rw [overflows many]
  rfl

/-- A child that the kernel looks up has its path and its name handed out. -/
theorem pathStr_found {child : SubvolNode Fd} (found : child.Found kernel f) :
    pathStr kernel f child.dirid child.treeid = .ok (child.lookup.bytes, child.name.bytes) := by
  -- The ioctl answers with both, and each is a C string.
  obtain ⟨path, name, looked, lookup, named⟩ := found
  rw [pathStr, looked]
  simp only [btrfsIoctl, lookup, named]

/-- Behind a child for which the callback passes, it is to pass for the rest of them. -/
theorem passes_cons {child : SubvolNode Fd} {state : S}
    (passed : (callback child.rootref child.lookup.bytes child.name.bytes state).1 = .ok ()) :
    Passes callback (child :: children) state ↔ Passes callback children
      (callback child.rootref child.lookup.bytes child.name.bytes state).2 := by
  -- Whether it passes for the last child does not matter.
  cases children with
  | nil => exact Iff.rfl
  | cons next rest => exact and_iff_right passed

/-- The loop calls its callback with the first of its entries, and with all of them if it passes. -/
theorem rootrefLoop_calls (found : ∀ child ∈ children, child.Found kernel f) (state : S)
    (calls : List (Rootref × Bytes × Bytes)) :
    ∃ front rest, children = front ++ rest ∧ (rest = [] ↔ Passes callback children state) ∧
      (rootrefLoop kernel f (recording callback) (children.map SubvolNode.rootref)
        (state, calls)).2.2 = calls ++ front.map called := by
  -- The induction is on the children, each of which is looked up and handed on.
  induction children generalizing state calls with
  | nil => exact ⟨[], [], rfl, iff_of_true rfl trivial, (List.append_nil calls).symm⟩
  | cons child children ih =>
    have first := pathStr_found (found child List.mem_cons_self)
    rw [List.map_cons, rootrefLoop]
    simp only [SubvolNode.rootref, first, recording]
    cases passed : callback child.rootref child.lookup.bytes child.name.bytes state with
    | mk result after =>
      cases result with
      | error error =>
        -- The callback has been called all the same, but for no child behind this one.
        refine ⟨[child], children, rfl, ?_, ?_⟩
        · cases children with
          | nil => exact iff_of_true rfl trivial
          | cons next rest =>
            refine iff_of_false (List.cons_ne_nil next rest) fun passes => ?_
            have failed := (congrArg Prod.fst passed).symm.trans passes.1
            cases failed
        · rw [SubvolNode.rootref] at passed
          simp only [passed]
          rfl
      | ok done =>
        obtain ⟨front, rest, whole, complete, calls_rest⟩ :=
          ih (fun other inside => found other (.tail _ inside)) after (calls ++ [called child])
        refine ⟨child :: front, rest, by rw [whole, List.cons_append], ?_, ?_⟩
        · rw [passes_cons (congrArg Prod.fst passed), passed]
          exact complete
        · rw [SubvolNode.rootref] at passed
          simp only [passed]
          rw [List.map_cons, List.append_cons calls (called child)]
          exact calls_rest

/-- `get_rootref` calls its callback with each child exactly when they fit and the callback passes. -/
theorem callsEach_iff (lists : Lists kernel f children)
    (found : ∀ child ∈ children, child.Found kernel f) (state : S) :
    CallsEach kernel f children callback state ↔
      children.length ≤ rootrefMax ∧ Passes callback children state := by
  rw [CallsEach, getRootref]
  by_cases few : children.length ≤ rootrefMax
  · obtain ⟨slots, count, answered, listed⟩ := lists.page few
    obtain ⟨front, rest, whole, complete, calls⟩ :=
      @rootrefLoop_calls _ _ _ _ _ callback found state []
    simp only [answered, listed, calls, List.nil_append, and_iff_right few, ← complete]
    refine ⟨fun same => ?_, fun all => ?_⟩
    · have counted := same.length_eq
      rw [whole, List.length_map, List.length_map, List.length_append] at counted
      exact List.length_eq_zero_iff.mp (by omega)
    · rw [whole, all, List.append_nil]
  · -- The ioctl fails, and no child is seen.
    refine ⟨fun calls => ?_, fun fits => absurd fits.1 few⟩
    simp only [lists.overflow (Nat.lt_of_not_le few)] at calls
    have none := calls.length_eq
    rw [List.length_nil, List.length_map] at none
    omega

/-- The kernel opens a child by the path that it has looked up. -/
def Opens (kernel : Kernel Fd) (f : Fd) (child : SubvolNode Fd) : Prop :=
  ∃ fd, kernel.openat f (child.lookup.bytes ++ child.name.bytes) = .ok fd

/-- A child of the root goes on the stack when it can be opened, and is an error when it cannot. -/
theorem pushRef_cases {child : SubvolNode Fd} (found : child.Found kernel f) (parentId : UInt64)
    (color : Color) (withPath : Bool) (iter : Iter Fd) :
    (Opens kernel f child ∧ ∃ later, Iter.pushRef kernel parentId f true color
        (if withPath then some none else none) child.rootref iter = (.ok (), later) ∧
        later.stack.map treeidOf = child.treeid :: iter.stack.map treeidOf) ∨
      (¬Opens kernel f child ∧ ∃ error later, Iter.pushRef kernel parentId f true color
        (if withPath then some none else none) child.rootref iter = (.error error, later)) := by
  -- The child has been looked up, so only its path may fail to be opened.
  obtain ⟨buffer, pushed⟩ := Iter.pushRef_found found parentId true color withPath none iter
  rw [Option.map_none] at pushed
  cases opened : kernel.openat f (child.lookup.bytes ++ child.name.bytes) with
  | error error =>
    rw [opened] at pushed
    refine Or.inr ⟨fun ⟨fd, opens⟩ => ?_, error, _, pushed⟩
    exact nomatch opened.symm.trans opens
  | ok fd =>
    rw [opened] at pushed
    exact Or.inl ⟨⟨fd, opened⟩, _, pushed, rfl⟩

/-- Children that can be opened are all put on the stack. -/
theorem pushLoop_opens (found : ∀ child ∈ children, child.Found kernel f)
    (opens : ∀ child ∈ children, Opens kernel f child) (parentId : UInt64) (color : Color)
    (withPath : Bool) (iter : Iter Fd) :
    ∃ later, Iter.pushLoop kernel parentId f true color (if withPath then some none else none)
        (children.map SubvolNode.rootref) iter = (.ok (), later) ∧
      later.stack.map treeidOf =
        (children.map SubvolNode.treeid).reverse ++ iter.stack.map treeidOf := by
  -- The induction is on the children, each of which goes on top of the earlier ones.
  induction children generalizing iter with
  | nil => exact ⟨iter, rfl, rfl⟩
  | cons child children ih =>
    rcases pushRef_cases (found child List.mem_cons_self) parentId color withPath iter with
      ⟨_, between, pushed, top⟩ | ⟨refused, _⟩
    · obtain ⟨later, rest, stack⟩ := ih (fun other inside => found other (.tail _ inside))
        (fun other inside => opens other (.tail _ inside)) between
      refine ⟨later, ?_, ?_⟩
      · rw [List.map_cons, Iter.pushLoop, pushed]
        exact rest
      · rw [stack, top, List.map_cons, List.reverse_cons, List.append_assoc]
        rfl
    · exact absurd (opens child List.mem_cons_self) refused

/-- A child that cannot be opened makes the loop fail. -/
theorem pushLoop_refused (found : ∀ child ∈ children, child.Found kernel f)
    (refused : ∃ child ∈ children, ¬Opens kernel f child) (parentId : UInt64) (color : Color)
    (withPath : Bool) (iter : Iter Fd) :
    ∃ error later, Iter.pushLoop kernel parentId f true color
      (if withPath then some none else none) (children.map SubvolNode.rootref) iter =
        (.error error, later) := by
  -- The induction is on the children, up to the first one that cannot be opened.
  induction children generalizing iter with
  | nil =>
    obtain ⟨child, inside, _⟩ := refused
    exact nomatch inside
  | cons child children ih =>
    rcases pushRef_cases (found child List.mem_cons_self) parentId color withPath iter with
      ⟨opens, between, pushed, _⟩ | ⟨_, error, later, pushed⟩
    · obtain ⟨other, inside, closed⟩ := refused
      have behind : other ∈ children := by
        refine (List.mem_cons.mp inside).resolve_left fun same => ?_
        rw [same] at closed
        exact closed opens
      obtain ⟨error, later, rest⟩ := ih (fun next inside => found next (.tail _ inside))
        ⟨other, behind, closed⟩ between
      refine ⟨error, later, ?_⟩
      rw [List.map_cons, Iter.pushLoop, pushed]
      exact rest
    · refine ⟨error, later, ?_⟩
      rw [List.map_cons, Iter.pushLoop, pushed]

/-- The first expansion pushes each child exactly when they fit and each of them can be opened. -/
theorem pushesEach_iff (lists : Lists kernel f children)
    (found : ∀ child ∈ children, child.Found kernel f) {flags : Flags} {iter : Iter Fd}
    (made : Iter.new kernel f flags = .ok iter) :
    PushesEach kernel children iter ↔
      children.length ≤ rootrefMax ∧ ∀ child ∈ children, Opens kernel f child := by
  -- The iterator has nothing but its root on the stack.
  obtain ⟨treeid, rfl⟩ : ∃ treeid, iter = ⟨[.rootVol treeid f], flags, []⟩ := by
    rw [Iter.new] at made
    split at made
    · cases made
    · cases made
      exact ⟨_, rfl⟩
  unfold PushesEach Iter.round Iter.pushRefs
  dsimp only
  by_cases few : children.length ≤ rootrefMax
  · obtain ⟨slots, count, answered, listed⟩ := lists.page few
    -- In one of the two orders the children go through the loop.
    obtain ⟨order, refs, same⟩ : ∃ order : List (SubvolNode Fd),
        (if flags.contains .descending then slots.take count.toNat
          else (slots.take count.toNat).reverse) = order.map SubvolNode.rootref ∧
        order.Perm children := by
      rw [listed]
      split
      · exact ⟨children, rfl, List.Perm.refl _⟩
      · exact ⟨children.reverse, List.map_reverse.symm, List.reverse_perm children⟩
    have found_order : ∀ child ∈ order, child.Found kernel f := fun child inside =>
      found child (same.mem_iff.mp inside)
    simp only [answered, refs, and_iff_right few]
    by_cases opens : ∀ child ∈ children, Opens kernel f child
    · refine ⟨fun _ => opens, fun _ => ?_⟩
      obtain ⟨later, pushed, stack⟩ := pushLoop_opens found_order
        (fun child inside => opens child (same.mem_iff.mp inside)) treeid flags.color
        (flags.contains .getPath) ⟨[], flags, []⟩
      rw [Flags.color] at pushed
      refine ⟨later, ?_, ?_⟩
      · simp only [pushed]
      · rw [stack, List.map_nil, List.append_nil]
        exact (List.reverse_perm _).trans (same.map _)
    · refine ⟨fun pushed => ?_, fun all => absurd all opens⟩
      obtain ⟨later, pushes, _⟩ := pushed
      obtain ⟨child, unopened⟩ := not_forall.mp opens
      obtain ⟨inside, closed⟩ := Classical.not_imp.mp unopened
      obtain ⟨error, after, refused⟩ := pushLoop_refused found_order
        ⟨child, same.mem_iff.mpr inside, closed⟩ treeid flags.color (flags.contains .getPath)
        ⟨[], flags, []⟩
      rw [Flags.color] at refused
      simp only [refused] at pushes
      cases pushes
  · -- The ioctl fails, and so does the round.
    refine ⟨fun pushed => ?_, fun fits => absurd fits.1 few⟩
    obtain ⟨later, pushes, _⟩ := pushed
    simp only [lists.overflow (Nat.lt_of_not_le few)] at pushes
    cases pushes

/--
A listing is complete exactly when the children fit the one page that is asked for.

The callback is to pass for each child in front of the last, and for the iterator each of them is
to be opened.
-/
theorem lists_complete_iff (lists : Lists kernel f children)
    (found : ∀ child ∈ children, child.Found kernel f)
    (callback : Rootref → Bytes → Bytes → S → Except IoError Unit × S) (state : S) {flags : Flags}
    {iter : Iter Fd} (made : Iter.new kernel f flags = .ok iter) :
    (CallsEach kernel f children callback state ↔
      children.length ≤ rootrefMax ∧ Passes callback children state) ∧
    (PushesEach kernel children iter ↔
      children.length ≤ rootrefMax ∧ ∀ child ∈ children, Opens kernel f child) :=
  ⟨callsEach_iff lists found state, pushesEach_iff lists found made⟩

end Children

/-- The name of a subvolume in a crowd, two letters that depend on its tree. -/
def crowdName (treeid : UInt64) : UnixPath where
  bytes := [97 + (treeid.toUInt8 / 16), 97 + treeid.toUInt8 % 16]
  clean := by
    intro zero
    have first := treeid.toUInt8.toNat_lt
    simp only [List.mem_cons, List.not_mem_nil, or_false, ← UInt8.toNat_inj, UInt8.toNat_add,
      UInt8.toNat_div, UInt8.toNat_mod] at zero
    simp at zero
    omega

/-- A subvolume in a crowd. -/
def crowdNode (index : Nat) : SubvolNode Unit :=
  let treeid := UInt64.ofNat (256 + index)
  ⟨treeid, 256, ⟨[], UnixPath.clean_nil⟩, crowdName treeid, ()⟩

/-- As many subvolumes below one as are asked for. -/
def crowd (count : Nat) : List (SubvolNode Unit) := (List.range count).map crowdNode

/-- A kernel with that many subvolumes below the top level. -/
def crowdKernel (count : Nat) : Kernel Unit where
  getSubvolRootref _ minTreeid :=
    let left := (crowd count).filter fun child => minTreeid ≤ child.treeid
    if left.length ≤ rootrefMax then
      .ok (left.map SubvolNode.rootref ++ List.replicate (rootrefMax - left.length) ⟨0, 0⟩,
        UInt8.ofNat left.length)
    else .error (.os eoverflow)
  inoLookupUser _ _ treeid := .ok ([0], toBytesWithNul (crowdName treeid).bytes)
  inoLookup _ _ := .ok 5
  openat _ _ := .ok ()

/-- That kernel lists as many as fit. -/
theorem crowd_lists (count : Nat) : Lists (crowdKernel count) () (crowd count) := by
  -- The page has room for as many children as its counter can hold.
  refine ⟨fun minTreeid few => ?_, fun minTreeid many => ?_⟩
  · have width : (UInt8.ofNat ((crowd count).filter
        fun child => minTreeid ≤ child.treeid).length).toNat =
        ((crowd count).filter fun child => minTreeid ≤ child.treeid).length := by
      rw [UInt8.toNat_ofNat']
      exact Nat.mod_eq_of_lt (Nat.lt_succ_of_le few)
    refine ⟨_, _, if_pos few, ?_, ?_⟩
    · rw [List.length_append, List.length_map, List.length_replicate]
      omega
    · rw [width]
      exact List.take_left' (List.length_map _)
  · exact if_neg (Nat.not_le_of_lt many)

/-- It looks all of them up. -/
theorem crowd_found (count : Nat) : ∀ child ∈ crowd count, child.Found (crowdKernel count) () := by
  -- They lie in the top directory, with a name of one byte.
  intro child inside
  obtain ⟨index, _, rfl⟩ := List.mem_map.mp inside
  exact ⟨[0], _, rfl, rfl, fromPtr_toBytesWithNul (crowdName _).clean⟩

/-- Two subvolumes fit the page. -/
theorem lists_complete_iff_pair :
    (CallsEach (crowdKernel 2) () (crowd 2) (fun _ _ _ state => (.ok (), state)) () ↔
      (crowd 2).length ≤ rootrefMax ∧ Passes (fun _ _ _ state => (.ok (), state)) (crowd 2) ()) ∧
    (PushesEach (crowdKernel 2) (crowd 2) ⟨[.rootVol 5 ()], .getPath, []⟩ ↔
      (crowd 2).length ≤ rootrefMax ∧ ∀ child ∈ crowd 2, Opens (crowdKernel 2) () child) :=
  lists_complete_iff (crowd_lists 2) (crowd_found 2) _ () rfl

/-- Of 256 subvolumes neither the callback nor the iterator sees a single one. -/
theorem lists_incomplete_crowd :
    ¬CallsEach (crowdKernel 256) () (crowd 256) (fun _ _ _ state => (.ok (), state)) () ∧
      ¬PushesEach (crowdKernel 256) (crowd 256) ⟨[.rootVol 5 ()], .getPath, []⟩ := by
  -- One child more than fits makes the ioctl fail.
  have many : ¬(crowd 256).length ≤ rootrefMax := by
    rw [crowd, List.length_map, List.length_range]
    decide
  have made : Iter.new (crowdKernel 256) () .getPath = .ok ⟨[.rootVol 5 ()], .getPath, []⟩ := rfl
  refine ⟨fun calls => many ?_, fun pushes => many ?_⟩
  · exact ((callsEach_iff (crowd_lists 256) (crowd_found 256) ()).mp calls).1
  · exact ((pushesEach_iff (crowd_lists 256) (crowd_found 256) made).mp pushes).1

end Libbtrfs.Subvol
