import Libbtrfs.Core.Forest
import Libbtrfs.Subvol.Loop

/-! The iterator returns the subvolumes of a forest depth first, in the order of its flags. -/

namespace Libbtrfs

/-- A path or a name without a zero in it. -/
structure UnixPath where
  bytes : Bytes
  clean : 0 ∉ bytes

/-- The path of a directory that is the root of its subvolume is empty. -/
theorem UnixPath.clean_nil : 0 ∉ ([] : Bytes) := List.not_mem_nil

/-- What there is to know about a subvolume below another one. -/
structure SubvolNode (Fd : Type) where
  treeid : UInt64
  -- The directory that it lies in, by its inode and by its path inside the parent.
  dirid : UInt64
  lookup : UnixPath
  name : UnixPath
  f : Fd

namespace SubvolNode

variable {Fd : Type}

/-- How the parent lists the subvolume. -/
def rootref (node : SubvolNode Fd) : Rootref := ⟨node.treeid, node.dirid⟩

/-- The path of the subvolume, behind that of its parent. -/
def path (chain : Option UnixPath) (node : SubvolNode Fd) : UnixPath where
  bytes :=
    match chain with
    | none => node.lookup.bytes ++ node.name.bytes
    | some parent => parent.bytes ++ [separator] ++ node.lookup.bytes ++ node.name.bytes
  clean := by
    have lookup := node.lookup.clean
    have name := node.name.clean
    cases chain with
    | none => simp [lookup, name]
    | some parent => simp [parent.clean, lookup, name, separator]

/-- What the iterator is to return for the subvolume. -/
def item (withPath : Bool) (parentId : UInt64) (chain : Option UnixPath) (node : SubvolNode Fd) :
    SubvolItem Fd where
  f := node.f
  treeid := node.treeid
  parentId := parentId
  dirid := 100
  path := if withPath then some (toBytesWithNul (node.path chain).bytes) else none

@[simp] theorem item_treeid (withPath : Bool) (parentId : UInt64) (chain : Option UnixPath)
    (node : SubvolNode Fd) : (node.item withPath parentId chain).treeid = node.treeid := rfl

@[simp] theorem item_f (withPath : Bool) (parentId : UInt64) (chain : Option UnixPath)
    (node : SubvolNode Fd) : (node.item withPath parentId chain).f = node.f := rfl

/-- The entry of the stack that stands for the subvolume. -/
def ent (color : Color) (item : SubvolItem Fd) : Ent Fd :=
  .vol item.treeid item.parentId item.f color item.path

end SubvolNode

namespace Forest

variable {Fd : Type}

/-- The items of the subvolumes below a parent, each with its own parent. -/
def items (withPath : Bool) (parentId : UInt64) (chain : Option UnixPath) :
    Forest (SubvolNode Fd) → Forest (SubvolItem Fd)
  | nil => nil
  | cons node children rest =>
    cons (node.item withPath parentId chain)
      (children.items withPath node.treeid (some (node.path chain)))
      (rest.items withPath parentId chain)

/-- The paths of the subvolumes below a parent. -/
def paths (chain : Option UnixPath) : Forest (SubvolNode Fd) → Forest UnixPath
  | nil => nil
  | cons node children rest =>
    cons (node.path chain) (children.paths (some (node.path chain))) (rest.paths chain)

/-- The items of the roots are those that belong to the parent. -/
theorem roots_items (withPath : Bool) (parentId : UInt64) (chain : Option UnixPath)
    (forest : Forest (SubvolNode Fd)) :
    (forest.items withPath parentId chain).roots =
      forest.roots.map (SubvolNode.item withPath parentId chain) := by
  -- The items of the roots do not depend on what is below them.
  induction forest with
  | nil => rfl
  | cons node children rest _ ih => rw [items, roots, roots, ih, List.map_cons]

end Forest

/-- The kernel looks the subvolume up below its parent. -/
def SubvolNode.Found {Fd : Type} (kernel : Kernel Fd) (f : Fd) (node : SubvolNode Fd) : Prop :=
  ∃ path name, kernel.inoLookupUser f node.dirid node.treeid = .ok (path, name) ∧
    fromPtr path = node.lookup.bytes ∧ fromPtr name = node.name.bytes

/--
What the kernel answers about the direct children of a subvolume.

It lists no more of them than there is room for, names the directory of each inside the parent, and
opens each by that path.
-/
structure Answers {Fd : Type} (kernel : Kernel Fd) (f : Fd) (children : List (SubvolNode Fd)) :
    Prop where
  refs : ∃ slots count, kernel.getSubvolRootref f 0 = .ok (slots, count) ∧
    slots.take count.toNat = children.map SubvolNode.rootref
  lookups : ∀ child ∈ children, ∃ path name,
    kernel.inoLookupUser f child.dirid child.treeid = .ok (path, name) ∧
      fromPtr path = child.lookup.bytes ∧ fromPtr name = child.name.bytes
  opens : ∀ child ∈ children,
    kernel.openat f (child.lookup.bytes ++ child.name.bytes) = .ok child.f

/-- The kernel answers so about every subvolume of a forest. -/
def Forest.Served {Fd : Type} (kernel : Kernel Fd) : Forest (SubvolNode Fd) → Prop
  | nil => True
  | cons node children rest =>
    Answers kernel node.f children.roots ∧ children.Served kernel ∧ rest.Served kernel

namespace Iter

variable {Fd World : Type}

/-- What `push_refs` has as the path of the parent, with its terminating zero. -/
def basePath (chain : Option UnixPath) : Bytes :=
  ((chain.map UnixPath.bytes).map toBytesWithNul).getD []

/-- The path that `push_refs` makes is the one behind that of the parent. -/
theorem entPath_path (chain : Option UnixPath) (node : SubvolNode Fd) :
    entPath (basePath chain) node.lookup.bytes (toBytesWithNul node.name.bytes) =
      toBytesWithNul (node.path chain).bytes := by
  cases chain with
  | none => simp [entPath, basePath, toBytesWithNul, SubvolNode.path]
  | some parent =>
    -- The separator goes where the last byte of the base is, its zero.
    have joined : (parent.bytes ++ [0]).set ((parent.bytes ++ [0]).length - 1) separator =
        parent.bytes ++ [separator] := by
      rw [List.length_append, List.length_singleton, Nat.add_sub_cancel,
        List.set_append_right _ _ (Nat.le_refl _), Nat.sub_self]
      rfl
    simp only [entPath, basePath, Option.map_some, Option.getD_some, toBytesWithNul, joined,
      SubvolNode.path, List.append_assoc]

/-- Behind the path of the parent lies the path that is opened relative to the parent. -/
theorem entPath_drop (base lookup name : Bytes) :
    (entPath base lookup name).drop base.length = lookup ++ name := by
  -- The separator that is put in is a byte of the front.
  rw [entPath, List.append_assoc, List.drop_left' (List.length_set ..)]

/-- A child of a subvolume that has been found is opened by its path, and put on the stack. -/
theorem pushRef_found {kernel : Kernel Fd} {f : Fd} {child : SubvolNode Fd}
    (found : child.Found kernel f) (parentId : UInt64) (isRoot : Bool) (color : Color)
    (withPath : Bool) (chain : Option UnixPath) (iter : Iter Fd) :
    ∃ buffer, pushRef kernel parentId f isRoot color
        (if withPath then some (chain.map UnixPath.bytes) else none) child.rootref iter =
      match kernel.openat f (child.lookup.bytes ++ child.name.bytes) with
      | .error error => (.error error, ⟨iter.stack, iter.flags, buffer⟩)
      | .ok entFd =>
        (.ok (), ⟨.vol child.treeid parentId entFd color
          (child.item withPath parentId chain).path :: iter.stack, iter.flags, buffer⟩) := by
  obtain ⟨path, name, looked, lookup, named⟩ := found
  have found : pathStr kernel f child.dirid child.treeid =
      .ok (child.lookup.bytes, child.name.bytes) := by
    rw [pathStr, looked]
    simp only [btrfsIoctl, lookup, named]
  -- The path that is opened ends in front of the zero behind the name.
  have opened := fromPtr_joined child.lookup.clean child.name.clean
  rw [pushRef, SubvolNode.rootref, found]
  cases withPath with
  | false =>
    refine ⟨child.lookup.bytes ++ toBytesWithNul child.name.bytes, ?_⟩
    simp only [Bool.false_eq_true, if_false, pushEnt, opened]
    rfl
  | true =>
    refine ⟨iter.pathBuffer, ?_⟩
    have path := entPath_path chain child
    have dropped := entPath_drop (basePath chain) child.lookup.bytes
      (toBytesWithNul child.name.bytes)
    rw [path, basePath] at dropped
    rw [basePath] at path
    simp only [if_true, path, dropped, pushEnt, opened]
    rfl

/-- One child of a subvolume is looked up, opened and put on the stack. -/
theorem pushRef_answers {kernel : Kernel Fd} {f : Fd} {children : List (SubvolNode Fd)}
    (answers : Answers kernel f children) {child : SubvolNode Fd} (member : child ∈ children)
    (parentId : UInt64) (isRoot : Bool) (color : Color) (withPath : Bool)
    (chain : Option UnixPath) (iter : Iter Fd) :
    ∃ buffer, pushRef kernel parentId f isRoot color
        (if withPath then some (chain.map UnixPath.bytes) else none) child.rootref iter =
      (.ok (), ⟨SubvolNode.ent color (child.item withPath parentId chain) :: iter.stack,
        iter.flags, buffer⟩) := by
  -- Its path opens its own descriptor.
  obtain ⟨buffer, pushed⟩ := pushRef_found (answers.lookups child member) parentId isRoot color
    withPath chain iter
  refine ⟨buffer, ?_⟩
  rw [pushed, answers.opens child member]
  rfl

/-- The children of a subvolume go on the stack one after the other. -/
theorem pushLoop_answers {kernel : Kernel Fd} {f : Fd} {children : List (SubvolNode Fd)}
    (answers : Answers kernel f children) (parentId : UInt64) (isRoot : Bool) (color : Color)
    (withPath : Bool) (chain : Option UnixPath) (pushed : List (SubvolNode Fd))
    (inside : ∀ child ∈ pushed, child ∈ children) (iter : Iter Fd) :
    ∃ buffer, pushLoop kernel parentId f isRoot color
        (if withPath then some (chain.map UnixPath.bytes) else none)
        (pushed.map SubvolNode.rootref) iter =
      (.ok (), ⟨(pushed.map fun child =>
          SubvolNode.ent color (child.item withPath parentId chain)).reverse ++ iter.stack,
        iter.flags, buffer⟩) := by
  -- Each child goes on top of those in front of it.
  induction pushed generalizing iter with
  | nil => exact ⟨iter.pathBuffer, rfl⟩
  | cons child rest ih =>
    obtain ⟨buffer, first⟩ := pushRef_answers answers (inside child List.mem_cons_self) parentId
      isRoot color withPath chain iter
    obtain ⟨later, others⟩ := ih (fun other member => inside other (List.mem_cons_of_mem _ member))
      ⟨SubvolNode.ent color (child.item withPath parentId chain) :: iter.stack, iter.flags, buffer⟩
    refine ⟨later, ?_⟩
    rw [List.map_cons, pushLoop, first]
    simp only
    rw [others]
    simp

/-- The order in which the children of a subvolume are returned. -/
def returned (flags : Flags) (children : List (SubvolNode Fd)) : List (SubvolNode Fd) :=
  if flags.contains .descending then children.reverse else children

/-- All children go on the stack, with the one that is returned first on top. -/
theorem pushRefs_answers {kernel : Kernel Fd} {f : Fd} {children : List (SubvolNode Fd)}
    (answers : Answers kernel f children) (parentId : UInt64) (isRoot : Bool) (color : Color)
    (withPath : Bool) (chain : Option UnixPath) (iter : Iter Fd) :
    ∃ buffer, pushRefs kernel parentId f isRoot color
        (if withPath then some (chain.map UnixPath.bytes) else none) iter =
      (.ok (), ⟨(returned iter.flags children).map (fun child =>
          SubvolNode.ent color (child.item withPath parentId chain)) ++ iter.stack,
        iter.flags, buffer⟩) := by
  obtain ⟨slots, count, listed, filled⟩ := answers.refs
  rw [pushRefs, listed]
  simp only [btrfsIoctl, filled, returned]
  -- The stack turns the order round once more.
  by_cases descending : iter.flags.contains .descending = true
  · simp only [if_pos descending]
    obtain ⟨buffer, done⟩ := pushLoop_answers answers parentId isRoot color withPath chain
      children (fun child member => member) iter
    exact ⟨buffer, by rw [done, List.map_reverse]⟩
  · simp only [if_neg descending]
    obtain ⟨buffer, done⟩ := pushLoop_answers answers parentId isRoot color withPath chain
      children.reverse (fun child member => List.mem_reverse.mp member) iter
    exact ⟨buffer, by rw [← List.map_reverse, done, List.map_reverse, List.reverse_reverse]⟩

/-- Returning in descending order twice is returning in ascending order. -/
theorem returned_returned (flags : Flags) (children : List (SubvolNode Fd)) :
    returned flags (returned flags children) = children := by
  -- Reversing twice is not reversing at all.
  unfold returned
  split
  · exact List.reverse_reverse _
  · rfl

end Iter

section Loop

variable {Fd World : Type} {kernel : World → Kernel Fd}
  {body : World → Except IoError (SubvolItem Fd) → World}

/-- The body of the loop has been run for each of the subvolumes. -/
def visited (body : World → Except IoError (SubvolItem Fd) → World)
    (flags : Flags) (world : World) (found : Forest (SubvolItem Fd)) : World :=
  ((found.visit (flags.contains .postOrder)).map Except.ok).foldl body world

/--
The kernel answers about each subvolume when its children are asked for.

That is before the body of the loop has seen anything below it, and before or, in post order,
behind the subvolumes that come first.
-/
def Forest.Lives (kernel : World → Kernel Fd)
    (body : World → Except IoError (SubvolItem Fd) → World) (flags : Flags)
    (parentId : UInt64) (chain : Option UnixPath) :
    World → Forest (SubvolNode Fd) → Prop
  | _, nil => True
  | world, cons node children rest =>
    let item := node.item (flags.contains .getPath) parentId chain
    let below := children.items (flags.contains .getPath) node.treeid (some (node.path chain))
    let inside := if flags.contains .postOrder then world else body world (.ok item)
    Answers (kernel world) node.f (Iter.returned flags children.roots) ∧
      children.Lives kernel body flags node.treeid (some (node.path chain)) inside ∧
      rest.Lives kernel body flags parentId chain
        (visited body flags world (.cons item below .nil))

/-- The colour with which subvolumes go on the stack. -/
def Flags.color (flags : Flags) : Color := if flags.contains .postOrder then .grey else .preOrd

/-- The stack that stands for the subvolumes below a parent. -/
def Forest.stack (flags : Flags) (found : Forest (SubvolItem Fd)) : List (Ent Fd) :=
  found.roots.map (SubvolNode.ent flags.color)

/-- The path in an entry is read back as that of the subvolume. -/
theorem item_base (withPath : Bool) (parentId : UInt64) (chain : Option UnixPath)
    (node : SubvolNode Fd) :
    (node.item withPath parentId chain).path.map (fun pathBuf => some (fromPtr pathBuf)) =
      if withPath then some ((some (node.path chain)).map UnixPath.bytes) else none := by
  -- The path in an entry ends with a zero, which is not part of the path itself.
  cases withPath with
  | false => rfl
  | true =>
    have read := fromPtr_toBytesWithNul (node.path chain).clean
    simp only [SubvolNode.item, if_true, Option.map_some, read]

/-- The children of a subvolume go on the stack in the order in which they are returned. -/
theorem pushRefs_children {kernel : Kernel Fd} {flags : Flags} {f : Fd}
    {children : Forest (SubvolNode Fd)}
    (answers : Answers kernel f (Iter.returned flags children.roots)) (treeid : UInt64)
    (isRoot : Bool) (chain : Option UnixPath) (stack : List (Ent Fd)) (buffer : Bytes) :
    ∃ later, Iter.pushRefs kernel treeid f isRoot flags.color
        (if flags.contains .getPath then some (chain.map UnixPath.bytes) else none)
        ⟨stack, flags, buffer⟩ =
      (.ok (), ⟨(children.items (flags.contains .getPath) treeid chain).stack flags ++ stack,
        flags, later⟩) := by
  -- What is pushed are the items of the roots, in the order in which they are returned.
  obtain ⟨later, pushed⟩ := Iter.pushRefs_answers answers treeid isRoot flags.color
    (flags.contains .getPath) chain ⟨stack, flags, buffer⟩
  refine ⟨later, pushed.trans ?_⟩
  rw [Iter.returned_returned, Forest.stack, Forest.roots_items, List.map_map]
  rfl

/-- What goes back on the stack for a subvolume, below its children. -/
def again (flags : Flags) (item : SubvolItem Fd) : List (Ent Fd) :=
  if flags.contains .postOrder then [SubvolNode.ent .black item] else []

/-- What a round comes to, by what pushing the children of its subvolume comes to. -/
def roundEnd (flags : Flags) (item : SubvolItem Fd) :
    Except IoError Unit × Iter Fd → Iter.Round Fd
  | (.error error, iter) => .returns (.error error) iter
  | (.ok (), iter) =>
    if flags.contains .postOrder then .again iter else .returns (.ok item) iter

/-- The children of a subvolume are pushed in its place or, in post order, on top of it. -/
theorem round_ent {kernel : Kernel Fd} {flags : Flags} (node : SubvolNode Fd) (parentId : UInt64)
    (chain : Option UnixPath) (stack : List (Ent Fd)) (buffer : Bytes) :
    let item := node.item (flags.contains .getPath) parentId chain
    Iter.round kernel ⟨SubvolNode.ent flags.color item :: stack, flags, buffer⟩ =
      roundEnd flags item (Iter.pushRefs kernel node.treeid node.f false flags.color
        (if flags.contains .getPath then some ((some (node.path chain)).map UnixPath.bytes)
          else none)
        ⟨again flags item ++ stack, flags, buffer⟩) := by
  intro item
  rw [← item_base _ parentId]
  by_cases post : flags.contains .postOrder = true
  · -- The entry goes back below its children with the other colour.
    have grey : flags.color = .grey := by rw [Flags.color, if_pos post]
    simp only [again, if_pos post, grey, Iter.round, SubvolNode.ent, item, SubvolNode.item_treeid,
      SubvolNode.item_f, List.singleton_append]
    split
    · rename_i pushed
      rw [pushed, roundEnd]
    · rename_i pushed
      rw [pushed, roundEnd, if_pos post]
  · -- The children are pushed before the entry is returned, and come next.
    have preOrd : flags.color = .preOrd := by rw [Flags.color, if_neg post]
    simp only [again, if_neg post, preOrd, Iter.round, SubvolNode.ent, item, SubvolNode.item_treeid,
      SubvolNode.item_f, List.nil_append]
    split
    · rename_i pushed
      rw [pushed, roundEnd]
    · rename_i pushed
      rw [pushed, roundEnd, if_neg post]
      rfl

/-- A subvolume on top of the stack is replaced by its children and itself, in post order. -/
theorem round_grey {kernel : Kernel Fd} {flags : Flags}
    (post : flags.contains .postOrder = true) {node : SubvolNode Fd}
    {children : Forest (SubvolNode Fd)}
    (answers : Answers kernel node.f (Iter.returned flags children.roots)) (parentId : UInt64)
    (chain : Option UnixPath) (stack : List (Ent Fd)) (buffer : Bytes) :
    ∃ later, Iter.round kernel
        ⟨SubvolNode.ent flags.color (node.item (flags.contains .getPath) parentId chain) :: stack,
          flags, buffer⟩ =
      .again ⟨(children.items (flags.contains .getPath) node.treeid
          (some (node.path chain))).stack flags ++
        SubvolNode.ent .black (node.item (flags.contains .getPath) parentId chain) :: stack,
        flags, later⟩ := by
  -- In post-order the entry comes back to the stack, black, with its children above it.
  obtain ⟨later, pushed⟩ := pushRefs_children answers node.treeid false (some (node.path chain))
    (again flags (node.item (flags.contains .getPath) parentId chain) ++ stack) buffer
  refine ⟨later, ?_⟩
  rw [round_ent, pushed, roundEnd, if_pos post, again, if_pos post, List.singleton_append]

/-- A subvolume that is on top of the stack is returned, and replaced by its children. -/
theorem round_preOrd {kernel : Kernel Fd} {flags : Flags}
    (pre : ¬ flags.contains .postOrder = true) {node : SubvolNode Fd}
    {children : Forest (SubvolNode Fd)}
    (answers : Answers kernel node.f (Iter.returned flags children.roots)) (parentId : UInt64)
    (chain : Option UnixPath) (stack : List (Ent Fd)) (buffer : Bytes) :
    ∃ later, Iter.round kernel
        ⟨SubvolNode.ent flags.color (node.item (flags.contains .getPath) parentId chain) :: stack,
          flags, buffer⟩ =
      .returns (.ok (node.item (flags.contains .getPath) parentId chain))
        ⟨(children.items (flags.contains .getPath) node.treeid
          (some (node.path chain))).stack flags ++ stack, flags, later⟩ := by
  -- In pre-order the entry is returned, and its children take its place.
  obtain ⟨later, pushed⟩ := pushRefs_children answers node.treeid false (some (node.path chain))
    (again flags (node.item (flags.contains .getPath) parentId chain) ++ stack) buffer
  refine ⟨later, ?_⟩
  rw [round_ent, pushed, roundEnd, if_neg pre, again, if_neg pre, List.nil_append]

/-- A subvolume that has its children behind it is returned, in post order. -/
theorem round_black {kernel : Kernel Fd} {flags : Flags} (item : SubvolItem Fd)
    (root : item.dirid = 100) (stack : List (Ent Fd)) (buffer : Bytes) :
    Iter.round kernel ⟨SubvolNode.ent .black item :: stack, flags, buffer⟩ =
      .returns (.ok item) ⟨stack, flags, buffer⟩ := by
  -- Its children have come before it, so nothing is pushed.
  obtain ⟨f, treeid, parentId, dirid, path⟩ := item
  simp only at root
  subst root
  rfl

/-- The first tree of a forest is visited in front of the others. -/
theorem visited_cons (flags : Flags) (world : World) (item : SubvolItem Fd)
    (below rest : Forest (SubvolItem Fd)) :
    visited body flags world (.cons item below rest) =
      visited body flags (visited body flags world (.cons item below .nil)) rest := by
  -- Visiting a forest is visiting its trees from the first on.
  simp only [visited, Forest.visit, List.append_nil, List.map_append, List.foldl_append]

/-- In post order a root is visited behind what is below it. -/
theorem visited_post {flags : Flags} (post : flags.contains .postOrder = true) (world : World)
    (item : SubvolItem Fd) (below : Forest (SubvolItem Fd)) :
    visited body flags world (.cons item below .nil) =
      body (visited body flags world below) (.ok item) := by
  -- The root is the last item of its tree.
  simp only [visited, Forest.visit, post, if_true, List.append_nil, List.map_append,
    List.foldl_append, List.map_cons, List.map_nil, List.foldl_cons, List.foldl_nil]

/-- In the other order a root is visited in front of what is below it. -/
theorem visited_pre {flags : Flags} (pre : ¬ flags.contains .postOrder = true) (world : World)
    (item : SubvolItem Fd) (below : Forest (SubvolItem Fd)) :
    visited body flags world (.cons item below .nil) =
      visited body flags (body world (.ok item)) below := by
  -- The root is the first item of its tree.
  simp only [visited, Forest.visit, if_neg pre, List.append_nil, List.map_cons, List.foldl_cons]

/-- A loop over subvolumes that are on the stack comes to what is below them on it. -/
theorem drains_forest {flags : Flags} {forest : Forest (SubvolNode Fd)} {parentId : UInt64}
    {chain : Option UnixPath} {world after : World} {rest : List (Ent Fd)}
    (lives : forest.Lives kernel body flags parentId chain world)
    (further : ∀ buffer, Drains kernel body
      (visited body flags world (forest.items (flags.contains .getPath) parentId chain))
      ⟨rest, flags, buffer⟩ after) (buffer : Bytes) :
    Drains kernel body world
      ⟨(forest.items (flags.contains .getPath) parentId chain).stack flags ++ rest, flags, buffer⟩
      after := by
  -- The induction is on the trees, with whatever is below them on the stack.
  induction forest generalizing parentId chain world rest buffer with
  | nil => exact further buffer
  | cons node children others inner outer =>
    obtain ⟨answers, below, behind⟩ := lives
    -- What comes behind the tree is the same in both orders.
    have beyond : ∀ buffer, Drains kernel body
        (visited body flags world (.cons (node.item (flags.contains .getPath) parentId chain)
          (children.items (flags.contains .getPath) node.treeid (some (node.path chain))) .nil))
        ⟨(others.items (flags.contains .getPath) parentId chain).stack flags ++ rest, flags,
          buffer⟩ after := by
      refine outer behind fun buffer => ?_
      rw [← visited_cons]
      exact further buffer
    by_cases post : flags.contains .postOrder = true
    · obtain ⟨later, goes⟩ := round_grey post answers parentId chain
        ((others.items (flags.contains .getPath) parentId chain).stack flags ++ rest) buffer
      rw [if_pos post] at below
      rw [visited_post post] at beyond
      exact .again goes (inner below
        (fun buffer => .returns (round_black _ rfl _ buffer) (beyond buffer)) later)
    · obtain ⟨later, found⟩ := round_preOrd post answers parentId chain
        ((others.items (flags.contains .getPath) parentId chain).stack flags ++ rest) buffer
      rw [if_neg post] at below
      rw [visited_pre post] at beyond
      exact .returns found (inner below beyond later)

/-- A loop over a new iterator runs the body for each subvolume below the root. -/
theorem drains_root {flags : Flags} {forest : Forest (SubvolNode Fd)} {f : Fd} {treeid : UInt64}
    {world : World} (answers : Answers (kernel world) f (Iter.returned flags forest.roots))
    (lives : forest.Lives kernel body flags treeid none world) :
    Drains kernel body world ⟨[.rootVol treeid f], flags, []⟩
      (visited body flags world (forest.items (flags.contains .getPath) treeid none)) := by
  -- The root is replaced by its children, and nothing is below them on the stack.
  obtain ⟨later, pushed⟩ := pushRefs_children answers treeid true none [] []
  have goes : Iter.round (kernel world) ⟨[.rootVol treeid f], flags, []⟩ =
      .again ⟨(forest.items (flags.contains .getPath) treeid none).stack flags ++ [], flags,
        later⟩ := by
    simp only [Flags.color, Option.map_none] at pushed
    simp only [Iter.round, pushed]
  exact .again goes (drains_forest lives (fun buffer => .finished rfl) later)

end Loop

namespace Forest

variable {Fd World : Type}

/-- The subvolumes in the order in which they are returned. -/
def ordered (flags : Flags) (forest : Forest (SubvolNode Fd)) : Forest (SubvolNode Fd) :=
  if flags.contains .descending then forest.mirror else forest

/-- The kernel answers about subvolumes that stand in the order in which they are returned. -/
def Shown (kernel : Kernel Fd) (flags : Flags) : Forest (SubvolNode Fd) → Prop
  | nil => True
  | cons node children rest =>
    Answers kernel node.f (Iter.returned flags children.roots) ∧ children.Shown kernel flags ∧
      rest.Shown kernel flags

/-- What is shown of two forests is shown of both, one after the other. -/
theorem Shown.append {kernel : Kernel Fd} {flags : Flags} {one other : Forest (SubvolNode Fd)}
    (first : one.Shown kernel flags) (second : other.Shown kernel flags) :
    (one.append other).Shown kernel flags := by
  -- What is shown of the second forest stands where the first one ends.
  induction one with
  | nil => exact second
  | cons node children rest _ ih => exact ⟨first.1, first.2.1, ih first.2.2⟩

/-- The roots of a forest are listed in ascending order, whichever way they are returned. -/
theorem returned_ordered (flags : Flags) (forest : Forest (SubvolNode Fd)) :
    Iter.returned flags (forest.ordered flags).roots = forest.roots := by
  -- Mirroring the forest has reversed its roots, and returning reverses them again.
  unfold Iter.returned ordered
  split
  · rw [roots_mirror, List.reverse_reverse]
  · rfl

/-- What the kernel answers about a forest it answers in either order. -/
theorem Served.shown {kernel : Kernel Fd} (flags : Flags) {forest : Forest (SubvolNode Fd)}
    (served : forest.Served kernel) : (forest.ordered flags).Shown kernel flags := by
  -- Mirroring turns every list of siblings, so the answers hold for the turned lists.
  induction forest with
  | nil =>
    unfold ordered
    split
    · trivial
    · trivial
  | cons node children rest inner outer =>
    obtain ⟨answers, below, behind⟩ := served
    have first := inner below
    have second := outer behind
    rw [← returned_ordered flags] at answers
    unfold ordered at answers first second ⊢
    split
    · rename_i descending
      rw [if_pos descending] at answers first second
      exact second.append ⟨answers, first, trivial⟩
    · rename_i ascending
      rw [if_neg ascending] at answers first second
      exact ⟨answers, first, second⟩

/-- A kernel whose answers do not change gives them whenever it is asked. -/
theorem Shown.lives {kernel : Kernel Fd} {flags : Flags}
    (body : World → Except IoError (SubvolItem Fd) → World) {forest : Forest (SubvolNode Fd)}
    (shown : forest.Shown kernel flags) (parentId : UInt64) (chain : Option UnixPath)
    (world : World) : forest.Lives (fun _ => kernel) body flags parentId chain world := by
  -- Whatever the body of the loop has done, the answers are those of the one kernel.
  induction forest generalizing parentId chain world with
  | nil => trivial
  | cons node children rest inner outer =>
    exact ⟨shown.1, inner shown.2.1 _ _ _, outer shown.2.2 _ _ _⟩

/-- The items have the tree ids of the subvolumes. -/
theorem items_treeids (withPath : Bool) (parentId : UInt64) (chain : Option UnixPath) (post : Bool)
    (forest : Forest (SubvolNode Fd)) :
    ((forest.items withPath parentId chain).visit post).map SubvolItem.treeid =
      (forest.visit post).map SubvolNode.treeid := by
  -- Neither parents nor paths change which subvolumes there are, nor their order.
  induction forest generalizing parentId chain with
  | nil => rfl
  | cons node children rest inner outer =>
    simp only [items, visit, List.map_append, outer]
    cases post with
    | false => simp [inner]
    | true => simp [inner]

/-- The items of siblings are related as the siblings are, by their tree ids. -/
theorem siblings_items (Before : UInt64 → UInt64 → Prop) (withPath : Bool) (parentId : UInt64)
    (chain : Option UnixPath) {forest : Forest (SubvolNode Fd)}
    (siblings : forest.Siblings fun one other => Before one.treeid other.treeid) :
    (forest.items withPath parentId chain).Siblings fun one other =>
      Before one.treeid other.treeid := by
  -- Items of siblings are those of the roots that stand behind.
  induction forest generalizing parentId chain with
  | nil => trivial
  | cons node children rest inner outer =>
    obtain ⟨head, below, behind⟩ := siblings
    refine ⟨?_, inner _ _ below, outer _ _ behind⟩
    intro later member
    rw [roots_items] at member
    obtain ⟨other, found, same⟩ := List.mem_map.mp member
    rw [← same]
    exact head other found

/-- With the flag an item tells the path of its subvolume. -/
theorem item_pathText (parentId : UInt64) (chain : Option UnixPath) (node : SubvolNode Fd) :
    (node.item true parentId chain).pathText = .ok (node.path chain).bytes := by
  -- The item has the path with a zero behind it, and is read up to there.
  have clean := fromPtr_toBytesWithNul (node.path chain).clean
  simp only [SubvolItem.pathText, SubvolNode.item, if_true, clean]

/-- With the flag the items tell the paths of the subvolumes. -/
theorem items_paths (parentId : UInt64) (chain : Option UnixPath) (post : Bool)
    (forest : Forest (SubvolNode Fd)) :
    ((forest.items true parentId chain).visit post).map SubvolItem.pathText =
      ((forest.paths chain).visit post).map fun path => .ok path.bytes := by
  -- Both forests have the same shape, with the path of each subvolume in its place.
  induction forest generalizing parentId chain with
  | nil => rfl
  | cons node children rest inner outer =>
    have read := item_pathText parentId chain node
    simp only [items, paths, visit, List.map_append, outer]
    cases post with
    | false => simp [inner, read]
    | true => simp [inner, read]

/-- In the order in which they are returned, siblings stand by their tree ids as the flag says. -/
theorem siblings_ordered (flags : Flags) {forest : Forest (SubvolNode Fd)}
    (ascending : forest.Siblings fun one other => one.treeid < other.treeid) :
    (forest.ordered flags).Siblings fun one other =>
      if flags.contains .descending then other.treeid < one.treeid
      else one.treeid < other.treeid := by
  -- Mirroring swaps earlier and later siblings.
  unfold ordered
  split
  · exact ascending.mirror
  · exact ascending

end Forest

/-- All that an iterator returns, in the order in which it does so. -/
def collect {Fd : Type} (kernel : Kernel Fd) (fuel : Nat) (iter : Iter Fd) :
    Option (List (Except IoError (SubvolItem Fd))) :=
  forEach (fun _ => kernel) (fun items item => items ++ [item]) fuel [] iter

/-- Appending one item after the other appends all of them. -/
theorem foldl_snoc {α : Type} (front items : List α) :
    items.foldl (fun items item => items ++ [item]) front = front ++ items := by
  -- The fold appends a list of one item each time.
  rw [List.foldl_append_eq_append, ← List.flatMap_def, List.flatMap_singleton']

/-- Appending one item after the other collects the items in the order of the visit. -/
theorem visited_collect {Fd : Type} (flags : Flags) (found : Forest (SubvolItem Fd)) :
    visited (fun items item => items ++ [item]) flags [] found =
      (found.visit (flags.contains .postOrder)).map Except.ok := by
  -- The items are collected in the order of the visit.
  rw [visited, foldl_snoc, List.nil_append]

/--
The iterator returns the subvolumes below its root depth first, each of them once.

Every subvolume comes in front of those below it or, in post order, behind them, and siblings come
by their tree ids. The item of a subvolume names it and its parent, and with the flag for it the
path is that of the directories and names from the root on.
-/
theorem iter_traverses {Fd : Type} (kernel : Kernel Fd) (root : Fd) (treeid : UInt64)
    (found : kernel.inoLookup root firstFreeObjectid = .ok treeid)
    (forest : Forest (SubvolNode Fd)) (answers : Answers kernel root forest.roots)
    (served : forest.Served kernel)
    (ascending : forest.Siblings fun one other => one.treeid < other.treeid) (flags : Flags) :
    let items := (forest.ordered flags).items (flags.contains .getPath) treeid none
    let order := items.visit (flags.contains .postOrder)
    (∃ iter, Iter.new kernel root flags = .ok iter ∧
        ∃ enough, ∀ fuel, enough ≤ fuel →
          collect kernel fuel iter = some (order.map Except.ok)) ∧
      (order.map SubvolItem.treeid).Perm ((forest.visit false).map SubvolNode.treeid) ∧
      (items.Siblings fun one other =>
        if flags.contains .descending then other.treeid < one.treeid
        else one.treeid < other.treeid) ∧
      (flags.contains .getPath = true → order.map SubvolItem.pathText =
        (((forest.ordered flags).paths none).visit (flags.contains .postOrder)).map
          fun path => .ok path.bytes) := by
  -- The loop visits the items, and the items are those of the ordered forest.
  intro items order
  refine ⟨?_, ?_, ?_, ?_⟩
  · refine ⟨⟨[.rootVol treeid root], flags, []⟩, ?_, ?_⟩
    · simp only [Iter.new, lookupTreeid, found, btrfsIoctl]
    · -- The kernel does not change, so it answers about every subvolume when it is asked.
      rw [← Forest.returned_ordered flags] at answers
      have lives := (served.shown flags).lives (fun items item => items ++ [item]) treeid none []
      obtain ⟨enough, done⟩ := (drains_root answers lives).forEach
      refine ⟨enough, fun fuel more => ?_⟩
      rw [collect, done fuel more, visited_collect]
  · rw [Forest.items_treeids]
    refine List.Perm.map _ ((Forest.visit_perm _ _).trans ?_)
    unfold Forest.ordered
    split
    · exact forest.mirror_perm
    · exact List.Perm.refl _
  · exact Forest.siblings_items
      (fun one other => if flags.contains .descending then other < one else one < other) _ _ _
      (Forest.siblings_ordered flags ascending)
  · intro withPath
    have read := Forest.items_paths treeid none (flags.contains .postOrder) (forest.ordered flags)
    rw [← withPath] at read
    exact read

/-- A kernel with one subvolume in a directory below the root, and another one inside it. -/
def nestedKernel : Kernel Nat where
  getSubvolRootref f _ :=
    match f with
    | 0 => .ok ([⟨257, 260⟩], 1)
    | 1 => .ok ([⟨258, 256⟩], 1)
    | _ => .ok ([], 0)
  inoLookupUser f _ _ :=
    match f with
    | 0 => .ok ([100, 47, 0], [97, 0])
    | _ => .ok ([0], [98, 0])
  inoLookup _ _ := .ok 5
  openat f _ := .ok (f + 1)

/-- The subvolumes of that kernel. -/
def nestedForest : Forest (SubvolNode Nat) :=
  .cons ⟨257, 260, ⟨[100, 47], by decide⟩, ⟨[97], by decide⟩, 1⟩
    (.cons ⟨258, 256, ⟨[], by decide⟩, ⟨[98], by decide⟩, 2⟩ .nil .nil) .nil

/-- The inner one of two subvolumes comes first in post order, each of them with its path. -/
theorem iter_traverses_nested :
    ∃ iter, Iter.new nestedKernel 0 (Flags.postOrder.union .getPath) = .ok iter ∧
      ∃ enough, ∀ fuel, enough ≤ fuel → collect nestedKernel fuel iter =
        some [.ok ⟨2, 258, 257, 100, some [100, 47, 97, 47, 98, 0]⟩,
          .ok ⟨1, 257, 5, 100, some [100, 47, 97, 0]⟩] := by
  -- The two nested subvolumes answer as the forest says, in each of the orders.
  have outer : Answers nestedKernel 0 nestedForest.roots :=
    ⟨⟨_, _, rfl, rfl⟩, by simp [nestedForest, Forest.roots, nestedKernel, fromPtr],
      by simp [nestedForest, Forest.roots, nestedKernel]⟩
  have served : nestedForest.Served nestedKernel := by
    refine ⟨⟨⟨_, _, rfl, rfl⟩, ?_, ?_⟩, ⟨⟨⟨_, _, rfl, rfl⟩, ?_, ?_⟩, trivial, trivial⟩, trivial⟩
    · simp [Forest.roots, nestedKernel, fromPtr]
    · simp [Forest.roots, nestedKernel]
    · simp [Forest.roots]
    · simp [Forest.roots]
  have ascending : nestedForest.Siblings fun one other => one.treeid < other.treeid := by
    simp [nestedForest, Forest.Siblings, Forest.roots]
  exact (iter_traverses nestedKernel 0 5 rfl nestedForest outer served ascending
    (Flags.postOrder.union .getPath)).1

end Libbtrfs
