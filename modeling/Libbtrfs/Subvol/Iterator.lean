import Libbtrfs.Subvol.Kernel

/-! The subvolume iterator: a stack of open subvolumes, each with the colour that drives the order. -/

namespace Libbtrfs

/-- The flags of the library, as the bits that they are. -/
structure Flags where
  bits : UInt64
  deriving DecidableEq

namespace Flags

/-- Whether all bits of the other flags are set. -/
def contains (flags other : Flags) : Bool := flags.bits &&& other.bits = other.bits

/-- Both flags, `one | other`. -/
def union (one other : Flags) : Flags := ⟨one.bits ||| other.bits⟩

/-- `Flags::DESCENDING`. -/
def descending : Flags := ⟨1⟩

/-- `Flags::POST_ORDER`. -/
def postOrder : Flags := ⟨2⟩

/-- `Flags::GET_PATH`. -/
def getPath : Flags := ⟨4⟩

end Flags

/-- How far an entry of the stack has got. -/
inductive Color where
  | grey | black | preOrd
  deriving DecidableEq

/-- An entry of the stack: a subvolume below the root, or the root itself. -/
inductive Ent (Fd : Type) where
  | vol (treeid parentId : UInt64) (f : Fd) (color : Color) (path : Option Bytes)
  | rootVol (treeid : UInt64) (f : Fd)

/-- The iterator. The stack has its top first, and paths are kept with their terminating zero. -/
structure Iter (Fd : Type) where
  stack : List (Ent Fd)
  flags : Flags
  pathBuffer : Bytes

/-- What the iterator returns for a subvolume. -/
structure SubvolItem (Fd : Type) where
  f : Fd
  treeid : UInt64
  parentId : UInt64
  dirid : UInt64
  path : Option Bytes

/-- `SubvolItem::path`, which panics for an iterator without the flag. -/
def SubvolItem.pathText {Fd : Type} (item : SubvolItem Fd) : Outcome Bytes :=
  match item.path with
  | some path => .ok (fromPtr path)
  | none => .error (.panic "Missing flag: libbtrfs::Flags::GET_PATH")

namespace Iter

variable {Fd : Type} (kernel : Kernel Fd)

/-- The end of one round of `push_refs`: the subvolume is opened and goes on the stack. -/
def pushEnt (treeid parentId : UInt64) (f : Fd) (color : Color) (cPath : Bytes)
    (entPath : Option Bytes) (iter : Iter Fd) : Except IoError Unit × Iter Fd :=
  match kernel.openat f (fromPtr cPath) with
  | .error error => (.error error, iter)
  | .ok entFd =>
    (.ok (), { iter with stack := .vol treeid parentId entFd color entPath :: iter.stack })

/-- The path of a child, where the zero behind the path of its parent becomes the separator. -/
def entPath (base lookup name : Bytes) : Bytes :=
  base.set (base.length - 1) separator ++ lookup ++ name

/-- One round of the loop of `push_refs`. -/
def pushRef (parentId : UInt64) (f : Fd) (isRoot : Bool) (color : Color)
    (path : Option (Option Bytes)) (rref : Rootref) (iter : Iter Fd) :
    Except IoError Unit × Iter Fd :=
  match pathStr kernel f rref.dirid rref.treeid with
  | .error error =>
    -- The subvolume does not lie below the directory that the iterator was made for.
    if isRoot ∧ error = .os eacces then (.ok (), iter) else (.error error, iter)
  | .ok (lookup, name) =>
    let name := toBytesWithNul name
    match path with
    | some unixPath =>
      let base := (unixPath.map toBytesWithNul).getD []
      let v := entPath base lookup name
      pushEnt kernel rref.treeid parentId f color (v.drop base.length) (some v) iter
    | none =>
      let buffer := lookup ++ name
      pushEnt kernel rref.treeid parentId f color buffer none { iter with pathBuffer := buffer }

/-- The loop of `push_refs`, which the first error ends. -/
def pushLoop (parentId : UInt64) (f : Fd) (isRoot : Bool) (color : Color)
    (path : Option (Option Bytes)) : List Rootref → Iter Fd → Except IoError Unit × Iter Fd
  | [], iter => (.ok (), iter)
  | rref :: refs, iter =>
    match pushRef kernel parentId f isRoot color path rref iter with
    | (.error error, iter) => (.error error, iter)
    | (.ok (), iter) => pushLoop parentId f isRoot color path refs iter

/-- `Iter::push_refs`: the direct children of a subvolume go on the stack. -/
def pushRefs (parentId : UInt64) (f : Fd) (isRoot : Bool) (color : Color)
    (path : Option (Option Bytes)) (iter : Iter Fd) : Except IoError Unit × Iter Fd :=
  match btrfsIoctl (kernel.getSubvolRootref f 0) with
  | .error error => (.error error, iter)
  | .ok (rootref, numItems) =>
    let refs := rootref.take numItems.toNat
    -- What is pushed last is returned first, so the ascending order pushes from the end.
    let refs := if iter.flags.contains .descending then refs else refs.reverse
    pushLoop kernel parentId f isRoot color path refs iter

/-- What one round of the loop of `next` comes to. -/
inductive Round (Fd : Type) where
  | finished
  | again (iter : Iter Fd)
  | returns (item : Except IoError (SubvolItem Fd)) (iter : Iter Fd)

/-- One round of the loop of `Iter::next`: the entry on top of the stack. -/
def round (iter : Iter Fd) : Round Fd :=
  match iter.stack with
  | [] => .finished
  | .rootVol treeid f :: stack =>
    let color := if iter.flags.contains .postOrder then .grey else .preOrd
    let path := if iter.flags.contains .getPath then some none else none
    match pushRefs kernel treeid f true color path { iter with stack := stack } with
    | (.error error, iter) => .returns (.error error) iter
    | (.ok (), iter) => .again iter
  | .vol treeid parentId f .grey path :: stack =>
    let black := .vol treeid parentId f .black path
    let path := path.map fun pathBuf => some (fromPtr pathBuf)
    match pushRefs kernel treeid f false .grey path { iter with stack := black :: stack } with
    | (.error error, iter) => .returns (.error error) iter
    | (.ok (), iter) => .again iter
  | .vol treeid parentId f .black path :: stack =>
    .returns (.ok ⟨f, treeid, parentId, 100, path⟩) { iter with stack := stack }
  | .vol treeid parentId f .preOrd path :: stack =>
    let base := path.map fun pathBuf => some (fromPtr pathBuf)
    match pushRefs kernel treeid f false .preOrd base { iter with stack := stack } with
    | (.error error, iter) => .returns (.error error) iter
    | (.ok (), iter) => .returns (.ok ⟨f, treeid, parentId, 100, path⟩) iter

/-- What holds of a round that pushes holds when it goes on, and also when one of the pushes fails. -/
theorem round_pushed {Holds : Round Fd → Prop} (pushed : Except IoError Unit × Iter Fd)
    (passed : Iter Fd → Round Fd) :
    (∀ error, Holds (.returns (.error error) pushed.2)) → Holds (passed pushed.2) →
    Holds (match pushed with
      | (.error error, later) => .returns (.error error) later
      | (.ok (), later) => passed later) := by
  -- The error is returned for the entries that are already on the stack.
  intro failing going
  obtain ⟨error | _, later⟩ := pushed
  · exact failing error
  · exact going

/-- `Iter::next`, for as many rounds as the fuel allows. -/
def next : Nat → Iter Fd → Option (Option (Except IoError (SubvolItem Fd)) × Iter Fd)
  | 0, _ => none
  | fuel + 1, iter =>
    match round kernel iter with
    | .finished => some (none, iter)
    | .again iter => next fuel iter
    | .returns item iter => some (some item, iter)

/-- `fd::iter`. -/
def new (f : Fd) (flags : Flags) : Except IoError (Iter Fd) :=
  match lookupTreeid kernel f with
  | .error error => .error error
  | .ok treeid => .ok ⟨[.rootVol treeid f], flags, []⟩

end Iter

/--
A `for` loop over an iterator, whose body may change the world that the kernel reads.

Both the loop and the calls of `next` in it get by with the fuel that they are given.
-/
def forEach {Fd World : Type} (kernel : World → Kernel Fd)
    (body : World → Except IoError (SubvolItem Fd) → World) :
    Nat → World → Iter Fd → Option World
  | 0, _, _ => none
  | fuel + 1, world, iter =>
    match Iter.next (kernel world) (fuel + 1) iter with
    | none => none
    | some (none, _) => some world
    | some (some item, iter) => forEach kernel body fuel (body world item) iter

end Libbtrfs
