import Libbtrfs.Core.Utf8
import Libbtrfs.Subvol.FaultyTraversal
import Libbtrfs.Subvol.Rootref

/-! The documented walk over `get_rootref`, and the subvolumes that it is to print. -/

namespace Libbtrfs

open Subvol

/-- What an enumeration tells of a subvolume: its tree, its directory, and its path. -/
structure Visit where
  treeid : UInt64
  dirid : UInt64
  path : Bytes
  deriving DecidableEq

/-- The same subvolume, with its path behind another one. -/
def Visit.behind (base : Bytes) (visit : Visit) : Visit :=
  { visit with path := base ++ visit.path }

/-- The room for a path in a system call, with the zero at its end. -/
def pathRoom : Nat := 4096

/-- The buffer of a walk: its path with a separator behind it, unless it ends with one. -/
def walkBuffer (path : Bytes) : Bytes :=
  if path.getLast? = some separator then path else path ++ [separator]

section Walk

variable {Fd : Type} (kernel : Kernel Fd) (openFile : Bytes → Except IoError Fd)

/--
The closure of the documented walk, which prints a subvolume and walks on into it.

It cuts the buffer back behind the inner walk, so all calls of one closure begin with the same one.
-/
def walkInto (inner : Bytes → Option (List Visit) → Except IoError Unit × Option (List Visit))
    (buf : Bytes) (rref : Rootref) (lookup name : Bytes) (printed : Option (List Visit)) :
    Except IoError Unit × Option (List Visit) :=
  let path := buf ++ fromUtf8Lossy lookup ++ fromUtf8Lossy name
  inner path (printed.map (· ++ [⟨rref.treeid, rref.dirid, path⟩]))

/-- The documented walk. What it has printed is lost when the fuel does not suffice. -/
def walk : Nat → Bytes → Option (List Visit) → Except IoError Unit × Option (List Visit)
  | 0, _, _ => (.ok (), none)
  | fuel + 1, path, printed =>
    match openFile path with
    | .error error => (.error error, printed)
    | .ok f => getRootref kernel f (walkInto (walk fuel) (walkBuffer path)) printed

end Walk

section Contract

variable {Fd : Type}

/-- The subvolume does not lie below the directory that the enumeration starts from. -/
def FaultyNode.Outside (entry : FaultyNode Fd) : Prop :=
  entry.fault = some (.lookup (.os eacces))

/-- The subvolumes of a forest that can be looked up. -/
def Forest.inside : Forest (FaultyNode Fd) → Forest (SubvolNode Fd)
  | .nil => .nil
  | .cons entry children rest =>
    match entry.fault with
    | none => .cons entry.node children.inside rest.inside
    | some _ => rest.inside

/-- All that is to be told of a forest, with every subvolume in front of those below it. -/
def Forest.visits (chain : Option UnixPath) : Forest (SubvolNode Fd) → List Visit
  | .nil => []
  | .cons node children rest =>
    ⟨node.treeid, node.dirid, (node.path chain).bytes⟩ ::
      (children.visits (some (node.path chain)) ++ rest.visits chain)

/-- Nothing is wrong with the subvolumes, except that some of the direct children lie elsewhere. -/
def Forest.Below (isRoot : Bool) : Forest (FaultyNode Fd) → Prop
  | .nil => True
  | .cons entry children rest =>
    (entry.fault = none ∨ isRoot = true ∧ entry.Outside) ∧
      (entry.fault = none → children.Below false) ∧ rest.Below isRoot

/-- The name of a file: it is not empty, and has no separator in it. -/
def SubvolNode.Named (node : SubvolNode Fd) : Prop := node.name.bytes ≠ [] ∧ separator ∉ node.name.bytes

/-- Every subvolume has a name, and is opened by its path behind the base, if that is not too long. -/
def Forest.Opened (openFile : Bytes → Except IoError Fd) (base : Bytes)
    (chain : Option UnixPath) : Forest (SubvolNode Fd) → Prop
  | .nil => True
  | .cons node children rest =>
    (node.Named ∧ openFile (base ++ (node.path chain).bytes) =
      if (base ++ (node.path chain).bytes).length < pathRoom then .ok node.f
      else .error (.os enametoolong)) ∧
      children.Opened openFile base (some (node.path chain)) ∧ rest.Opened openFile base chain

/--
What the kernel answers about the subvolumes below a directory, which may be the root of one.

All of them can be looked up, opened and listed, but for the children of its subvolume that do not
lie below the directory.
-/
structure Enumerated (kernel : Kernel Fd) (openFile : Bytes → Except IoError Fd) (start : Bytes)
    (root : Fd) (treeid : UInt64) (forest : Forest (FaultyNode Fd)) : Prop where
  found : kernel.inoLookup root firstFreeObjectid = .ok treeid
  opened : openFile start = .ok root
  answers : AnswersOrFails kernel .getPath root none forest.roots
  shown : forest.FaultyShown kernel .getPath
  below : forest.Below true
  paths : forest.inside.Opened openFile (walkBuffer start) none

/-- The path of the subvolume is UTF-8: converting it to a string leaves it as it is. -/
def SubvolNode.Legible (node : SubvolNode Fd) : Prop :=
  fromUtf8Lossy node.lookup.bytes ++ fromUtf8Lossy node.name.bytes =
    node.lookup.bytes ++ node.name.bytes

/-- The walk gets through a forest: no subvolume lies elsewhere, and it makes each path as it is. -/
def Forest.Walkable (base : Bytes) (chain : Option UnixPath) : Forest (FaultyNode Fd) → Prop
  | .nil => True
  | .cons entry children rest =>
    (entry.fault = none ∧ entry.node.Legible ∧
      (base ++ (entry.node.path chain).bytes).length < pathRoom ∧
      children.Walkable base (some (entry.node.path chain))) ∧ rest.Walkable base chain

/-- What an item of the iterator tells of its subvolume. An error tells of none. -/
def visitOf (item : Except IoError (SubvolItem Fd)) : Option Visit :=
  match item with
  | .error _ => none
  | .ok item =>
    match item.pathText with
    | .error _ => none
    | .ok path => some ⟨item.treeid, item.dirid, path⟩

/-- The walk prints the subvolumes in this order, each with its path behind that of the start. -/
def Walks (kernel : Kernel Fd) (openFile : Bytes → Except IoError Fd) (start : Bytes)
    (visits : List Visit) : Prop :=
  ∃ enough, ∀ fuel, enough ≤ fuel → walk kernel openFile fuel start (some []) =
    (.ok (), some (visits.map (Visit.behind (walkBuffer start))))

/-- The iterator returns the subvolumes in this order, and no error. -/
def Iterates (kernel : Kernel Fd) (root : Fd) (visits : List Visit) : Prop :=
  ∃ iter results, Iter.new kernel root .getPath = .ok iter ∧
    (∃ enough, ∀ fuel, enough ≤ fuel → collect kernel fuel iter = some results) ∧
    results.map visitOf = visits.map some

/-- Both enumerations tell of the given subvolumes, in this order. -/
def Agree (kernel : Kernel Fd) (openFile : Bytes → Except IoError Fd) (start : Bytes) (root : Fd)
    (visits : List Visit) : Prop :=
  Walks kernel openFile start visits ∧ Iterates kernel root visits

/-- The two lists differ: behind what they have in common each has something else. -/
def Differ {α : Type} (one other : List α) : Prop :=
  ∃ front first second rest others, one = front ++ first :: rest ∧
    other = front ++ second :: others ∧ first ≠ second

end Contract

end Libbtrfs
