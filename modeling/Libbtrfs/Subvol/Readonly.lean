import Libbtrfs.Subvol.Informing

/-! The read-only state of a subvolume: how it is asked for and set, and what the kernel keeps. -/

namespace Libbtrfs

open Search

/-- `BTRFS_SUBVOL_RDONLY`, the flag in the words that the flag ioctls exchange. -/
def subvolRdonly : UInt64 := 2

/-- `BTRFS_ROOT_SUBVOL_RDONLY`, the flag in the word on the disk. -/
def rootSubvolRdonly : UInt64 := 1

/-- `SubvolInfo::readonly`, which reads a word that need not have been written. -/
def InfoArgs.readonly (info : InfoArgs) : Option Bool :=
  info.flags.map fun flags => flags &&& subvolRdonly ≠ 0

/-- The ioctls about the flags of a subvolume and about its other information. -/
structure FlagKernel (Fd World : Type) where
  /-- `BTRFS_IOC_SUBVOL_GETFLAGS`. -/
  getflags : Fd → World → Except IoError UInt64
  /-- `BTRFS_IOC_SUBVOL_SETFLAGS`. -/
  setflags : Fd → UInt64 → World → Except IoError Unit × World
  /-- `BTRFS_IOC_GET_SUBVOL_INFO`. -/
  getSubvolInfo : Fd → World → Except IoError InfoArgs
  /-- `BTRFS_IOC_TREE_SEARCH`, for each of the calls. -/
  treeSearch : World → Nat → TreeSearch → Except IoError Unit × TreeSearch

section Functions

variable {Fd World : Type} (kernel : FlagKernel Fd World) (subvol : Fd)

/-- `subvol::fd::is_readonly`. -/
def isReadonly (world : World) : Except IoError Bool :=
  match btrfsIoctl (kernel.getflags subvol world) with
  | .error error => .error error
  | .ok flags => .ok (flags &&& subvolRdonly ≠ 0)

/-- `subvol::fd::set_readonly`. -/
def setReadonly (readonly : Bool) (world : World) : Except IoError Unit × World :=
  match btrfsIoctl (kernel.getflags subvol world) with
  | .error error => (.error error, world)
  | .ok flags =>
    if subvolRdonly &&& flags = subvolRdonly * readonly.toUInt64 then (.ok (), world)
    else
      let (result, world) := kernel.setflags subvol (flags ^^^ subvolRdonly) world
      (btrfsIoctl result, world)

/-- `subvol::fd::get_info`. -/
def getInfo (world : World) : Except IoError InfoArgs :=
  btrfsIoctl (kernel.getSubvolInfo subvol world)

end Functions

/-- Whether the word on the disk says that the subvolume is read-only. -/
def diskReadonly (word : UInt64) : Bool := word &&& rootSubvolRdonly ≠ 0

/-- Whether the same word, taken for one of the flag ioctls, says so. -/
def flagReadonly (word : UInt64) : Bool := word &&& subvolRdonly ≠ 0

/-- What the kernel returns for the flags of a word on the disk. -/
def translated (word : UInt64) : UInt64 := if diskReadonly word then subvolRdonly else 0

/-- The word on the disk behind setting some flags. -/
def marked (flags word : UInt64) : UInt64 :=
  if flagReadonly flags then word ||| rootSubvolRdonly else word &&& ~~~rootSubvolRdonly

section Contract

variable {Fd World : Type}

/--
What the kernel answers about a subvolume, of which there is a word on the disk.

The flag ioctls translate the word, and `GET_SUBVOL_INFO` and the `ROOT_ITEM` have it as it is.
-/
structure Exposes (kernel : FlagKernel Fd World) (subvol : Fd) (treeid : UInt64)
    (word : World → UInt64) (tree : World → InfoTree) : Prop where
  getflags : ∀ world, kernel.getflags subvol world = .ok (translated (word world))
  setflags : ∀ flags world after, kernel.setflags subvol flags world = (.ok (), after) →
    word after = marked flags (word world)
  info : ∀ world, ∃ info, kernel.getSubvolInfo subvol world = .ok info ∧
    info.flags = some (word world)
  search : ∀ world, ServesFirst (tree world).toTree (kernel.treeSearch world)
  root : ∀ world, ∃ item, (tree world).RootOf treeid item
  -- The word is in the item as far as that goes, which need not be up to the last field.
  flags : ∀ world item, (tree world).RootOf treeid item → 208 + 8 ≤ item.data.length ∧
    RootItem.flags ⟨item.data⟩ = word world
  names : ∀ world, ∀ item ∈ (tree world).items, item.ty = RootBackref.key → 0 ∉ item.name

/-- All three queries have the same answer. -/
structure Answered (kernel : FlagKernel Fd World) (subvol : Fd) (treeid : UInt64) (world : World)
    (readonly : Bool) : Prop where
  isReadonly : isReadonly kernel subvol world = .ok readonly
  getInfo : ∃ info, getInfo kernel subvol world = .ok info ∧ info.readonly = some readonly
  getInfoById : ∃ rounds info,
    (getInfoById (kernel.treeSearch world) treeid rounds).ended = some (.ok info) ∧
      info.readonly = some readonly

/--
The queries agree, and behind setting the read-only state they agree on that.

Whatever else the word on the disk has in it is left as it is.
-/
def ReadonlyAgrees (kernel : FlagKernel Fd World) (subvol : Fd) (treeid : UInt64)
    (word : World → UInt64) (world : World) (readonly : Bool) : Prop :=
  (∃ answer, Answered kernel subvol treeid world answer) ∧
    ∀ after, setReadonly kernel subvol readonly world = (.ok (), after) →
      Answered kernel subvol treeid after readonly ∧
        word after &&& ~~~rootSubvolRdonly = word world &&& ~~~rootSubvolRdonly

end Contract

end Libbtrfs
