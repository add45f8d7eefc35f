import Libbtrfs.TreeSearch.RootItem
import Libbtrfs.TreeSearch.RootRef

/-! `get_info_by_id`: what a search of the root tree collects about a subvolume. -/

namespace Libbtrfs

open Search

/--
`btrfs_ioctl_get_subvol_info_args` in memory that is not zeroed, where a field is `none` until it is
written.

The name is a field of 256 bytes, each of which is written on its own.
-/
structure InfoArgs where
  treeid : Option UInt64
  name : List (Option UInt8)
  parentId : Option UInt64
  dirid : Option UInt64
  generation : Option UInt64
  flags : Option UInt64
  uuid : Option Bytes
  parentUuid : Option Bytes
  receivedUuid : Option Bytes
  ctransid : Option UInt64
  otransid : Option UInt64
  stransid : Option UInt64
  rtransid : Option UInt64
  ctime : Option IoctlTimespec
  otime : Option IoctlTimespec
  stime : Option IoctlTimespec
  rtime : Option IoctlTimespec
  reserved : Option (List UInt64)
  deriving DecidableEq

/-- The room for the name in `btrfs_ioctl_get_subvol_info_args`. -/
def infoNameSize : Nat := 256

/-- `MaybeUninit::uninit`. -/
def InfoArgs.uninit : InfoArgs where
  treeid := none
  name := List.replicate infoNameSize none
  parentId := none
  dirid := none
  generation := none
  flags := none
  uuid := none
  parentUuid := none
  receivedUuid := none
  ctransid := none
  otransid := none
  stransid := none
  rtransid := none
  ctime := none
  otime := none
  stime := none
  rtime := none
  reserved := none

/-- The text that is read from a field up to its first zero, unless a byte of it was not written. -/
def writtenText : List (Option UInt8) → Option Bytes
  | [] => none
  | none :: _ => none
  | some byte :: field => if byte = 0 then some [] else (writtenText field).map (byte :: ·)

/-- `SubvolInfo::name`. -/
def InfoArgs.nameText (info : InfoArgs) : Option Bytes := writtenText info.name

/-- A name and the zero behind it, copied to the start of a field that has room for both. -/
def writeName (name : Bytes) (field : List (Option UInt8)) : List (Option UInt8) :=
  (toBytesWithNul name).map some ++ field.drop (name.length + 1)

/-- `subvol_info_args_from_root_item`. -/
def subvolInfoArgsFromRootItem (ri : RootItem) (args : InfoArgs) : InfoArgs :=
  { args with
    generation := some ri.generation
    flags := some ri.flags
    uuid := some ri.uuid
    parentUuid := some ri.parentUuid
    receivedUuid := some ri.receivedUuid
    ctransid := some ri.ctransid
    otransid := some ri.otransid
    stransid := some ri.stransid
    rtransid := some ri.rtransid
    ctime := some ri.ctime
    otime := some ri.otime
    stime := some ri.stime
    rtime := some ri.rtime }

/-- What the loop of `get_info_by_id` has collected. -/
structure Collected where
  info : InfoArgs
  gotRootItem : Bool
  gotRootRef : Bool
  deriving DecidableEq

/-- The body of the inner loop. -/
def Collected.collect (collected : Collected) (item : SearchItem) : Collected × Outcome Unit :=
  if item.ty = RootItem.key then
    ({ collected with
        info := subvolInfoArgsFromRootItem ⟨item.payload⟩ collected.info
        gotRootItem := true }, .ok ())
  else if item.ty = RootBackref.key then
    let rr : RootRef := ⟨item.payload⟩
    match rr.nameAsBytes with
    | .error error => (collected, .error (.io error))
    | .ok rrName =>
      ({ collected with
          info := { collected.info with
            name := writeName rrName collected.info.name
            dirid := some rr.dirid
            parentId := some item.offset }
          gotRootRef := true }, .ok ())
  else (collected, .ok ())

/-- The search of `get_info_by_id`, for which the top-level tree needs no reference. -/
def infoSearch (treeid : UInt64) : TreeSearch :=
  let gotRootRef : Bool := treeid = TreeId.fsTree.toUInt64
  build ((((SearchKey.default.tree .rootTree).itemLimit 0xFFFFFFFF).objectid
    ⟨.unbounded, .included treeid⟩).itemType
    ⟨.included RootItem.key, .excluded (if gotRootRef then RootItem.key else RootBackref.key)⟩)

/-- The loop of `get_info_by_id`: how many queries there were, and how it ended, if it did. -/
structure GetInfo where
  calls : Nat
  search : TreeSearch
  collected : Collected
  ended : Option (Outcome InfoArgs)

namespace GetInfo

/-- The loop in front of its first round. -/
def start (treeid : UInt64) : GetInfo where
  calls := 0
  search := infoSearch treeid
  collected := ⟨.uninit, false, treeid = TreeId.fsTree.toUInt64⟩
  ended := none

/-- What is returned behind the loop. -/
def finish (treeid : UInt64) (info : InfoArgs) : InfoArgs :=
  { info with treeid := some treeid, reserved := some (List.replicate 8 0) }

/-- A round: the condition of the loop, which ends it when one of the two was found, or a query. -/
def turn (ioctl : Nat → TreeSearch → Except IoError Unit × TreeSearch) (treeid : UInt64)
    (loop : GetInfo) : GetInfo :=
  match loop.ended with
  | some _ => loop
  | none =>
    if !loop.collected.gotRootItem && !loop.collected.gotRootRef then
      match query (ioctl loop.calls) loop.search fun _ => .ok (none : Option Unit) with
      | (.error error, search) =>
        ⟨loop.calls + 1, search, loop.collected, some (.error (.io error))⟩
      | (.ok items, _) =>
        if items.len = 0 then
          -- The `return` leaves the scope of the items, which are dropped there.
          match items.drop with
          | .error failure =>
            ⟨loop.calls + 1, items.search, loop.collected, some (.error failure)⟩
          | .ok search =>
            ⟨loop.calls + 1, search, loop.collected, some (.error (.io (.kind .notFound)))⟩
        else
          match items.forEach Collected.collect (items.len + 1) loop.collected with
          | (collected, outcome, items) =>
            match items.drop with
            | .error failure => ⟨loop.calls + 1, items.search, collected, some (.error failure)⟩
            | .ok search =>
              match outcome with
              | .error failure => ⟨loop.calls + 1, search, collected, some (.error failure)⟩
              | .ok () => ⟨loop.calls + 1, search, collected, none⟩
    else { loop with ended := some (.ok (finish treeid loop.collected.info)) }

/-- The loop after a number of rounds. -/
def run (ioctl : Nat → TreeSearch → Except IoError Unit × TreeSearch) (treeid : UInt64)
    (rounds : Nat) (loop : GetInfo) : GetInfo :=
  (turn ioctl treeid)^[rounds] loop

end GetInfo

/-- `get_info_by_id` after a number of rounds. -/
def getInfoById (ioctl : Nat → TreeSearch → Except IoError Unit × TreeSearch) (treeid : UInt64)
    (rounds : Nat) : GetInfo :=
  (GetInfo.start treeid).run ioctl treeid rounds

end Libbtrfs
