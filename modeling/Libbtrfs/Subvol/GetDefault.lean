import Libbtrfs.TreeSearch.Loop
import Libbtrfs.TreeSearch.TreeItem

/-! `get_default`: a search of the root tree directory for the entry named `default`. -/

namespace Libbtrfs

open Search

/-- `BTRFS_ROOT_TREE_DIR_OBJECTID`. -/
def rootTreeDirObjectid : UInt64 := 6

/-- `b"default"`. -/
def defaultName : Bytes := [0x64, 0x65, 0x66, 0x61, 0x75, 0x6C, 0x74]

/-- The predicate `dir_item.name_as_bytes().ok() == Some(b"default")`. -/
def isDefault (dirItem : DirItem) : Bool := (nameAsBytes dirItem).toOption = some defaultName

/-- The callback `|k| (k.0, k.1, k.2 + 1)`. -/
def afterOffset (overflowChecks : Bool) (key : QueryKey) : Outcome QueryKey :=
  match checkedAdd64 key.2.2 1 with
  | some offset => .ok (key.1, key.2.1, offset)
  | none =>
    if overflowChecks then .error (.panic "attempt to add with overflow")
    else .ok (key.1, key.2.1, key.2.2 + 1)

/-- The search of `get_default`, whose ranges `..=b` stand for the one value that they name. -/
def defaultSearch : TreeSearch :=
  build (((SearchKey.default.tree .rootTree).objectid
    ⟨.unbounded, .included rootTreeDirObjectid⟩).itemType
    ⟨.unbounded, .included (TreeItem.key DirItem)⟩)

/-- `filter_map(view).find(wanted)`, which takes items up to the first view that is wanted. -/
def Search.Iter.find {S K T : Type} [Query S] (view : SearchItem → Option T) (wanted : T → Bool) :
    Nat → Iter S K → Option T × Iter S K
  | 0, iter => (none, iter)
  | fuel + 1, iter =>
    match iter.next with
    | (none, iter) => (none, iter)
    | (some item, iter) =>
      match view item with
      | none => Iter.find view wanted fuel iter
      | some seen => if wanted seen then (some seen, iter) else Iter.find view wanted fuel iter

/-- The loop of `get_default`: how many queries there were, and how it ended, if it did. -/
structure GetDefault where
  calls : Nat
  search : TreeSearch
  ended : Option (Outcome UInt64)

namespace GetDefault

/-- The loop in front of its first query. -/
def start : GetDefault := ⟨0, defaultSearch, none⟩

/-- A round: a query, and the search of its items for the default entry. -/
def turn (ioctl : Nat → TreeSearch → Except IoError Unit × TreeSearch) (overflowChecks : Bool)
    (loop : GetDefault) : GetDefault :=
  match loop.ended with
  | some _ => loop
  | none =>
    match query (ioctl loop.calls) loop.search (afterOffset overflowChecks) with
    | (.error error, search) => ⟨loop.calls + 1, search, some (.error (.io error))⟩
    | (.ok items, _) =>
      if items.len = 0 then
        -- The `return` leaves the scope of the items, which are dropped there.
        match items.drop with
        | .error failure => ⟨loop.calls + 1, items.search, some (.error failure)⟩
        | .ok search => ⟨loop.calls + 1, search, some (.error (.io (.kind .notFound)))⟩
      else
        match items.find (SearchItem.get DirItem) isDefault (items.len + 1) with
        | (found, items) =>
          -- The items live as long as the `if let`, whether that returns or not.
          match items.drop with
          | .error failure => ⟨loop.calls + 1, items.search, some (.error failure)⟩
          | .ok search =>
            ⟨loop.calls + 1, search, found.map fun dirItem => .ok dirItem.location.objectid⟩

/-- The loop after a number of rounds. -/
def run (ioctl : Nat → TreeSearch → Except IoError Unit × TreeSearch) (overflowChecks : Bool)
    (rounds : Nat) (loop : GetDefault) : GetDefault :=
  (turn ioctl overflowChecks)^[rounds] loop

end GetDefault

/-- `get_default` after a number of rounds. -/
def getDefault (ioctl : Nat → TreeSearch → Except IoError Unit × TreeSearch)
    (overflowChecks : Bool) (rounds : Nat) : GetDefault :=
  GetDefault.start.run ioctl overflowChecks rounds

end Libbtrfs
