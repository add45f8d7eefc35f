import Libbtrfs.Core.Settings
import Libbtrfs.TreeSearch.Paged

/-! What a search finds that a chain of calls built, and when it keeps to the ranges asked for. -/

namespace Libbtrfs.Search

/-- A field of an item that a search key has two bounds for. -/
inductive KeyField where
  | objectid | ty | offset | transid

namespace KeyField

/-- The field of an item. -/
def of (item : Item) : KeyField → Nat
  | .objectid => item.objectid.toNat
  | .ty => item.ty.toNat
  | .offset => item.offset.toNat
  | .transid => item.transid.toNat

/-- The lower bound that a key has for a field. -/
def least : KeyField → SearchKey → Nat
  | .objectid, key => key.minObjectid.toNat
  | .ty, key => key.minType.toNat
  | .offset, key => key.minOffset.toNat
  | .transid, key => key.minTransid.toNat

/-- The upper bound that a key has for a field. -/
def greatest : KeyField → SearchKey → Nat
  | .objectid, key => key.maxObjectid.toNat
  | .ty, key => key.maxType.toNat
  | .offset, key => key.maxOffset.toNat
  | .transid, key => key.maxTransid.toNat

/-- The greatest value of a field. -/
def top : KeyField → Nat
  | .ty => 2 ^ 32 - 1
  | _ => 2 ^ 64 - 1

end KeyField

namespace RangeBounds

variable {α : Type}

/-- The lower bound that a range asks for, which is that of its end for `..=b`. -/
def low (range : RangeBounds α) : Option α :=
  match range.startBound, range.endBound with
  | .included b, _ => some b
  | .excluded b, _ => some b
  | .unbounded, .included b => some b
  | .unbounded, _ => none

/-- The upper bound that a range asks for. -/
def high (range : RangeBounds α) : Option α :=
  match range.endBound with
  | .included b => some b
  | .excluded b => some b
  | .unbounded => none

end RangeBounds

/-- A call of `SearchKeyBuilder`. -/
inductive SearchCall where
  | tree (treeId : TreeId)
  | itemLimit (limit : UInt32)
  | offset (range : RangeBounds UInt64)
  | objectid (range : RangeBounds UInt64)
  | transid (range : RangeBounds UInt64)
  | itemType (range : RangeBounds UInt32)

namespace SearchCall

/-- What a call makes of the key. -/
def apply : SearchCall → SearchKey → SearchKey
  | .tree treeId, key => key.tree treeId
  | .itemLimit limit, key => key.itemLimit limit
  | .offset range, key => key.offset range
  | .objectid range, key => key.objectid range
  | .transid range, key => key.transid range
  | .itemType range, key => key.itemType range

/-- The range that a call asks for in a field, as the two bounds that it has of it. -/
def range (field : KeyField) (call : SearchCall) : Option Nat × Option Nat :=
  match field, call with
  | .objectid, .objectid range => (range.low.map UInt64.toNat, range.high.map UInt64.toNat)
  | .ty, .itemType range => (range.low.map UInt32.toNat, range.high.map UInt32.toNat)
  | .offset, .offset range => (range.low.map UInt64.toNat, range.high.map UInt64.toNat)
  | .transid, .transid range => (range.low.map UInt64.toNat, range.high.map UInt64.toNat)
  | _, _ => (none, none)

/-- The lower bound that a call asks for in a field. -/
def low (field : KeyField) (call : SearchCall) : Option Nat := (call.range field).1

/-- The upper bound that a call asks for in a field. -/
def high (field : KeyField) (call : SearchCall) : Option Nat := (call.range field).2

end SearchCall

/-- The key that a chain of calls builds. -/
def SearchKey.built (calls : List SearchCall) : SearchKey :=
  applied SearchCall.apply .default calls

/-- The lower bound that was asked for last in a field. -/
def KeyField.lowest (field : KeyField) (calls : List SearchCall) : Nat :=
  (lastTold (SearchCall.low field) calls).getD 0

/-- The upper bound that was asked for last in a field. -/
def KeyField.highest (field : KeyField) (calls : List SearchCall) : Nat :=
  (lastTold (SearchCall.high field) calls).getD field.top

namespace SearchCall

variable (field : KeyField)

/-- Each call sets the lower bound of a field to what it asks for. -/
theorem sets_low : Sets apply field.least (low field) := by
  intro call key
  cases call with
  | tree treeId => cases field <;> rfl
  | itemLimit limit => cases field <;> rfl
  -- There are three kinds of bounds at either end of a range, which is for one of the fields.
  | offset range =>
    obtain ⟨start, stop⟩ := range
    cases field <;> cases start <;> cases stop <;> rfl
  | objectid range =>
    obtain ⟨start, stop⟩ := range
    cases field <;> cases start <;> cases stop <;> rfl
  | transid range =>
    obtain ⟨start, stop⟩ := range
    cases field <;> cases start <;> cases stop <;> rfl
  | itemType range =>
    obtain ⟨start, stop⟩ := range
    cases field <;> cases start <;> cases stop <;> rfl

/-- Each call sets the upper bound of a field to what it asks for. -/
theorem sets_high : Sets apply field.greatest (high field) := by
  intro call key
  cases call with
  | tree treeId => cases field <;> rfl
  | itemLimit limit => cases field <;> rfl
  -- A range sets the upper bound of its field to that of its end, if it has one.
  | offset range =>
    obtain ⟨start, stop⟩ := range
    cases field <;> cases start <;> cases stop <;> rfl
  | objectid range =>
    obtain ⟨start, stop⟩ := range
    cases field <;> cases start <;> cases stop <;> rfl
  | transid range =>
    obtain ⟨start, stop⟩ := range
    cases field <;> cases start <;> cases stop <;> rfl
  | itemType range =>
    obtain ⟨start, stop⟩ := range
    cases field <;> cases start <;> cases stop <;> rfl

end SearchCall

namespace KeyField

variable (field : KeyField) (calls : List SearchCall)

/-- The lower bound of the key that is built is the one that was asked for last. -/
theorem least_built : field.least (.built calls) = field.lowest calls := by
  -- Each of the calls sets the bounds of its own field.
  rw [SearchKey.built, (SearchCall.sets_low field).applied, lowest]
  cases field <;> rfl

/-- The upper bound of the key that is built is the one that was asked for last. -/
theorem greatest_built : field.greatest (.built calls) = field.highest calls := by
  -- Each of the calls sets the bounds of its own field.
  rw [SearchKey.built, (SearchCall.sets_high field).applied, highest]
  cases field <;> rfl

/-- A key has no bounds above the greatest value of a field. -/
theorem bounds_top (key : SearchKey) :
    field.least key ≤ field.top ∧ field.greatest key ≤ field.top := by
  -- The fields have 64 bits, and that of the type has 32.
  cases field with
  | ty => exact ⟨Nat.le_of_lt_succ key.minType.toNat_lt, Nat.le_of_lt_succ key.maxType.toNat_lt⟩
  | objectid =>
    exact ⟨Nat.le_of_lt_succ key.minObjectid.toNat_lt, Nat.le_of_lt_succ key.maxObjectid.toNat_lt⟩
  | offset =>
    exact ⟨Nat.le_of_lt_succ key.minOffset.toNat_lt, Nat.le_of_lt_succ key.maxOffset.toNat_lt⟩
  | transid =>
    exact ⟨Nat.le_of_lt_succ key.minTransid.toNat_lt, Nat.le_of_lt_succ key.maxTransid.toNat_lt⟩

end KeyField

/-- Whether each field of an item lies in the range that was asked for last. -/
def Item.Inside (calls : List SearchCall) (item : Item) : Prop :=
  ∀ field : KeyField, field.lowest calls ≤ field.of item ∧ field.of item ≤ field.highest calls

/-- The part of a tree that was written in the range of transactions that a key selects. -/
def Tree.recent (tree : Tree) (key : SearchKey) : Tree where
  items := tree.items.filter fun item =>
    KeyField.least .transid key ≤ KeyField.of item .transid ∧
      KeyField.of item .transid ≤ KeyField.greatest .transid key
  ascending := List.Pairwise.sublist List.filter_sublist tree.ascending

/-- A tree that the loop gets through: no item has the last type, and each one fits the buffer. -/
structure Tree.Searchable (tree : Tree) : Prop where
  below : ∀ item ∈ tree.items, item.ty < 255
  fits : ∀ item ∈ tree.items, item.size ≤ 3992

/-- Whether all values that the items of such a tree have in a field lie in the range. -/
def Whole (calls : List SearchCall) (field : KeyField) (last : Nat) : Prop :=
  field.lowest calls = 0 ∧ last ≤ field.highest calls

/--
Whether the ranges that were asked for hold for each field on its own.

The kernel compares whole keys, so that a range of types or offsets holds at the two ends of the
range in front of it only.
-/
def Sharp (calls : List SearchCall) : Prop :=
  KeyField.transid.highest calls < KeyField.transid.lowest calls ∨
  KeyField.objectid.highest calls < KeyField.objectid.lowest calls ∨
  KeyField.objectid.lowest calls = KeyField.objectid.highest calls ∧
    (KeyField.ty.highest calls ≤ KeyField.ty.lowest calls ∨ 254 < KeyField.ty.lowest calls ∨
      KeyField.ty.lowest calls = 254 ∧ 2 ^ 64 - 1 ≤ KeyField.offset.highest calls ∨
      Whole calls .offset (2 ^ 64 - 1)) ∨
  Whole calls .ty 254 ∧ Whole calls .offset (2 ^ 64 - 1)

instance (calls : List SearchCall) (field : KeyField) (last : Nat) :
    Decidable (Whole calls field last) := inferInstanceAs (Decidable (_ ∧ _))

instance (calls : List SearchCall) : Decidable (Sharp calls) :=
  inferInstanceAs (Decidable (_ ∨ _ ∨ _))

section Selection

variable {tree : Tree} {calls : List SearchCall} {item : Item}

/-- An item is selected when its key lies between the bounds as a whole, and its transaction does. -/
theorem Tree.mem_selected :
    item ∈ (tree.recent (.built calls)).matching (.built calls) ↔ item ∈ tree.items ∧
      (KeyField.transid.lowest calls ≤ KeyField.of item .transid ∧
        KeyField.of item .transid ≤ KeyField.transid.highest calls) ∧
      (KeyField.objectid.lowest calls < KeyField.of item .objectid ∨
        KeyField.objectid.lowest calls = KeyField.of item .objectid ∧
          (KeyField.ty.lowest calls < KeyField.of item .ty ∨
            KeyField.ty.lowest calls = KeyField.of item .ty ∧
              KeyField.offset.lowest calls ≤ KeyField.of item .offset)) ∧
      (KeyField.of item .objectid < KeyField.objectid.highest calls ∨
        KeyField.of item .objectid = KeyField.objectid.highest calls ∧
          (KeyField.of item .ty < KeyField.ty.highest calls ∨
            KeyField.of item .ty = KeyField.ty.highest calls ∧
              KeyField.of item .offset ≤ KeyField.offset.highest calls)) := by
  rw [Tree.matching, mem_between, Tree.recent, List.mem_filter, decide_eq_true_iff,
    Item.rank, QueryKey.rank_le, QueryKey.rank_le]
  -- The bounds of the key are those that were asked for.
  simp only [← KeyField.least_built, ← KeyField.greatest_built]
  exact and_assoc

/-- Whatever lies in the ranges is selected. -/
theorem Tree.selected_of_inside (member : item ∈ tree.items) (inside : item.Inside calls) :
    item ∈ (tree.recent (.built calls)).matching (.built calls) := by
  -- No component of its key is out of the bounds.
  have objectid := inside .objectid
  have ty := inside .ty
  have offset := inside .offset
  refine mem_selected.mpr ⟨member, inside .transid, ?_, ?_⟩
  · omega
  · omega

/-- When the ranges are sharp, nothing else is selected. -/
theorem Sharp.inside (sharp : Sharp calls) (below : item.ty < 255)
    (selected : item ∈ (tree.recent (.built calls)).matching (.built calls)) :
    item.Inside calls := by
  -- In each of the cases of sharp ranges the order of the keys leaves no way out of them.
  obtain ⟨_, transid, low, high⟩ := Tree.mem_selected.mp selected
  have small : KeyField.of item .ty < 255 := UInt32.lt_iff_toNat_lt.mp below
  have wide : KeyField.of item .offset < 2 ^ 64 := item.offset.toNat_lt
  unfold Sharp Whole at sharp
  intro field
  cases field with
  | transid => exact transid
  | objectid => omega
  | ty => omega
  | offset => omega

end Selection

/-- An item without data. -/
def Item.plain (objectid ty offset transid : Nat) : Item :=
  ⟨.ofNat objectid, .ofNat ty, .ofNat offset, .ofNat transid, [], Nat.two_pow_pos 32⟩

/-- The fields of an item without data are those that it was given, if they are wide enough. -/
theorem Item.plain_fields {objectid ty offset transid : Nat} (objectidFits : objectid < 2 ^ 64)
    (tyFits : ty < 2 ^ 32) (offsetFits : offset < 2 ^ 64) (transidFits : transid < 2 ^ 64) :
    KeyField.of (plain objectid ty offset transid) .objectid = objectid ∧
      KeyField.of (plain objectid ty offset transid) .ty = ty ∧
      KeyField.of (plain objectid ty offset transid) .offset = offset ∧
      KeyField.of (plain objectid ty offset transid) .transid = transid :=
  ⟨UInt64.toNat_ofNat_of_lt objectidFits, UInt32.toNat_ofNat_of_lt tyFits,
    UInt64.toNat_ofNat_of_lt offsetFits, UInt64.toNat_ofNat_of_lt transidFits⟩

/-- The tree that has one item. -/
def Tree.single (item : Item) : Tree := ⟨[item], List.pairwise_singleton _ item⟩

/-- When the ranges are not sharp, an item outside of them is selected. -/
theorem exists_stray {calls : List SearchCall} (blurred : ¬Sharp calls) :
    ∃ item : Item, item.ty < 255 ∧ item.size ≤ 3992 ∧ ¬item.Inside calls ∧
      item ∈ ((Tree.single item).recent (.built calls)).matching (.built calls) := by
  have top : ∀ field : KeyField, field.lowest calls ≤ field.top ∧ field.highest calls ≤ field.top := by
    intro field
    rw [← field.least_built calls, ← field.greatest_built calls]
    exact field.bounds_top _
  have topObjectid := top .objectid
  have topOffset := top .offset
  have topTransid := top .transid
  simp only [KeyField.top] at topObjectid topOffset topTransid
  -- The stray has a key between the bounds as a whole, and a field that is out of its range.
  suffices stray : ∃ objectid ty offset, objectid < 2 ^ 64 ∧ ty < 255 ∧ offset < 2 ^ 64 ∧
      (KeyField.objectid.lowest calls < objectid ∨ KeyField.objectid.lowest calls = objectid ∧
        (KeyField.ty.lowest calls < ty ∨
          KeyField.ty.lowest calls = ty ∧ KeyField.offset.lowest calls ≤ offset)) ∧
      (objectid < KeyField.objectid.highest calls ∨ objectid = KeyField.objectid.highest calls ∧
        (ty < KeyField.ty.highest calls ∨
          ty = KeyField.ty.highest calls ∧ offset ≤ KeyField.offset.highest calls)) ∧
      ¬((KeyField.ty.lowest calls ≤ ty ∧ ty ≤ KeyField.ty.highest calls) ∧
        KeyField.offset.lowest calls ≤ offset ∧ offset ≤ KeyField.offset.highest calls) by
    obtain ⟨objectid, ty, offset, objectidFits, tyFits, offsetFits, low, high, out⟩ := stray
    obtain ⟨hasObjectid, hasTy, hasOffset, hasTransid⟩ := Item.plain_fields objectidFits
      (tyFits.trans (by decide)) offsetFits (Nat.lt_succ_of_le topTransid.1)
    refine ⟨.plain objectid ty offset (KeyField.transid.lowest calls), ?_, ?_, fun inside => ?_, ?_⟩
    · rw [UInt32.lt_iff_toNat_lt]
      exact hasTy.trans_lt tyFits
    · exact (by decide : 32 ≤ 3992)
    · have insideTy := inside .ty
      have insideOffset := inside .offset
      rw [hasTy] at insideTy
      rw [hasOffset] at insideOffset
      exact out ⟨insideTy, insideOffset⟩
    · rw [Tree.mem_selected, hasObjectid, hasTy, hasOffset, hasTransid]
      unfold Sharp at blurred
      exact ⟨List.mem_singleton_self _, ⟨le_refl _, by omega⟩, low, high⟩
  unfold Sharp Whole at blurred
  by_cases several : KeyField.objectid.lowest calls < KeyField.objectid.highest calls
  · by_cases front : KeyField.ty.lowest calls = 0 ∧ KeyField.offset.lowest calls = 0
    · -- The last key of the first objectid is above a range of types or offsets.
      exact ⟨KeyField.objectid.lowest calls, 254, 2 ^ 64 - 1, by omega⟩
    · -- The first key of the last objectid is below a range of types or offsets.
      exact ⟨KeyField.objectid.highest calls, 0, 0, by omega⟩
  · by_cases behind : KeyField.offset.highest calls < 2 ^ 64 - 1
    · -- The last offset of the first type is above a range of offsets.
      exact ⟨KeyField.objectid.lowest calls, KeyField.ty.lowest calls, 2 ^ 64 - 1, by omega⟩
    · -- The first offset of the second type is below a range of offsets.
      exact ⟨KeyField.objectid.lowest calls, KeyField.ty.lowest calls + 1, 0, by omega⟩

/-- The loop that queries at the next offset a search that was built by a chain of calls. -/
def walk (calls : List SearchCall) (ioctl : Nat → TreeSearch → Except IoError Unit × TreeSearch)
    (depth rounds : Nat) : Loop TreeSearch (List Item) :=
  (Loop.start (build (.built calls)) []).run ioctl (nextOffset (depth + 1)) visit rounds

section Walk

variable {tree : Tree} {calls : List SearchCall}
  {ioctl : Nat → TreeSearch → Except IoError Unit × TreeSearch}
  (searchable : tree.Searchable) (limited : 1 ≤ (SearchKey.built calls).nrItems)
  (serves : Serves (tree.recent (.built calls)) ioctl) (depth : Nat)
include searchable limited serves

/-- The rounds of the loop keep what was visited and what is left together, and leave less. -/
theorem walk_turn {loop : Loop TreeSearch (List Item)}
    (visits : Visits (tree.recent (.built calls)) (build (.built calls)) loop) :
    Visits (tree.recent (.built calls)) (build (.built calls))
        (loop.turn ioctl (nextOffset (depth + 1)) visit) ∧
      ((loop.turn ioctl (nextOffset (depth + 1)) visit).ended = none →
        ((tree.recent (.built calls)).matching
          (Query.key (loop.turn ioctl (nextOffset (depth + 1)) visit).search)).length <
          ((tree.recent (.built calls)).matching (Query.key loop.search)).length) := by
  -- The recent items are items of the tree.
  have recent : ∀ item ∈ (tree.recent (.built calls)).items, item ∈ tree.items :=
    fun item member => List.mem_of_mem_filter member
  refine visits.turn serves ⟨limited, fun item member => ?_⟩
    (fun item member => searchable.below item (recent item member)) depth
  rw [build_room]
  exact searchable.fits item (recent item member)

/-- What holds in every round holds in front of the first one. -/
theorem walk_visits (rounds : Nat) :
    Visits (tree.recent (.built calls)) (build (.built calls)) (walk calls ioctl depth rounds) := by
  have start : Visits (tree.recent (.built calls)) (build (.built calls))
      (Loop.start (build (.built calls)) []) := by
    refine ⟨rfl, fun _ => ⟨rfl, ?_, List.nil_append _⟩, fun _ found => nomatch found⟩
    -- A buffer of zeroes starts with a header of zeroes.
    rw [Loop.start, readHeader_zeros (build_fresh _)]
    decide
  have keeps : ∀ loop, Visits (tree.recent (.built calls)) (build (.built calls)) loop →
      Visits (tree.recent (.built calls)) (build (.built calls))
        (loop.turn ioctl (nextOffset (depth + 1)) visit) :=
    fun loop visits => (walk_turn searchable limited serves depth visits).1
  exact Loop.run_invariant keeps start rounds

/-- The loop ends, having found what the key selects in the order of the tree. -/
theorem walk_ends :
    (∃ rounds, (walk calls ioctl depth rounds).ended = some (.ok ())) ∧
      ∀ rounds outcome, (walk calls ioctl depth rounds).ended = some outcome → outcome = .ok () ∧
        (walk calls ioctl depth rounds).result =
          (tree.recent (.built calls)).matching (.built calls) := by
  have ended : ∀ rounds outcome, (walk calls ioctl depth rounds).ended = some outcome →
      outcome = .ok () ∧ (walk calls ioctl depth rounds).result =
        (tree.recent (.built calls)).matching (.built calls) :=
    fun rounds outcome => (walk_visits searchable limited serves depth rounds).ended outcome
  refine ⟨?_, ended⟩
  -- Every round that goes on leaves less to be found.
  obtain ⟨rounds, outcome, stopped⟩ := Loop.run_ends
    (Visits (tree.recent (.built calls)) (build (.built calls)))
    (fun loop => ((tree.recent (.built calls)).matching (Query.key loop.search)).length)
    (fun loop visits => (walk_turn searchable limited serves depth visits).1)
    (fun loop visits => (walk_turn searchable limited serves depth visits).2)
    (walk_visits searchable limited serves depth 0)
  exact ⟨rounds, stopped.trans (congrArg some (ended rounds outcome stopped).1)⟩

end Walk

/--
For every chain of calls of the builder, and every tree, a loop of queries ends without an error.

It finds the items that have each field in the range that was asked for last, in the order of the
tree. It finds no others in any tree exactly when those ranges are sharp.
-/
theorem search_keeps_iff (calls : List SearchCall)
    (limited : 1 ≤ (SearchKey.built calls).nrItems) :
    (∀ (tree : Tree) ioctl depth, tree.Searchable → Serves (tree.recent (.built calls)) ioctl →
      (∃ rounds, (walk calls ioctl depth rounds).ended = some (.ok ())) ∧
      ∀ rounds outcome, (walk calls ioctl depth rounds).ended = some outcome → outcome = .ok () ∧
        (walk calls ioctl depth rounds).result.Sublist tree.items ∧
        ∀ item ∈ tree.items, item.Inside calls → item ∈ (walk calls ioctl depth rounds).result) ∧
    ((∀ (tree : Tree) ioctl depth, tree.Searchable → Serves (tree.recent (.built calls)) ioctl →
      ∀ rounds outcome, (walk calls ioctl depth rounds).ended = some outcome →
        ∀ item ∈ (walk calls ioctl depth rounds).result, item.Inside calls) ↔ Sharp calls) := by
  refine ⟨fun tree ioctl depth searchable serves => ?_, fun keeps => ?_, fun sharp => ?_⟩
  · obtain ⟨ends, ended⟩ := walk_ends searchable limited serves depth
    refine ⟨ends, fun rounds outcome stopped => ?_⟩
    obtain ⟨done, result⟩ := ended rounds outcome stopped
    rw [result]
    exact ⟨done, List.filter_sublist.trans List.filter_sublist,
      fun item member inside => Tree.selected_of_inside member inside⟩
  · -- Otherwise there is a tree of one item in which the loop finds too much.
    by_contra blurred
    obtain ⟨item, below, fits, out, selected⟩ := exists_stray blurred
    have searchable : (Tree.single item).Searchable := by
      constructor
      · exact fun other member => List.eq_of_mem_singleton member ▸ below
      · exact fun other member => List.eq_of_mem_singleton member ▸ fits
    have serves := serveNext_serves ((Tree.single item).recent (.built calls))
    obtain ⟨⟨rounds, ends⟩, ended⟩ := walk_ends searchable limited serves 0
    have result := (ended rounds _ ends).2
    exact out (keeps _ _ 0 searchable serves rounds _ ends item (result ▸ selected))
  · intro tree ioctl depth searchable serves rounds outcome stopped item found
    rw [((walk_ends searchable limited serves depth).2 rounds outcome stopped).2] at found
    exact sharp.inside (searchable.below item (Tree.mem_selected.mp found).1) found

/-- The calls that ask for the back references of one subvolume, or of all from it on. -/
def backrefsOf (objectid : RangeBounds UInt64) : List SearchCall :=
  [.tree .rootTree, .objectid objectid, .itemType ⟨.unbounded, .included 144⟩]

/-- The back references of one subvolume are found alone, and those of several are not. -/
theorem search_keeps_backrefs :
    (∀ (tree : Tree) ioctl depth, tree.Searchable →
      Serves (tree.recent (.built (backrefsOf ⟨.unbounded, .included 256⟩))) ioctl →
      ∀ rounds outcome,
        (walk (backrefsOf ⟨.unbounded, .included 256⟩) ioctl depth rounds).ended = some outcome →
        ∀ item ∈ (walk (backrefsOf ⟨.unbounded, .included 256⟩) ioctl depth rounds).result,
          item.Inside (backrefsOf ⟨.unbounded, .included 256⟩)) ∧
    ¬∀ (tree : Tree) ioctl depth, tree.Searchable →
      Serves (tree.recent (.built (backrefsOf ⟨.included 256, .unbounded⟩))) ioctl →
      ∀ rounds outcome,
        (walk (backrefsOf ⟨.included 256, .unbounded⟩) ioctl depth rounds).ended = some outcome →
        ∀ item ∈ (walk (backrefsOf ⟨.included 256, .unbounded⟩) ioctl depth rounds).result,
          item.Inside (backrefsOf ⟨.included 256, .unbounded⟩) := by
  -- The ranges of the one search are sharp, and those of the other are not.
  constructor
  · exact (search_keeps_iff (backrefsOf ⟨.unbounded, .included 256⟩) (by decide)).2.mpr (by decide)
  · intro keeps
    exact absurd ((search_keeps_iff (backrefsOf ⟨.included 256, .unbounded⟩) (by decide)).2.mp keeps)
      (by decide)

end Libbtrfs.Search
