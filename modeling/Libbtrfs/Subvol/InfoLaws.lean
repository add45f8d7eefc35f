import Libbtrfs.Subvol.Info

/-! What `get_info_by_id` makes of the items of a root tree, and how its rounds go on. -/

namespace Libbtrfs

open Search

/-- The root tree, as far as the search for a subvolume reads it. -/
structure InfoTree extends Tree where
  refs : ∀ item ∈ items, item.ty = RootBackref.key →
    ∃ ref : RootRefData, item.data = ref.bytes ∧ ref.name.length < infoNameSize
  fits : ∀ item ∈ items, RootItem.key ≤ item.ty → item.ty ≤ RootBackref.key → item.size ≤ 3992

/-- The part of the information that a `ROOT_ITEM` has, as it is in that item. -/
structure InfoArgs.OfRootItem (info : InfoArgs) (ri : RootItem) : Prop where
  generation : info.generation = some ri.generation
  flags : info.flags = some ri.flags
  uuid : info.uuid = some ri.uuid
  parentUuid : info.parentUuid = some ri.parentUuid
  receivedUuid : info.receivedUuid = some ri.receivedUuid
  ctransid : info.ctransid = some ri.ctransid
  otransid : info.otransid = some ri.otransid
  stransid : info.stransid = some ri.stransid
  rtransid : info.rtransid = some ri.rtransid
  ctime : info.ctime = some ri.ctime
  otime : info.otime = some ri.otime
  stime : info.stime = some ri.stime
  rtime : info.rtime = some ri.rtime

/-- The part of the information that a `ROOT_BACKREF` has, as it is in that item. -/
structure InfoArgs.OfBackref (info : InfoArgs) (ref : Item) : Prop where
  name : info.nameText = some ref.name
  dirid : info.dirid = some ref.dirid
  parentId : info.parentId = some ref.offset

/-- Whether all fields were written, the name up to its end. -/
def InfoArgs.written (info : InfoArgs) : Bool :=
  info.treeid.isSome && info.nameText.isSome && info.parentId.isSome && info.dirid.isSome &&
    info.generation.isSome && info.flags.isSome && info.uuid.isSome && info.parentUuid.isSome &&
    info.receivedUuid.isSome && info.ctransid.isSome && info.otransid.isSome &&
    info.stransid.isSome && info.rtransid.isSome && info.ctime.isSome && info.otime.isSome &&
    info.stime.isSome && info.rtime.isSome && info.reserved.isSome

/-- What the body of the loop does with an item of the tree, and with what is behind its data. -/
def Collected.note (collected : Collected) (item : Item) (rest : Bytes) :
    Collected × Outcome Unit :=
  if item.ty = RootItem.key then
    -- The item may be shorter than the fields that are read from it.
    ({ collected with
        info := subvolInfoArgsFromRootItem ⟨item.data ++ rest⟩ collected.info
        gotRootItem := true }, .ok ())
  else if item.ty = RootBackref.key then
    if 0 ∈ item.name then (collected, .error (.io (.kind .invalidData)))
    else
      ({ collected with
          info := { collected.info with
            name := writeName item.name collected.info.name
            dirid := some item.dirid
            parentId := some item.offset }
          gotRootRef := true }, .ok ())
  else (collected, .ok ())

/-- The last `ROOT_ITEM` among some items. -/
def Search.Item.LastRoot (seen : List Item) (item : Item) : Prop :=
  item.ty = RootItem.key ∧ ∃ front back, seen = front ++ item :: back ∧
    ∀ other ∈ back, other.ty ≠ RootItem.key

/--
What was collected reflects the items that were seen.

The fields of the last `ROOT_ITEM` are there as they were read, with what was behind the item.
-/
structure Collected.Reflects (seen : List Item) (collected : Collected) : Prop where
  rootItem : (∃ item ∈ seen, item.ty = RootItem.key) → collected.gotRootItem = true ∧
    ∃ item : Item, item.LastRoot seen ∧ ∃ rest, collected.info.OfRootItem ⟨item.data ++ rest⟩
  rootRef : (∃ item ∈ seen, item.ty = RootBackref.key) →
    ∃ item ∈ seen, item.ty = RootBackref.key ∧ collected.info.OfBackref item
  noRef : (∀ item ∈ seen, item.ty ≠ RootBackref.key) → collected.info.dirid = none
  names : ∀ item ∈ seen, item.ty = RootBackref.key → 0 ∉ item.name

/-- The fields of a `ROOT_ITEM` do not depend on the other ones. -/
theorem InfoArgs.OfRootItem.elsewhere {info : InfoArgs} {ri : RootItem}
    (fields : info.OfRootItem ri) (treeid parentId dirid : Option UInt64)
    (name : List (Option UInt8)) (reserved : Option (List UInt64)) :
    OfRootItem { info with
      treeid := treeid, name := name, parentId := parentId, dirid := dirid
      reserved := reserved } ri :=
  ⟨fields.generation, fields.flags, fields.uuid, fields.parentUuid, fields.receivedUuid,
    fields.ctransid, fields.otransid, fields.stransid, fields.rtransid, fields.ctime,
    fields.otime, fields.stime, fields.rtime⟩

/-- Both items together have all fields but the two that are written behind the loop. -/
theorem InfoArgs.written_both {info : InfoArgs} {ri : RootItem} {ref : Item}
    (root : info.OfRootItem ri) (backref : info.OfBackref ref)
    (ends : info.treeid.isSome = true ∧ info.reserved.isSome = true) : info.written = true := by
  -- Field by field, one of the two items has written it.
  simp [written, ends, backref.name, backref.dirid, backref.parentId, root.generation, root.flags,
    root.uuid, root.parentUuid, root.receivedUuid, root.ctransid, root.otransid, root.stransid,
    root.rtransid, root.ctime, root.otime, root.stime, root.rtime]

/-- A name that was written to a field is the text of the field. -/
theorem writtenText_writeName {name : Bytes} (clean : 0 ∉ name) (field : List (Option UInt8)) :
    writtenText (writeName name field) = some name := by
  -- The induction is on the name, behind which the text ends at the zero.
  have text : ∀ rest, writtenText ((toBytesWithNul name).map some ++ rest) = some name := by
    intro rest
    induction name with
    | nil => rfl
    | cons byte name ih =>
      have inside : byte ≠ 0 := fun zero => clean (zero ▸ List.mem_cons_self)
      have read := ih fun zero => clean (.tail _ zero)
      show writtenText (some byte :: ((toBytesWithNul name).map some ++ rest)) = _
      rw [writtenText, if_neg inside, read]
      rfl
  exact text _

/-- The fields that are read from a whole `ROOT_ITEM` do not depend on what is behind it. -/
theorem InfoArgs.ofRootItem_whole {info : InfoArgs} {data rest : Bytes}
    (whole : RootItem.fieldsEnd ≤ data.length) (read : info.OfRootItem ⟨data ++ rest⟩) :
    info.OfRootItem ⟨data⟩ := by
  -- Every field ends inside the item, the last of them where the reserved room begins.
  have word : ∀ {offset}, offset + 8 ≤ RootItem.fieldsEnd →
      RootItem.le64 ⟨data ++ rest⟩ offset = RootItem.le64 ⟨data⟩ offset :=
    fun inside => RootItem.le64_append rest (inside.trans whole)
  have identifier : ∀ {offset}, offset + 16 ≤ RootItem.fieldsEnd →
      RootItem.uuidBytes ⟨data ++ rest⟩ offset = RootItem.uuidBytes ⟨data⟩ offset :=
    fun inside => RootItem.uuidBytes_append rest (inside.trans whole)
  have time : ∀ {offset}, offset + 12 ≤ RootItem.fieldsEnd →
      RootItem.timespec ⟨data ++ rest⟩ offset = RootItem.timespec ⟨data⟩ offset :=
    fun inside => RootItem.timespec_append rest (inside.trans whole)
  exact {
    generation := read.generation.trans (congrArg some (word (by decide)))
    flags := read.flags.trans (congrArg some (word (by decide)))
    uuid := read.uuid.trans (congrArg some (identifier (by decide)))
    parentUuid := read.parentUuid.trans (congrArg some (identifier (by decide)))
    receivedUuid := read.receivedUuid.trans (congrArg some (identifier (by decide)))
    ctransid := read.ctransid.trans (congrArg some (word (by decide)))
    otransid := read.otransid.trans (congrArg some (word (by decide)))
    stransid := read.stransid.trans (congrArg some (word (by decide)))
    rtransid := read.rtransid.trans (congrArg some (word (by decide)))
    ctime := read.ctime.trans (congrArg some (time (by decide)))
    otime := read.otime.trans (congrArg some (time (by decide)))
    stime := read.stime.trans (congrArg some (time (by decide)))
    rtime := read.rtime.trans (congrArg some (time (by decide))) }

/-- The body does with an item in the buffer what it is to do with the item of the tree. -/
theorem Collected.collect_bytes (tree : InfoTree) (collected : Collected) {item : Item}
    (member : item ∈ tree.items) (rest : Bytes) :
    collected.collect ⟨item.bytes ++ rest⟩ = collected.note item rest := by
  -- The header and the data are read from the buffer as they are in the item.
  rw [collect, note, SearchItem.ty_bytes]
  by_cases root : item.ty = RootItem.key
  · rw [if_pos root, if_pos root, SearchItem.payload_bytes]
  · rw [if_neg root, if_neg root]
    by_cases found : item.ty = RootBackref.key
    · obtain ⟨ref, kept, _⟩ := tree.refs item member found
      rw [if_pos found, if_pos found]
      simp only [RootRef.nameAsBytes_bytes kept, RootRef.dirid_bytes kept, SearchItem.offset_bytes]
      by_cases zero : 0 ∈ item.name
      · rw [if_pos zero, if_pos zero]
      · rw [if_neg zero, if_neg zero]
    · rw [if_neg found, if_neg found]

/-- The body fails on a reference with a zero in its name, and on nothing else. -/
theorem Collected.note_error {collected : Collected} {item : Item} {rest : Bytes}
    {failure : Failure} (failed : (collected.note item rest).2 = .error failure) :
    item.ty = RootBackref.key ∧ 0 ∈ item.name ∧ failure = .io (.kind .invalidData) := by
  -- Of the three branches for an item only that of a reference can fail.
  rw [note] at failed
  split at failed
  · exact nomatch failed
  · split at failed
    · rename_i found
      split at failed
      · rename_i zero
        cases failed
        exact ⟨found, zero, rfl⟩
      · exact nomatch failed
    · exact nomatch failed

/-- In front of the first item nothing was collected. -/
theorem Collected.reflects_nil (gotRootItem gotRootRef : Bool) :
    Reflects [] ⟨.uninit, gotRootItem, gotRootRef⟩ where
  rootItem := fun ⟨_, inside, _⟩ => nomatch inside
  rootRef := fun ⟨_, inside, _⟩ => nomatch inside
  noRef := fun _ => rfl
  names := fun _ inside => nomatch inside

/-- An item of another type leaves the last `ROOT_ITEM` as it was. -/
theorem Search.Item.LastRoot.append {seen : List Item} {item root : Item}
    (last : root.LastRoot seen) (other : item.ty ≠ RootItem.key) :
    root.LastRoot (seen ++ [item]) := by
  -- The new item is one of those behind the last `ROOT_ITEM`.
  obtain ⟨ty, front, back, rfl, behind⟩ := last
  refine ⟨ty, front, back ++ [item], by simp, fun one inside => ?_⟩
  rcases List.mem_append.mp inside with earlier | new
  · exact behind one earlier
  · rwa [List.mem_singleton.mp new]

/-- An item that the body gets through is reflected together with the ones before it. -/
theorem Collected.Reflects.note {seen : List Item} {collected later : Collected} {item : Item}
    {rest : Bytes} (reflects : collected.Reflects seen)
    (noted : collected.note item rest = (later, .ok ())) : later.Reflects (seen ++ [item]) := by
  have before : ∀ {ty : UInt32}, item.ty ≠ ty → (∃ other ∈ seen ++ [item], other.ty = ty) →
      ∃ other ∈ seen, other.ty = ty := by
    rintro ty different ⟨other, inside, same⟩
    rcases List.mem_append.mp inside with earlier | last
    · exact ⟨other, earlier, same⟩
    · exact absurd (List.mem_singleton.mp last ▸ same) different
  have last : item ∈ seen ++ [item] := List.mem_append_right _ List.mem_cons_self
  have unseen : (∀ other ∈ seen ++ [item], other.ty ≠ RootBackref.key) →
      collected.info.dirid = none :=
    fun none_found => reflects.noRef fun other inside =>
      none_found other (List.mem_append_left _ inside)
  have names : (item.ty = RootBackref.key → 0 ∉ item.name) →
      ∀ other ∈ seen ++ [item], other.ty = RootBackref.key → 0 ∉ other.name := by
    intro clean other inside ty
    rcases List.mem_append.mp inside with earlier | last
    · exact reflects.names other earlier ty
    · rw [List.mem_singleton.mp last] at ty ⊢
      exact clean ty
  rw [Collected.note] at noted
  by_cases root : item.ty = RootItem.key
  · -- The fields of a reference are left as they were.
    have other_ty : item.ty ≠ RootBackref.key := by
      rw [root]
      decide
    rw [if_pos root] at noted
    cases noted
    refine ⟨fun _ => ⟨rfl, item, ⟨root, seen, [], rfl, fun _ inside => nomatch inside⟩, rest, ?_⟩,
      fun found => ?_, unseen, names fun ty => absurd ty other_ty⟩
    · exact ⟨rfl, rfl, rfl, rfl, rfl, rfl, rfl, rfl, rfl, rfl, rfl, rfl, rfl⟩
    · obtain ⟨ref, inside, ty, name, dirid, parentId⟩ := reflects.rootRef (before other_ty found)
      exact ⟨ref, List.mem_append_left _ inside, ty, name, dirid, parentId⟩
  · rw [if_neg root] at noted
    have earlier := fun found => reflects.rootItem (before root found)
    by_cases found : item.ty = RootBackref.key
    · -- The fields of a `ROOT_ITEM` are left as they were.
      rw [if_pos found] at noted
      by_cases zero : 0 ∈ item.name
      · rw [if_pos zero] at noted
        exact nomatch noted
      · rw [if_neg zero] at noted
        cases noted
        refine ⟨fun found => ?_, fun _ => ⟨item, last, found, ?_, rfl, rfl⟩,
          fun none_found => absurd found (none_found item last), names fun _ => zero⟩
        · obtain ⟨got, one, latest, behind, fields⟩ := earlier found
          exact ⟨got, one, latest.append root, behind, fields.elsewhere _ _ _ _ _⟩
        · exact writtenText_writeName zero _
    · rw [if_neg found] at noted
      cases noted
      refine ⟨fun some_found => ?_, fun some_found => ?_, unseen, names fun ty => absurd ty found⟩
      · obtain ⟨got, one, latest, same⟩ := earlier some_found
        exact ⟨got, one, latest.append root, same⟩
      · obtain ⟨ref, inside, same⟩ := reflects.rootRef (before found some_found)
        exact ⟨ref, List.mem_append_left _ inside, same⟩

end Libbtrfs
