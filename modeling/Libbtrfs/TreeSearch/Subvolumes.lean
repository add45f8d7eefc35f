import Libbtrfs.TreeSearch.RootRef
import Mathlib.Data.List.Nodup

/-! When the documented loop, which goes on at the next objectid, reports every subvolume. -/

namespace Libbtrfs.Search

/-- The greatest objectid. -/
def maxObjectid : UInt64 := 0xFFFFFFFFFFFFFFFF

/-- The lines that are to be printed for the references among some items. -/
def noted (items : List Item) : List Report :=
  (items.filter fun item => item.ty = RootRef.key).map Item.report

/-- A line that is to be printed is that of a reference. -/
theorem mem_noted {items : List Item} {line : Report} :
    line ∈ noted items ↔ ∃ item ∈ items, item.ty = RootRef.key ∧ item.report = line := by
  -- The references are filtered out of the items.
  simp [noted, and_assoc]

/-- Lines are printed for each part of the items in turn. -/
theorem noted_append (first second : List Item) :
    noted (first ++ second) = noted first ++ noted second := by
  -- Filtering goes item by item.
  simp [noted]

/-- References that are printed alike have the same key. -/
theorem rank_of_report {one other : Item} (first : one.ty = RootRef.key)
    (second : other.ty = RootRef.key) (same : one.report = other.report) :
    one.rank = other.rank := by
  -- A line shows the objectid and the offset, and the type is that of a reference.
  obtain ⟨offset, objectid, _⟩ := Report.mk.inj same
  simp only [Item.rank, Item.key, first, second, offset, objectid]

/-- What the body gets through has clean names, and is noted behind what was noted before. -/
theorem feed_note_ok {reported after : List Report} {batch : List Item}
    (passed : feed note reported batch = (after, .ok ())) :
    after = reported ++ noted batch ∧ ∀ item ∈ batch, item.ty = RootRef.key → 0 ∉ item.name := by
  let Noted : List Item → List Report → Prop := fun seen later =>
    later = reported ++ noted seen ∧ ∀ item ∈ seen, item.ty = RootRef.key → 0 ∉ item.name
  have start : Noted [] reported :=
    ⟨(List.append_nil _).symm, fun _ impossible => absurd impossible List.not_mem_nil⟩
  refine feed_induction start (fun seen result item later held stepped => ?_) passed
  -- The item is noted or passed over, and a refused one is not got through.
  obtain ⟨same, clean⟩ := held
  rw [note] at stepped
  by_cases found : item.ty = RootRef.key
  · by_cases zero : 0 ∈ item.name
    · rw [if_pos found, if_pos zero] at stepped
      cases stepped
    · rw [if_pos found, if_neg zero] at stepped
      cases stepped
      refine ⟨?_, fun other member ref => ?_⟩
      · have line : noted [item] = [item.report] := by simp [noted, found]
        rw [same, noted_append, line, List.append_assoc]
      · rcases List.mem_append.mp member with earlier | last
        · exact clean other earlier ref
        · exact List.mem_singleton.mp last ▸ zero
  · rw [if_neg found] at stepped
    cases stepped
    refine ⟨?_, fun other member ref => ?_⟩
    · have line : noted [item] = [] := by simp [noted, found]
      rw [same, noted_append, line, List.append_nil]
    · rcases List.mem_append.mp member with earlier | last
      · exact clean other earlier ref
      · exact absurd (List.mem_singleton.mp last ▸ ref) found

/-- The body fails on a reference with a zero in its name, and on nothing else. -/
theorem note_error {reported : List Report} {item : Item} {failure : Failure}
    (failed : (note reported item).2 = .error failure) :
    item.ty = RootRef.key ∧ 0 ∈ item.name := by
  -- Any other item is printed or left out.
  by_contra sound
  have passed : (note reported item).2 = .ok () := by
    rw [note]
    by_cases found : item.ty = RootRef.key
    · rw [if_pos found, if_neg fun zero => sound ⟨found, zero⟩]
    · rw [if_neg found]
  rw [passed] at failed
  cases failed

/-- The body gets through a batch of clean names. -/
theorem feed_note (reported : List Report) {batch : List Item}
    (clean : ∀ item ∈ batch, item.ty = RootRef.key → 0 ∉ item.name) :
    feed note reported batch = (reported ++ noted batch, .ok ()) := by
  cases fed : feed note reported batch with
  | mk after outcome =>
    cases outcome with
    | ok done => rw [(feed_note_ok fed).1]
    | error failure =>
      -- The only failure of the body is that of a name with a zero in it.
      obtain ⟨item, inside, before, failed⟩ := feed_error (congrArg Prod.snd fed)
      obtain ⟨found, zero⟩ := note_error failed
      exact absurd zero (clean item inside found)

/-- The callback returns the first key of another objectid, unless it panics. -/
theorem afterObjectid_low {overflowChecks : Bool} {key low : QueryKey}
    (called : afterObjectid overflowChecks key = .ok low) : ∃ objectid, low = (objectid, 0, 0) := by
  -- Whether overflow is checked or not, the other two parts of the key are zero.
  unfold afterObjectid at called
  split at called
  · cases called
    exact ⟨_, rfl⟩
  · split at called
    · cases called
    · cases called
      exact ⟨_, rfl⟩

/-- Below the greatest objectid, the callback returns the first key of the next one. -/
theorem afterObjectid_below (overflowChecks : Bool) {key : QueryKey}
    (below : key.1 ≠ maxObjectid) :
    ∃ objectid, afterObjectid overflowChecks key = .ok (objectid, 0, 0) ∧
      objectid.toNat = key.1.toNat + 1 := by
  -- One can be added to an objectid that is not the greatest.
  have one : (1 : UInt64).toNat = 1 := rfl
  have top : maxObjectid.toNat = 2 ^ 64 - 1 := rfl
  have bounded := key.1.toNat_lt
  have apart : key.1.toNat ≠ maxObjectid.toNat := fun same => below (UInt64.toNat_inj.mp same)
  have fits : key.1.toNat + (1 : UInt64).toNat < 2 ^ 64 := by omega
  obtain ⟨counted, added⟩ := checkedAdd64_fits fits
  refine ⟨key.1 + 1, ?_, added⟩
  rw [afterObjectid, counted]

/-- The first key of an objectid is reached by the items from that objectid on. -/
theorem rank_objectid (objectid : UInt64) (item : Item) :
    QueryKey.rank (objectid, 0, 0) ≤ item.rank ↔ objectid.toNat ≤ item.objectid.toNat := by
  -- The type and the offset of the bound are zero, which no item is below.
  rw [Item.rank, QueryKey.rank_le]
  simp only [Item.key, UInt32.toNat_zero, UInt64.toNat_zero]
  omega

/-- No item is above the greatest key. -/
theorem rank_top (item : Item) :
    item.rank ≤ QueryKey.rank (maxObjectid, 0xFFFFFFFF, 0xFFFFFFFFFFFFFFFF) := by
  -- Each part of the key has its greatest value.
  have objectid := item.objectid.toNat_lt
  have ty := item.ty.toNat_lt
  have offset := item.offset.toNat_lt
  have top : maxObjectid.toNat = 2 ^ 64 - 1 := rfl
  have top_ty : (0xFFFFFFFF : UInt32).toNat = 2 ^ 32 - 1 := rfl
  have top_offset : (0xFFFFFFFFFFFFFFFF : UInt64).toNat = 2 ^ 64 - 1 := rfl
  rw [Item.rank, QueryKey.rank_le]
  simp only [Item.key, top, top_ty, top_offset]
  omega

/-- A running loop searches from the first key of some objectid up to the greatest key. -/
structure Scans (tree : Tree) (loop : Loop TreeSearch (List Report)) : Prop where
  ready : Ready tree loop.search
  low : ∃ objectid, (Query.key loop.search).low = (objectid, 0, 0)
  high : (Query.key loop.search).high = (maxObjectid, 0xFFFFFFFF, 0xFFFFFFFFFFFFFFFF)

/-- What such a search selects is what its lower bound does not exclude. -/
theorem Scans.mem_matching {tree : Tree} {loop : Loop TreeSearch (List Report)}
    (scans : Scans tree loop) {item : Item} :
    item ∈ tree.matching (Query.key loop.search) ↔
      item ∈ tree.items ∧ (Query.key loop.search).low.rank ≤ item.rank := by
  -- The upper bound excludes nothing.
  rw [Tree.matching, mem_between, scans.high]
  exact ⟨fun inside => ⟨inside.1, inside.2.1⟩, fun inside => ⟨inside.1, inside.2, rank_top item⟩⟩

/-- The loop has failed: in a query, in its body or in its callback. -/
def Failed (loop : Loop TreeSearch (List Report)) : Prop :=
  ∃ failure, loop.ended = some (.error failure)

section Rounds

variable {tree : RootTree} {ioctl : Nat → TreeSearch → Except IoError Unit × TreeSearch}
  {overflowChecks : Bool} {loop next : Loop TreeSearch (List Report)}

/-- What a round of a running loop comes to. -/
theorem Scans.turn_cases (serves : Serves tree.toTree ioctl) (overflowChecks : Bool)
    (running : loop.ended = none) (scans : Scans tree.toTree loop) :
    loop.Turned tree.toTree ioctl (afterObjectid overflowChecks) note
      (loop.turn ioctl (afterObjectid overflowChecks) report) :=
  Loop.turn_cases serves _ running scans.ready fun reported _ member rest =>
    report_bytes tree reported member rest

/-- A round that goes on leaves a search of the same kind. -/
theorem Scans.turned (scans : Scans tree.toTree loop)
    (turned : loop.Turned tree.toTree ioctl (afterObjectid overflowChecks) note next)
    (running : next.ended = none) : Scans tree.toTree next := by
  -- Only a batch whose callback succeeds lets the loop go on, from the key that it returned.
  cases turned with
  | nothing _ _ ended _ => cases ended.symm.trans running
  | failed _ _ ended => cases ended.symm.trans running
  | resumed _ _ _ called _ key room _ =>
    obtain ⟨objectid, rfl⟩ := afterObjectid_low called
    refine ⟨⟨?_, fun item member => ?_⟩, ⟨objectid, ?_⟩, ?_⟩
    · rw [key]
      exact scans.ready.1
    · rw [room]
      exact scans.ready.2 item member
    · rw [key]
      rfl
    · rw [key]
      exact scans.high

/-- A loop that has not failed keeps what all rounds keep that do not fail. -/
theorem scan_invariant (overflowChecks : Bool) (Inv : Loop TreeSearch (List Report) → Prop)
    (serves : Serves tree.toTree ioctl)
    (keeps : ∀ loop next, loop.ended = none → Scans tree.toTree loop → Inv loop →
      loop.Turned tree.toTree ioctl (afterObjectid overflowChecks) note next →
      ¬ Failed next → Inv next)
    (scans : loop.ended = none → Scans tree.toTree loop) (holds : Inv loop) (rounds : Nat)
    (sound : ¬ Failed (loop.run ioctl (afterObjectid overflowChecks) report rounds)) :
    ((loop.run ioctl (afterObjectid overflowChecks) report rounds).ended = none →
      Scans tree.toTree (loop.run ioctl (afterObjectid overflowChecks) report rounds)) ∧
      Inv (loop.run ioctl (afterObjectid overflowChecks) report rounds) := by
  -- A loop that has not failed had not failed a round before either.
  induction rounds with
  | zero => exact ⟨scans, holds⟩
  | succ rounds ih =>
    rw [Loop.run_succ] at sound ⊢
    cases ended : (loop.run ioctl (afterObjectid overflowChecks) report rounds).ended with
    | some outcome =>
      rw [Loop.turn_ended ended] at sound ⊢
      exact ih sound
    | none =>
      obtain ⟨before, kept⟩ := ih fun failed => by
        obtain ⟨failure, impossible⟩ := failed
        cases ended.symm.trans impossible
      have turned := (before ended).turn_cases serves overflowChecks ended
      exact ⟨(before ended).turned turned, keeps _ _ ended (before ended) kept turned sound⟩

/-- The loop reports every reference whose objectid is in the range, once each. -/
def Complete (tree : RootTree) (ioctl : Nat → TreeSearch → Except IoError Unit × TreeSearch)
    (overflowChecks : Bool) : Prop :=
  ∃ rounds, (listSubvolumes ioctl overflowChecks rounds).ended = some (.ok ()) ∧
    ∀ item ∈ tree.items, item.ty = RootRef.key → 5 ≤ item.objectid →
      (listSubvolumes ioctl overflowChecks rounds).result.count item.report = 1

/-- The kernel answers with a batch that ends in front of a reference from its last objectid. -/
def Cuts (tree : Tree) (ioctl : Nat → TreeSearch → Except IoError Unit × TreeSearch)
    (loop : Loop TreeSearch (List Report)) : Prop :=
  let matching := tree.matching (Query.key loop.search)
  let count := (Query.key (ioctl loop.calls loop.search).2).nrItems.toNat
  ∃ last ∈ (matching.take count).getLast?, ∃ item ∈ matching.drop count,
    item.ty = RootRef.key ∧ item.objectid = last.objectid

/-- The documented search starts from the first key of the objectid 5. -/
theorem scans_start {tree : Tree} (fits : ∀ item ∈ tree.items, item.size ≤ 3992) :
    Scans tree (Loop.start subvolumeSearch []) where
  ready := ⟨by decide, fun item member => (build_room _).symm ▸ fits item member⟩
  low := ⟨5, rfl⟩
  high := rfl

/-- A loop that ends without a failure has seen names without a zero only. -/
theorem clean_of_ended (serves : Serves tree.toTree ioctl)
    (fits : ∀ item ∈ tree.items, item.size ≤ 3992) {rounds : Nat}
    (ended : (listSubvolumes ioctl overflowChecks rounds).ended = some (.ok ())) :
    ∀ line ∈ (listSubvolumes ioctl overflowChecks rounds).result, 0 ∉ line.name := by
  -- A name with a zero in it would have ended the loop with the error of the body.
  refine (scan_invariant overflowChecks (fun loop => ∀ line ∈ loop.result, 0 ∉ line.name) serves
    (fun loop next _ _ clean turned sound => ?_) (fun _ => scans_start fits) ?_ rounds ?_).2
  · cases turned with
    | nothing _ result _ _ => exact result ▸ clean
    | failed _ _ ended => exact absurd ⟨_, ended⟩ sound
    | resumed _ _ passed _ _ _ _ _ =>
      obtain ⟨result, fresh⟩ := feed_note_ok passed
      intro line member
      rw [result, List.mem_append] at member
      rcases member with old | new
      · exact clean line old
      · obtain ⟨item, inside, ref, rfl⟩ := mem_noted.mp new
        exact fresh item inside ref
  · intro line impossible
    cases impossible
  · rintro ⟨failure, failed⟩
    cases ended.symm.trans failed

/-- With an item of the greatest objectid, every query finds something, so the loop never ends well. -/
theorem below_of_ended (serves : Serves tree.toTree ioctl)
    (fits : ∀ item ∈ tree.items, item.size ≤ 3992) {rounds : Nat}
    (ended : (listSubvolumes ioctl overflowChecks rounds).ended = some (.ok ())) :
    ∀ item ∈ tree.items, item.objectid ≠ maxObjectid := by
  intro item member top
  refine (scan_invariant overflowChecks (fun loop => loop.ended ≠ some (.ok ())) serves
    (fun loop next _ scans _ turned sound => ?_) (fun _ => scans_start fits)
    (fun impossible => nomatch impossible) rounds ?_).2 ended
  · cases turned with
    | nothing selected _ _ _ =>
      -- The bound is the first key of some objectid, and none is above that of the item.
      have inside : item ∈ tree.toTree.matching (Query.key loop.search) := by
        rw [scans.mem_matching]
        obtain ⟨objectid, low⟩ := scans.low
        refine ⟨member, ?_⟩
        rw [low, rank_objectid, top]
        exact Nat.le_of_lt_succ objectid.toNat_lt
      rw [selected] at inside
      cases inside
    | failed _ _ ended => exact absurd ⟨_, ended⟩ sound
    | resumed _ _ _ _ running _ _ _ => exact running ▸ fun impossible => nomatch impossible
  · rintro ⟨failure, failed⟩
    cases ended.symm.trans failed

/-- Below the greatest objectid, a search goes on above the last item of the batch. -/
theorem above_of_called (below : ∀ item ∈ tree.items, item.objectid ≠ maxObjectid)
    {first : Item} {more rest : List Item} {low : QueryKey}
    (selected : tree.toTree.matching (Query.key loop.search) = first :: more ++ rest)
    (called : afterObjectid overflowChecks (more.getLastD first).key = .ok low) :
    ∃ objectid, low = (objectid, 0, 0) ∧
      objectid.toNat = (more.getLastD first).objectid.toNat + 1 ∧
      (more.getLastD first).rank < low.rank := by
  -- The last item of the batch is an item of the tree, so its objectid is not the greatest.
  have last := Tree.last_matching selected
  have small : (more.getLastD first).key.1 ≠ maxObjectid := below _ (Tree.mem_of_matching last)
  obtain ⟨objectid, next, counted⟩ := afterObjectid_below overflowChecks small
  cases called.symm.trans next
  refine ⟨objectid, rfl, counted, ?_⟩
  have behind := (rank_objectid objectid (more.getLastD first)).not
  rw [not_le, not_le] at behind
  rw [behind, counted]
  exact Nat.lt_succ_self _

/-- A running loop has gone past the references that it has reported. -/
structure Behind (tree : RootTree) (loop : Loop TreeSearch (List Report)) : Prop where
  start : QueryKey.rank (5, 0, 0) ≤ (Query.key loop.search).low.rank
  reported : ∀ item ∈ tree.items, item.ty = RootRef.key → item.report ∈ loop.result →
    item.rank < (Query.key loop.search).low.rank

/-- The loop has gone past a reference that it has not reported. -/
structure Missed (item : Item) (loop : Loop TreeSearch (List Report)) : Prop where
  unreported : item.report ∉ loop.result
  passed : loop.ended = none → item.rank < (Query.key loop.search).low.rank

/-- A round goes past what it reports. -/
theorem Behind.turned (below : ∀ item ∈ tree.items, item.objectid ≠ maxObjectid)
    (scans : Scans tree.toTree loop) (behind : Behind tree loop)
    (turned : loop.Turned tree.toTree ioctl (afterObjectid overflowChecks) note next)
    (running : next.ended = none) : Behind tree next := by
  -- The new bound is above the last item of the batch, and with it above all of the batch.
  cases turned with
  | nothing _ _ ended _ => cases ended.symm.trans running
  | failed _ _ ended => cases ended.symm.trans running
  | @resumed first more rest low selected _ passed called _ key _ _ =>
    obtain ⟨_, _, _, above⟩ := above_of_called below selected called
    have around := tree.around_last selected
    have last := Tree.last_matching selected
    have further : (Query.key loop.search).low.rank < (Query.key next.search).low.rank := by
      rw [key]
      exact (scans.mem_matching.mp last).2.trans_lt above
    refine ⟨behind.start.trans further.le, fun item member ref line => ?_⟩
    rw [(feed_note_ok passed).1, List.mem_append] at line
    rcases line with old | new
    · exact (behind.reported item member ref old).trans further
    · obtain ⟨other, inside, other_ref, same⟩ := mem_noted.mp new
      rw [← rank_of_report other_ref ref same, key]
      exact (around.1 other inside).trans_lt above

/-- What a round finds missed stays missed. -/
theorem Missed.turned (below : ∀ item ∈ tree.items, item.objectid ≠ maxObjectid)
    (running : loop.ended = none) (scans : Scans tree.toTree loop) {item : Item}
    (ref : item.ty = RootRef.key) (missed : Missed item loop)
    (turned : loop.Turned tree.toTree ioctl (afterObjectid overflowChecks) note next)
    (sound : ¬ Failed next) : Missed item next := by
  -- The bound only rises, and a batch holds nothing that is below its bound.
  have passed := missed.passed running
  cases turned with
  | nothing _ result ended _ =>
    exact ⟨result ▸ missed.unreported, fun going => nomatch ended.symm.trans going⟩
  | failed _ _ ended => exact absurd ⟨_, ended⟩ sound
  | @resumed first more rest low selected _ fed called _ key _ _ =>
    obtain ⟨_, _, _, above⟩ := above_of_called below selected called
    have last := Tree.last_matching selected
    refine ⟨fun line => ?_, fun _ => ?_⟩
    · rw [(feed_note_ok fed).1, List.mem_append] at line
      rcases line with old | new
      · exact missed.unreported old
      · -- The items of the batch are above the bound that the reference is below.
        obtain ⟨other, inside, other_ref, same⟩ := mem_noted.mp new
        have reached := (scans.mem_matching.mp (Tree.batch_matching selected inside)).2
        rw [rank_of_report other_ref ref same] at reached
        exact absurd passed (not_lt.mpr reached)
    · rw [key]
      exact passed.trans ((scans.mem_matching.mp last).2.trans_lt above)

/-- A batch that is cut in front of a reference of its last objectid has the loop miss it. -/
theorem Cuts.missed (below : ∀ item ∈ tree.items, item.objectid ≠ maxObjectid)
    (scans : Scans tree.toTree loop) (behind : Behind tree loop)
    (cuts : Cuts tree.toTree ioctl loop)
    (turned : loop.Turned tree.toTree ioctl (afterObjectid overflowChecks) note next)
    (sound : ¬ Failed next) :
    ∃ item ∈ tree.items, item.ty = RootRef.key ∧ 5 ≤ item.objectid ∧ Missed item next := by
  -- What is cut off has the objectid of the last item, and the loop goes on behind that.
  obtain ⟨cut, ends, item, cut_off, ref, same⟩ := cuts
  have chosen : item ∈ tree.toTree.matching (Query.key loop.search) := List.mem_of_mem_drop cut_off
  obtain ⟨member, reached⟩ := scans.mem_matching.mp chosen
  have ranged := (rank_objectid 5 item).mp (behind.start.trans reached)
  refine ⟨item, member, ref, UInt64.le_iff_toNat_le.mpr ranged, ?_⟩
  cases turned with
  | nothing selected _ _ _ =>
    rw [selected] at chosen
    cases chosen
  | failed _ _ ended => exact absurd ⟨_, ended⟩ sound
  | @resumed first more rest low selected counted fed called _ key _ _ =>
    obtain ⟨objectid, rfl, next_objectid, above⟩ := above_of_called below selected called
    have around := tree.around_last selected
    rw [counted, selected, List.drop_left] at cut_off
    rw [counted, selected, List.take_left, List.getLast?_cons, Option.mem_some_iff] at ends
    subst ends
    refine ⟨fun line => ?_, fun _ => ?_⟩
    · rw [(feed_note_ok fed).1, List.mem_append] at line
      rcases line with old | new
      · exact absurd (behind.reported item member ref old) (not_lt.mpr reached)
      · obtain ⟨other, inside, other_ref, alike⟩ := mem_noted.mp new
        have before := (around.1 other inside).trans_lt (around.2 item cut_off)
        rw [rank_of_report other_ref ref alike] at before
        exact absurd before (lt_irrefl _)
    · -- The loop goes on at the objectid behind that of the reference.
      have behind_bound := (rank_objectid objectid item).not
      rw [not_le, not_le] at behind_bound
      rw [key]
      refine behind_bound.mpr ?_
      rw [next_objectid, same, List.getLastD_eq_getLast?]
      exact Nat.lt_succ_self _

/-- Later rounds of the documented loop follow the earlier ones. -/
theorem listSubvolumes_add (rounds more : Nat) :
    listSubvolumes ioctl overflowChecks (rounds + more) =
      (listSubvolumes ioctl overflowChecks rounds).run ioctl (afterObjectid overflowChecks) report
        more :=
  Loop.run_add rounds more

/-- A loop that reports every reference is never answered with a batch that is cut. -/
theorem uncut_of_complete (serves : Serves tree.toTree ioctl)
    (fits : ∀ item ∈ tree.items, item.size ≤ 3992)
    (complete : Complete tree ioctl overflowChecks) {rounds : Nat}
    (running : (listSubvolumes ioctl overflowChecks rounds).ended = none) :
    ¬ Cuts tree.toTree ioctl (listSubvolumes ioctl overflowChecks rounds) := by
  intro cuts
  obtain ⟨last, ended, counted⟩ := complete
  have below := below_of_ended serves fits ended
  have start : Behind tree (Loop.start subvolumeSearch []) :=
    ⟨le_refl _, fun _ _ _ impossible => nomatch impossible⟩
  -- The end comes later than the cut, since an ended loop does not run again.
  have later : rounds < last := by
    by_contra early
    obtain ⟨more, rfl⟩ := Nat.exists_eq_add_of_le (not_lt.mp early)
    rw [listSubvolumes_add, Loop.run_ended ended] at running
    cases ended.symm.trans running
  obtain ⟨more, rfl⟩ := Nat.exists_eq_add_of_lt later
  have split : listSubvolumes ioctl overflowChecks (rounds + more + 1) =
      (listSubvolumes ioctl overflowChecks (rounds + 1)).run ioctl (afterObjectid overflowChecks)
        report more := by
    rw [Nat.add_right_comm, listSubvolumes_add]
  rw [split] at ended counted
  have sound : ∀ {loop : Loop TreeSearch (List Report)} (rounds : Nat),
      (loop.run ioctl (afterObjectid overflowChecks) report rounds).ended = some (.ok ()) →
      ¬ Failed loop := by
    rintro loop rounds done ⟨failure, failed⟩
    rw [Loop.run_ended failed] at done
    cases failed.symm.trans done
  have sound_cut : ¬ Failed (listSubvolumes ioctl overflowChecks rounds) := by
    rintro ⟨failure, failed⟩
    cases running.symm.trans failed
  obtain ⟨scans, behind⟩ := scan_invariant overflowChecks
    (fun loop => loop.ended = none → Behind tree loop) serves
    (fun loop next going scans behind turned _ still =>
      (behind going).turned below scans turned still)
    (fun _ => scans_start fits) (fun _ => start) rounds sound_cut
  have turned := (scans running).turn_cases serves overflowChecks running
  have step : listSubvolumes ioctl overflowChecks (rounds + 1) =
      (listSubvolumes ioctl overflowChecks rounds).turn ioctl (afterObjectid overflowChecks)
        report := Loop.run_succ rounds
  obtain ⟨item, member, ref, ranged, missed⟩ :=
    cuts.missed below (scans running) (behind running) turned (step ▸ sound more ended)
  have kept := (scan_invariant overflowChecks (Missed item) serves
    (fun loop next going scans missed turned sound =>
      missed.turned below going scans ref turned sound)
    ((scans running).turned turned) missed more ?_).2
  · have absent := List.count_eq_zero_of_not_mem kept.unreported
    rw [← step, counted item member ref ranged] at absent
    cases absent
  · rintro ⟨failure, failed⟩
    rw [← step, ended] at failed
    cases failed

/-- When no reference behind a batch is from its last objectid, none of them is passed over. -/
theorem noted_resume {key : SearchKey} {first : Item} {more rest : List Item} {objectid : UInt64}
    (selected : tree.toTree.matching key = first :: more ++ rest)
    (next_objectid : objectid.toNat = (more.getLastD first).objectid.toNat + 1)
    (above : (more.getLastD first).rank < QueryKey.rank (objectid, 0, 0))
    (uncut : ∀ item ∈ rest, item.ty = RootRef.key →
      ¬ item.objectid = (more.getLastD first).objectid) :
    noted (tree.toTree.matching (key.setLow (objectid, 0, 0))) = noted rest := by
  -- No reference behind the batch has its last objectid, so the filter keeps them all.
  rw [tree.matching_page selected above, noted, noted, List.filter_filter]
  congr 1
  apply List.filter_congr
  intro item member
  by_cases ref : item.ty = RootRef.key
  · -- The objectid of the reference is at least that of the batch, and not the same.
    have higher := (tree.around_last selected).2 item member
    have apart : item.objectid.toNat ≠ (more.getLastD first).objectid.toNat :=
      fun same => uncut item member ref (UInt64.toNat_inj.mp same)
    have reached : QueryKey.rank (objectid, 0, 0) ≤ item.rank := by
      rw [rank_objectid, next_objectid]
      rw [Item.rank, Item.rank, QueryKey.rank_lt] at higher
      simp only [Item.key] at higher
      omega
    simp [ref, reached]
  · simp [ref]

/-- What holds as long as no batch is cut: the references reported and those left are all of them. -/
structure Together (tree : RootTree) (loop : Loop TreeSearch (List Report)) : Prop where
  running : loop.ended = none → Scans tree.toTree loop ∧
    QueryKey.rank (5, 0, 0) ≤ (Query.key loop.search).low.rank ∧
    (readHeader (Query.buf loop.search)).objectid ≠ maxObjectid ∧
    loop.result ++ noted (tree.toTree.matching (Query.key loop.search)) =
      noted (tree.toTree.matching (Query.key subvolumeSearch))
  ended : ∀ outcome, loop.ended = some outcome →
    outcome = .ok () ∧ loop.result = noted (tree.toTree.matching (Query.key subvolumeSearch))

/-- A round that is not cut keeps the references together. -/
theorem Together.turn (serves : Serves tree.toTree ioctl)
    (clean : ∀ item ∈ tree.items, item.ty = RootRef.key → 5 ≤ item.objectid → 0 ∉ item.name)
    (below : ∀ item ∈ tree.items, item.objectid ≠ maxObjectid)
    (uncut : loop.ended = none → ¬ Cuts tree.toTree ioctl loop) (together : Together tree loop) :
    Together tree (loop.turn ioctl (afterObjectid overflowChecks) report) := by
  -- One case for each way a round can go.
  cases ended : loop.ended with
  | some outcome =>
    rw [Loop.turn_ended ended]
    exact together
  | none =>
    obtain ⟨scans, start, header, whole⟩ := together.running ended
    have turned := scans.turn_cases serves overflowChecks ended
    have scans_next := scans.turned turned
    cases turned with
    | nothing selected result stopped _ =>
      have front : (readHeader (Query.buf loop.search)).key.1 ≠ maxObjectid := header
      obtain ⟨objectid, called, _⟩ := afterObjectid_below overflowChecks front
      rw [called] at stopped
      rw [selected, noted, List.filter_nil, List.map_nil, List.append_nil] at whole
      refine ⟨fun running => (nomatch stopped.symm.trans running), fun outcome found => ?_⟩
      exact ⟨Option.some.inj (found.symm.trans stopped), result.trans whole⟩
    | @failed first more rest failure selected reason stopped =>
      have last := Tree.last_matching selected
      rcases reason with failed | failed
      · -- The names in the batch are clean, so the body gets through it.
        rw [feed_note loop.result] at failed
        · exact absurd rfl failed
        · intro item inside ref
          obtain ⟨member, reached⟩ :=
            scans.mem_matching.mp (Tree.batch_matching selected inside)
          have ranged := (rank_objectid 5 item).mp (start.trans reached)
          exact clean item member ref (UInt64.le_iff_toNat_le.mpr ranged)
      · have small : (more.getLastD first).key.1 ≠ maxObjectid :=
          below _ (Tree.mem_of_matching last)
        obtain ⟨objectid, called, _⟩ := afterObjectid_below overflowChecks small
        cases called.symm.trans failed
    | @resumed first more rest low selected counted fed called running key _ front =>
      obtain ⟨objectid, rfl, next_objectid, above⟩ := above_of_called below selected called
      have around := tree.around_last selected
      have last := Tree.last_matching selected
      have first_chosen := Tree.batch_matching selected List.mem_cons_self
      refine ⟨fun _ => ⟨scans_next running, ?_, ?_, ?_⟩, fun _ found => ?_⟩
      · rw [key]
        exact start.trans ((scans.mem_matching.mp last).2.trans above.le)
      · rw [front]
        exact below first (Tree.mem_of_matching first_chosen)
      · -- The references behind the batch are from later objectids, where the loop goes on.
        have left := noted_resume selected next_objectid above fun item member ref same =>
          uncut ended ⟨more.getLastD first, by
            rw [counted, selected, List.take_left, List.getLast?_cons, List.getLastD_eq_getLast?]
            rfl, item, by
            rw [counted, selected, List.drop_left]
            exact member, ref, same⟩
        rw [key, left, (feed_note_ok fed).1, List.append_assoc]
        rw [selected, noted_append] at whole
        exact whole
      · cases running.symm.trans found

/-- The documented loop ends, when no objectid is the greatest one. -/
theorem listSubvolumes_ends (serves : Serves tree.toTree ioctl)
    (fits : ∀ item ∈ tree.items, item.size ≤ 3992)
    (below : ∀ item ∈ tree.items, item.objectid ≠ maxObjectid) (overflowChecks : Bool) :
    ∃ rounds outcome, (listSubvolumes ioctl overflowChecks rounds).ended = some outcome := by
  refine Loop.run_ends (fun loop => loop.ended = none → Scans tree.toTree loop)
    (fun loop => (tree.toTree.matching (Query.key loop.search)).length) ?_ ?_
    fun _ => scans_start fits
  · intro loop scans running
    have ended := Loop.running_of_turn running
    have turned := (scans ended).turn_cases serves overflowChecks ended
    exact (scans ended).turned turned running
  · intro loop scans running
    have ended := Loop.running_of_turn running
    cases (scans ended).turn_cases serves overflowChecks ended with
    | nothing _ _ stopped _ => cases stopped.symm.trans running
    | failed _ _ stopped => cases stopped.symm.trans running
    | @resumed first more rest low selected _ _ called _ key _ _ =>
      -- What is left lies behind the batch, which has an item in it.
      obtain ⟨_, _, _, above⟩ := above_of_called below selected called
      have shorter := List.length_filter_le (fun item : Item => decide (low.rank ≤ item.rank)) rest
      rw [key, tree.matching_page selected above, selected, List.length_append, List.length_cons]
      omega

/-- The lines of a tree are all different. -/
theorem nodup_noted (tree : Tree) (key : SearchKey) : (noted (tree.matching key)).Nodup := by
  -- Lines that are alike come from references with the same key, and keys are apart.
  have ascending : Ascending Item.rank (tree.matching key) := tree.ascending.between
  rw [noted, List.Nodup, List.pairwise_map]
  refine (ascending.filter _).imp_of_mem ?_
  intro one other first second lower same
  have one_ref : one.ty = RootRef.key := by simpa using (List.mem_filter.mp first).2
  have other_ref : other.ty = RootRef.key := by simpa using (List.mem_filter.mp second).2
  exact lower.ne (rank_of_report one_ref other_ref same)

/-- A loop that is never answered with a batch that is cut reports every reference. -/
theorem complete_of_uncut (serves : Serves tree.toTree ioctl)
    (fits : ∀ item ∈ tree.items, item.size ≤ 3992)
    (clean : ∀ item ∈ tree.items, item.ty = RootRef.key → 5 ≤ item.objectid → 0 ∉ item.name)
    (below : ∀ item ∈ tree.items, item.objectid ≠ maxObjectid)
    (uncut : ∀ rounds, (listSubvolumes ioctl overflowChecks rounds).ended = none →
      ¬ Cuts tree.toTree ioctl (listSubvolumes ioctl overflowChecks rounds)) :
    Complete tree ioctl overflowChecks := by
  -- The loop ends with the lines of all references of the range, and each is there once.
  have together : ∀ rounds, Together tree (listSubvolumes ioctl overflowChecks rounds) := by
    intro rounds
    induction rounds with
    | zero =>
      refine ⟨fun _ => ⟨scans_start fits, le_refl _, ?_, List.nil_append _⟩, fun _ found => nomatch found⟩
      have front : readHeader (Query.buf subvolumeSearch) = ⟨0, 0, 0, 0, 0⟩ :=
        readHeader_zeros (build_fresh _)
      exact front ▸ by decide
    | succ rounds ih =>
      rw [listSubvolumes_add]
      exact ih.turn serves clean below (uncut rounds)
  obtain ⟨rounds, outcome, ended⟩ := listSubvolumes_ends serves fits below overflowChecks
  obtain ⟨rfl, result⟩ := (together rounds).ended outcome ended
  refine ⟨rounds, ended, fun item member ref ranged => ?_⟩
  rw [result]
  refine List.count_eq_one_of_mem (nodup_noted _ _) (mem_noted.mpr ⟨item, ?_, ref, rfl⟩)
  exact (scans_start fits).mem_matching.mpr
    ⟨member, (rank_objectid 5 item).mpr (UInt64.le_iff_toNat_le.mp ranged)⟩

end Rounds

/--
The documented loop reports every reference once exactly when their names are free of zeroes, no
objectid is the greatest one, and no query is answered with a batch that is cut.
-/
theorem listSubvolumes_complete_iff (tree : RootTree)
    {ioctl : Nat → TreeSearch → Except IoError Unit × TreeSearch}
    (serves : Serves tree.toTree ioctl) (fits : ∀ item ∈ tree.items, item.size ≤ 3992)
    (overflowChecks : Bool) :
    Complete tree ioctl overflowChecks ↔
      (∀ item ∈ tree.items, item.ty = RootRef.key → 5 ≤ item.objectid → 0 ∉ item.name) ∧
      (∀ item ∈ tree.items, item.objectid ≠ maxObjectid) ∧
      ∀ rounds, (listSubvolumes ioctl overflowChecks rounds).ended = none →
        ¬ Cuts tree.toTree ioctl (listSubvolumes ioctl overflowChecks rounds) := by
  -- One direction is what a complete run shows, the other is the invariant of the runs.
  constructor
  · intro complete
    refine ⟨?_, ?_, fun rounds running => uncut_of_complete serves fits complete running⟩
    · intro item member ref ranged
      obtain ⟨rounds, ended, counted⟩ := complete
      have printed : item.report ∈ (listSubvolumes ioctl overflowChecks rounds).result :=
        List.count_pos_iff.mp ((counted item member ref ranged).symm ▸ Nat.one_pos)
      exact clean_of_ended serves fits ended _ printed
    · obtain ⟨rounds, ended, _⟩ := complete
      exact below_of_ended serves fits ended
  · rintro ⟨clean, below, uncut⟩
    exact complete_of_uncut serves fits clean below uncut

/-- The reference from the top level to a subvolume with a name of one letter. -/
def topRef (offset : Offset) (letter : UInt8) : Item :=
  ⟨5, RootRef.key, offset, 7, (RootRefData.mk 256 2 [letter] (by simp)).bytes, by
    simp [RootRefData.bytes]⟩

/-- Two subvolumes of the top level. -/
def siblings : RootTree where
  items := [topRef 256 97, topRef 257 98]
  ascending := by
    unfold Ascending
    decide
  refs := by
    intro item member _
    rcases List.mem_cons.mp member with rfl | member
    · exact ⟨_, rfl⟩
    · cases List.mem_singleton.mp member
      exact ⟨_, rfl⟩

/-- The kernel that returns one item at a time, for the two subvolumes. -/
theorem listSubvolumes_complete_iff_siblings :
    Complete siblings (serveNext siblings.toTree) true ↔
      (∀ item ∈ siblings.items, item.ty = RootRef.key → 5 ≤ item.objectid → 0 ∉ item.name) ∧
      (∀ item ∈ siblings.items, item.objectid ≠ maxObjectid) ∧
      ∀ rounds, (listSubvolumes (serveNext siblings.toTree) true rounds).ended = none →
        ¬ Cuts siblings.toTree (serveNext siblings.toTree)
          (listSubvolumes (serveNext siblings.toTree) true rounds) :=
  listSubvolumes_complete_iff siblings (serveNext_serves siblings.toTree) (by decide) true

/-- With a first batch that ends between the two subvolumes, the second one is never reported. -/
theorem listSubvolumes_incomplete_siblings :
    Serves siblings.toTree (serveNext siblings.toTree) ∧
      (∀ item ∈ siblings.items, item.size ≤ 3992) ∧
      ¬ Complete siblings (serveNext siblings.toTree) true := by
  -- A batch of one item ends between the two.
  have serves := serveNext_serves siblings.toTree
  have fits : ∀ item ∈ siblings.items, item.size ≤ 3992 := by decide
  refine ⟨serves, fits, fun complete => ?_⟩
  refine @uncut_of_complete siblings _ true serves fits complete 0 rfl ?_
  exact ⟨topRef 256 97, by decide, topRef 257 98, by decide, rfl, rfl⟩

end Libbtrfs.Search
