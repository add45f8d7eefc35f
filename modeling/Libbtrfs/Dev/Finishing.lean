import Libbtrfs.Dev.Listing

/-! The device iterator over a filesystem that changes: runs of calls that come to an end. -/

namespace Libbtrfs.Dev

section Runs

variable (overflowChecks : Bool) (devInfo : DevIoctl) (iter : Iter)

/--
Every call returns after no more ioctls than the highest id says, one of the first calls returns
nothing any more, and no more devices are found than there are, so the length does not underflow.
-/
structure Finishes : Prop where
  returns : ∀ count, ∃ state,
    run overflowChecks devInfo iter.maxId.toNat iter count = some state
  ends : ∃ count state, count ≤ iter.numDevices.toNat + 2 ∧
    run overflowChecks devInfo iter.maxId.toNat iter count = some state ∧ none ∈ state.results
  fits : ∀ count state, run overflowChecks devInfo iter.maxId.toNat iter count = some state →
    state.iter.foundDevices ≤ state.iter.numDevices

/-- Whether a call has returned an error. -/
def failed (result : Option (Except IoError DevInfo)) : Bool :=
  match result with
  | some (.error _) => true
  | _ => false

/--
What the next call of a run is to meet.

Behind the highest id all devices were found. In front of it, within as many ids as the highest one
says, there is one that the kernel does not answer with `ENODEV`: it has a device, and not all were
found yet, or it is the first that fails.
-/
def Meets (state : Run) : Prop :=
  if state.iter.maxId ≤ state.iter.lastId then
    state.iter.foundDevices = state.iter.numDevices
  else
    ∃ skipped, First overflowChecks devInfo state.calls (state.iter.lastId + 1)
        state.iter.maxId.toNat skipped ∧
      match devInfo (state.calls + skipped)
          (state.iter.lastId + 1 + UInt64.ofNat skipped) with
      | .ok _ => state.iter.foundDevices < state.iter.numDevices
      | .error _ => state.results.countP failed = 0

/-- What holds of a run: it is within the bounds, and all but one of its calls have found a device. -/
structure Counted (count : Nat) (state : Run) : Prop where
  maxId : state.iter.maxId = iter.maxId
  numDevices : state.iter.numDevices = iter.numDevices
  fits : state.iter.foundDevices ≤ state.iter.numDevices
  failures : state.results.countP failed ≤ 1
  found : none ∉ state.results →
    state.iter.foundDevices.toNat + state.results.countP failed = count

end Runs

section Steps

variable {overflowChecks : Bool} {devInfo : DevIoctl} {iter : Iter}

/-- A call that meets the condition returns, and the run stays within the bounds. -/
theorem Counted.step {count : Nat} {state : Run} (counted : Counted iter count state)
    (meets : Meets overflowChecks devInfo state) :
    ∃ calls next result, state.iter.next overflowChecks devInfo iter.maxId.toNat state.calls =
        some ⟨calls, next, .ok result⟩ ∧
      Counted iter (count + 1) ⟨state.results ++ [result], calls, next⟩ := by
  obtain ⟨same_max, same_num, fits, failures, found⟩ := counted
  rw [Meets] at meets
  by_cases last : state.iter.maxId ≤ state.iter.lastId
  · -- Nothing is returned, and nothing is to be said of the devices any more.
    rw [if_pos last] at meets
    refine ⟨state.calls, state.iter, none, Iter.next_finished last meets _ _, ?_⟩
    refine ⟨same_max, same_num, fits, ?_, ?_⟩
    · rw [List.countP_append]
      exact failures
    · intro running
      exact absurd (List.mem_append_right _ List.mem_cons_self) running
  · rw [if_neg last] at meets
    have running := UInt64.not_le.mp last
    obtain ⟨skipped, first, answered⟩ := meets
    rw [same_max] at first
    have earlier : ∀ result, none ∉ state.results ++ [result] → none ∉ state.results :=
      fun result missing ended => missing (List.mem_append_left _ ended)
    cases answer : devInfo (state.calls + skipped)
        (state.iter.lastId + 1 + UInt64.ofNat skipped) with
    | ok args =>
      rw [answer] at answered
      have returned := Iter.next_found running first answer answered
      have less := UInt64.lt_iff_toNat_lt.mp answered
      have bound := state.iter.numDevices.toNat_lt
      obtain ⟨_, sum⟩ := @addOne_fits state.iter.foundDevices overflowChecks (by omega)
      refine ⟨_, _, _, returned, same_max, same_num, ?_, ?_, ?_⟩
      · show state.iter.foundDevices + 1 ≤ state.iter.numDevices
        rw [UInt64.le_iff_toNat_le, sum]
        omega
      · rw [List.countP_append]
        exact failures
      · intro running
        have before := found (earlier _ running)
        show (state.iter.foundDevices + 1).toNat + List.countP failed (state.results ++ _) = _
        rw [sum, List.countP_append]
        show _ + (state.results.countP failed + 0) = _
        omega
    | error error =>
      rw [answer] at answered
      have none_failed : state.results.countP failed = 0 := answered
      -- The iterator is as it was, and this is the only call that fails.
      obtain ⟨other, returned⟩ := Iter.next_failed running first answer
      refine ⟨_, _, _, returned, same_max, same_num, fits, ?_, ?_⟩
      · rw [List.countP_append, none_failed]
        exact Nat.le_refl _
      · intro running
        have before := found (earlier _ running)
        show state.iter.foundDevices.toNat + List.countP failed (state.results ++ _) = _
        rw [List.countP_append]
        show _ + (state.results.countP failed + 1) = _
        omega

/-- A run whose calls all meet the condition stays within the bounds. -/
theorem run_counted (start : iter.foundDevices = 0)
    (meets : ∀ count state, run overflowChecks devInfo iter.maxId.toNat iter count = some state →
      Meets overflowChecks devInfo state) (count : Nat) :
    ∃ state, run overflowChecks devInfo iter.maxId.toNat iter count = some state ∧
      Counted iter count state := by
  -- The induction is on the calls.
  induction count with
  | zero =>
    refine ⟨⟨[], 0, iter⟩, rfl, rfl, rfl, ?_, Nat.zero_le _, ?_⟩
    · show iter.foundDevices ≤ iter.numDevices
      rw [start, UInt64.le_iff_toNat_le]
      exact Nat.zero_le _
    · intro _
      show iter.foundDevices.toNat + 0 = 0
      rw [start]
      rfl
  | succ count ih =>
    obtain ⟨state, ran, counted⟩ := ih
    obtain ⟨calls, next, result, returned, later⟩ := counted.step (meets count state ran)
    refine ⟨_, ?_, later⟩
    simp only [run, ran, returned]

end Steps

/-- A run of the iterator whose calls all meet the condition comes to its end. -/
theorem finishes_of_meets {show' : Flags → String} {fsInfo : FsInfoIoctl} {overflowChecks : Bool}
    {devInfo : DevIoctl} {iter : Iter} (made : Iter.newInternal show' fsInfo = .ok iter)
    (meets : ∀ count state, run overflowChecks devInfo iter.maxId.toNat iter count = some state →
      Meets overflowChecks devInfo state) :
    Finishes overflowChecks devInfo iter := by
  have start : iter.foundDevices = 0 := by
    -- No device was found yet, whatever is told of the filesystem.
    unfold Iter.newInternal at made
    split at made
    · cases made
    · cases made
      rfl
  have counted := run_counted start meets
  constructor
  · intro count
    obtain ⟨state, ran, _⟩ := counted count
    exact ⟨state, ran⟩
  · obtain ⟨state, ran, bounds⟩ := counted (iter.numDevices.toNat + 2)
    refine ⟨iter.numDevices.toNat + 2, state, Nat.le_refl _, ran, ?_⟩
    -- That many devices are not found, even with one failure: a call has returned nothing.
    by_contra running
    have found := bounds.found running
    have failures := bounds.failures
    have fits := UInt64.le_iff_toNat_le.mp bounds.fits
    rw [bounds.numDevices] at fits
    omega
  · intro count state ran
    obtain ⟨same, again, bounds⟩ := counted count
    rw [again] at ran
    cases ran
    exact bounds.fits

/-- All calls to a filesystem that does not change meet the condition. -/
theorem stable_meets {devices : Devices} {devInfo : DevIoctl} (stable : Stable devices devInfo)
    {overflowChecks : Bool} (fits : overflowChecks = true → 0xFFFFFFFFFFFFFFFF ∉ devices.ids)
    (count : Nat) (state : Run)
    (ran : run overflowChecks devInfo devices.maxId.toNat (devices.iterAt []) count =
      some state) :
    Meets overflowChecks devInfo state := by
  have inside : overflowChecks = true → ∀ id ∈ devices.ids, id ≠ 0xFFFFFFFFFFFFFFFF :=
    fun checked id member same => fits checked (same ▸ member)
  obtain ⟨results, calls, again, told, _⟩ := run_devices stable (Nat.le_refl _) count
    fun checked id member => inside checked id (List.mem_of_mem_take member)
  rw [again] at ran
  cases ran
  by_cases left : count < devices.ids.length
  · -- In front of the end the kernel has the next device, and it was not found yet.
    have split : devices.ids = devices.ids.take count ++
        devices.ids[count] :: devices.ids.drop (count + 1) := by
      rw [List.getElem_cons_drop, List.take_append_drop]
    have member : devices.ids[count] ∈ devices.ids := List.getElem_mem left
    obtain ⟨skipped, _, same, first⟩ := Devices.first_device stable split
      (fun checked => inside checked _ member) (Nat.le_refl _) calls
    obtain ⟨args, hit, _⟩ := stable.present (calls + skipped) _ member
    have above := UInt64.lt_iff_toNat_lt.mp (Devices.around split).1
    have highest := UInt64.le_iff_toNat_le.mp (devices.le_maxId _ member)
    have running : ¬ devices.maxId ≤ (devices.ids.take count).getLastD 0 := by
      rw [UInt64.le_iff_toNat_le]
      omega
    have length : (devices.ids.take count).length = count := List.length_take_of_le left.le
    have few : UInt64.ofNat (devices.ids.take count).length < devices.numDevices := by
      have counted := devices.numDevices_toNat
      have total := devices.numDevices.toNat_lt
      rw [UInt64.lt_iff_toNat_lt, length, UInt64.toNat_ofNat', Nat.mod_eq_of_lt (by omega)]
      omega
    have answered : match devInfo (calls + skipped)
        ((devices.ids.take count).getLastD 0 + 1 + UInt64.ofNat skipped) with
      | .ok _ => UInt64.ofNat (devices.ids.take count).length < devices.numDevices
      | .error _ => results.countP failed = 0 := by
      rw [same, hit]
      exact few
    exact (if_neg running).mpr ⟨skipped, first, answered⟩
  · have all : devices.ids.take count = devices.ids := List.take_of_length_le (not_lt.mp left)
    rw [Meets, all]
    exact (if_pos (UInt64.le_refl _)).mpr rfl

/-- Two devices with an id between them are found, and the calls come to an end. -/
theorem finishes_of_meets_gap : Finishes true (knows [1, 3]) (gapDevices.iterAt []) :=
  finishes_of_meets (gapDevices.newInternal (tells_told gapDevices) fun _ => "")
    (stable_meets (knows_stable gapDevices) fun _ => by decide)

section Failing

variable {overflowChecks : Bool} {devInfo : DevIoctl} {iter : Iter}

/-- What was returned in the first calls of a run is returned in the run. -/
theorem run_earlier {fuel count more : Nat} {later : Run}
    (ran : run overflowChecks devInfo fuel iter (count + more) = some later) :
    ∃ earlier, run overflowChecks devInfo fuel iter count = some earlier ∧
      earlier.results <+: later.results := by
  -- The induction is on the calls behind the first ones.
  induction more generalizing later with
  | zero => exact ⟨later, ran, List.prefix_refl _⟩
  | succ more ih =>
    rw [← Nat.add_assoc] at ran
    simp only [run] at ran
    split at ran
    · cases ran
    · rename_i before shorter
      obtain ⟨earlier, first, front⟩ := ih shorter
      split at ran
      · cases ran
        exact ⟨earlier, first, front.trans (List.prefix_append _ _)⟩
      · cases ran

/-- Behind the highest id, with another number of devices, all calls return an error. -/
theorem Iter.next_short (last : iter.maxId ≤ iter.lastId)
    (differs : iter.foundDevices ≠ iter.numDevices) (fuel calls : Nat) :
    iter.next overflowChecks devInfo fuel calls =
      some ⟨calls, iter, .ok (some (.error (.kind .invalidData)))⟩ := by
  -- The comparison of the two numbers is all that happens.
  rw [Iter.next, if_pos last, if_pos differs]

/-- An iterator that only returns errors any more does not come to its end. -/
theorem not_finishes_stuck {count : Nat} {before : Run}
    (ran : run overflowChecks devInfo iter.maxId.toNat iter count = some before)
    (running : none ∉ before.results)
    (stuck : ∀ calls, ∃ spent error,
      before.iter.next overflowChecks devInfo iter.maxId.toNat calls =
        some ⟨spent, before.iter, .ok (some (.error error))⟩) :
    ¬ Finishes overflowChecks devInfo iter := by
  intro finishes
  obtain ⟨ending, ended, _, ended_ran, nothing⟩ := finishes.ends
  have further : ∀ more, ∃ later,
      run overflowChecks devInfo iter.maxId.toNat iter (count + more) = some later ∧
        later.iter = before.iter ∧ none ∉ later.results := by
    intro more
    induction more with
    | zero => exact ⟨before, ran, rfl, running⟩
    | succ more ih =>
      obtain ⟨later, later_ran, same, still⟩ := ih
      obtain ⟨spent, error, returned⟩ := stuck later.calls
      -- Nothing but the results and the ioctls changes.
      rw [← same] at returned
      refine ⟨⟨later.results ++ [some (.error error)], spent, later.iter⟩, ?_, same, ?_⟩
      · rw [← Nat.add_assoc]
        simp only [run, later_ran, returned]
      · intro member
        rcases List.mem_append.mp member with old | new
        · exact still old
        · cases List.mem_singleton.mp new
  obtain ⟨later, later_ran, _, still⟩ := further ending
  rw [Nat.add_comm] at later_ran
  obtain ⟨earlier, same, front⟩ := run_earlier later_ran
  rw [ended_ran] at same
  cases same
  exact still (front.subset nothing)

end Failing

/-- A kernel that reads none of the devices. -/
def unreadable : DevIoctl := fun _ _ => .error (.os 5)

/--
The calls do not come to their end when the target of a replacement is counted, when a device is not
read, or when one was removed, and more devices are found than there are when one was added.
-/
theorem not_finishes :
    (∀ overflowChecks, ¬ Finishes overflowChecks (knows [1]) ⟨2, 1, 0, 0⟩) ∧
      (∀ overflowChecks, ¬ Finishes overflowChecks unreadable ⟨1, 1, 0, 0⟩) ∧
      (∀ overflowChecks, ¬ Finishes overflowChecks (knows [1]) ⟨2, 2, 0, 0⟩) ∧
      ∀ overflowChecks, ¬ Finishes overflowChecks (knows [1, 2]) ⟨1, 2, 0, 0⟩ := by
  refine ⟨?_, ?_, ?_, ?_⟩
  · -- The target of a replacement is counted and has no id that is asked for.
    intro overflowChecks
    have ran : run overflowChecks (knows [1]) 1 ⟨2, 1, 0, 0⟩ 1 =
        some ⟨[some (.ok (blankInfo 1))], 1, ⟨2, 1, 1, 1⟩⟩ := by
      cases overflowChecks <;> decide
    have last : (⟨2, 1, 1, 1⟩ : Iter).maxId ≤ (⟨2, 1, 1, 1⟩ : Iter).lastId := by decide
    have differs : (⟨2, 1, 1, 1⟩ : Iter).foundDevices ≠ (⟨2, 1, 1, 1⟩ : Iter).numDevices := by
      decide
    exact not_finishes_stuck ran (by decide) fun calls =>
      ⟨calls, _, Iter.next_short last differs _ _⟩
  · -- Every call for the only device fails, and the next one asks for the same id.
    intro overflowChecks
    have running : (⟨1, 1, 0, 0⟩ : Iter).lastId < (⟨1, 1, 0, 0⟩ : Iter).maxId := by decide
    refine @not_finishes_stuck _ _ _ 0 _ rfl List.not_mem_nil ?_
    intro calls
    have other : (.error (.os 5) : Except IoError DevInfo) ≠ .error (.os enodev) := by decide
    have first : First overflowChecks unreadable calls (0 + 1) 1 0 :=
      ⟨Nat.one_pos, fun _ less => absurd less (Nat.not_lt_zero _), other, fun _ => by decide⟩
    obtain ⟨error, returned⟩ := Iter.next_failed running first rfl
    exact ⟨_, error, returned⟩
  · -- No id behind that of the only device has one, so the call has not returned by the highest.
    intro overflowChecks finishes
    obtain ⟨state, ran⟩ := finishes.returns 2
    have endless : run overflowChecks (knows [1]) 2 ⟨2, 2, 0, 0⟩ 2 = none := by
      cases overflowChecks <;> decide
    cases endless.symm.trans ran
  · -- The second device is one more than were counted.
    intro overflowChecks finishes
    have ran : run overflowChecks (knows [1, 2]) 2 ⟨1, 2, 0, 0⟩ 2 =
        some ⟨[some (.ok (blankInfo 1)), some (.error (.kind .invalidData))], 2, ⟨1, 2, 2, 2⟩⟩ := by
      cases overflowChecks <;> decide
    have fits := finishes.fits 2 _ ran
    revert fits
    decide

end Libbtrfs.Dev
