import Libbtrfs.Dev.Info

/-! The device iterator over a filesystem that does not change, and when it lists its devices. -/

namespace Libbtrfs.Dev

/-- The ids of the devices of a filesystem, in ascending order. -/
structure Devices where
  ids : List UInt64
  ascending : ids.Pairwise (· < ·)
  inhabited : ids ≠ []
  positive : ∀ id ∈ ids, 1 ≤ id

/-- The highest id of a filesystem. -/
def Devices.maxId (devices : Devices) : UInt64 := devices.ids.getLastD 0

/-- How many devices a filesystem has. -/
def Devices.numDevices (devices : Devices) : UInt64 := UInt64.ofNat devices.ids.length

/-- The kernel tells of a filesystem its highest id and how many devices it has. -/
structure Told (devices : Devices) (fsInfo : FsInfoIoctl) : Prop where
  answers : ∀ asked, (fsInfo asked).1 = .ok ()
  maxId : ∀ asked, (fsInfo asked).2.maxId = devices.maxId
  numDevices : ∀ asked, (fsInfo asked).2.numDevices = devices.numDevices

/-- The kernel answers with the devices, whenever it is asked for one. -/
structure Stable (devices : Devices) (devInfo : DevIoctl) : Prop where
  present : ∀ calls, ∀ id ∈ devices.ids, ∃ info, devInfo calls id = .ok info ∧ info.deviceId = id
  absent : ∀ calls, ∀ id ∉ devices.ids, devInfo calls id = .error (.os enodev)

/-- What a call returns, as the id of the device. -/
def idOf (result : Option (Except IoError DevInfo)) : Option (Except IoError UInt64) :=
  result.map fun returned => returned.map DevInfo.deviceId

/-- What the calls are to return: every device, and nothing any more behind them. -/
def Devices.expected (devices : Devices) (count : Nat) : List (Option (Except IoError UInt64)) :=
  (devices.ids.map fun id => some (.ok id)).take count ++
    List.replicate (count - devices.ids.length) none

/--
The iterator lists the devices, for every number of calls.

Before the next call its length is what is left, and no more ioctls were made than the highest id.
-/
def Lists (show' : Flags → String) (fsInfo : FsInfoIoctl) (devInfo : DevIoctl)
    (overflowChecks : Bool) (bits : Nat) (devices : Devices) : Prop :=
  ∃ iter, Iter.newInternal show' fsInfo = .ok iter ∧ ∃ enough, ∀ fuel, enough ≤ fuel →
    ∀ count, ∃ later, run overflowChecks devInfo fuel iter count = some later ∧
      later.results.map idOf = devices.expected count ∧
      later.iter.sizeHint overflowChecks bits = .ok (devices.ids.length - count) ∧
      later.calls ≤ devices.maxId.toNat

section Ascending

variable {ids : List UInt64}

/-- Ascending ids above a bound are no more than the last of them is above the bound. -/
theorem ascending_length (ascending : ids.Pairwise (· < ·)) {low : UInt64}
    (above : ∀ id ∈ ids, low < id) : low.toNat + ids.length ≤ (ids.getLastD low).toNat := by
  -- The induction is on the ids, of which the first one is the bound for the others.
  induction ids generalizing low with
  | nil => exact Nat.le_refl _
  | cons id rest ih =>
    obtain ⟨first, later⟩ := List.pairwise_cons.mp ascending
    have behind := ih later first
    have higher := UInt64.lt_iff_toNat_lt.mp (above id List.mem_cons_self)
    rw [List.getLastD_cons, List.length_cons]
    omega

/-- None of ascending ids above a bound is above the last of them. -/
theorem ascending_last (ascending : ids.Pairwise (· < ·)) {low : UInt64}
    (above : ∀ id ∈ ids, low < id) : ∀ id ∈ ids, id ≤ ids.getLastD low := by
  -- The induction is on the ids, the first of which is the bound for the others.
  induction ids generalizing low with
  | nil =>
    intro id impossible
    cases impossible
  | cons id rest ih =>
    obtain ⟨first, later⟩ := List.pairwise_cons.mp ascending
    intro other member
    rw [List.getLastD_cons]
    rcases List.mem_cons.mp member with rfl | behind
    · have bound := ascending_length later first
      rw [UInt64.le_iff_toNat_le]
      omega
    · exact ih later first other behind

end Ascending

namespace Devices

variable {devices : Devices} {fsInfo : FsInfoIoctl} {front back : List UInt64} {id : UInt64}

/-- All ids are above zero. -/
theorem above_zero (devices : Devices) : ∀ id ∈ devices.ids, 0 < id := by
  -- An id is at least 1.
  intro id member
  have least := UInt64.le_iff_toNat_le.mp (devices.positive id member)
  exact UInt64.lt_iff_toNat_lt.mpr least

/-- There are no more devices than the highest id says. -/
theorem length_le (devices : Devices) : devices.ids.length ≤ devices.maxId.toNat := by
  -- Each of the devices has an id of its own, all of them up to the highest one.
  have counted := ascending_length devices.ascending devices.above_zero
  rwa [UInt64.toNat_zero, Nat.zero_add] at counted

/-- The number of devices fits its field. -/
theorem numDevices_toNat (devices : Devices) :
    devices.numDevices.toNat = devices.ids.length := by
  -- There are no more than the highest id, which has 64 bits itself.
  have bound := devices.length_le.trans_lt devices.maxId.toNat_lt
  rw [numDevices, UInt64.toNat_ofNat']
  exact Nat.mod_eq_of_lt bound

/-- The iterator behind some devices: the last of them, and how many they are. -/
def iterAt (devices : Devices) (seen : List UInt64) : Iter :=
  ⟨devices.numDevices, devices.maxId, UInt64.ofNat seen.length, seen.getLastD 0⟩

/-- The iterator that is made of what the kernel tells is in front of all devices. -/
theorem newInternal (told : Told devices fsInfo) (show' : Flags → String) :
    Iter.newInternal show' fsInfo = .ok (devices.iterAt []) := by
  -- No part of the information is asked for, so that no flag is refused.
  have answer : FsInfo.info show' fsInfo Flags.none =
      btrfsIoctl (fsInfo FsInfoArgs.zeroed).1 >>= fun _ => pure ⟨(fsInfo FsInfoArgs.zeroed).2⟩ :=
    rfl
  rw [Iter.newInternal, answer, told.answers]
  show Except.ok (⟨(fsInfo _).2.numDevices, (fsInfo _).2.maxId, 0, 0⟩ : Iter) = _
  rw [told.numDevices, told.maxId]
  rfl

/-- The last id of the front is below the first one behind it, and no id lies in between. -/
theorem around (split : devices.ids = front ++ id :: back) :
    front.getLastD 0 < id ∧
      ∀ other, front.getLastD 0 < other → other < id → other ∉ devices.ids := by
  have ascending := devices.ascending
  have positive := devices.above_zero
  rw [split] at ascending positive
  obtain ⟨front_ascending, behind, across⟩ := List.pairwise_append.mp ascending
  have front_above : ∀ seen ∈ front, 0 < seen := fun seen member =>
    positive seen (List.mem_append_left _ member)
  -- What stands in front of the id is below it, and what stands behind is above.
  constructor
  · cases front with
    | nil => exact positive id List.mem_cons_self
    | cons first more =>
      have last : (first :: more).getLastD 0 ∈ first :: more := by
        rw [List.getLastD_cons]
        exact List.getLastD_mem_cons
      exact across _ last id List.mem_cons_self
  · intro other above below member
    rw [split] at member
    rcases List.mem_append.mp member with seen | rest
    · exact UInt64.not_lt.mpr (ascending_last front_ascending front_above other seen) above
    · rcases List.mem_cons.mp rest with rfl | later
      · exact UInt64.lt_irrefl _ below
      · exact UInt64.lt_asymm below ((List.pairwise_cons.mp behind).1 other later)

/-- No id is above the highest one. -/
theorem le_maxId (devices : Devices) : ∀ id ∈ devices.ids, id ≤ devices.maxId :=
  ascending_last devices.ascending devices.above_zero

/-- The first id behind the front that is not answered with `ENODEV` is that of the next device. -/
theorem first_device {overflowChecks : Bool} {devInfo : DevIoctl} (stable : Stable devices devInfo)
    (split : devices.ids = front ++ id :: back)
    (fits : overflowChecks = true → id ≠ 0xFFFFFFFFFFFFFFFF) {fuel : Nat}
    (enough : devices.maxId.toNat ≤ fuel) (calls : Nat) :
    ∃ skipped, skipped + 1 = id.toNat - (front.getLastD 0).toNat ∧
      front.getLastD 0 + 1 + UInt64.ofNat skipped = id ∧
      First overflowChecks devInfo calls (front.getLastD 0 + 1) fuel skipped := by
  obtain ⟨above, gap⟩ := around split
  have member : id ∈ devices.ids := by
    rw [split]
    exact List.mem_append_right _ List.mem_cons_self
  have inside := UInt64.le_iff_toNat_le.mp (devices.le_maxId id member)
  have bound := id.toNat_lt
  rw [UInt64.lt_iff_toNat_lt] at above
  obtain ⟨_, start⟩ := @addOne_fits (front.getLastD 0) overflowChecks (by omega)
  -- Counted from the last id on, each of the ids up to this one is a sum that does not overflow.
  have counted : ∀ skipped, (front.getLastD 0).toNat + 1 + skipped ≤ id.toNat →
      (front.getLastD 0 + 1 + UInt64.ofNat skipped).toNat =
        (front.getLastD 0).toNat + 1 + skipped := by
    intro skipped small
    rw [UInt64.toNat_add, start, UInt64.toNat_ofNat', Nat.mod_eq_of_lt (by omega : skipped < _),
      Nat.mod_eq_of_lt (by omega)]
  have last : front.getLastD 0 + 1 + UInt64.ofNat (id.toNat - (front.getLastD 0).toNat - 1) =
      id := by
    apply UInt64.toNat_inj.mp
    rw [counted _ (by omega)]
    omega
  refine ⟨id.toNat - (front.getLastD 0).toNat - 1, by omega, last, by omega, ?_, ?_, ?_⟩
  · intro earlier less
    have value := counted earlier (by omega)
    apply stable.absent
    apply gap
    · rw [UInt64.lt_iff_toNat_lt]
      omega
    · rw [UInt64.lt_iff_toNat_lt]
      omega
  · rw [last]
    obtain ⟨args, hit, _⟩ :=
      stable.present (calls + (id.toNat - (front.getLastD 0).toNat - 1)) id member
    rw [hit]
    intro impossible
    cases impossible
  · intro checked
    have other : id.toNat ≠ 18446744073709551615 := fun same =>
      fits checked (UInt64.toNat_inj.mp same)
    omega

/-- As long as there are devices left, a call returns the next one. -/
theorem next_device {overflowChecks : Bool} {devInfo : DevIoctl} (stable : Stable devices devInfo)
    (split : devices.ids = front ++ id :: back)
    (fits : overflowChecks = true → id ≠ 0xFFFFFFFFFFFFFFFF) {fuel : Nat}
    (enough : devices.maxId.toNat ≤ fuel) (calls : Nat) :
    ∃ args : DevInfo, args.deviceId = id ∧
      (devices.iterAt front).next overflowChecks devInfo fuel calls =
        some ⟨calls + (id.toNat - (front.getLastD 0).toNat), devices.iterAt (front ++ [id]),
          .ok (some (.ok args))⟩ := by
  have member : id ∈ devices.ids := by
    rw [split]
    exact List.mem_append_right _ List.mem_cons_self
  have length : devices.ids.length = front.length + (back.length + 1) := by
    rw [split, List.length_append, List.length_cons]
  have counted := devices.numDevices_toNat
  have total := devices.numDevices.toNat_lt
  -- The counter is the number of devices that were found, which is below the total.
  have found : (UInt64.ofNat front.length).toNat = front.length := by
    rw [UInt64.toNat_ofNat']
    exact Nat.mod_eq_of_lt (by omega)
  have few : (devices.iterAt front).foundDevices < (devices.iterAt front).numDevices := by
    rw [UInt64.lt_iff_toNat_lt]
    show (UInt64.ofNat front.length).toNat < devices.numDevices.toNat
    omega
  have running : (devices.iterAt front).lastId < (devices.iterAt front).maxId := by
    have above := UInt64.lt_iff_toNat_lt.mp (around split).1
    have inside := UInt64.le_iff_toNat_le.mp (devices.le_maxId id member)
    rw [UInt64.lt_iff_toNat_lt]
    show (front.getLastD 0).toNat < devices.maxId.toNat
    omega
  -- The calls in between are refused, and the first one that is not finds the device.
  obtain ⟨skipped, spent, same, first⟩ := first_device stable split fits enough calls
  obtain ⟨args, hit, told⟩ := stable.present (calls + skipped) id member
  refine ⟨args, told, ?_⟩
  have asked : devInfo (calls + skipped)
      ((devices.iterAt front).lastId + 1 + UInt64.ofNat skipped) = .ok args := by
    show devInfo (calls + skipped) (front.getLastD 0 + 1 + UInt64.ofNat skipped) = .ok args
    rw [same]
    exact hit
  have one_more : UInt64.ofNat front.length + 1 = UInt64.ofNat (front ++ [id]).length := by
    rw [List.length_append, List.length_singleton, UInt64.ofNat_add]
    rfl
  have last : (front ++ [id]).getLastD 0 = id := by simp
  rw [Iter.next_found running first asked few, ← spent]
  simp only [iterAt, same, one_more, last]
  rfl

/-- Behind the last device the calls return nothing any more. -/
theorem next_nothing (devices : Devices) (overflowChecks : Bool) (devInfo : DevIoctl)
    (fuel calls : Nat) :
    (devices.iterAt devices.ids).next overflowChecks devInfo fuel calls =
      some ⟨calls, devices.iterAt devices.ids, .ok none⟩ :=
  Iter.next_finished (UInt64.le_refl _) rfl fuel calls

end Devices

section Listing

variable {devices : Devices} {fsInfo : FsInfoIoctl} {devInfo : DevIoctl} {overflowChecks : Bool}

/-- One more call in front of the end of the devices returns one more of them. -/
theorem Devices.expected_device {front back : List UInt64} {id : UInt64}
    (split : devices.ids = front ++ id :: back) :
    devices.expected (front.length + 1) = devices.expected front.length ++ [some (.ok id)] := by
  have length : devices.ids.length = front.length + (back.length + 1) := by
    rw [split, List.length_append, List.length_cons]
  have none_more : front.length + 1 - devices.ids.length = 0 := by omega
  have none_left : front.length - devices.ids.length = 0 := by omega
  -- The device is the first one behind the front, and nothing was returned in vain yet.
  have mapped : (devices.ids.map fun id => some (Except.ok id : Except IoError UInt64)) =
      (front.map fun id => some (.ok id)) ++ some (.ok id) :: back.map fun id => some (.ok id) := by
    rw [split, List.map_append, List.map_cons]
  rw [expected, expected, none_more, none_left, mapped]
  have counted : (front.map fun id => some (Except.ok id : Except IoError UInt64)).length =
      front.length := List.length_map _
  rw [← counted, List.take_left, List.take_length_add_append]
  simp

/-- One more call behind the end of the devices returns nothing. -/
theorem Devices.expected_nothing {count : Nat} (all : devices.ids.length ≤ count) :
    devices.expected (count + 1) = devices.expected count ++ [none] := by
  have mapped : (devices.ids.map fun id => some (Except.ok id : Except IoError UInt64)).length ≤
      count := by
    rw [List.length_map]
    exact all
  -- All devices are among the results, so what is new is one more result without any.
  have more : count + 1 - devices.ids.length = count - devices.ids.length + 1 := by omega
  rw [expected, expected, more, List.take_of_length_le mapped,
    List.take_of_length_le (mapped.trans (Nat.le_succ count)), List.replicate_succ',
    List.append_assoc]

/-- The calls return the devices one after the other, and nothing behind them. -/
theorem run_devices (stable : Stable devices devInfo) {fuel : Nat}
    (enough : devices.maxId.toNat ≤ fuel) (count : Nat)
    (fits : overflowChecks = true → ∀ id ∈ devices.ids.take count, id ≠ 0xFFFFFFFFFFFFFFFF) :
    ∃ results calls,
      run overflowChecks devInfo fuel (devices.iterAt []) count =
        some ⟨results, calls, devices.iterAt (devices.ids.take count)⟩ ∧
      results.map idOf = devices.expected count ∧
      calls ≤ ((devices.ids.take count).getLastD 0).toNat := by
  -- The induction is on the calls, which have asked for no id twice.
  induction count with
  | zero =>
    have nothing : devices.expected 0 = [] := by
      rw [Devices.expected, List.take_zero, Nat.zero_sub]
      rfl
    exact ⟨[], 0, rfl, nothing.symm, Nat.zero_le _⟩
  | succ count ih =>
    have earlier : ∀ id ∈ devices.ids.take count, id ∈ devices.ids.take (count + 1) :=
      fun id member => (List.take_prefix_take_left (Nat.le_succ count)).subset member
    obtain ⟨results, calls, ran, told, few⟩ := ih fun checked id member =>
      fits checked id (earlier id member)
    by_cases left : count < devices.ids.length
    · have split : devices.ids = devices.ids.take count ++
          devices.ids[count] :: devices.ids.drop (count + 1) := by
        rw [List.getElem_cons_drop, List.take_append_drop]
      have length : (devices.ids.take count).length = count := List.length_take_of_le left.le
      have front : devices.ids.take (count + 1) =
          devices.ids.take count ++ [devices.ids[count]] := by
        rw [List.take_append_getElem left]
      obtain ⟨args, same, returned⟩ := @Devices.next_device devices _ _ _ overflowChecks _ stable
        split (fun checked => fits checked _ (front ▸ List.mem_append_right _ List.mem_cons_self))
        _ enough calls
      have higher := UInt64.lt_iff_toNat_lt.mp (Devices.around split).1
      have one_more := Devices.expected_device split
      rw [length] at one_more
      refine ⟨results ++ [some (.ok args)],
        calls + (devices.ids[count].toNat - ((devices.ids.take count).getLastD 0).toNat),
        ?_, ?_, ?_⟩
      · simp only [run, ran, returned, front]
      · rw [List.map_append, told, one_more, ← same]
        rfl
      · rw [front, List.getLastD_concat]
        omega
    · rw [not_lt] at left
      have all : devices.ids.take count = devices.ids := List.take_of_length_le left
      have still : devices.ids.take (count + 1) = devices.ids :=
        List.take_of_length_le (left.trans (Nat.le_succ count))
      rw [all] at ran few
      refine ⟨results ++ [none], calls, ?_, ?_, ?_⟩
      · simp only [run, ran, devices.next_nothing, still]
      · rw [List.map_append, told, Devices.expected_nothing left]
        rfl
      · rw [still]
        exact few

/-- With overflow checks no call gets to a device with the last id. -/
theorem next_last (stable : Stable devices devInfo) {front back : List UInt64}
    (split : devices.ids = front ++ 0xFFFFFFFFFFFFFFFF :: back) {fuel calls : Nat}
    {called : Called} (ended : (devices.iterAt front).next true devInfo fuel calls = some called) :
    ∃ failure, called.outcome = .error failure := by
  obtain ⟨above, gap⟩ := Devices.around split
  have member : 0xFFFFFFFFFFFFFFFF ∈ devices.ids := by
    rw [split]
    exact List.mem_append_right _ List.mem_cons_self
  have inside := UInt64.le_iff_toNat_le.mp (devices.le_maxId _ member)
  rw [UInt64.lt_iff_toNat_lt] at above
  have last_toNat : (0xFFFFFFFFFFFFFFFF : UInt64).toNat = 18446744073709551615 := rfl
  have running : ¬ (devices.iterAt front).maxId ≤ (devices.iterAt front).lastId := by
    rw [UInt64.le_iff_toNat_le]
    show ¬ devices.maxId.toNat ≤ (front.getLastD 0).toNat
    omega
  obtain ⟨made, sum⟩ := @addOne_fits (front.getLastD 0) true (by omega)
  have start : addOne true (devices.iterAt front).lastId = .ok (front.getLastD 0 + 1) := made
  -- The loop starts in front of the device, and counting up to it overflows.
  rw [Iter.next, if_neg running, start] at ended
  cases probed : Iter.probe true devInfo fuel calls (front.getLastD 0 + 1) with
  | none =>
    simp only [probed] at ended
    cases ended
  | some ended_loop =>
    obtain ⟨failure, failed⟩ := Iter.probe_last (fun calls other higher less => by
      rw [UInt64.le_iff_toNat_le, sum] at higher
      exact stable.absent calls other (gap other (UInt64.lt_iff_toNat_lt.mpr (by omega)) less))
      probed
    obtain ⟨spent, outcome⟩ := ended_loop
    cases failed
    simp only [probed] at ended
    cases ended
    exact ⟨failure, rfl⟩

/-- The length of the iterator is what is left, as far as a `usize` holds it. -/
theorem Devices.sizeHint_iterAt (devices : Devices) (overflowChecks : Bool) (bits count : Nat) :
    (devices.iterAt (devices.ids.take count)).sizeHint overflowChecks bits =
      .ok ((devices.ids.length - count) % 2 ^ bits) := by
  have length : (devices.ids.take count).length ≤ devices.ids.length := List.length_take_le' _ _
  have total : (devices.iterAt (devices.ids.take count)).numDevices.toNat =
      devices.ids.length := devices.numDevices_toNat
  have found : (devices.iterAt (devices.ids.take count)).foundDevices.toNat =
      (devices.ids.take count).length := by
    have bound := devices.length_le.trans_lt devices.maxId.toNat_lt
    show (UInt64.ofNat _).toNat = _
    rw [UInt64.toNat_ofNat']
    exact Nat.mod_eq_of_lt (length.trans_lt bound)
  -- The number that was found is taken from the total.
  have left : devices.ids.length - (devices.ids.take count).length =
      devices.ids.length - count := by
    rw [List.length_take]
    omega
  rw [Iter.sizeHint_fits (UInt64.le_iff_toNat_le.mpr (by omega)), total, found, left]

/-- The last of some devices is not above the highest id. -/
theorem Devices.last_le_maxId (devices : Devices) (count : Nat) :
    ((devices.ids.take count).getLastD 0).toNat ≤ devices.maxId.toNat := by
  -- Without any device the last id is zero, and otherwise it is that of a device.
  cases seen : devices.ids.take count with
  | nil => exact Nat.zero_le _
  | cons first more =>
    have member : (first :: more).getLastD 0 ∈ devices.ids := by
      apply List.mem_of_mem_take
      rw [seen, List.getLastD_cons]
      exact List.getLastD_mem_cons
    exact UInt64.le_iff_toNat_le.mp (devices.le_maxId _ member)

/-- With overflow checks the iterator does not list a device with the last id. -/
theorem not_lists_last (told : Told devices fsInfo) (stable : Stable devices devInfo)
    (last : 0xFFFFFFFFFFFFFFFF ∈ devices.ids) (show' : Flags → String) (bits : Nat) :
    ¬ Lists show' fsInfo devInfo true bits devices := by
  rintro ⟨iter, new, enough, lists⟩
  rw [devices.newInternal told] at new
  cases new
  obtain ⟨front, back, split⟩ := List.append_of_mem last
  have before : devices.ids.take front.length = front := by
    rw [split, List.take_left]
  have fits : true = true → ∀ id ∈ devices.ids.take front.length, id ≠ 0xFFFFFFFFFFFFFFFF := by
    intro _ id member same
    rw [before, same] at member
    have ascending := devices.ascending
    rw [split] at ascending
    have across := (List.pairwise_append.mp ascending).2.2
    exact UInt64.lt_irrefl _ (across _ member _ List.mem_cons_self)
  obtain ⟨results, calls, ran, _⟩ := @run_devices devices devInfo true stable
    (max enough devices.maxId.toNat) (le_max_right _ _) front.length fits
  obtain ⟨later, one_more, _⟩ := lists _ (le_max_left enough devices.maxId.toNat)
    (front.length + 1)
  rw [before] at ran
  -- The next call would have to get to that device.
  simp only [run, ran] at one_more
  cases returned : (devices.iterAt front).next true devInfo
      (max enough devices.maxId.toNat) calls with
  | none =>
    rw [returned] at one_more
    cases one_more
  | some called =>
    obtain ⟨failure, failed⟩ := next_last stable split returned
    obtain ⟨spent, iter, outcome⟩ := called
    cases failed
    rw [returned] at one_more
    cases one_more

end Listing

/--
The iterator lists the devices of a filesystem that does not change exactly when their number fits a
`usize`, and with overflow checks none of them has the last id that there is.
-/
theorem lists_iff {devices : Devices} {fsInfo : FsInfoIoctl} {devInfo : DevIoctl}
    (told : Told devices fsInfo) (stable : Stable devices devInfo) (show' : Flags → String)
    (overflowChecks : Bool) (bits : Nat) :
    Lists show' fsInfo devInfo overflowChecks bits devices ↔
      (overflowChecks = true → 0xFFFFFFFFFFFFFFFF ∉ devices.ids) ∧
        devices.ids.length < 2 ^ bits := by
  have made := devices.newInternal told show'
  constructor
  · intro lists
    constructor
    · intro checked last
      rw [checked] at lists
      exact not_lists_last told stable last show' bits lists
    · obtain ⟨iter, new, enough, listed⟩ := lists
      rw [made] at new
      cases new
      obtain ⟨later, ran, _, length, _⟩ := listed enough (Nat.le_refl _) 0
      cases ran
      -- Before the first call all of the devices are left.
      have start := (devices.sizeHint_iterAt overflowChecks bits 0).symm.trans length
      have same := Except.ok.inj start
      rw [Nat.sub_zero] at same
      rw [← same]
      exact Nat.mod_lt _ (Nat.two_pow_pos bits)
  · rintro ⟨last, small⟩
    refine ⟨devices.iterAt [], made, devices.maxId.toNat, ?_⟩
    intro fuel enough count
    obtain ⟨results, calls, ran, told, few⟩ := @run_devices devices devInfo overflowChecks stable
      fuel enough count fun checked id member same =>
        last checked (same ▸ List.mem_of_mem_take member)
    refine ⟨_, ran, told, ?_, few.trans (devices.last_le_maxId count)⟩
    have left : devices.ids.length - count < 2 ^ bits := by omega
    rw [devices.sizeHint_iterAt, Nat.mod_eq_of_lt left]

/-- A device of which nothing but its id is known. -/
def blankInfo (id : UInt64) : DevInfo := ⟨id, List.replicate 16 0, 0, 0, List.replicate 16 0, []⟩

/-- A kernel that knows some devices. -/
def knows (ids : List UInt64) : DevIoctl := fun _ id =>
  if id ∈ ids then .ok (blankInfo id) else .error (.os enodev)

/-- It answers with these devices whenever it is asked. -/
theorem knows_stable (devices : Devices) : Stable devices (knows devices.ids) where
  present _ id member := ⟨blankInfo id, if_pos member, rfl⟩
  absent _ _ missing := if_neg missing

/-- A kernel that tells of a filesystem what the iterator needs, and nothing else. -/
def tells (devices : Devices) : FsInfoIoctl := fun asked =>
  (.ok (), { asked with maxId := devices.maxId, numDevices := devices.numDevices })

/-- It tells the highest id and the number. -/
theorem tells_told (devices : Devices) : Told devices (tells devices) :=
  ⟨fun _ => rfl, fun _ => rfl, fun _ => rfl⟩

/-- The two ids ascend, and are above zero. -/
theorem gapDevices_valid :
    [1, 3].Pairwise (fun one other : UInt64 => one < other) ∧
      ∀ id ∈ [(1 : UInt64), 3], 1 ≤ id := by
  -- Both are statements about two numbers.
  constructor
  · decide
  · simp

/-- Two devices, between which there was another one. -/
def gapDevices : Devices :=
  ⟨[1, 3], gapDevices_valid.1, List.cons_ne_nil _ _, gapDevices_valid.2⟩

/-- Both of them are listed. -/
theorem lists_iff_gap :
    Lists (fun _ => "") (tells gapDevices) (knows [1, 3]) true 64 gapDevices :=
  -- Neither of the ids is the last one, and two is a number that a `usize` holds.
  (lists_iff (tells_told gapDevices) (knows_stable gapDevices) _ true 64).mpr
    ⟨fun _ => by decide, by decide⟩

/-- The last id is above zero. -/
theorem lastDevice_positive : ∀ id ∈ [(0xFFFFFFFFFFFFFFFF : UInt64)], 1 ≤ id := by
  -- There is only the one to look at.
  intro id member
  rw [List.mem_singleton.mp member]
  decide

/-- One device, with the last id that there is. -/
def lastDevice : Devices :=
  ⟨[0xFFFFFFFFFFFFFFFF], List.pairwise_singleton _ _, List.cons_ne_nil _ _, lastDevice_positive⟩

/-- With overflow checks it is not listed. -/
theorem lists_not_last :
    ¬ Lists (fun _ => "") (tells lastDevice) (knows [0xFFFFFFFFFFFFFFFF]) true 64 lastDevice :=
  not_lists_last (tells_told lastDevice) (knows_stable lastDevice) List.mem_cons_self _ 64

end Libbtrfs.Dev
