import Libbtrfs.Fs.Info
import Libbtrfs.TreeSearch.Query

/-! The iterator over the devices of a filesystem, which asks for one id after the other. -/

namespace Libbtrfs.Dev

open Search

/-- `ENODEV`. -/
def enodev : Nat := 19

/-- `btrfs_ioctl_dev_info_args`, the information about a device. -/
structure DevInfo where
  devid : UInt64
  uuid : Bytes
  bytesUsed : UInt64
  totalBytes : UInt64
  fsid : Bytes
  path : Bytes
  deriving DecidableEq

/-- `DevInfo::device_id`. -/
def DevInfo.deviceId (info : DevInfo) : UInt64 := info.devid

/-- `dev::Iter`. -/
structure Iter where
  numDevices : UInt64
  maxId : UInt64
  foundDevices : UInt64
  lastId : UInt64
  deriving DecidableEq

/-- `BTRFS_IOC_DEV_INFO`, for each of the calls and each id. -/
abbrev DevIoctl : Type := Nat → UInt64 → Except IoError DevInfo

/-- An addition of 1, which panics with overflow checks and wraps without them. -/
def addOne (overflowChecks : Bool) (value : UInt64) : Outcome UInt64 :=
  match checkedAdd64 value 1 with
  | some sum => .ok sum
  | none =>
    if overflowChecks then .error (.panic "attempt to add with overflow") else .ok (value + 1)

/-- What the loop over the ids comes to, and the ioctls until then. -/
structure Probed where
  calls : Nat
  outcome : Outcome (Except IoError (UInt64 × DevInfo))
  deriving DecidableEq

/-- What a call of `next` comes to, the ioctls until then, and the iterator that it leaves behind. -/
structure Called where
  calls : Nat
  iter : Iter
  outcome : Outcome (Option (Except IoError DevInfo))
  deriving DecidableEq

namespace Iter

variable (overflowChecks : Bool) (devInfo : DevIoctl)

/-- `Iter::new_internal`, for the text by which flags are shown. -/
def newInternal (show' : Flags → String) (fsInfo : FsInfoIoctl) : Except IoError Iter :=
  match FsInfo.info show' fsInfo Flags.none with
  | .error error => .error error
  | .ok info => .ok ⟨info.numDevices, info.maxId, 0, 0⟩

/-- The loop over the ids, with a unit of fuel for each ioctl. -/
def probe : Nat → Nat → UInt64 → Option Probed
  | 0, _, _ => none
  | fuel + 1, calls, id =>
    -- `RangeFrom` makes the next id before it returns this one.
    match addOne overflowChecks id with
    | .error failure => some ⟨calls, .error failure⟩
    | .ok next =>
      match btrfsIoctl (devInfo calls id) with
      | .error error =>
        if error = .os enodev then probe fuel (calls + 1) next
        else some ⟨calls + 1, .ok (.error error)⟩
      | .ok args => some ⟨calls + 1, .ok (.ok (id, args))⟩

/-- The rest of `next` behind a device that was found. -/
def record (id : UInt64) (args : DevInfo) (calls : Nat) (iter : Iter) : Called :=
  match addOne overflowChecks iter.foundDevices with
  | .error failure => ⟨calls, { iter with lastId := id }, .error failure⟩
  | .ok found =>
    let iter := { iter with lastId := id, foundDevices := found }
    if iter.numDevices < iter.foundDevices then
      ⟨calls, iter, .ok (some (.error (.kind .invalidData)))⟩
    else ⟨calls, iter, .ok (some (.ok args))⟩

/-- `Iter::next`, unless it takes more ioctls than there is fuel. -/
def next (fuel calls : Nat) (iter : Iter) : Option Called :=
  if iter.maxId ≤ iter.lastId then
    if iter.foundDevices ≠ iter.numDevices then
      some ⟨calls, iter, .ok (some (.error (.kind .invalidData)))⟩
    else some ⟨calls, iter, .ok none⟩
  else
    match addOne overflowChecks iter.lastId with
    | .error failure => some ⟨calls, iter, .error failure⟩
    | .ok start =>
      match probe overflowChecks devInfo fuel calls start with
      | none => none
      | some ⟨calls, .error failure⟩ => some ⟨calls, iter, .error failure⟩
      | some ⟨calls, .ok (.error error)⟩ => some ⟨calls, iter, .ok (some (.error error))⟩
      | some ⟨calls, .ok (.ok (id, args))⟩ => some (record overflowChecks id args calls iter)

/-- `Iter::size_hint`, which `ExactSizeIterator::len` returns, for the bits that a `usize` has. -/
def sizeHint (bits : Nat) (iter : Iter) : Outcome Nat :=
  if overflowChecks ∧ iter.numDevices < iter.foundDevices then
    .error (.panic "attempt to subtract with overflow")
  else .ok ((iter.numDevices - iter.foundDevices).toNat % 2 ^ bits)

end Iter

/-- A number of calls of `next`: what they have returned, the ioctls, and the iterator behind them. -/
structure Run where
  results : List (Option (Except IoError DevInfo))
  calls : Nat
  iter : Iter
  deriving DecidableEq

/--
A number of calls one after the other, each of which gets by with the fuel.

There is no run when one of them takes more ioctls than that, or panics.
-/
def run (overflowChecks : Bool) (devInfo : DevIoctl) (fuel : Nat) (iter : Iter) :
    Nat → Option Run
  | 0 => some ⟨[], 0, iter⟩
  | count + 1 =>
    match run overflowChecks devInfo fuel iter count with
    | none => none
    | some before =>
      match before.iter.next overflowChecks devInfo fuel before.calls with
      | some ⟨calls, iter, .ok result⟩ => some ⟨before.results ++ [result], calls, iter⟩
      | _ => none

/-- An addition that does not overflow has its sum. -/
theorem addOne_fits {value : UInt64} (overflowChecks : Bool) (fits : value.toNat + 1 < 2 ^ 64) :
    addOne overflowChecks value = .ok (value + 1) ∧ (value + 1).toNat = value.toNat + 1 := by
  -- Without an overflow the sum is that of the numbers.
  have sum : (value + 1).toNat = value.toNat + 1 := by
    rw [UInt64.toNat_add]
    exact Nat.mod_eq_of_lt fits
  have kept : checkedAdd64 value 1 = some (value + 1) := if_pos fits
  rw [addOne, kept]
  exact ⟨rfl, sum⟩

/-- An addition has a sum, unless it overflows and that is checked. -/
theorem addOne_passes {overflowChecks : Bool} {value : UInt64}
    (fits : overflowChecks = true → value.toNat + 1 < 2 ^ 64) :
    addOne overflowChecks value = .ok (value + 1) := by
  by_cases small : value.toNat + 1 < 2 ^ 64
  · exact (addOne_fits overflowChecks small).1
  · -- Without a check the sum wraps around, as it does when it is added.
    have wraps : checkedAdd64 value 1 = none := if_neg small
    rw [addOne, wraps]
    cases overflowChecks with
    | false => rfl
    | true => exact absurd (fits rfl) small

/--
From an id on, the first one that the kernel does not answer with `ENODEV` comes behind some others.

It is asked for within the limit and, with overflow checks, in front of the last id that there is.
-/
structure First (overflowChecks : Bool) (devInfo : DevIoctl) (calls : Nat) (start : UInt64)
    (limit skipped : Nat) : Prop where
  within : skipped < limit
  gap : ∀ earlier, earlier < skipped →
    devInfo (calls + earlier) (start + UInt64.ofNat earlier) = .error (.os enodev)
  answered : devInfo (calls + skipped) (start + UInt64.ofNat skipped) ≠ .error (.os enodev)
  fits : overflowChecks = true → start.toNat + skipped + 1 < 2 ^ 64

/-- Behind an id that is not there, the same id is the first from the next one on. -/
theorem First.behind {overflowChecks : Bool} {devInfo : DevIoctl} {calls : Nat} {start : UInt64}
    {limit skipped : Nat}
    (first : First overflowChecks devInfo calls start (limit + 1) (skipped + 1)) :
    First overflowChecks devInfo (calls + 1) (start + 1) limit skipped := by
  obtain ⟨within, gap, answered, fits⟩ := first
  -- The calls and the ids are counted from one further on.
  have id : ∀ earlier, start + UInt64.ofNat (earlier + 1) = start + 1 + UInt64.ofNat earlier := by
    intro earlier
    rw [UInt64.ofNat_add, UInt64.add_assoc, UInt64.add_comm (UInt64.ofNat earlier)]
    rfl
  have call : ∀ earlier, calls + (earlier + 1) = calls + 1 + earlier := by
    intro earlier
    omega
  refine ⟨Nat.lt_of_succ_lt_succ within, ?_, ?_, ?_⟩
  · intro earlier less
    have missing := gap (earlier + 1) (Nat.succ_lt_succ less)
    rwa [id, call] at missing
  · rwa [id, call] at answered
  · intro checked
    have small := fits checked
    obtain ⟨_, sum⟩ := @addOne_fits start overflowChecks (by omega)
    omega

namespace Iter

variable {overflowChecks : Bool} {devInfo : DevIoctl}

/-- An error that is not `ENOTTY` is what the wrapper returns. -/
theorem btrfsIoctl_enodev {α : Type} :
    btrfsIoctl (.error (.os enodev) : Except IoError α) = .error (.os enodev) := rfl

/-- The wrapper makes no `ENODEV` of anything else. -/
theorem btrfsIoctl_ne_enodev {α : Type} {result : Except IoError α}
    (other : result ≠ .error (.os enodev)) : btrfsIoctl result ≠ .error (.os enodev) := by
  -- One kind of error is converted, and what it becomes is another one.
  unfold btrfsIoctl
  split
  · split
    · intro same
      cases same
    · exact other
  · exact other

/-- The loop goes on up to the first id that is not answered with `ENODEV`. -/
theorem probe_first {calls limit skipped : Nat} {start : UInt64}
    (first : First overflowChecks devInfo calls start limit skipped) :
    probe overflowChecks devInfo limit calls start =
      some ⟨calls + skipped + 1,
        .ok ((btrfsIoctl (devInfo (calls + skipped) (start + UInt64.ofNat skipped))).map
          fun args => (start + UInt64.ofNat skipped, args))⟩ := by
  -- The induction is on the ids that are skipped.
  induction skipped generalizing calls start limit with
  | zero =>
    obtain ⟨within, _, answered, fits⟩ := first
    obtain ⟨limit, rfl⟩ := Nat.exists_eq_succ_of_ne_zero (Nat.ne_zero_of_lt within)
    have same : start + UInt64.ofNat 0 = start := UInt64.add_zero start
    rw [same, Nat.add_zero] at answered ⊢
    have other := btrfsIoctl_ne_enodev answered
    rw [probe, addOne_passes fits]
    cases asked : btrfsIoctl (devInfo calls start) with
    | error error =>
      have different : error ≠ .os enodev := by
        intro enodev
        rw [asked, enodev] at other
        exact other rfl
      simp only [if_neg different]
      rfl
    | ok args => rfl
  | succ skipped ih =>
    obtain ⟨limit, rfl⟩ := Nat.exists_eq_succ_of_ne_zero (Nat.ne_zero_of_lt first.within)
    have missing := first.gap 0 (Nat.succ_pos skipped)
    have same : start + UInt64.ofNat 0 = start := UInt64.add_zero start
    rw [same, Nat.add_zero] at missing
    have fits : overflowChecks = true → start.toNat + 1 < 2 ^ 64 := by
      intro checked
      have small := first.fits checked
      omega
    have id : start + UInt64.ofNat (skipped + 1) = start + 1 + UInt64.ofNat skipped := by
      rw [UInt64.ofNat_add, UInt64.add_assoc, UInt64.add_comm (UInt64.ofNat skipped)]
      rfl
    have call : calls + (skipped + 1) = calls + 1 + skipped := by omega
    rw [probe, addOne_passes fits]
    simp only [missing, btrfsIoctl_enodev, if_true]
    rw [ih first.behind, id, call]

/-- With overflow checks the loop never returns the last number. -/
theorem probe_last {start : UInt64} {fuel calls : Nat}
    (gap : ∀ calls other, start ≤ other → other < 0xFFFFFFFFFFFFFFFF →
      devInfo calls other = .error (.os enodev)) {probed : Probed}
    (ended : probe true devInfo fuel calls start = some probed) :
    ∃ failure, probed.outcome = .error failure := by
  -- The induction is on the fuel, and each of the ids in between takes a unit of it.
  induction fuel generalizing start calls with
  | zero => cases ended
  | succ fuel ih =>
    rw [probe] at ended
    by_cases small : start.toNat + 1 < 2 ^ 64
    · obtain ⟨made, sum⟩ := addOne_fits true small
      have below : start < 0xFFFFFFFFFFFFFFFF := by
        rw [UInt64.lt_iff_toNat_lt]
        show start.toNat < 18446744073709551615
        omega
      rw [made] at ended
      simp only [gap calls start (UInt64.le_refl _) below, btrfsIoctl_enodev, if_true] at ended
      refine ih (fun calls other above less => gap calls other ?_ less) ended
      rw [UInt64.le_iff_toNat_le] at above ⊢
      omega
    · have wraps : checkedAdd64 start 1 = none := if_neg small
      rw [addOne, wraps] at ended
      cases ended
      exact ⟨_, rfl⟩

section Next

variable {iter : Iter} {calls limit skipped : Nat}
  (running : iter.lastId < iter.maxId)
  (first : First overflowChecks devInfo calls (iter.lastId + 1) limit skipped)
include running first

/-- In front of the highest id a call goes through the loop over the ids behind the last one. -/
theorem next_first :
    iter.next overflowChecks devInfo limit calls =
      match btrfsIoctl (devInfo (calls + skipped) (iter.lastId + 1 + UInt64.ofNat skipped)) with
      | .error error => some ⟨calls + skipped + 1, iter, .ok (some (.error error))⟩
      | .ok args => some (record overflowChecks (iter.lastId + 1 + UInt64.ofNat skipped) args
          (calls + skipped + 1) iter) := by
  -- The last id is below another one, so one can be added to it.
  have small : iter.lastId.toNat + 1 < 2 ^ 64 := by
    have less := UInt64.lt_iff_toNat_lt.mp running
    have bound := iter.maxId.toNat_lt
    omega
  rw [next, if_neg (UInt64.not_le.mpr running), (addOne_fits overflowChecks small).1]
  simp only [probe_first first]
  cases btrfsIoctl (devInfo (calls + skipped) (iter.lastId + 1 + UInt64.ofNat skipped)) with
  | error error => rfl
  | ok args => rfl

/-- A call returns the device of the first id that has one, if there are still devices to find. -/
theorem next_found {args : DevInfo}
    (hit : devInfo (calls + skipped) (iter.lastId + 1 + UInt64.ofNat skipped) = .ok args)
    (few : iter.foundDevices < iter.numDevices) :
    iter.next overflowChecks devInfo limit calls =
      some ⟨calls + skipped + 1, { iter with
        lastId := iter.lastId + 1 + UInt64.ofNat skipped
        foundDevices := iter.foundDevices + 1 }, .ok (some (.ok args))⟩ := by
  -- There are devices left, so the counter does not overflow, nor does it pass the total.
  have less := UInt64.lt_iff_toNat_lt.mp few
  have bound := iter.numDevices.toNat_lt
  obtain ⟨found, total⟩ := @addOne_fits iter.foundDevices overflowChecks (by omega)
  have in_limit : ¬ iter.numDevices < iter.foundDevices + 1 := by
    rw [UInt64.lt_iff_toNat_lt]
    omega
  rw [next_first running first, hit]
  simp only [btrfsIoctl, record, found, if_neg in_limit]

/-- A call returns another error of the kernel, and leaves the iterator as it was. -/
theorem next_failed {error : IoError}
    (failed : devInfo (calls + skipped) (iter.lastId + 1 + UInt64.ofNat skipped) = .error error) :
    ∃ other, iter.next overflowChecks devInfo limit calls =
      some ⟨calls + skipped + 1, iter, .ok (some (.error other))⟩ := by
  -- The error is the one that the ioctl is wrapped for.
  obtain ⟨other, wrapped⟩ := @btrfsIoctl_error DevInfo error
  refine ⟨other, ?_⟩
  rw [next_first running first, failed, wrapped]

end Next

/-- Behind the highest id the iterator is at its end if the number of devices is right. -/
theorem next_finished {iter : Iter} (last : iter.maxId ≤ iter.lastId)
    (all : iter.foundDevices = iter.numDevices) (fuel calls : Nat) :
    iter.next overflowChecks devInfo fuel calls = some ⟨calls, iter, .ok none⟩ := by
  -- The comparison of the two numbers is all that happens.
  rw [next, if_pos last, if_neg (not_not_intro all)]

/-- As long as no more devices were found than there are, the length does not underflow. -/
theorem sizeHint_fits {iter : Iter} (fits : iter.foundDevices ≤ iter.numDevices) (bits : Nat) :
    iter.sizeHint overflowChecks bits =
      .ok ((iter.numDevices.toNat - iter.foundDevices.toNat) % 2 ^ bits) := by
  -- The check for an overflow is passed, and the difference is that of the numbers.
  have within : ¬ (overflowChecks = true ∧ iter.numDevices < iter.foundDevices) := by
    intro less
    exact UInt64.not_lt.mpr fits less.2
  rw [sizeHint, if_neg within, UInt64.toNat_sub_of_le _ _ fits]

end Iter

end Libbtrfs.Dev
