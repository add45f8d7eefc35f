import Libbtrfs.Core.Settings
import Libbtrfs.SendStream.Send

/-! What a send asks the kernel for, after any chain of calls of its builder. -/

namespace Libbtrfs

/-- `SendBuilder::version`. -/
def SendBuilder.setVersion (builder : SendBuilder) (version : UInt32) : SendBuilder :=
  { builder with version := version }

/-- `SendBuilder::buffered`. -/
def SendBuilder.setBuffered (builder : SendBuilder) (buffered : Bool) : SendBuilder :=
  { builder with buffered := buffered }

/-- A call of `SendBuilder`, other than the one that gives the handler. -/
inductive SendOption where
  | version (version : UInt32)
  | buffered (on : Bool)
  | noFileData (on : Bool)
  | omitEndCmd (on : Bool)
  | omitStreamHeader (on : Bool)
  | compressed (on : Bool)

namespace SendOption

/-- What a call makes of the builder. -/
def apply : SendOption → SendBuilder → SendBuilder
  | .version asked, builder => builder.setVersion asked
  | .buffered on, builder => builder.setBuffered on
  | .noFileData on, builder => builder.noFileData on
  | .omitEndCmd on, builder => builder.omitEndCmd on
  | .omitStreamHeader on, builder => builder.omitStreamHeader on
  | .compressed on, builder => builder.compressed on

/-- The version that a call asks for. -/
def versionOf : SendOption → Option UInt32
  | .version asked => some asked
  | _ => none

/-- Whether a call asks for a buffered receive. -/
def bufferedOf : SendOption → Option Bool
  | .buffered on => some on
  | _ => none

/-- What a call says of a flag of the ioctl. -/
def flagOf (flag : UInt64) : SendOption → Option Bool
  | .noFileData on => if flag = sendFlagNoFileData then some on else none
  | .omitEndCmd on => if flag = sendFlagOmitEndCmd then some on else none
  | .omitStreamHeader on => if flag = sendFlagOmitStreamHeader then some on else none
  | .compressed on => if flag = sendFlagCompressed then some on else none
  | _ => none

end SendOption

/-- The flags that the builder has a function for. -/
def sendFlags : List UInt64 :=
  [sendFlagNoFileData, sendFlagOmitStreamHeader, sendFlagOmitEndCmd, sendFlagCompressed]

/-- There are four such flags. -/
theorem sendFlags_cases {flag : UInt64} (known : flag ∈ sendFlags) :
    flag = sendFlagNoFileData ∨ flag = sendFlagOmitStreamHeader ∨ flag = sendFlagOmitEndCmd ∨
      flag = sendFlagCompressed := by
  -- The list is written out.
  simpa only [sendFlags, List.mem_cons, List.not_mem_nil, or_false] using known

/-- The four flags are bits, and none of them is the flag of the version. -/
theorem sendFlags_bit {flag : UInt64} (known : flag ∈ sendFlags) :
    flag ≠ 0 ∧ sendFlagVersion &&& flag = 0 := by
  -- There are four of them to look at.
  rcases sendFlags_cases known with rfl | rfl | rfl | rfl <;> decide

/-- The four flags are different bits. -/
theorem sendFlags_apart {one other : UInt64} (known : one ∈ sendFlags) (other_known : other ∈ sendFlags)
    (different : other ≠ one) : one &&& other = 0 ∧ ~~~one &&& other = other := by
  revert different
  -- Each of the sixteen pairs is equal or has no bit in common.
  rcases sendFlags_cases known with rfl | rfl | rfl | rfl <;>
    rcases sendFlags_cases other_known with rfl | rfl | rfl | rfl <;> decide

namespace SendBuilder

variable {flag other : UInt64} (builder : SendBuilder) (on : Bool)

/-- A flag that is set or cleared is there or not. -/
theorem setFlag_same (bit : flag ≠ 0) :
    decide ((builder.setFlag flag on).flags &&& flag ≠ 0) = on := by
  cases on with
  | true =>
    -- A flag among others is left when the others are masked out.
    have there : (builder.flags ||| flag) &&& flag = flag := by
      rw [← UInt64.toBitVec_inj]
      ext position
      simp only [UInt64.toBitVec_and, UInt64.toBitVec_or, BitVec.getElem_and, BitVec.getElem_or]
      cases flag.toBitVec[position] <;> simp
    rw [setFlag, if_pos rfl, there]
    exact decide_eq_true bit
  | false =>
    -- What is masked out is gone.
    have gone : builder.flags &&& ~~~flag &&& flag = 0 := by
      rw [UInt64.and_assoc, UInt64.and_comm (~~~flag), UInt64.and_not_self, UInt64.and_zero]
    rw [setFlag, if_neg Bool.false_ne_true, gone]
    rfl

/-- What has nothing in common with a flag is left as it was. -/
theorem setFlag_other (apart : flag &&& other = 0) (kept : ~~~flag &&& other = other) :
    (builder.setFlag flag on).flags &&& other = builder.flags &&& other := by
  cases on with
  | true =>
    -- Of the flags that are there now, the new one has nothing to do with the mask.
    have parts : (builder.flags ||| flag) &&& other =
        builder.flags &&& other ||| flag &&& other :=
      UInt64.toBitVec_inj.mp BitVec.and_or_distrib_right
    rw [setFlag, if_pos rfl, parts, apart, UInt64.or_zero]
  | false => rw [setFlag, if_neg Bool.false_ne_true, UInt64.and_assoc, kept]

/-- One of the four flags is what was said of it, and the others are left as they were. -/
theorem setFlag_reads (known : flag ∈ sendFlags) (set : other ∈ sendFlags) :
    decide ((builder.setFlag other on).flags &&& flag ≠ 0) =
      (if flag = other then some on else none).getD (decide (builder.flags &&& flag ≠ 0)) := by
  -- The call is about this flag, or about a bit apart from it.
  by_cases same : flag = other
  · rw [if_pos same, same, setFlag_same builder on (sendFlags_bit set).1]
    rfl
  · obtain ⟨nothing, kept⟩ := sendFlags_apart set known same
    rw [if_neg same, setFlag_other builder on nothing kept]
    rfl

end SendBuilder

namespace SendOption

/-- Each call sets a flag to what it says of it. -/
theorem sets_flag {flag : UInt64} (known : flag ∈ sendFlags) :
    Sets apply (fun builder => decide (builder.flags &&& flag ≠ 0)) (flagOf flag) := by
  intro call builder
  -- Two of the calls are about no flag at all.
  cases call with
  | version asked => rfl
  | buffered on => rfl
  | noFileData on => exact builder.setFlag_reads on known (by decide)
  | omitEndCmd on => exact builder.setFlag_reads on known (by decide)
  | omitStreamHeader on => exact builder.setFlag_reads on known (by decide)
  | compressed on => exact builder.setFlag_reads on known (by decide)

/-- No call sets a bit that is none of those flags. -/
theorem sets_rest :
    Sets apply (fun builder => builder.flags &&& ~~~23) fun _ => (none : Option UInt64) := by
  intro call builder
  -- Each of the flags is one of the bits that are masked out.
  cases call with
  | version asked => rfl
  | buffered on => rfl
  | noFileData on => exact builder.setFlag_other on (by decide) (by decide)
  | omitEndCmd on => exact builder.setFlag_other on (by decide) (by decide)
  | omitStreamHeader on => exact builder.setFlag_other on (by decide) (by decide)
  | compressed on => exact builder.setFlag_other on (by decide) (by decide)

/-- Each call sets the version that it asks for. -/
theorem sets_version : Sets apply SendBuilder.version versionOf := by
  intro call builder
  -- Only one of the calls touches the field.
  cases call <;> rfl

/-- Each call sets whether the receive is buffered, if it is about that. -/
theorem sets_buffered : Sets apply SendBuilder.buffered bufferedOf := by
  intro call builder
  -- Only one of the calls touches the field.
  cases call <;> rfl

end SendOption

/-- The builder after a chain of calls, for the version that the system supports. -/
def SendBuilder.built (supportedVersion : UInt32) (calls : List SendOption) : SendBuilder :=
  applied SendOption.apply (.new supportedVersion) calls

section Built

variable (supportedVersion : UInt32) (calls : List SendOption)

/-- The version is the one that was asked for last, or the one that the system supports. -/
theorem SendBuilder.built_version :
    (built supportedVersion calls).version =
      (lastTold SendOption.versionOf calls).getD supportedVersion :=
  -- A new builder asks for the version that the system supports.
  SendOption.sets_version.applied _ calls

/-- The flags are those that were asked for last. -/
theorem SendBuilder.built_flag {flag : UInt64} (known : flag ∈ sendFlags) :
    decide ((built supportedVersion calls).flags &&& flag ≠ 0) =
      (lastTold (SendOption.flagOf flag) calls).getD false := by
  rw [built, (SendOption.sets_flag known).applied]
  -- A new builder has no flags.
  have none_set : decide ((SendBuilder.new supportedVersion).flags &&& flag ≠ 0) = false := by
    rw [new, UInt64.zero_and]
    rfl
  rw [none_set]

/-- There are no other flags. -/
theorem SendBuilder.built_rest : (built supportedVersion calls).flags &&& ~~~23 = 0 := by
  -- No call has told anything of them, and a new builder has none.
  have rest := SendOption.sets_rest.applied (.new supportedVersion) calls
  have nothing : lastTold (fun _ : SendOption => (none : Option UInt64)) calls = none := by
    simp [lastTold]
  rw [nothing] at rest
  exact rest.trans UInt64.zero_and

/-- A mask that has nothing in common with the flag of the version is not changed by it. -/
theorem SendBuilder.args_flags (builder : SendBuilder) {mask : UInt64}
    (apart : sendFlagVersion &&& mask = 0) :
    builder.args.flags &&& mask = builder.flags &&& mask := by
  have parts : (builder.flags ||| sendFlagVersion) &&& mask =
      builder.flags &&& mask ||| sendFlagVersion &&& mask :=
    UInt64.toBitVec_inj.mp BitVec.and_or_distrib_right
  rw [args]
  -- The flag is added for some versions, and the mask does not see it.
  split
  · rw [parts, apart, UInt64.or_zero]
  · rfl

/-- A part of what no flag is in has no flag in it either. -/
theorem SendBuilder.built_part {mask : UInt64} (part : ~~~23 &&& mask = mask) :
    (built supportedVersion calls).flags &&& mask = 0 := by
  -- The mask is a part of the bits that are not set.
  rw [← part, ← UInt64.and_assoc, built_rest, UInt64.zero_and]

/-- The flag of the version is there for the versions that it is needed for. -/
theorem SendBuilder.built_versionFlag :
    (built supportedVersion calls).args.flags &&& sendFlagVersion ≠ 0 ↔
      1 < (built supportedVersion calls).args.version := by
  have unset : (built supportedVersion calls).flags &&& sendFlagVersion = 0 :=
    built_part supportedVersion calls (by decide)
  -- It is added for the versions behind the first one, and for no other.
  by_cases second : (built supportedVersion calls).version > 1
  · have parts : ((built supportedVersion calls).flags ||| sendFlagVersion) &&& sendFlagVersion =
        (built supportedVersion calls).flags &&& sendFlagVersion |||
          sendFlagVersion &&& sendFlagVersion :=
      UInt64.toBitVec_inj.mp BitVec.and_or_distrib_right
    simp only [args, if_pos second]
    rw [parts, unset]
    exact iff_of_true (by decide) second
  · simp only [args, if_neg second]
    rw [unset]
    exact iff_of_false (fun set => set rfl) second

end Built

/--
Whatever chain of calls a send is built by, either function asks the kernel for what was said last.

The version decides the size of the pipe and the flag of the version, and no other flag is set.
-/
theorem begins_asked {σ : Type} (supportedVersion : UInt32) (calls : List SendOption)
    {kernel : SendKernel} {call : SendCall} {state : σ} {first : Sending σ}
    (begun : (SendBuilder.built supportedVersion calls).begins kernel call state = .ok first) :
    ∃ args : SendArgs,
      first.sender = .sending (kernel.send args).1 (kernel.send args).2 ∧
      kernel.setPipeSz (if 1 < args.version then 128000 else 64000) = .ok first.room ∧
      args.version = (lastTold SendOption.versionOf calls).getD supportedVersion ∧
      (∀ flag ∈ sendFlags, (args.flags &&& flag ≠ 0 ↔
        lastTold (SendOption.flagOf flag) calls = some true)) ∧
      (args.flags &&& sendFlagVersion ≠ 0 ↔ 1 < args.version) ∧
      args.flags &&& ~~~31 = 0 ∧
      first.receiver = .start ((lastTold SendOption.bufferedOf calls).getD false) state := by
  obtain ⟨room, sized, rfl⟩ := SendBuilder.begins_sending begun
  -- The arguments are those of the builder that the chain has made.
  refine ⟨(SendBuilder.built supportedVersion calls).args, rfl, sized,
    SendBuilder.built_version supportedVersion calls, fun flag known => ?_,
    SendBuilder.built_versionFlag supportedVersion calls, ?_, ?_⟩
  · have told := SendBuilder.built_flag supportedVersion calls known
    rw [SendBuilder.args_flags _ (sendFlags_bit known).2]
    refine decide_eq_true_iff.symm.trans ?_
    rw [told]
    cases lastTold (SendOption.flagOf flag) calls with
    | none => simp
    | some on => simp
  · -- Neither the flags nor that of the version are among the other bits.
    rw [SendBuilder.args_flags _ (by decide)]
    exact SendBuilder.built_part supportedVersion calls (by decide)
  · have buffered := SendOption.sets_buffered.applied (.new supportedVersion) calls
    exact congrArg (fun on => Receiving.start on state) buffered

/-- A chain that says something of the file data twice, and nothing of the stream header. -/
def changingCalls : List SendOption :=
  [.noFileData true, .version 1, .compressed true, .buffered true, .noFileData false]

/-- The last word counts, the version has a small pipe and no flag, and the receive is buffered. -/
theorem begins_asked_changing :
    ∃ first, (SendBuilder.built 2 changingCalls).begins (openKernel [] (.ok ())) .blocking () =
        .ok first ∧
      ∃ args : SendArgs, args.version = 1 ∧ args.flags &&& sendFlagNoFileData = 0 ∧
        args.flags &&& sendFlagCompressed ≠ 0 ∧ args.flags &&& sendFlagVersion = 0 ∧
        first.receiver = .start true () := by
  have begun : (SendBuilder.built 2 changingCalls).begins (openKernel [] (.ok ())) .blocking () =
      .ok ((SendBuilder.built 2 changingCalls).sending (openKernel [] (.ok ())) .blocking
        (SendBuilder.built 2 changingCalls).pipeSz ()) := rfl
  obtain ⟨args, _, _, version, flags, second, _, receiver⟩ := begins_asked 2 changingCalls begun
  have asked : args.version = 1 := version
  -- What was said last is there to be read off the chain.
  have dropped : ¬ args.flags &&& sendFlagNoFileData ≠ 0 := fun there =>
    absurd ((flags _ (by decide)).mp there) (by decide)
  have plain : ¬ args.flags &&& sendFlagVersion ≠ 0 := fun there =>
    absurd (second.mp there) (by rw [asked]; decide)
  exact ⟨_, begun, args, asked, not_not.mp dropped, (flags _ (by decide)).mpr (by decide),
    not_not.mp plain, receiver⟩

end Libbtrfs
