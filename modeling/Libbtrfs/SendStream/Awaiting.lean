import Libbtrfs.SendStream.PlainSend

/-! Which blocking sends report the receive under every schedule, and which under some only. -/

namespace Libbtrfs

/--
The receive has something that `blocking_send` is to return, whatever becomes of the ioctl.

It has failed with another error than that of a broken pipe, or an unbuffered handler has stopped it.
-/
def Receiving.Tells {σ : Type} (now : Receiving σ) : Prop :=
  (∃ error, now.result = some (.error (.io error)) ∧ error ≠ .os epipe) ∨ now = .done (.ok ())

/-- A receive that has something to tell has returned. -/
theorem Receiving.Tells.isSome {σ : Type} {now : Receiving σ} (tells : now.Tells) :
    now.result.isSome := by
  -- It has failed, or it is done.
  rcases tells with ⟨error, received, _⟩ | rfl
  · rw [received]
    rfl
  · rfl

section Awaiting

variable {σ : Type}

/--
A send of which the receive has the last word.

It is said of the receive by itself, which takes its stream byte by byte when it asks for more.
-/
structure SendBuilder.Awaits (crc : Bytes → UInt32) (handler : HandleCmd σ) (builder : SendBuilder)
    (kernel : SendKernel) (state : σ) (room : Nat) : Prop where
  /-- As long as a byte is left to be taken, the receive has nothing to tell. -/
  whole : ∀ taken rest receiver, (kernel.send builder.args).1 = taken ++ rest → rest ≠ [] →
    (receiveStream crc handler).Takes (.start builder.buffered state) taken receiver →
      ¬ receiver.Tells
  /-- The ioctl succeeds, or its pipe breaks before all of the rest fits into it. -/
  behind : (kernel.send builder.args).2 = .ok () ∨
    ∀ taken rest receiver actor, (kernel.send builder.args).1 = taken ++ rest →
      (receiveStream crc handler).Takes (.start builder.buffered state) taken receiver →
      (receiveStream crc handler).step actor receiver = .hungry → room + 1 < rest.length

end Awaiting

namespace Sending

variable {σ : Type} {crc : Bytes → UInt32} {handler : HandleCmd σ} {now after : Sending σ}
  {start : Receiving σ} {ioctl : Except IoError Unit} {stream : Bytes}

/-- The caller does not change the size of the pipe. -/
theorem callerStep_room (stepped : now.callerStep = some after) : after.room = now.room := by
  -- Each of its steps is an update of the caller alone.
  unfold callerStep at stepped
  repeat' split at stepped
  all_goals cases stepped
  all_goals rfl

/-- The ioctl does not change it either, and writes only where there is room. -/
theorem senderStep_room {room : Nat} (roomy : now.room = room ∧ now.pipe.length ≤ room)
    (stepped : now.senderStep = some after) : after.room = room ∧ after.pipe.length ≤ room := by
  unfold senderStep at stepped
  split at stepped
  · split at stepped
    · cases stepped
      exact roomy
    · split at stepped
      · -- The byte that is written has found room in front of it.
        rename_i below
        cases stepped
        refine ⟨roomy.1, ?_⟩
        rw [List.length_append, ← roomy.1]
        exact below
      · cases stepped
  · cases stepped
    exact roomy
  · cases stepped

/-- As long as `blocking_send` has not returned, it holds a write end of the pipe itself. -/
theorem Blocking.open_end (blocking : now.Blocking)
    (going : ∀ result, now.caller ≠ .returned result) : now.writeEnds.isEmpty = false := by
  -- The variable of the function is dropped only when it returns.
  unfold writeEnds
  rw [blocking.call]
  cases stands : now.caller with
  | busy | joinReceiver | joinSender => simp
  | returned result => exact absurd stands (going result)

/-- Every byte was taken when it was asked for, is in the pipe, or was not written. -/
structure Drawn (crc : Bytes → UInt32) (handler : HandleCmd σ) (start : Receiving σ)
    (ioctl : Except IoError Unit) (room : Nat) (taken rest : Bytes) (now : Sending σ) : Prop where
  sends : now.Sends ioctl rest
  takes : (receiveStream crc handler).Takes start taken now.receiver
  roomy : now.room = room ∧ now.pipe.length ≤ room

/-- What holds of a blocking send, until it has returned. -/
structure Draws (crc : Bytes → UInt32) (handler : HandleCmd σ) (start : Receiving σ)
    (ioctl : Except IoError Unit) (room : Nat) (stream : Bytes) (now : Sending σ) : Prop where
  blocking : now.Blocking
  drawn : (∃ result, now.caller = .returned result) ∨ ∃ taken rest,
    stream = taken ++ now.pipe ++ rest ∧ now.Drawn crc handler start ioctl room taken rest

/-- What the receiver takes off the pipe it has asked for. -/
theorem Drawn.receiverStep {actor : Actor} {room : Nat} {taken rest : Bytes}
    (drawn : now.Drawn crc handler start ioctl room taken rest)
    (open_end : now.writeEnds.isEmpty = false)
    (stepped : now.receiverStep crc handler actor = some after) :
    ∃ more, now.pipe = more ++ after.pipe ∧
      after.Drawn crc handler start ioctl room (taken ++ more) rest := by
  have sends := drawn.sends.receiverStep stepped
  obtain ⟨⟨pipe, receiver⟩, pulled, rfl⟩ := Option.map_eq_some_iff.mp stepped
  rw [open_end] at pulled
  -- The pipe is not closed, so its end is not seen.
  obtain ⟨more, split, takes⟩ := Consumer.pull_takes drawn.takes pulled
  refine ⟨more, split, sends, takes, drawn.roomy.1, ?_⟩
  have within := drawn.roomy.2
  rw [split, List.length_append] at within
  exact Nat.le_of_add_left_le within

/-- Every step of a blocking send that has not returned draws on, or returns. -/
theorem Draws.step {party : Party} {room : Nat}
    (draws : now.Draws crc handler start ioctl room stream)
    (stepped : (system crc handler).step party now = some after) :
    after.Draws crc handler start ioctl room stream := by
  refine ⟨draws.blocking.step stepped, ?_⟩
  by_cases stands : ∃ result, after.caller = .returned result
  · exact Or.inl stands
  have going : ∀ result, now.caller ≠ .returned result := by
    rintro result returned
    -- A caller that has returned takes no step, and no other party moves it.
    refine stands ⟨result, ?_⟩
    cases party with
    | sender => exact (senderStep_frame stepped).2.1.trans returned
    | caller =>
      have stepped : now.callerStep = some after := stepped
      simp only [callerStep, draws.blocking.call, returned] at stepped
      cases stepped
    | receiver actor => exact (receiverStep_frame stepped).2.2.trans returned
  obtain ⟨taken, rest, whole, drawn⟩ := draws.drawn.resolve_left (not_exists.mpr going)
  refine Or.inr ?_
  cases party with
  | sender =>
    have wrote : now.senderStep = some after := stepped
    obtain ⟨unwritten, same, sends⟩ := drawn.sends.senderStep wrote
    refine ⟨taken, unwritten, ?_, sends, ?_, senderStep_room drawn.roomy wrote⟩
    · rw [whole, List.append_assoc, same, ← List.append_assoc]
    · rw [(senderStep_frame wrote).2.2]
      exact drawn.takes
  | caller =>
    obtain ⟨_, pipe, sender, receiver⟩ := callerStep_frame stepped
    refine ⟨taken, rest, by rw [pipe]; exact whole, ?_, ?_, ?_⟩
    · rw [Sends, sender, receiver]
      exact drawn.sends
    · rw [receiver]
      exact drawn.takes
    · rw [callerStep_room stepped, pipe]
      exact drawn.roomy
  | receiver actor =>
    obtain ⟨more, same, still⟩ :=
      drawn.receiverStep (draws.blocking.open_end going) stepped
    exact ⟨taken ++ more, rest, by rw [whole, same]; simp only [List.append_assoc], still⟩

/-- Where the receive has the last word, what is returned is what it has come to. -/
theorem Draws.reports {builder : SendBuilder} {kernel : SendKernel} {room : Nat} {state : σ}
    (draws : now.Draws crc handler (.start builder.buffered state) (kernel.send builder.args).2 room
      (kernel.send builder.args).1)
    (awaits : builder.Awaits crc handler kernel state room) {result : Outcome Unit}
    (returns : now.Returns result) : now.Reports result := by
  rcases draws.blocking.returns_cases returns with ⟨failed, sender, rfl⟩ | ⟨succeeded, _⟩
  · have going : ¬ ∃ result, now.caller = .returned result := by
      rintro ⟨other, returned⟩
      obtain ⟨after, stepped, _⟩ := returns
      simp only [callerStep, draws.blocking.call, returned] at stepped
      cases stepped
    obtain ⟨taken, rest, whole, drawn⟩ := draws.drawn.resolve_left going
    rcases drawn.sends with stands | ⟨stands, rfl⟩ | ⟨stands, more, returned⟩
    · cases sender.symm.trans stands
    · -- The ioctl has written all that it had, and failed behind that.
      exfalso
      rcases awaits.behind with succeeds | breaks
      · rw [succeeds] at stands
        cases sender.symm.trans stands
      · rw [List.append_nil] at whole
        have fits := drawn.roomy.2
        rcases List.eq_nil_or_concat taken with rfl | ⟨front, last, ends⟩
        · have short := breaks [] now.pipe _ .main whole .start
            (Receiving.start_hungry crc handler builder.buffered state)
          omega
        · rw [List.concat_eq_append] at ends
          obtain ⟨actor, before, takes, hungry⟩ := drawn.takes.asked ends
          rw [ends, List.append_assoc] at whole
          have short := breaks front ([last] ++ now.pipe) before actor whole takes hungry
          rw [List.length_append, List.length_singleton] at short
          omega
    · -- The pipe broke because the receive had ended, which had nothing to tell.
      cases sender.symm.trans stands
      rw [List.append_assoc] at whole
      have silent := awaits.whole taken (now.pipe ++ rest) now.receiver whole
        (List.append_ne_nil_of_right_ne_nil _ more) drawn.takes
      refine ⟨returned, fun error received => ?_, fun stopped _ => absurd (Or.inr stopped) silent⟩
      by_contra other
      refine silent (Or.inl ⟨error, received, fun same => other ?_⟩)
      rw [same]
  · exact draws.blocking.reports_success returns succeeded

end Sending

end Libbtrfs
