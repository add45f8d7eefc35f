import Libbtrfs.SendStream.BlockingSend

/-! A send does with its stream, in whatever order its parties move, what a receive of it does. -/

namespace Libbtrfs

namespace Sending

variable {σ : Type}

/-- How the ioctl stands to the bytes that it has not written, which a broken pipe leaves out. -/
def Sends (ioctl : Except IoError Unit) (rest : Bytes) (now : Sending σ) : Prop :=
  now.sender = .sending rest ioctl ∨
    (now.sender = .finished (btrfsIoctl ioctl) ∧ rest = []) ∨
    (now.sender = .finished (.error (.os epipe)) ∧ rest ≠ [] ∧ now.receiver.result.isSome)

/-- Every byte has been delivered to the receiver, is in the pipe, or has not been written. -/
structure Piped (crc : Bytes → UInt32) (handler : HandleCmd σ) (start : Receiving σ)
    (ioctl : Except IoError Unit) (delivered rest : Bytes) (now : Sending σ) : Prop where
  sender : now.Sends ioctl rest
  receiver : (receiveStream crc handler).Reached start (delivered ++ now.pipe ++ rest) delivered
    now.receiver

variable {crc : Bytes → UInt32} {handler : HandleCmd σ} {now after : Sending σ}
  {start : Receiving σ} {ioctl : Except IoError Unit} {delivered rest : Bytes}

/-- A byte that is written goes to the end of the pipe, and none is lost unless that has broken. -/
theorem Sends.senderStep (sends : now.Sends ioctl rest) (stepped : now.senderStep = some after) :
    ∃ unwritten, now.pipe ++ rest = after.pipe ++ unwritten ∧ after.Sends ioctl unwritten := by
  -- An ioctl that has finished takes no step.
  rcases sends with stands | ⟨stands, _⟩ | ⟨stands, _⟩
  · unfold Sending.senderStep at stepped
    rw [stands] at stepped
    cases rest with
    | nil =>
      cases stepped
      exact ⟨[], rfl, Or.inr (Or.inl ⟨rfl, rfl⟩)⟩
    | cons byte others =>
      simp only at stepped
      split at stepped
      · rename_i returned
        cases stepped
        exact ⟨byte :: others, rfl, Or.inr (Or.inr ⟨rfl, List.cons_ne_nil _ _, returned⟩)⟩
      · split at stepped
        · cases stepped
          exact ⟨others, by simp, Or.inl rfl⟩
        · cases stepped
  · exact nomatch (senderStep_finished stands).symm.trans stepped
  · exact nomatch (senderStep_finished stands).symm.trans stepped

/-- The ioctl leaves the receiver with what was delivered to it. -/
theorem Piped.senderStep (piped : now.Piped crc handler start ioctl delivered rest)
    (stepped : now.senderStep = some after) :
    ∃ unwritten, now.pipe ++ rest = after.pipe ++ unwritten ∧
      after.Piped crc handler start ioctl delivered unwritten := by
  -- A byte that is written moves from what is unwritten to the end of the pipe.
  obtain ⟨unwritten, same, sends⟩ := piped.sender.senderStep stepped
  refine ⟨unwritten, same, sends, ?_⟩
  rw [List.append_assoc, ← same, ← List.append_assoc, (senderStep_frame stepped).2.2]
  exact piped.receiver

/-- A receiver that takes a step has not returned. -/
theorem receiverStep_going {actor : Actor} (stepped : now.receiverStep crc handler actor = some after) :
    now.receiver.result = none := by
  by_contra returned
  obtain ⟨result, returned⟩ := Option.ne_none_iff_exists'.mp returned
  -- A receiver that has returned takes no step at all.
  have idle := Receiving.result_idle crc handler actor returned
  obtain ⟨_, pulled, _⟩ := Option.map_eq_some_iff.mp stepped
  simp only [Consumer.pull, receiveStream, idle] at pulled
  cases pulled

/-- What the receiver does is nothing to the ioctl, whose pipe has not broken. -/
theorem Sends.receiverStep {actor : Actor} (sends : now.Sends ioctl rest)
    (stepped : now.receiverStep crc handler actor = some after) : after.Sends ioctl rest := by
  have same := (receiverStep_frame stepped).2.1
  rcases sends with stands | ⟨stands, nothing⟩ | ⟨_, _, returned⟩
  · exact Or.inl (same.trans stands)
  · exact Or.inr (Or.inl ⟨same.trans stands, nothing⟩)
  · -- It breaks only once the receiver has returned.
    rw [receiverStep_going stepped] at returned
    cases returned

/-- What is taken off the pipe is what is delivered. -/
theorem Piped.receiverStep {actor : Actor}
    (piped : now.Piped crc handler start ioctl delivered rest)
    (stepped : now.receiverStep crc handler actor = some after) :
    ∃ taken, now.pipe = taken ++ after.pipe ∧
      after.Piped crc handler start ioctl (delivered ++ taken) rest := by
  have going := receiverStep_going stepped
  have sends := piped.sender.receiverStep stepped
  obtain ⟨⟨pipe, receiver⟩, pulled, rfl⟩ := Option.map_eq_some_iff.mp stepped
  have whole : now.writeEnds.isEmpty = true → rest = [] := by
    intro closed
    have written := unwritten_closed closed
    rcases piped.sender with stands | ⟨_, nothing⟩ | ⟨_, _, returned⟩
    · rw [unwritten, stands] at written
      exact written
    · exact nothing
    · rw [going] at returned
      cases returned
  -- The turn of the receiver is one at the end of the pipe.
  obtain ⟨taken, split, reached⟩ :=
    Consumer.pull_reached (receiveStream_lawful crc handler) whole piped.receiver pulled
  refine ⟨taken, split, sends, ?_⟩
  rw [split] at reached
  simpa only [List.append_assoc] using reached

/-- No step of any party loses, adds or reorders a byte. -/
theorem Piped.step {party : Party} (piped : now.Piped crc handler start ioctl delivered rest)
    (stepped : (system crc handler).step party now = some after) :
    ∃ arrived unwritten, delivered ++ now.pipe ++ rest = arrived ++ after.pipe ++ unwritten ∧
      after.Piped crc handler start ioctl arrived unwritten := by
  cases party with
  | sender =>
    obtain ⟨unwritten, same, still⟩ := piped.senderStep stepped
    exact ⟨delivered, unwritten, by rw [List.append_assoc, same, ← List.append_assoc], still⟩
  | caller =>
    -- The caller has no part in it.
    obtain ⟨_, pipe, sender, receiver⟩ := callerStep_frame stepped
    refine ⟨delivered, rest, by rw [pipe], ?_, ?_⟩
    · rw [Sends, sender, receiver]
      exact piped.sender
    · rw [pipe, receiver]
      exact piped.receiver
  | receiver actor =>
    obtain ⟨taken, same, still⟩ := piped.receiverStep stepped
    exact ⟨delivered ++ taken, rest, by rw [same]; simp only [List.append_assoc], still⟩

/-- The bytes of the stream are where they have to be. -/
def Flows (crc : Bytes → UInt32) (handler : HandleCmd σ) (start : Receiving σ)
    (ioctl : Except IoError Unit) (written : Bytes) (now : Sending σ) : Prop :=
  ∃ delivered rest, written = delivered ++ now.pipe ++ rest ∧
    now.Piped crc handler start ioctl delivered rest

/-- The bytes are in order in every state of a send. -/
theorem run_flows {builder : SendBuilder} {kernel : SendKernel} {call : SendCall} {state : σ}
    {first : Sending σ} (begun : builder.begins kernel call state = .ok first)
    (schedule : List Party) :
    ((system crc handler).run schedule first).Flows crc handler (.start builder.buffered state)
      (kernel.send builder.args).2 (kernel.send builder.args).1 := by
  -- At first nothing is delivered, and the pipe is empty.
  obtain ⟨room, _, rfl⟩ := SendBuilder.begins_sending begun
  have flows : (builder.sending kernel call room state).Flows crc handler
      (.start builder.buffered state) (kernel.send builder.args).2 (kernel.send builder.args).1 :=
    ⟨[], _, rfl, Or.inl rfl, .start (receiveStream_lawful crc handler) _ _⟩
  refine (system crc handler).run_invariant ?_ schedule flows
  rintro party now after ⟨delivered, rest, same, piped⟩ stepped
  obtain ⟨arrived, unwritten, kept, still⟩ := piped.step stepped
  exact ⟨arrived, unwritten, same.trans kept, still⟩

/-- With the bytes that are under way to it, the receiver is one that has received all of them. -/
theorem Piped.entire (piped : now.Piped crc handler start ioctl delivered rest) :
    ∃ turns, (receiveStream crc handler).give (now.pipe ++ rest) now.receiver =
      (receiveStream crc handler).entire.run turns
        ((receiveStream crc handler).give (delivered ++ now.pipe ++ rest) start) := by
  -- The bytes are given to it in one go, or in the order in which it takes them.
  have reached := piped.receiver
  rw [List.append_assoc] at reached ⊢
  exact reached.entire (receiveStream_lawful crc handler)

end Sending

/--
Whatever the order of the steps, a send never loses, repeats or reorders a byte of what the ioctl
writes, and with all of them its receiver is one that has received them from a file.
-/
theorem send_refines_receive {σ : Type} (crc : Bytes → UInt32) (handler : HandleCmd σ)
    (builder : SendBuilder) (kernel : SendKernel) (call : SendCall) (state : σ) (first : Sending σ)
    (begun : builder.begins kernel call state = .ok first) (schedule : List Party) :
    let now := (Sending.system crc handler).run schedule first
    let written := (kernel.send builder.args).1
    ∃ delivered rest, written = delivered ++ now.pipe ++ rest ∧
      (rest = now.unwritten ∨
        now.sender = .finished (.error (.os epipe)) ∧ now.receiver.result.isSome) ∧
      ∃ turns, now.receiver.give (now.pipe ++ rest) =
        (receiveStream crc handler).entire.run turns
          ((Receiving.start builder.buffered state).give written) := by
  -- The stream flows in three parts, of which the last one may be lost with the pipe.
  obtain ⟨delivered, rest, same, piped⟩ :=
    @Sending.run_flows σ crc handler builder kernel call state first begun schedule
  refine ⟨delivered, rest, same, ?_, ?_⟩
  · rcases piped.sender with stands | ⟨stands, nothing⟩ | ⟨stands, _, returned⟩
    · exact Or.inl (by rw [Sending.unwritten, stands])
    · exact Or.inl (by rw [Sending.unwritten, stands, nothing])
    · exact Or.inr ⟨stands, returned⟩
  · rw [same]
    exact piped.entire

/-- The first byte of a stream has come to the receiver after three turns. -/
theorem send_refines_receive_endFrame :
    ∃ first, SendBuilder.begins ⟨true, 2, 0⟩
        (openKernel (Buffered.plainStream [Buffered.endFrame]) (.ok ())) .spawn () = .ok first ∧
      let now := (Sending.system (fun _ => 0) Buffered.eagerHandler).run
        [.sender, .caller, .receiver .main] first
      ∃ delivered rest, Buffered.plainStream [Buffered.endFrame] = delivered ++ now.pipe ++ rest ∧
        (rest = now.unwritten ∨
          now.sender = .finished (.error (.os epipe)) ∧ now.receiver.result.isSome) ∧
        ∃ turns, now.receiver.give (now.pipe ++ rest) =
          (receiveStream (fun _ => 0) Buffered.eagerHandler).entire.run turns
            ((Receiving.start true ()).give (Buffered.plainStream [Buffered.endFrame])) :=
  ⟨_, rfl, send_refines_receive (fun _ => 0) Buffered.eagerHandler ⟨true, 2, 0⟩
    (openKernel (Buffered.plainStream [Buffered.endFrame]) (.ok ())) .spawn () _ rfl
    [.sender, .caller, .receiver .main]⟩

end Libbtrfs
