import Libbtrfs.SendStream.PlainSend

/-! What a `SendHandle` says of its threads, and when joining them does not wait. -/

namespace Libbtrfs

namespace Sending

variable {σ : Type}

/-- `SendHandle::send_is_finished`. -/
def sendIsFinished (now : Sending σ) : Bool :=
  match now.sender with
  | .finished _ => true
  | .sending _ _ => false

/-- `SendHandle::receive_is_finished`, for a send with a handler. -/
def receiveIsFinished (now : Sending σ) : Bool := now.receiver.result.isSome

/-- `SendHandle::is_finished`. -/
def isFinished (now : Sending σ) : Bool := now.sendIsFinished && now.receiveIsFinished

/-- Joining the thread that receives ends in an error. -/
def ReceiveFailed (now : Sending σ) : Prop :=
  ∃ received failure, now.receiver.result = some received ∧ joined received = .error failure

/-- The caller alone gets from here to its return. -/
def Returning (crc : Bytes → UInt32) (handler : HandleCmd σ) (now : Sending σ) : Prop :=
  ∃ turns result,
    ((system crc handler).run (List.replicate turns .caller) now).caller = .returned result

variable {crc : Bytes → UInt32} {handler : HandleCmd σ} {now after : Sending σ}

/-- The ioctl is finished when it has a result. -/
theorem sendIsFinished_iff :
    now.sendIsFinished = true ↔ ∃ result, now.sender = .finished result := by
  -- The other place is the one in front of the end.
  unfold sendIsFinished
  cases now.sender with
  | sending rest result => simp
  | finished result => simp

/-- The receive is finished when it has a result. -/
theorem receiveIsFinished_iff :
    now.receiveIsFinished = true ↔ ∃ received, now.receiver.result = some received :=
  Option.isSome_iff_exists

/-- What has ended stays as it has ended. -/
structure Lasts (now after : Sending σ) : Prop where
  sender : ∀ sent, now.sender = .finished sent → after.sender = .finished sent
  receiver : ∀ received, now.receiver.result = some received →
    after.receiver.result = some received

/-- No step undoes the end of a thread. -/
theorem Lasts.step {start : Sending σ} {party : Party} (lasts : start.Lasts now)
    (stepped : (system crc handler).step party now = some after) : start.Lasts after := by
  -- Whoever steps, the ioctl and the receiver have no step once they have ended.
  cases party with
  | sender =>
    have wrote : now.senderStep = some after := stepped
    obtain ⟨_, _, receiver⟩ := senderStep_frame wrote
    refine ⟨fun sent finished => ?_, fun received returned => ?_⟩
    · cases (senderStep_finished (lasts.sender sent finished)).symm.trans wrote
    · rw [receiver]
      exact lasts.receiver received returned
  | caller =>
    obtain ⟨_, _, sender, receiver⟩ := callerStep_frame stepped
    refine ⟨fun sent finished => ?_, fun received returned => ?_⟩
    · rw [sender]
      exact lasts.sender sent finished
    · rw [receiver]
      exact lasts.receiver received returned
  | receiver actor =>
    obtain ⟨_, sender, _⟩ := receiverStep_frame stepped
    refine ⟨fun sent finished => ?_, fun received returned => ?_⟩
    · rw [sender]
      exact lasts.sender sent finished
    · -- A receiver that has returned would take no step.
      cases (receiverStep_going stepped).symm.trans (lasts.receiver received returned)

/-- Whatever is scheduled next, a thread that has ended stays so, with its result. -/
theorem run_lasts (crc : Bytes → UInt32) (handler : HandleCmd σ) (now : Sending σ)
    (later : List Party) : now.Lasts ((system crc handler).run later now) :=
  (system crc handler).run_invariant (fun _ _ _ lasts stepped => lasts.step stepped) later
    ⟨fun _ same => same, fun _ same => same⟩

/-- What has lasted is still finished. -/
theorem Lasts.isFinished (lasts : now.Lasts after) (finished : now.isFinished = true) :
    after.isFinished = true := by
  -- Both threads have kept their results.
  rw [Sending.isFinished, Bool.and_eq_true] at finished ⊢
  obtain ⟨sent, ended⟩ := sendIsFinished_iff.mp finished.1
  obtain ⟨received, returned⟩ := receiveIsFinished_iff.mp finished.2
  exact ⟨sendIsFinished_iff.mpr ⟨sent, lasts.sender sent ended⟩,
    receiveIsFinished_iff.mpr ⟨received, lasts.receiver received returned⟩⟩

/-- What has lasted still lets the caller return. -/
theorem Lasts.ended (lasts : now.Lasts after)
    (ended : now.receiveIsFinished = true ∧ (now.sendIsFinished = true ∨ now.ReceiveFailed)) :
    after.receiveIsFinished = true ∧ (after.sendIsFinished = true ∨ after.ReceiveFailed) := by
  -- Each of the results is still there.
  obtain ⟨received, returned⟩ := receiveIsFinished_iff.mp ended.1
  refine ⟨receiveIsFinished_iff.mpr ⟨received, lasts.receiver received returned⟩, ?_⟩
  rcases ended.2 with finished | ⟨other, failure, same, failed⟩
  · obtain ⟨sent, finished⟩ := sendIsFinished_iff.mp finished
    exact Or.inl (sendIsFinished_iff.mpr ⟨sent, lasts.sender sent finished⟩)
  · exact Or.inr ⟨other, failure, lasts.receiver other same, failed⟩

/-- A caller that takes its turns alone changes nothing but where it stands. -/
theorem run_caller (crc : Bytes → UInt32) (handler : HandleCmd σ) (turns : Nat)
    (now : Sending σ) :
    let ended := (system crc handler).run (List.replicate turns .caller) now
    ended.sender = now.sender ∧ ended.receiver = now.receiver := by
  -- The induction is on the turns, each of which is a step of the caller or none.
  induction turns generalizing now with
  | zero => exact ⟨rfl, rfl⟩
  | succ turns ih =>
    obtain ⟨sender, receiver⟩ := ih ((system crc handler).turn .caller now)
    have kept : ((system crc handler).turn .caller now).sender = now.sender ∧
        ((system crc handler).turn .caller now).receiver = now.receiver := by
      unfold System.turn
      cases stepped : (system crc handler).step .caller now with
      | none => exact ⟨rfl, rfl⟩
      | some after =>
        obtain ⟨_, _, sender, receiver⟩ := callerStep_frame stepped
        exact ⟨sender, receiver⟩
    exact ⟨sender.trans kept.1, receiver.trans kept.2⟩

/-- A step of the caller on its way to the return is one turn more. -/
theorem Returning.of_step (stepped : now.callerStep = some after)
    (returning : after.Returning crc handler) : now.Returning crc handler := by
  -- The turn comes in front of the others.
  obtain ⟨turns, result, returned⟩ := returning
  refine ⟨turns + 1, result, ?_⟩
  have moved : (system crc handler).step .caller now = some after := stepped
  rw [List.replicate_succ, System.run_step _ moved]
  exact returned

/-- A caller that has returned takes no more turns. -/
theorem Returning.of_returned {result : Outcome Unit} (returned : now.caller = .returned result) :
    now.Returning crc handler :=
  ⟨0, result, returned⟩

/-- A caller that joins the ioctl returns once that has ended. -/
theorem returning_of_joinSender {sent : Except IoError Unit} (spawn : now.call = .spawn)
    (joins : now.caller = .joinSender) (finished : now.sender = .finished sent) :
    now.Returning crc handler := by
  -- The next step returns the result of the ioctl.
  have stepped : now.callerStep = some { now with caller := .returned (sent.mapError .io) } := by
    simp only [callerStep, spawn, joins, finished]
  exact .of_step stepped (.of_returned rfl)

/-- A caller that joins the receiver returns once that has failed, or both have ended. -/
theorem returning_of_joinReceiver {received : Outcome Unit} (spawn : now.call = .spawn)
    (joins : now.caller = .joinReceiver) (returned : now.receiver.result = some received)
    (enough : now.sendIsFinished = true ∨ now.ReceiveFailed) : now.Returning crc handler := by
  -- What the receiver has returned decides whether the ioctl is joined as well.
  cases ends : joined received with
  | error failure =>
    have stepped : now.callerStep = some { now with caller := .returned (.error failure) } := by
      simp only [callerStep, spawn, joins, returned, ends]
    exact .of_step stepped (.of_returned rfl)
  | ok done =>
    have stepped : now.callerStep = some { now with caller := .joinSender } := by
      simp only [callerStep, spawn, joins, returned, ends]
    rcases enough with finished | ⟨other, failure, same, failed⟩
    · obtain ⟨sent, finished⟩ := sendIsFinished_iff.mp finished
      exact .of_step stepped (returning_of_joinSender spawn rfl finished)
    · cases returned.symm.trans same
      cases ends.symm.trans failed

/-- What lets the caller return lets it do so from wherever it stands. -/
theorem Calling.returning (calling : now.Calling) (spawn : now.call = .spawn)
    (receives : now.receiveIsFinished = true)
    (enough : now.sendIsFinished = true ∨ now.ReceiveFailed) : now.Returning crc handler := by
  obtain ⟨received, returned⟩ := receiveIsFinished_iff.mp receives
  cases stands : now.caller with
  | busy =>
    have stepped : now.callerStep = some { now with caller := .joinReceiver } := by
      simp only [Sending.callerStep, spawn, stands]
    exact .of_step stepped (returning_of_joinReceiver spawn rfl returned enough)
  | joinReceiver => exact returning_of_joinReceiver spawn stands returned enough
  | joinSender =>
    rcases enough with finished | ⟨other, failure, same, failed⟩
    · obtain ⟨sent, finished⟩ := sendIsFinished_iff.mp finished
      exact returning_of_joinSender spawn stands finished
    · -- Behind a failed receiver the ioctl would not be joined.
      cases (calling.spawned spawn stands).symm.trans same
      cases failed
  | returned result => exact .of_returned stands

/-- A spawned send that has told its caller something has let it return. -/
theorem Told.ended {result : Outcome Unit} (told : now.Told result) (spawn : now.call = .spawn) :
    now.receiveIsFinished = true ∧ (now.sendIsFinished = true ∨ now.ReceiveFailed) := by
  -- It has told of a receive that failed, or of the ioctl behind one that did not.
  rw [Told, spawn] at told
  rcases told with ⟨failure, received, returned, failed, _⟩ | ⟨returned, sent, finished, _⟩
  · exact ⟨receiveIsFinished_iff.mpr ⟨received, returned⟩,
      Or.inr ⟨received, failure, returned, failed⟩⟩
  · exact ⟨receiveIsFinished_iff.mpr ⟨_, returned⟩,
      Or.inl (sendIsFinished_iff.mpr ⟨sent, finished⟩)⟩

/-- A spawned send that has told its caller that all is well has ended well in both threads. -/
theorem Told.ok (told : now.Told (.ok ())) (spawn : now.call = .spawn) :
    now.receiver.result = some (.ok ()) ∧ now.sender = .finished (.ok ()) := by
  -- A failure is not what it was told.
  rw [Told, spawn] at told
  rcases told with ⟨failure, received, _, _, impossible⟩ | ⟨returned, sent, finished, same⟩
  · cases impossible
  · cases sent with
    | error error => cases same
    | ok done => exact ⟨returned, finished⟩

end Sending

/--
Whenever the caller of a spawned send joins it, it returns without waiting exactly if the receiving
thread has finished and either the sending thread has too or the receive has failed.

From then on that stays so, a send that is finished stays finished, and `Ok` is returned only for
one in which both threads have ended well.
-/
theorem join_returns_iff {σ : Type} (crc : Bytes → UInt32) (handler : HandleCmd σ)
    (builder : SendBuilder) (kernel : SendKernel) (state : σ) (first : Sending σ)
    (begun : builder.begins kernel .spawn state = .ok first) (schedule : List Party) :
    let now := (Sending.system crc handler).run schedule first
    (now.Returning crc handler ↔
        now.receiveIsFinished = true ∧ (now.sendIsFinished = true ∨ now.ReceiveFailed)) ∧
      (now.caller = .returned (.ok ()) →
        now.receiver.result = some (.ok ()) ∧ now.sender = .finished (.ok ())) ∧
      ∀ later : List Party,
        let after := (Sending.system crc handler).run later now
        (now.Returning crc handler → after.Returning crc handler) ∧
          (now.isFinished = true → after.isFinished = true) := by
  have exact_when : ∀ turns : List Party,
      let now := (Sending.system crc handler).run turns first
      now.Returning crc handler ↔
        now.receiveIsFinished = true ∧ (now.sendIsFinished = true ∨ now.ReceiveFailed) := by
    intro turns
    obtain ⟨spawn, calling⟩ :=
      @Sending.run_calling σ crc handler builder kernel .spawn state first begun turns
    refine ⟨fun returning => ?_, fun ended => calling.returning spawn ended.1 ended.2⟩
    obtain ⟨more, result, returned⟩ := returning
    -- What the caller was told when it returned was so before it took its turns.
    obtain ⟨spawn, calling⟩ := @Sending.run_calling σ crc handler builder kernel .spawn state
      first begun (turns ++ List.replicate more .caller)
    rw [System.run_append] at spawn calling
    have told := (calling.told result returned).ended spawn
    obtain ⟨sender, receiver⟩ :=
      Sending.run_caller crc handler more ((Sending.system crc handler).run turns first)
    simp only [Sending.receiveIsFinished, Sending.sendIsFinished, Sending.ReceiveFailed, sender,
      receiver] at told
    exact told
  intro now
  obtain ⟨spawn, calling⟩ :=
    @Sending.run_calling σ crc handler builder kernel .spawn state first begun schedule
  refine ⟨exact_when schedule, fun returned => (calling.told _ returned).ok spawn, fun later => ?_⟩
  have lasts := Sending.run_lasts crc handler now later
  refine ⟨fun returning => ?_, lasts.isFinished⟩
  have ended := lasts.ended ((exact_when schedule).mp returning)
  have again := (exact_when (schedule ++ later)).mpr
  rw [System.run_append] at again
  exact again ended

/-- A caller that joins while the first byte of a stream is under way has to wait. -/
theorem join_returns_iff_waiting :
    ∃ first, (SendBuilder.new 1).begins (openKernel [0, 0] (.ok ())) .spawn () = .ok first ∧
      let now := (Sending.system (fun _ => 0) Buffered.eagerHandler).run [.sender, .caller] first
      ¬ now.Returning (fun _ => 0) Buffered.eagerHandler := by
  -- The receiver has not finished, as it was given no turn.
  refine ⟨_, rfl, fun returning => ?_⟩
  have ended := ((join_returns_iff (fun _ => 0) Buffered.eagerHandler (SendBuilder.new 1)
    (openKernel [0, 0] (.ok ())) () _ rfl [.sender, .caller]).1.mp returning).1
  cases ended

end Libbtrfs
