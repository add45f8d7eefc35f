import Libbtrfs.SendStream.Send

/-! What `blocking_send` returns, against what has become of the thread that receives. -/

namespace Libbtrfs

namespace Sending

variable {σ : Type}

/-- Behind this step of the caller `blocking_send` has returned. -/
def Returns (now : Sending σ) (result : Outcome Unit) : Prop :=
  ∃ after, now.callerStep = some after ∧ after.caller = .returned result

/--
What `blocking_send` returns is the outcome of the thread that receives, which has finished.

An error of that is returned, and when the handler has stopped it early then a broken pipe is none.
-/
structure Reports (now : Sending σ) (result : Outcome Unit) : Prop where
  finished : now.receiver.result.isSome
  error : ∀ error, now.receiver.result = some (.error (.io error)) → result = .error (.io error)
  stopped : now.receiver = .done (.ok ()) → now.sender = .finished (.error (.os epipe)) →
    result = .ok ()

/-- Where the caller of a blocking send stands: it joins the receiver only behind a success. -/
structure Blocking (now : Sending σ) : Prop where
  call : now.call = .blocking
  joins : now.caller = .joinReceiver → now.sender = .finished (.ok ())
  waits : now.caller ≠ .joinSender

variable {crc : Bytes → UInt32} {handler : HandleCmd σ} {now after : Sending σ}

/-- An ioctl that has finished takes no further step. -/
theorem senderStep_finished {result : Except IoError Unit}
    (finished : now.sender = .finished result) : now.senderStep = none := by
  -- There is no step from there.
  simp only [senderStep, finished]

/-- The ioctl touches neither the caller nor the kind of the call. -/
theorem senderStep_frame (stepped : now.senderStep = some after) :
    after.call = now.call ∧ after.caller = now.caller ∧ after.receiver = now.receiver := by
  -- Each of its steps is an update of the ioctl and the pipe.
  unfold senderStep at stepped
  split at stepped
  · split at stepped
    · cases stepped
      exact ⟨rfl, rfl, rfl⟩
    · split at stepped
      · cases stepped
        exact ⟨rfl, rfl, rfl⟩
      · cases stepped
  · cases stepped
    exact ⟨rfl, rfl, rfl⟩
  · cases stepped

/-- What the caller of a blocking send does: it returns the error of the ioctl, or joins. -/
theorem Blocking.callerStep_cases (blocking : now.Blocking)
    (stepped : now.callerStep = some after) :
    (∃ error, now.sender = .finished (.error error) ∧
        after.caller = .returned (.error (.io error))) ∨
      (now.sender = .finished (.ok ()) ∧ after.caller = .joinReceiver) ∨
      (now.sender = .finished (.ok ()) ∧ ∃ result, now.receiver.result = some result ∧
        after.caller = .returned (joined result)) := by
  -- One case for each of the four places where the caller may stand.
  obtain ⟨call, joins, waits⟩ := blocking
  cases stands : now.caller with
  | busy =>
    cases sender : now.sender with
    | sending rest result =>
      simp only [callerStep, call, stands, sender] at stepped
      cases stepped
    | finished result =>
      simp only [callerStep, call, stands, sender] at stepped
      cases result with
      | error error =>
        cases stepped
        exact Or.inl ⟨error, rfl, rfl⟩
      | ok done =>
        cases stepped
        exact Or.inr (Or.inl ⟨rfl, rfl⟩)
  | joinReceiver =>
    simp only [callerStep, call, stands] at stepped
    split at stepped
    · cases stepped
    · rename_i result received
      cases stepped
      exact Or.inr (Or.inr ⟨joins stands, result, received, rfl⟩)
  | joinSender => exact absurd stands waits
  | returned result =>
    simp only [callerStep, call, stands] at stepped
    cases stepped

/-- Every step leaves the caller of a blocking send in one of these places. -/
theorem Blocking.step {party : Party} (blocking : now.Blocking)
    (stepped : (system crc handler).step party now = some after) : after.Blocking := by
  obtain ⟨call, joins, waits⟩ := blocking
  cases party with
  | sender =>
    obtain ⟨same_call, same_caller, _⟩ := senderStep_frame stepped
    refine ⟨same_call.trans call, fun joining => ?_, same_caller ▸ waits⟩
    -- The ioctl has finished before the caller joins.
    have finished := joins (same_caller ▸ joining)
    exact nomatch (senderStep_finished finished).symm.trans stepped
  | caller =>
    obtain ⟨same_call, _, same_sender, _⟩ := callerStep_frame stepped
    have kind := same_call.trans call
    rcases Blocking.callerStep_cases ⟨call, joins, waits⟩ stepped with
      ⟨error, _, ends⟩ | ⟨finished, joining⟩ | ⟨_, result, _, ends⟩
    · refine ⟨kind, fun joining => ?_, by rw [ends]; exact nofun⟩
      exact nomatch ends.symm.trans joining
    · exact ⟨kind, fun _ => same_sender.trans finished, by rw [joining]; exact nofun⟩
    · refine ⟨kind, fun joining => ?_, by rw [ends]; exact nofun⟩
      exact nomatch ends.symm.trans joining
  | receiver actor =>
    obtain ⟨same_call, same_sender, same_caller⟩ := receiverStep_frame stepped
    exact ⟨same_call.trans call, fun joining => same_sender.trans (joins (same_caller ▸ joining)),
      same_caller ▸ waits⟩

/-- A caller that returns has the error of the ioctl, or what it has joined. -/
theorem Blocking.returns_cases (blocking : now.Blocking) {result : Outcome Unit}
    (returns : now.Returns result) :
    (∃ error, now.sender = .finished (.error error) ∧ result = .error (.io error)) ∨
      (now.sender = .finished (.ok ()) ∧
        ∃ outcome, now.receiver.result = some outcome ∧ result = joined outcome) := by
  -- Of the three steps that the caller has, two are a return.
  obtain ⟨after, stepped, ends⟩ := returns
  rcases blocking.callerStep_cases stepped with
    ⟨error, failed, stands⟩ | ⟨_, stands⟩ | ⟨finished, outcome, received, stands⟩
  · exact Or.inl ⟨error, failed, CallerPc.returned.inj (ends.symm.trans stands)⟩
  · exact nomatch ends.symm.trans stands
  · exact Or.inr ⟨finished, outcome, received, CallerPc.returned.inj (ends.symm.trans stands)⟩

/-- What `blocking_send` returns behind an ioctl that has succeeded is the outcome of the receive. -/
theorem Blocking.reports_success (blocking : now.Blocking) {result : Outcome Unit}
    (returns : now.Returns result) (succeeded : now.sender = .finished (.ok ())) :
    now.Reports result := by
  rcases blocking.returns_cases returns with
    ⟨failed, sender, _⟩ | ⟨_, outcome, received, rfl⟩
  · exact nomatch succeeded.symm.trans sender
  · -- The receiver was joined, and only its panic is turned into another one.
    refine ⟨by rw [received]; rfl, fun error failed => ?_, fun _ broken => ?_⟩
    · rw [Option.some.inj (received.symm.trans failed)]
      rfl
    · exact nomatch succeeded.symm.trans broken

end Sending

end Libbtrfs
