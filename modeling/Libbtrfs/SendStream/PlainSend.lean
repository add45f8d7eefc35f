import Libbtrfs.SendStream.BufferedDelivery
import Libbtrfs.SendStream.Taking

/-! What an unbuffered send returns, against what reading its stream from a file returns. -/

namespace Libbtrfs

/-- What reading a stream comes to, and the bytes behind the last command that was read. -/
def readingEnds {σ : Type} (read : Outcome Unit × SendStream × σ) : Outcome Unit × Bytes :=
  (read.1, read.2.1.reader)

section Header

variable {σ : Type} {crc : Bytes → UInt32} {handler : HandleCmd σ} {stream after : SendStream}

/-- A header that is refused is all that is read. -/
theorem readingEnds_error {failure : Failure} (state : σ)
    (refused : readHeader stream = .error failure after) :
    readingEnds (readAndHandle crc handler stream state) = (.error failure, after.reader) := by
  -- The error is returned at once.
  rw [readAndHandle, refused]
  rfl

/-- Behind the header the loop decides, as storing the position reads nothing. -/
theorem readingEnds_ok (crc : Bytes → UInt32) (handler : HandleCmd σ) (state : σ)
    (read : readHeader stream = .ok () after) :
    readingEnds (readAndHandle crc handler stream state) =
      readingEnds (handleLoop crc handler after state) := by
  -- The loop succeeds or fails, and the position is stored only where it succeeds.
  rw [readAndHandle, read]
  rcases ended : handleLoop crc handler after state with ⟨_ | _, later⟩
  · simp only [ended]
  · simp only [ended]
    rfl

end Header

namespace Receiving

variable {σ : Type} {crc : Bytes → UInt32} {handler : HandleCmd σ}

/--
An unbuffered receive from which reading goes on to the given end, whatever else is to arrive.

Once it is done, what arrives is left over.
-/
def Foretells (crc : Bytes → UInt32) (handler : HandleCmd σ) (ends : Bytes → Outcome Unit × Bytes) :
    Receiving σ → Prop
  | .opening ahead stream state =>
    ahead = false ∧ (∃ input, stream = .new input none) ∧
      ∀ more, ends more = readingEnds (readAndHandle crc handler (stream.give more) state)
  | .plain stream state =>
    Ready stream ∧
      ∀ more, ends more = readingEnds (handleLoop crc handler (stream.give more) state)
  | .buffered _ => False
  | .done result => ∃ left, ∀ more, ends more = (result, left ++ more)

variable {ends : Bytes → Outcome Unit × Bytes} {now next : Receiving σ}

/-- A header that has arrived is what reading begins with. -/
theorem Foretells.opens {stream : SendStream} {state : σ}
    (foretells : (Receiving.opening false stream state).Foretells crc handler ends)
    (moved : Receiving.opens false stream state = .moves next) :
    next.Foretells crc handler ends := by
  obtain ⟨_, ⟨input, fresh⟩, whole⟩ := foretells
  have lasts := fun more => stream.readHeader_lasts more
  obtain ⟨failure, after, header, other, rfl⟩ | ⟨buffered, _⟩ | ⟨buffered, _⟩ |
    ⟨_, read, header, rfl⟩ := Receiving.opens_cases moved
  · -- The header is refused whatever is behind it.
    refine ⟨after.reader, fun more => (whole more).trans ?_⟩
    rw [readingEnds_error state ((lasts more).of_error header other)]
    rfl
  · cases buffered
  · cases buffered
  · have taken := readHeader_cases input none
    rw [← fresh, header] at taken
    obtain ⟨_, _, _, refused⟩ | ⟨_, _, after, _, taken, ready, _⟩ := taken
    · cases refused
    · cases taken
      refine ⟨ready, fun more => (whole more).trans ?_⟩
      exact readingEnds_ok crc handler state ((lasts more).of_ok header)

/-- A round with a command that has arrived is one of the loop. -/
theorem Foretells.round {stream : SendStream} {state : σ}
    (foretells : (Receiving.plain stream state).Foretells crc handler ends)
    (moved : Receiving.round crc handler stream state = .moves next) :
    next.Foretells crc handler ends := by
  obtain ⟨ready, whole⟩ := foretells
  have lasts := fun more => stream.readCmd_lasts more crc
  rw [Receiving.round] at moved
  cases found : readCmd crc stream with
  | error failure after =>
    rw [found] at moved
    simp only at moved
    split at moved
    · cases moved
    · rename_i other
      cases moved
      -- The command is refused whatever is behind it.
      refine ⟨after.reader, fun more => (whole more).trans ?_⟩
      rw [handleLoop_error ((lasts more).of_error found other)]
      rfl
  | ok done read =>
    obtain ⟨frame, rest, _, holds⟩ := readCmd_ok ready found
    have loop : ∀ more, handleLoop crc handler (stream.give more) state = _ := fun more =>
      handleLoop_ok ((lasts more).of_ok found) (show (read.give more).payload = _ from holds.payload)
    rw [found] at moved
    simp only [holds.payload] at moved
    -- The handler refuses, stops or asks for the next command.
    rcases answered : handler read.command frame.payload read.version state with ⟨_ | _ | _, later⟩
    all_goals
      rw [answered] at moved
      cases moved
    · refine ⟨read.reader, fun more => ((whole more).trans (congrArg readingEnds (loop more))).trans ?_⟩
      have same : handler (read.give more).command frame.payload (read.give more).version state =
        _ := answered
      simp only [same]
      rfl
    · refine ⟨read.reader, fun more => ((whole more).trans (congrArg readingEnds (loop more))).trans ?_⟩
      have same : handler (read.give more).command frame.payload (read.give more).version state =
        _ := answered
      simp only [same]
      rfl
    · refine ⟨holds.ready, fun more => ((whole more).trans (congrArg readingEnds (loop more))).trans ?_⟩
      have same : handler (read.give more).command frame.payload (read.give more).version state =
        _ := answered
      simp only [same]

/-- Every step goes on to the same end. -/
theorem Foretells.step {actor : Actor} (foretells : now.Foretells crc handler ends)
    (moved : Receiving.step crc handler actor now = .moves next) :
    next.Foretells crc handler ends := by
  -- A header or a frame is taken off the front of what is read, which has the same end.
  cases now with
  | opening ahead stream state =>
    obtain ⟨rfl, rest⟩ := foretells
    cases actor with
    | thread => cases moved
    | main => exact Foretells.opens ⟨rfl, rest⟩ moved
  | plain stream state =>
    cases actor with
    | thread => cases moved
    | main => exact Foretells.round foretells moved
  | buffered now => exact foretells.elim
  | done result =>
    cases actor with
    | main => cases moved
    | thread => cases moved

/-- A receive that asks for more and finds the end fails with it, and so does reading. -/
theorem Foretells.hungry {actor : Actor} (foretells : now.Foretells crc handler ends)
    (hungry : Receiving.step crc handler actor now = .hungry) :
    now.starve crc = .done (.error eof) ∧ (ends []).1 = .error eof := by
  -- Where nothing more arrives, reading finds that its input is too short.
  cases now with
  | opening ahead stream state =>
    obtain ⟨rfl, _, whole⟩ := foretells
    cases actor with
    | thread => cases hungry
    | main =>
      refine ⟨rfl, ?_⟩
      rw [whole, SendStream.give, List.append_nil]
      simp only [Receiving.step, Receiving.opens] at hungry
      split at hungry
      · rename_i failure after refused
        split at hungry
        · rename_i dry
          rw [readingEnds_error state refused, dry]
        · cases hungry
      · cases hungry
  | plain stream state =>
    obtain ⟨ready, whole⟩ := foretells
    cases actor with
    | thread => cases hungry
    | main =>
      refine ⟨rfl, ?_⟩
      rw [whole, SendStream.give, List.append_nil]
      rcases @round_handleLoop σ crc handler stream ready state with
        ⟨_, dry⟩ | ended | ⟨read, later, goes, _⟩
      · exact dry
      · cases ended.symm.trans hungry
      · cases goes.symm.trans hungry
  | buffered now => exact foretells.elim
  | done result =>
    cases actor with
    | main => cases hungry
    | thread => cases hungry

/-- A receive that is to come to the given end, or has come to it when its stream had ended. -/
def Destined (crc : Bytes → UInt32) (handler : HandleCmd σ) (ends : Bytes → Outcome Unit × Bytes)
    (now : Receiving σ) : Prop :=
  now.Foretells crc handler ends ∨ now = .done (ends []).1

/-- The end of the stream is no other end. -/
theorem Destined.step {actor : Actor} (destined : now.Destined crc handler ends)
    (stepped : (receiveStream crc handler).entire.step actor now = some next) :
    next.Destined crc handler ends := by
  rcases destined with foretells | rfl
  · -- A step is one of the receive, or the end of the stream that it has waited for.
    rcases Consumer.entire_cases stepped with moved | ⟨hungry, rfl⟩
    · exact Or.inl (foretells.step moved)
    · obtain ⟨dry, short⟩ := foretells.hungry hungry
      exact Or.inr (by rw [short]; exact dry)
  · cases actor with
    | main => cases stepped
    | thread => cases stepped

/-- A receive that has come to its end has come to the one that was foretold. -/
theorem Destined.result {result : Outcome Unit} (destined : now.Destined crc handler ends)
    (returned : now.result = some result) : result = (ends []).1 := by
  -- Either the receive is at its end, or it has found the end of the stream.
  rcases destined with foretells | rfl
  · cases now with
    | opening | plain => cases returned
    | buffered now => exact foretells.elim
    | done other =>
      cases returned
      obtain ⟨left, whole⟩ := foretells
      rw [whole]
  · exact (Option.some.inj returned).symm

/-- Where an unbuffered receive starts, reading its stream is still to come. -/
theorem start_foretells (crc : Bytes → UInt32) (handler : HandleCmd σ) (delivered : Bytes)
    (state : σ) :
    ((Receiving.start false state).give delivered).Foretells crc handler fun more =>
      readingEnds (readAndHandle crc handler (.new (delivered ++ more) none) state) :=
  ⟨rfl, ⟨delivered, rfl⟩, fun _ => rfl⟩

/--
An unbuffered receive that has returned has what reading the stream returns, and bytes that had not
arrived then are left over by reading as well.
-/
theorem reached_result {written delivered rest : Bytes} {state : σ} {now : Receiving σ}
    (whole : written = delivered ++ rest)
    (reached : (receiveStream crc handler).Reached (.start false state) written delivered now)
    {result : Outcome Unit} (returned : now.result = some result) :
    let read := readingEnds (readAndHandle crc handler (.new written none) state)
    result = read.1 ∧ (rest ≠ [] → read.2 ≠ []) := by
  rcases reached with ⟨turns, same⟩ | ⟨ended, turns, same⟩
  · -- Nothing was known of the rest, so it is left over.
    have foretells : now.Foretells crc handler fun more =>
        readingEnds (readAndHandle crc handler (.new (delivered ++ more) none) state) := by
      rw [same]
      exact (receiveStream crc handler).alone.run_invariant
        (fun _ _ _ held stepped => Foretells.step held (Consumer.alone_moves.mp stepped)) turns
        (start_foretells crc handler delivered state)
    cases now with
    | opening | plain => cases returned
    | buffered now => exact foretells.elim
    | done other =>
      cases returned
      obtain ⟨left, ends⟩ := foretells
      have read : readingEnds (readAndHandle crc handler (.new (delivered ++ rest) none) state) =
        (result, left ++ rest) := ends rest
      rw [whole]
      simp only [read]
      exact ⟨trivial, fun more => List.append_ne_nil_of_right_ne_nil left more⟩
  · have destined : now.Destined crc handler fun more =>
        readingEnds (readAndHandle crc handler (.new (written ++ more) none) state) := by
      rw [same]
      exact (receiveStream crc handler).entire.run_invariant
        (fun _ _ _ held stepped => Destined.step held stepped) turns
        (Or.inl (start_foretells crc handler written state))
    have ends := destined.result returned
    rw [List.append_nil] at ends
    refine ⟨ends, fun more => absurd ?_ more⟩
    rw [ended] at whole
    exact List.self_eq_append_right.mp whole

end Receiving

namespace Sending

variable {σ : Type} {crc : Bytes → UInt32} {handler : HandleCmd σ} {now after : Sending σ}

/-- What the caller has returned, against how the ioctl and the thread that receives have ended. -/
def Told (now : Sending σ) (result : Outcome Unit) : Prop :=
  match now.call with
  | .spawn =>
    (∃ failure received, now.receiver.result = some received ∧
        joined received = .error failure ∧ result = .error failure) ∨
      now.receiver.result = some (.ok ()) ∧
        ∃ sent, now.sender = .finished sent ∧ result = sent.mapError .io
  | .blocking =>
    (∃ error, now.sender = .finished (.error error) ∧ result = .error (.io error)) ∨
      now.sender = .finished (.ok ()) ∧
        ∃ received, now.receiver.result = some received ∧ result = joined received

/-- What the caller knows at each of the places where it may stand. -/
structure Calling (now : Sending σ) : Prop where
  spawned : now.call = .spawn → now.caller = .joinSender → now.receiver.result = some (.ok ())
  blocking : now.call = .blocking → now.Blocking
  told : ∀ result, now.caller = .returned result → now.Told result

/-- What has been told stays true while the ioctl and the receiver stay as they have ended. -/
theorem Told.of_kept {result : Outcome Unit} (told : now.Told result)
    (call : after.call = now.call)
    (sender : ∀ sent, now.sender = .finished sent → after.sender = .finished sent)
    (receiver : ∀ received, now.receiver.result = some received →
      after.receiver.result = some received) : after.Told result := by
  -- What was told is made from the two results, of which each is kept.
  unfold Told at told ⊢
  rw [call]
  cases kind : now.call with
  | spawn =>
    rw [kind] at told
    rcases told with ⟨failure, received, returned, same⟩ | ⟨returned, sent, finished, same⟩
    · exact Or.inl ⟨failure, received, receiver received returned, same⟩
    · exact Or.inr ⟨receiver _ returned, sent, sender sent finished, same⟩
  | blocking =>
    rw [kind] at told
    rcases told with ⟨error, finished, same⟩ | ⟨finished, received, returned, same⟩
    · exact Or.inl ⟨error, sender _ finished, same⟩
    · exact Or.inr ⟨sender _ finished, received, receiver received returned, same⟩

/-- A step that leaves the caller alone leaves what it knows true. -/
theorem Calling.of_kept (calling : now.Calling) (call : after.call = now.call)
    (caller : after.caller = now.caller)
    (sender : ∀ sent, now.sender = .finished sent → after.sender = .finished sent)
    (receiver : ∀ received, now.receiver.result = some received →
      after.receiver.result = some received) : after.Calling := by
  -- What the caller knows is about the two results.
  refine ⟨fun spawn joins => ?_, fun kind => ?_, fun result returned => ?_⟩
  · exact receiver _ (calling.spawned (call ▸ spawn) (caller ▸ joins))
  · have blocking := calling.blocking (call ▸ kind)
    exact ⟨kind, fun joins => sender _ (blocking.joins (caller ▸ joins)),
      caller ▸ blocking.waits⟩
  · exact (calling.told result (caller ▸ returned)).of_kept call sender receiver

/-- What joining the receiver returns without an error is what it has returned. -/
theorem joined_ok {received : Outcome Unit} (fine : joined received = .ok ()) :
    received = .ok () := by
  -- A panic is turned into another one, and everything else is left alone.
  unfold joined at fine
  split at fine
  · cases fine
  · exact fine

/-- What the caller of a spawned send does: it joins the receiver first, and then the ioctl. -/
theorem spawnStep_cases (spawn : now.call = .spawn) (stepped : now.callerStep = some after) :
    after.caller = .joinReceiver ∨
      (∃ failure received, now.receiver.result = some received ∧
        joined received = .error failure ∧ after.caller = .returned (.error failure)) ∨
      (now.receiver.result = some (.ok ()) ∧ after.caller = .joinSender) ∨
      (now.caller = .joinSender ∧ ∃ sent, now.sender = .finished sent ∧
        after.caller = .returned (sent.mapError .io)) := by
  -- One case for each of the places where the caller may stand.
  unfold callerStep at stepped
  rw [spawn] at stepped
  cases stands : now.caller with
  | busy =>
    rw [stands] at stepped
    cases stepped
    exact Or.inl rfl
  | joinReceiver =>
    rw [stands] at stepped
    simp only at stepped
    split at stepped
    · cases stepped
    · rename_i received returned
      split at stepped
      · rename_i failure failed
        cases stepped
        exact Or.inr (Or.inl ⟨failure, received, returned, failed, rfl⟩)
      · rename_i fine
        cases stepped
        exact Or.inr (Or.inr (Or.inl ⟨by rw [returned, joined_ok fine], rfl⟩))
  | joinSender =>
    rw [stands] at stepped
    simp only at stepped
    split at stepped
    · rename_i sent finished
      cases stepped
      exact Or.inr (Or.inr (Or.inr ⟨rfl, sent, finished, rfl⟩))
    · cases stepped
  | returned result =>
    rw [stands] at stepped
    cases stepped

/-- The caller goes by what it finds when it joins. -/
theorem Calling.callerStep (crc : Bytes → UInt32) (handler : HandleCmd σ) (calling : now.Calling)
    (stepped : now.callerStep = some after) : after.Calling := by
  obtain ⟨call, _, sender, receiver⟩ := callerStep_frame stepped
  cases kind : now.call with
  | spawn =>
    have still : after.call = .spawn := call.trans kind
    refine ⟨fun _ joins => ?_, fun blocking => (by cases still.symm.trans blocking),
      fun result returned => ?_⟩
    · rw [receiver]
      rcases spawnStep_cases kind stepped with
        stands | ⟨_, _, _, _, stands⟩ | ⟨fine, _⟩ | ⟨_, _, _, stands⟩
      · cases stands.symm.trans joins
      · cases stands.symm.trans joins
      · exact fine
      · cases stands.symm.trans joins
    · rw [Told, still]
      simp only [sender, receiver]
      rcases spawnStep_cases kind stepped with
        stands | ⟨failure, received, finished, failed, stands⟩ | ⟨_, stands⟩ |
          ⟨joins, sent, finished, stands⟩
      · cases stands.symm.trans returned
      · cases stands.symm.trans returned
        exact Or.inl ⟨failure, received, finished, failed, rfl⟩
      · cases stands.symm.trans returned
      · cases stands.symm.trans returned
        exact Or.inr ⟨calling.spawned kind joins, sent, finished, rfl⟩
  | blocking =>
    have still : after.call = .blocking := call.trans kind
    have blocking := calling.blocking kind
    have stays : (system crc handler).step .caller now = some after := stepped
    refine ⟨fun spawn => (by cases still.symm.trans spawn), fun _ => blocking.step stays,
      fun result returned => ?_⟩
    -- It has the error of the ioctl, or what it has joined.
    rw [Told, still]
    simp only [sender, receiver]
    exact blocking.returns_cases ⟨after, stepped, returned⟩

/-- Every step keeps what the caller knows. -/
theorem Calling.step {party : Party} (calling : now.Calling)
    (stepped : (system crc handler).step party now = some after) : after.Calling := by
  cases party with
  | sender =>
    have wrote : now.senderStep = some after := stepped
    obtain ⟨call, caller, receiver⟩ := senderStep_frame wrote
    refine calling.of_kept call caller (fun sent finished => ?_) fun received returned => ?_
    · cases (senderStep_finished finished).symm.trans wrote
    · rw [receiver]
      exact returned
  | caller => exact calling.callerStep crc handler stepped
  | receiver actor =>
    obtain ⟨call, sender, caller⟩ := receiverStep_frame stepped
    refine calling.of_kept call caller (fun sent finished => ?_) fun received returned => ?_
    · rw [sender]
      exact finished
    · -- A receiver that has returned takes no step.
      cases (receiverStep_going stepped).symm.trans returned

/-- No step changes which of the two functions was called. -/
theorem step_call {party : Party} (stepped : (system crc handler).step party now = some after) :
    after.call = now.call := by
  -- It is no part of what a step writes.
  cases party with
  | sender => exact (senderStep_frame stepped).1
  | caller => exact (callerStep_frame stepped).1
  | receiver actor => exact (receiverStep_frame stepped).1

/-- What the caller knows in every state of a send, whichever of the two functions it is. -/
theorem run_calling {builder : SendBuilder} {kernel : SendKernel} {call : SendCall} {state : σ}
    {first : Sending σ} (begun : builder.begins kernel call state = .ok first)
    (schedule : List Party) :
    ((system crc handler).run schedule first).call = call ∧
      ((system crc handler).run schedule first).Calling := by
  obtain ⟨room, _, rfl⟩ := SendBuilder.begins_sending begun
  constructor
  · exact (system crc handler).run_invariant
      (fun _ _ _ same stepped => (step_call stepped).trans same) schedule rfl
  · -- At first the caller has joined nothing.
    refine (system crc handler).run_invariant (fun _ _ _ calling stepped => calling.step stepped)
      schedule ⟨nofun, fun blocking => ⟨blocking, nofun, nofun⟩, nofun⟩

end Sending

/--
What a send with an unbuffered handler returns, for what reading its stream comes to.

A handler that stops early leaves a part of the stream over, and then the pipe may break under it.
-/
def SendCall.Yields (call : SendCall) (read : Outcome Unit × Bytes) (ioctl : Except IoError Unit)
    (result : Outcome Unit) : Prop :=
  match call with
  -- The receiver is joined first, and the ioctl behind it.
  | .spawn =>
    if read.1 = .ok () then
      result = ioctl.mapError .io ∨ read.2 ≠ [] ∧ result = .error (.io (.os epipe))
    else result = joined read.1
  | .blocking =>
    (match ioctl with
      | .error error => result = .error (.io error)
      | .ok () => result = joined read.1) ∨
      read.2 ≠ [] ∧ result = .error (.io (.os epipe))

/--
Whatever the order of the steps is, what a send with an unbuffered handler returns is decided by
the ioctl and by what reading all that this writes comes to, up to a broken pipe.
-/
theorem plain_send_yields {σ : Type} (crc : Bytes → UInt32) (handler : HandleCmd σ)
    (builder : SendBuilder) (plain : builder.buffered = false) (kernel : SendKernel)
    (call : SendCall) (state : σ) (first : Sending σ)
    (begun : builder.begins kernel call state = .ok first) (schedule : List Party)
    (result : Outcome Unit)
    (returned : ((Sending.system crc handler).run schedule first).caller = .returned result) :
    call.Yields
      (readingEnds (readAndHandle crc handler (.new (kernel.send builder.args).1 none) state))
      (btrfsIoctl (kernel.send builder.args).2) result := by
  obtain ⟨delivered, rest, whole, piped⟩ :=
    @Sending.run_flows σ crc handler builder kernel call state first begun schedule
  obtain ⟨kind, calling⟩ :=
    @Sending.run_calling σ crc handler builder kernel call state first begun schedule
  have told := calling.told result returned
  generalize (Sending.system crc handler).run schedule first = now at whole piped kind told
  have reached := piped.receiver
  rw [← whole, plain] at reached
  rw [List.append_assoc] at whole
  have receives : ∀ received, now.receiver.result = some received → _ := fun received ended =>
    Receiving.reached_result whole reached ended
  generalize readingEnds (readAndHandle crc handler (.new (kernel.send builder.args).1 none) state)
    = read at receives ⊢
  generalize (kernel.send builder.args).2 = ioctl at piped ⊢
  -- An ioctl that has finished has its own result, or a pipe that broke before it was done.
  have sent_cases : ∀ sent, now.sender = .finished sent →
      sent = btrfsIoctl ioctl ∨ read.2 ≠ [] ∧ sent = .error (.os epipe) := by
    intro sent finished
    rcases piped.sender with stands | ⟨stands, _⟩ | ⟨stands, more, ended⟩
    · cases finished.symm.trans stands
    · cases finished.symm.trans stands
      exact Or.inl rfl
    · cases finished.symm.trans stands
      obtain ⟨received, ended⟩ := Option.isSome_iff_exists.mp ended
      exact Or.inr ⟨(receives received ended).2 (List.append_ne_nil_of_right_ne_nil _ more), rfl⟩
  unfold Sending.Told at told
  rw [kind] at told
  cases call with
  | spawn =>
    simp only [SendCall.Yields]
    rcases told with ⟨failure, received, ended, failed, rfl⟩ | ⟨ended, sent, finished, rfl⟩
    · rw [← (receives received ended).1, ← failed, if_neg]
      intro fine
      rw [fine] at failed
      cases failed
    · rw [← (receives _ ended).1, if_pos rfl]
      exact (sent_cases sent finished).imp (fun same => by rw [same]) fun ⟨left, same⟩ =>
        ⟨left, by rw [same]; rfl⟩
  | blocking =>
    simp only [SendCall.Yields]
    rcases told with ⟨error, finished, rfl⟩ | ⟨finished, received, ended, rfl⟩
    · rcases sent_cases _ finished with same | ⟨left, same⟩
      · exact Or.inl (by rw [← same])
      · exact Or.inr ⟨left, by rw [Except.error.inj same]⟩
    · rcases sent_cases _ finished with same | ⟨_, impossible⟩
      · refine Or.inl ?_
        rw [← same, (receives received ended).1]
      · cases impossible

section Declining

variable {frame : Frame} (fits : frame.Fits) (rest : List Frame)
include fits

/-- The first command of a stream is read behind its header. -/
theorem readCmd_plainStream :
    ∃ opened filled, readHeader (.new (Buffered.plainStream (frame :: rest)) none) = .ok () opened ∧
      readCmd (fun _ => 0) opened = .ok () filled ∧ filled.payload = .ok frame.payload ∧
      filled.reader = rest.flatMap (Frame.bytes fun _ => 0) := by
  -- The header is taken off, and then the frame.
  have header := readHeader_takeHeader (Buffered.plainStream (frame :: rest)) none
  rw [Buffered.plainStream, takeHeader_bytes (by decide)] at header
  obtain ⟨opened, read, ready, reader, _, _⟩ := header
  rw [List.flatMap_cons] at reader
  obtain ⟨filled, taken, holds⟩ := readCmd_bytes (fun _ => 0) ready fits reader
  exact ⟨opened, filled, read, taken, holds.payload, holds.reader⟩

/-- A handler that declines stops the reading of a stream behind its first command. -/
theorem readingEnds_declining :
    readingEnds (readAndHandle (fun _ => 0) Buffered.decliningHandler
        (.new (Buffered.plainStream (frame :: rest)) none) ()) =
      (.ok (), rest.flatMap (Frame.bytes fun _ => 0)) := by
  -- The loop makes one call, which ends it.
  obtain ⟨opened, filled, read, taken, payload, reader⟩ := readCmd_plainStream fits rest
  rw [readingEnds_ok _ _ _ read, handleLoop_ok taken payload, ← reader]
  rfl

/-- An unbuffered receive that has one command and no more is stopped by it as well. -/
theorem alone_declining :
    (receiveStream (fun _ => 0) Buffered.decliningHandler).alone.run [.main, .main]
      ((Receiving.start false ()).give (Buffered.plainStream [frame])) = .done (.ok ()) := by
  obtain ⟨opened, filled, read, taken, payload, _⟩ := readCmd_plainStream fits []
  -- The one command is handed over, and the handler wants no other.
  have stops : (receiveStream (fun _ => 0) Buffered.decliningHandler).alone.step .main
      (.plain opened ()) = some (.done (.ok ())) := by
    rw [Consumer.alone_moves]
    simp only [receiveStream, Receiving.step, Receiving.round, taken, payload,
      Buffered.decliningHandler]
  rw [System.run_step _ (Receiving.alone_opens (Receiving.opens_plain read ())),
    System.run_step _ stops]
  rfl

end Declining

/-- A kernel that writes a stream of two commands. -/
def twoCommands : SendKernel :=
  openKernel (Buffered.plainStream [Buffered.rmdirFrame, Buffered.endFrame]) (.ok ())

/-- What it writes, for the second command behind the first one. -/
theorem twoCommands_split (builder : SendBuilder) :
    (twoCommands.send builder.args).1 =
      Buffered.plainStream [Buffered.rmdirFrame] ++ Buffered.endFrame.bytes fun _ => 0 := by
  -- A stream is its header and its frames in a row.
  simp [twoCommands, openKernel, Buffered.plainStream]

/-- A handler that stops behind the first of two commands breaks the pipe, which is returned. -/
theorem plain_send_yields_declining :
    ∃ first schedule, SendBuilder.begins ⟨false, 1, 0⟩ twoCommands .blocking () = .ok first ∧
      ((Sending.system (fun _ => 0) Buffered.decliningHandler).run schedule first).receiver =
        .done (.ok ()) ∧
      ((Sending.system (fun _ => 0) Buffered.decliningHandler).run schedule first).caller =
        .returned (.error (.io (.os epipe))) ∧
      SendCall.blocking.Yields (.ok (), Buffered.endFrame.bytes fun _ => 0) (.ok ())
        (.error (.io (.os epipe))) := by
  obtain ⟨schedule, left, receiver, ran, same⟩ := @Sending.run_alone Unit (fun _ => 0)
    Buffered.decliningHandler ⟨false, 1, 0⟩ twoCommands .blocking
    (SendBuilder.pipeSz ⟨false, 1, 0⟩) () (by decide) _ _ (twoCommands_split _) [.main, .main]
  have stopped := Receiving.done_of_give (same.trans (alone_declining (by decide)))
  -- The second command is still to be written when the receive has ended.
  obtain ⟨byte, others, more⟩ := List.exists_cons_of_ne_nil
    (List.append_ne_nil_of_right_ne_nil left
      (show (Buffered.endFrame.bytes fun _ => 0) ≠ [] by decide))
  have ends : ∃ after, (Sending.system (fun _ => 0) Buffered.decliningHandler).run
      (schedule ++ [.sender, .caller]) (SendBuilder.sending ⟨false, 1, 0⟩ twoCommands .blocking
        (SendBuilder.pipeSz ⟨false, 1, 0⟩) ()) = after ∧ after.receiver = .done (.ok ()) ∧
      after.caller = .returned (.error (.io (.os epipe))) := by
    rw [System.run_append, ran, more, stopped]
    exact ⟨_, rfl, rfl, rfl⟩
  obtain ⟨after, rfl, received, returned⟩ := ends
  have yields := plain_send_yields (fun _ => 0) Buffered.decliningHandler ⟨false, 1, 0⟩ rfl
    twoCommands .blocking () _ rfl _ _ returned
  refine ⟨_, _, rfl, received, returned, ?_⟩
  rw [twoCommands, openKernel, readingEnds_declining (by decide)] at yields
  exact yields

end Libbtrfs
