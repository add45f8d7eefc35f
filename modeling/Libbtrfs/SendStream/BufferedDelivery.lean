import Libbtrfs.SendStream.BufferedSchedules

/-! Which schedules of the buffered receiver hand every frame of a valid stream to the handler. -/

namespace Libbtrfs

/-- A handler that answers every call without an error. -/
def HandleCmd.Accepts {σ : Type} (handle : HandleCmd σ) : Prop :=
  ∀ command payload version state, ∃ goes, (handle command payload version state).1 = .ok goes

/-- A handler that accepts every frame does not panic. -/
theorem HandleCmd.Accepts.calm {σ : Type} {handle : HandleCmd σ} (accepts : handle.Accepts) :
    handle.Calm := by
  -- A handler that always answers without an error has no answer that panics.
  intro command payload version state panics
  obtain ⟨goes, answered⟩ := accepts command payload version state
  rw [answered] at panics
  exact Outcome.not_panics_ok _ panics

/-- A stream of the given version with one frame of the last command, at its end. -/
structure Valid (crc : Bytes → UInt32) (version : UInt32) (body : List Frame) (last : Frame)
    (input : Bytes) : Prop where
  supported : version ≤ supportedVersion
  inside : ∀ frame ∈ body, frame.command ≠ SendCmd.key EndCmd
  ends : last.command = SendCmd.key EndCmd
  fits : ∀ frame ∈ body ++ [last], frame.Fits
  written : input = streamHeader version ++ (body ++ [last]).flatMap (Frame.bytes crc)

/-- Frames that were written one after the other are taken off one after the other. -/
theorem frames_flatMap (crc : Bytes → UInt32) {written : List Frame}
    (fits : ∀ frame ∈ written, frame.Fits) :
    frames crc (written.flatMap (Frame.bytes crc)) = written := by
  -- The first frame is taken off whole, and what it leaves is the bytes of the others.
  induction written with
  | nil =>
    have nothing : takeFrame crc [] = .error (.io (.kind .unexpectedEof)) := rfl
    exact frames_error nothing
  | cons frame rest ih =>
    have taken := takeFrame_bytes crc (fits frame List.mem_cons_self)
      (rest.flatMap (Frame.bytes crc))
    rw [List.flatMap_cons, frames_ok taken,
      ih fun other member => fits other (List.mem_cons_of_mem _ member)]

/-- The calls of a valid stream are those of its frames. -/
theorem Valid.streamCalls {crc : Bytes → UInt32} {version : UInt32} {body : List Frame}
    {last : Frame} {input : Bytes} (valid : Valid crc version body last input) :
    Buffered.streamCalls crc input = (body ++ [last]).map (Frame.call version) := by
  -- The header is taken off, and the frames behind it are those that were written.
  rw [valid.written, Buffered.streamCalls, takeHeader_bytes valid.supported]
  simp only
  rw [frames_flatMap crc valid.fits]

/-- Calls up to one of the last command are all calls, where only the last of all is such a one. -/
theorem all_of_last {front before unread : List Call} {final call : Call}
    (inside : ∀ earlier ∈ front, earlier.command ≠ SendCmd.key EndCmd)
    (ended : call.command = SendCmd.key EndCmd)
    (split : front ++ [final] = before ++ [call] ++ unread) : unread = [] := by
  rcases List.eq_nil_or_concat' unread with nothing | ⟨others, last, tail⟩
  · exact nothing
  · -- Otherwise the last command would stand in front of the last frame.
    rw [tail, ← List.append_assoc] at split
    obtain ⟨same, _⟩ := List.append_inj' split rfl
    have member : call ∈ front := by
      rw [same]
      simp
    exact absurd ended (inside call member)

/-- The frames up to the first one for which the handler does not ask for another. -/
def HandleCmd.throughNone {σ : Type} (handle : HandleCmd σ) (version : UInt32) :
    List Frame → σ → List Frame
  | [], _ => []
  | frame :: rest, state =>
    match handle frame.command frame.payload version state with
    | (.ok (some ()), state) => frame :: handle.throughNone version rest state
    | _ => [frame]

/-- The handler asks for another command after each of the frames. -/
def HandleCmd.Wants {σ : Type} (handle : HandleCmd σ) (version : UInt32) :
    List Frame → σ → Prop
  | [], _ => True
  | frame :: rest, state =>
    (handle frame.command frame.payload version state).1 = .ok (some ()) ∧
      handle.Wants version rest (handle frame.command frame.payload version state).2

/-- A handler gets through to the last frame exactly if it asks for another one up to there. -/
theorem HandleCmd.throughNone_eq_iff {σ : Type} (handle : HandleCmd σ) (version : UInt32)
    (body : List Frame) (last : Frame) (state : σ) :
    handle.throughNone version (body ++ [last]) state = body ++ [last] ↔
      handle.Wants version body state := by
  -- The handler is followed along the frames, with the state it has there.
  induction body generalizing state with
  | nil =>
    refine ⟨fun _ => trivial, fun _ => ?_⟩
    simp only [List.nil_append, throughNone]
    split
    · rfl
    · rfl
  | cons frame rest ih =>
    simp only [List.cons_append, throughNone, Wants]
    cases answered : handle frame.command frame.payload version state with
    | mk answer after =>
      cases answer with
      | error failure => simp
      | ok goes =>
        cases goes with
        | none => simp
        | some _ =>
          simp only [List.cons.injEq, true_and]
          exact ih after

/-- The reference reading calls a handler without errors for the frames up to the first `None`. -/
theorem decodeFrames_throughNone {σ : Type} (crc : Bytes → UInt32) {handle : HandleCmd σ}
    (accepts : handle.Accepts) (version : UInt32) (input : Bytes) (state : σ) :
    (decodeFrames crc handle version input state).calls =
      (handle.throughNone version (frames crc input) state).map (Frame.call version) := by
  -- The induction is on the frames of the input, up to the one that is refused.
  induction input using frames.induct crc generalizing state with
  | case1 input failure taken =>
    rw [decodeFrames_error taken, frames_error taken]
    rfl
  | case2 input frame rest taken ih =>
    rw [decodeFrames_ok taken, frames_ok taken, HandleCmd.throughNone]
    obtain ⟨goes, accepted⟩ := accepts frame.command frame.payload version state
    cases answered : handle frame.command frame.payload version state with
    | mk answer after =>
      rw [answered] at accepted
      simp only at accepted
      subst accepted
      cases goes with
      | none => rfl
      | some _ =>
        simp only [ih after, List.map_cons]

/-- A call tells which frame it was made for. -/
theorem Frame.call_injective (version : UInt32) : Function.Injective (Frame.call version) := by
  -- A call has all the fields of its frame.
  intro one other same
  cases one
  cases other
  simp only [Frame.call, Call.mk.injEq, and_true] at same
  rw [same.1, same.2]

/-- The unbuffered receive calls a handler without errors up to its first `None`. -/
theorem unbuffered_calls {σ : Type} (crc : Bytes → UInt32) {handle : HandleCmd σ}
    (accepts : handle.Accepts) {version : UInt32} {body : List Frame} {last : Frame}
    {input : Bytes} (valid : Valid crc version body last input) (atomicPos : Option Nat)
    (state : σ) :
    (readAndHandle crc handle.recording (.new input atomicPos) (state, [])).2.2.2 =
      (handle.throughNone version (body ++ [last]) state).map (Frame.call version) := by
  -- The loop records what the decoder calls, and that is the frames up to a stop.
  have header : takeHeader input =
      .ok (version, (body ++ [last]).flatMap (Frame.bytes crc)) := by
    rw [valid.written]
    exact takeHeader_bytes valid.supported _
  rw [(readAndHandle_decodeWith crc handle.recording input atomicPos (state, [])).2, decode_recording,
    decode, header]
  simp only
  rw [decodeFrames_throughNone crc accepts, frames_flatMap crc valid.fits]

namespace Buffered

variable {σ : Type} {nbuf : Nat}

/--
The step with which the handler thread loses packets.

It tests whether the reader has gone, and does not look into the ring again, although the reader
has pushed a packet and dropped its end of the ring since the thread found the ring empty.
-/
def Loses (actor : Actor) (now : Buffered σ nbuf) : Prop :=
  actor = .thread ∧ (∃ spins, now.thread = .test spins) ∧ now.data.abandoned = true ∧
    now.data.items ≠ []

/-- The handler thread has left its loop. -/
def ThreadLeft (now : Buffered σ nbuf) : Prop :=
  ∃ panicked, now.thread = .leave panicked ∨ now.thread = .done panicked

/-- What holds in every state as long as no packets are lost and the handler accepts everything. -/
structure Lossless (crc : Bytes → UInt32) (all : List Call) (now : Buffered σ nbuf) : Prop where
  sound : now.Sound crc all
  clean : NoErrors now.calls
  drained : now.ThreadLeft → now.data.items = [] ∧ now.data.abandoned = true
  quiet : ¬ now.main.Panicked

/-- The reader keeps an exchange lossless. -/
theorem Lossless.mainStep {crc : Bytes → UInt32} {all : List Call} {now after : Buffered σ nbuf}
    (lossless : now.Lossless crc all) (step : MainStep crc now after) :
    after.Lossless crc all := by
  obtain ⟨thread, calls, _, _⟩ := step.frame
  -- As long as the reader steps it has not gone, so the thread is in its loop.
  have looping : ¬ now.ThreadLeft := by
    intro left
    obtain ⟨result, done⟩ := lossless.sound.dataGone.mp (lossless.drained left).2
    exact step.not_done result done
  refine ⟨lossless.sound.mainStep step, ?_, ?_, ?_⟩
  · rw [calls]
    exact lossless.clean
  · rw [ThreadLeft, thread]
    intro left
    exact absurd left looping
  · intro panicked
    rcases lossless.sound.panic_origin step panicked with before | ⟨_, gone⟩
    · exact lossless.quiet before
    · obtain ⟨ended, done⟩ := lossless.sound.freeGone.mp gone
      exact looping ⟨ended, Or.inr done⟩

/-- A thread that stands anywhere else has not left its loop. -/
private theorem going_on {now : Buffered σ nbuf} {thread : ThreadPc}
    (going : ∀ panicked, thread ≠ .leave panicked) (still : ∀ panicked, thread ≠ .done panicked)
    (stands : now.thread = thread) : ¬ now.ThreadLeft := by
  -- The thread stands at one place only.
  intro ⟨panicked, left⟩
  rcases left with leaving | done
  · exact going panicked (stands.symm.trans leaving)
  · exact still panicked (stands.symm.trans done)

/-- The handler thread keeps an exchange lossless, unless it takes the step that loses packets. -/
theorem Lossless.threadStep {crc : Bytes → UInt32} {all : List Call} {handle : HandleCmd σ}
    (accepts : handle.Accepts) {now after : Buffered σ nbuf} (lossless : now.Lossless crc all)
    (keeps : ¬ Loses .thread now) (step : ThreadStep handle now after) :
    after.Lossless crc all := by
  have sound := lossless.sound.threadStep accepts.calm step
  have quiet : ¬ after.main.Panicked := by
    rw [step.frame.1]
    exact lossless.quiet
  cases step with
  | take _ _ | spin _ _ _ | doubt _ _ _ | wait _ _ | giveBack _ _ =>
    -- The thread goes on, and no call was answered.
    exact ⟨sound, lossless.clean, fun left => absurd left (going_on (by simp) (by simp) rfl), quiet⟩
  | quit stands gone =>
    -- The reader has gone, and the step is not the one that leaves packets behind.
    have empty : now.data.items = [] := by
      by_contra held
      exact keeps ⟨rfl, ⟨_, stands⟩, gone, held⟩
    exact ⟨sound, lossless.clean, fun _ => ⟨empty, gone⟩, quiet⟩
  | slice _ _ | panic _ _ _ =>
    -- The invariant behind the step knows that the thread does not leave with a panic.
    have stopped := sound.thread
    rw [ThreadHolds] at stopped
    cases stopped.1
  | refuse stands inside answered =>
    -- The handler accepts every call.
    rename_i packet payload error handler
    obtain ⟨goes, accepted⟩ := accepts packet.command payload now.version now.handler
    rw [answered] at accepted
    cases accepted
  | accept stands inside answered =>
    exact ⟨sound, lossless.clean.accepted _ _,
      fun left => absurd left (going_on (by simp) (by simp) rfl), quiet⟩
  | report stands pushed =>
    have held := lossless.sound.thread
    rw [ThreadHolds, stands] at held
    exact absurd (lossless.clean.not_erred held.1) id
  | full stands full =>
    have room := lossless.sound.free_room stands
    have none_left := Ring.push_none full
    omega
  | leave stands =>
    have drained := lossless.drained ⟨_, Or.inl stands⟩
    exact ⟨sound, lossless.clean, fun _ => drained, quiet⟩

/-- Where the two processes start, nothing is lost yet. -/
theorem start_lossless (crc : Bytes → UInt32) {bufCountArgs : Nat} {input : Bytes}
    {atomicPos : Option Nat} {state : σ} {first : Buffered σ (clampBufs bufCountArgs)}
    (started : start bufCountArgs (.new input atomicPos) state = .ok first) :
    first.Lossless crc (streamCalls crc input) := by
  -- At the start neither process has left its loop, and nothing was called.
  obtain ⟨version, rest, _, fresh⟩ := start_fresh started
  refine ⟨start_sound crc started, ?_, ?_, ?_⟩
  · rw [fresh.calls]
    intro entry member
    cases member
  · intro ⟨panicked, left⟩
    rw [fresh.thread] at left
    rcases left with leaving | done
    · cases leaving
    · cases done
  · intro ⟨message, ended⟩
    rw [fresh.main] at ended
    rcases ended with leaving | done
    · cases leaving
    · cases done

/-- A schedule without a losing step reaches lossless states only. -/
theorem lossless_run (crc : Bytes → UInt32) {handle : HandleCmd σ} (accepts : handle.Accepts)
    {bufCountArgs : Nat} {input : Bytes} {atomicPos : Option Nat} {state : σ}
    {first : Buffered σ (clampBufs bufCountArgs)}
    (started : start bufCountArgs (.new input atomicPos) state = .ok first)
    (schedule : List Actor) (keeps : (system crc handle).Avoids Loses schedule first) :
    ((system crc handle).run schedule first).Lossless crc (streamCalls crc input) := by
  -- No step of the run loses a packet, so each of them keeps the invariant.
  refine (system crc handle).run_invariant_avoiding ?_ schedule (start_lossless crc started) keeps
  intro actor now after held keeping stepped
  cases actor with
  | main => exact held.mainStep ((mainStep_iff crc now after).mp stepped)
  | thread => exact held.threadStep accepts keeping ((threadStep_iff handle now after).mp stepped)

/-- When nothing was lost and both processes have gone, every frame of a valid stream was called. -/
theorem Lossless.complete {crc : Bytes → UInt32} {version : UInt32} {body : List Frame}
    {last : Frame} {input : Bytes} (valid : Valid crc version body last input)
    {now : Buffered σ nbuf} (lossless : now.Lossless crc (streamCalls crc input))
    {result : Outcome Unit} (finished : now.returned = some result) :
    result = .ok () ∧ now.calls.map Prod.fst = (body ++ [last]).map (Frame.call version) := by
  obtain ⟨reader, thread⟩ := lossless.sound.returned finished
  have drained := (lossless.drained ⟨false, Or.inr thread⟩).1
  have sent := sent_done reader thread
  rw [drained, List.map_nil, List.append_nil] at sent
  obtain ⟨unread, split, holds⟩ := lossless.sound.order
  rw [MainHolds, reader] at holds
  have inside : ∀ call ∈ body.map (Frame.call version), call.command ≠ SendCmd.key EndCmd := by
    intro call member
    obtain ⟨frame, found, same⟩ := List.mem_map.mp member
    rw [← same]
    exact valid.inside frame found
  rw [valid.streamCalls] at split
  cases result with
  | ok _ =>
    simp only [Ended] at holds
    obtain ⟨before, call, whole, ended, _⟩ := holds
    have shape : body.map (Frame.call version) ++ [last.call version] =
        before ++ [call] ++ unread := by
      rw [← whole, ← split, List.map_append, List.map_singleton]
    have nothing := all_of_last inside ended shape
    rw [nothing, List.append_nil] at split
    exact ⟨rfl, sent.symm.trans split.symm⟩
  | error failure =>
    cases failure with
    | io error =>
      -- Neither an error of the handler nor one of the reader is possible here.
      rcases holds with ⟨erred, _⟩ | ⟨nothing, more⟩
      · exact absurd (lossless.clean.not_erred erred) id
      · rw [nothing, List.append_nil] at split
        have member : last.call version ∈ now.sent := by
          rw [← split]
          simp
        exact absurd valid.ends (more _ member)
    | panic message => exact absurd ⟨message, Or.inr reader⟩ lossless.quiet

/-- The handler thread has left its loop although there are packets in the ring. -/
def Lost (now : Buffered σ nbuf) : Prop :=
  now.ThreadLeft ∧ now.data.items ≠ [] ∧ ∃ result, now.main = .done result

/-- Packets that are lost stay lost. -/
theorem Lost.run (crc : Bytes → UInt32) (handle : HandleCmd σ) {now : Buffered σ nbuf}
    (lost : now.Lost) (schedule : List Actor) : ((system crc handle).run schedule now).Lost := by
  refine (system crc handle).run_invariant ?_ schedule lost
  intro actor now after held stepped
  obtain ⟨⟨panicked, left⟩, items, result, done⟩ := held
  cases actor with
  | main => exact absurd done (((mainStep_iff crc now after).mp stepped).not_done result)
  | thread =>
    have step := (threadStep_iff handle now after).mp stepped
    -- Of its steps the thread can take only the last one, which touches no packet.
    cases step with
    | leave stands => exact ⟨⟨_, Or.inr rfl⟩, items, result, done⟩
    | take stands _ | spin stands _ _ | doubt stands _ _ | quit stands _ | wait stands _
    | slice stands _ | panic stands _ _ | refuse stands _ _ | accept stands _ _
    | report stands _ | giveBack stands _ | full stands _ =>
      rw [stands] at left
      rcases left with leaving | gone
      · cases leaving
      · cases gone

/-- The losing step leaves packets behind that were sent. -/
theorem Loses.lost {crc : Bytes → UInt32} {all : List Call} (handle : HandleCmd σ)
    {actor : Actor} {now : Buffered σ nbuf} (sound : now.Sound crc all)
    (loses : Loses actor now) :
    ((system crc handle).turn actor now).Lost := by
  -- The step is the one with which the thread leaves an abandoned ring.
  obtain ⟨rfl, ⟨spins, stands⟩, gone, items⟩ := loses
  have moved : (system crc handle).step .thread now = some { now with thread := .leave false } :=
    (threadStep_iff handle now _).mpr (.quit stands gone)
  rw [System.turn, moved, Option.getD_some]
  exact ⟨⟨false, Or.inl rfl⟩, items, sound.dataGone.mp gone⟩

/-- A schedule after which every frame of a valid stream was called has no losing step. -/
theorem avoids_of_delivered {crc : Bytes → UInt32} {handle : HandleCmd σ}
    (accepts : handle.Accepts) {bufCountArgs : Nat} {version : UInt32} {body : List Frame}
    {last : Frame} {input : Bytes} (valid : Valid crc version body last input)
    {atomicPos : Option Nat} {state : σ} {first : Buffered σ (clampBufs bufCountArgs)}
    (started : start bufCountArgs (.new input atomicPos) state = .ok first)
    {schedule : List Actor} {result : Outcome Unit}
    (finished : ((system crc handle).run schedule first).returned = some result)
    (delivered : ((system crc handle).run schedule first).calls.map Prod.fst =
      (body ++ [last]).map (Frame.call version)) :
    (system crc handle).Avoids Loses schedule first := by
  by_contra hit
  obtain ⟨before, actor, behind, split, loses⟩ := (system crc handle).hits_of_not_avoids hit
  have reached := reachable_sound crc accepts.calm started before
  have lost := (loses.lost handle reached).run crc handle behind
  have whole : (system crc handle).run schedule first = (system crc handle).run behind
      ((system crc handle).turn actor ((system crc handle).run before first)) := by
    rw [split, (system crc handle).run_append]
    rfl
  rw [← whole] at lost
  -- What is left in the ring was sent and not called, so too little was called.
  have sound := reachable_sound crc accepts.calm started schedule
  obtain ⟨reader, thread⟩ := sound.returned finished
  obtain ⟨unread, order, _⟩ := sound.order
  have items := List.length_pos_of_ne_nil lost.2.1
  have lengths := congrArg List.length order
  have called := congrArg List.length delivered
  rw [valid.streamCalls, sent_done reader thread] at lengths
  simp only [List.length_append, List.length_map] at lengths called
  omega

/--
A buffered receive that returns `Ok` has handed over every frame of a valid stream, exactly if the
handler thread did not take the step that loses packets.
-/
theorem buffered_complete_iff {σ : Type} (crc : Bytes → UInt32) (handle : HandleCmd σ)
    (accepts : handle.Accepts) (bufCountArgs : Nat) (version : UInt32) (body : List Frame)
    (last : Frame) (input : Bytes) (valid : Valid crc version body last input)
    (atomicPos : Option Nat) (state : σ) (first : Buffered σ (clampBufs bufCountArgs))
    (started : start bufCountArgs (.new input atomicPos) state = .ok first)
    (schedule : List Actor)
    (finished : ((system crc handle).run schedule first).returned = some (.ok ())) :
    ((system crc handle).run schedule first).calls.map Prod.fst =
        (body ++ [last]).map (Frame.call version) ↔
      (system crc handle).Avoids Loses schedule first := by
  -- A run that loses a packet never gets it back, and one that loses none has all.
  refine ⟨avoids_of_delivered accepts valid started finished, fun keeps => ?_⟩
  exact ((lossless_run crc accepts started schedule keeps).complete valid finished).2

/-- Such a stream is valid if its last frame is the one of the last command. -/
theorem valid_plainStream {body : List Frame}
    (inside : ∀ frame ∈ body, frame.command ≠ SendCmd.key EndCmd)
    (fits : ∀ frame ∈ body ++ [endFrame], frame.Fits) :
    Valid (fun _ => 0) 2 body endFrame (plainStream (body ++ [endFrame])) where
  supported := by decide
  inside := inside
  ends := rfl
  fits := fits
  written := rfl

/-- The stream of the last command alone is valid. -/
theorem valid_endFrame : Valid (fun _ => 0) 2 [] endFrame (plainStream [endFrame]) :=
  valid_plainStream (by simp) (by decide)

/-- The eager handler takes every frame. -/
theorem eagerHandler_accepts : eagerHandler.Accepts := by
  -- What is returned does not depend on the frame.
  intro command payload version state
  exact ⟨some (), rfl⟩

/--
The handler thread finds its ring empty, the reader sends the last command and returns, and only
then the handler thread tests whether the reader is still there.
-/
def losingSchedule : List Actor :=
  (List.replicate threadMaxSpins Actor.thread ++ [Actor.thread]) ++
    ([Actor.main, Actor.main] ++ ([Actor.main] ++
      ([Actor.main, Actor.main] ++ [Actor.thread, Actor.thread])))

/-- With that schedule the receive returns `Ok`, and the handler was never called. -/
theorem losingSchedule_run_with (atomicPos : Option Nat) :
    ∃ first, start 2 (.new (plainStream [endFrame]) atomicPos) () = .ok first ∧
      ((system (fun _ => 0) eagerHandler).run losingSchedule first).returned = some (.ok ()) ∧
      ((system (fun _ => 0) eagerHandler).run losingSchedule first).calls = [] := by
  obtain ⟨first, filled, started, fresh, filledRead, _, more, last⟩ :=
    start_endFrame_with atomicPos ()
  refine ⟨first, started, ?_⟩
  rw [fresh.two_buffers, losingSchedule, System.run_append, run_threadDoubt, System.run_append,
    run_send _ _ more filledRead (room_one _), System.run_append]
  -- The further buffer is taken, the last command is seen, and the thread finds no reader.
  rw [run_take, System.run_append, run_finish, run_quit]
  · exact ⟨rfl, rfl⟩
  · exact last

/-- The reader returns, and the last command was not handed over. -/
private theorem losingSchedule_run :
    ∃ first, start 2 (.new (plainStream [endFrame]) none) () = .ok first ∧
      ((system (fun _ => 0) eagerHandler).run losingSchedule first).returned = some (.ok ()) ∧
      ((system (fun _ => 0) eagerHandler).run losingSchedule first).calls = [] :=
  losingSchedule_run_with none

/-- A receive of a valid stream that returns `Ok`, and never hands over the last command. -/
theorem losingSchedule_loses :
    Valid (fun _ => 0) 2 [] endFrame (plainStream [endFrame]) ∧ eagerHandler.Accepts ∧
      ∃ first, start 2 (.new (plainStream [endFrame]) none) () = .ok first ∧
        ((system (fun _ => 0) eagerHandler).run losingSchedule first).returned = some (.ok ()) ∧
        ((system (fun _ => 0) eagerHandler).run losingSchedule first).calls.map Prod.fst ≠
          [endFrame].map (Frame.call 2) := by
  -- The run was evaluated, and it ends without any call.
  obtain ⟨first, started, finished, calls⟩ := losingSchedule_run
  refine ⟨valid_endFrame, eagerHandler_accepts, first, started, finished, ?_⟩
  rw [calls]
  simp

/-- The schedule loses the last command, so that not all of the stream is delivered. -/
theorem buffered_complete_iff_losingSchedule :
    ∃ first, start 2 (.new (plainStream [endFrame]) none) () = .ok first ∧
      (((system (fun _ => 0) eagerHandler).run losingSchedule first).calls.map Prod.fst =
          ([] ++ [endFrame]).map (Frame.call 2) ↔
        (system (fun _ => 0) eagerHandler).Avoids Loses losingSchedule first) := by
  -- The run was evaluated, so the theorem applies to it.
  obtain ⟨first, started, finished, _⟩ := losingSchedule_run
  exact ⟨first, started, buffered_complete_iff (fun _ => 0) eagerHandler eagerHandler_accepts 2 2 []
    endFrame (plainStream [endFrame]) valid_endFrame none () first started losingSchedule finished⟩

/--
Buffered and unbuffered receive make the same calls of an accepting handler, if no packets are lost,
exactly for the handlers that ask for another command up to the last one.

The unbuffered receive calls the handler up to its first `None`, and the buffered one to the end.
For a handler that asks for every next command, only the losing step makes a difference.
-/
theorem buffered_calls_eq_iff {σ : Type} (crc : Bytes → UInt32) (handle : HandleCmd σ)
    (accepts : handle.Accepts) (bufCountArgs : Nat) (version : UInt32) (body : List Frame)
    (last : Frame) (input : Bytes) (valid : Valid crc version body last input)
    (atomicPos : Option Nat) (state : σ) (first : Buffered σ (clampBufs bufCountArgs))
    (started : start bufCountArgs (.new input atomicPos) state = .ok first)
    (schedule : List Actor) (result : Outcome Unit)
    (finished : ((system crc handle).run schedule first).returned = some result) :
    let unbuffered := readAndHandle crc handle.recording (.new input atomicPos) (state, [])
    let buffered := ((system crc handle).run schedule first).calls.map Prod.fst
    unbuffered.2.2.2 =
        (handle.throughNone version (body ++ [last]) state).map (Frame.call version) ∧
      ((system crc handle).Avoids Loses schedule first →
        (buffered = unbuffered.2.2.2 ↔ handle.Wants version body state)) ∧
      (handle.Wants version body state →
        (buffered = unbuffered.2.2.2 ↔ (system crc handle).Avoids Loses schedule first)) := by
  have calls := unbuffered_calls crc accepts valid atomicPos state
  have complete := fun keeps =>
    ((lossless_run crc accepts started schedule keeps).complete valid finished).2
  refine ⟨calls, ?_, ?_⟩
  · intro keeps
    rw [calls, complete keeps, ← handle.throughNone_eq_iff version body last state]
    -- A call determines its frame, so the lists of calls agree where those of the frames do.
    exact (List.map_injective_iff.mpr (Frame.call_injective version)).eq_iff.trans eq_comm
  · intro wants
    rw [calls, (handle.throughNone_eq_iff version body last state).mpr wants]
    exact ⟨avoids_of_delivered accepts valid started finished, complete⟩

/-- A stream of two commands is valid, too. -/
theorem valid_rmdirFrame :
    Valid (fun _ => 0) 2 [rmdirFrame] endFrame (plainStream [rmdirFrame, endFrame]) :=
  valid_plainStream (by decide) (by decide)

/-- A handler that never asks for another command. -/
def decliningHandler : HandleCmd Unit := fun _ _ _ state => (.ok none, state)

/-- The declining handler accepts every frame, although it declines to go on. -/
theorem decliningHandler_accepts : decliningHandler.Accepts := by
  -- What is returned does not depend on the frame.
  intro command payload version state
  exact ⟨none, rfl⟩

/-- Two frames are handed over, and the handler thread finds in good time that the reader has gone. -/
def patientSchedule : List Actor :=
  sendBoth ++ ([Actor.thread, Actor.thread, Actor.thread] ++ ([Actor.main] ++
    ([Actor.main, Actor.main] ++ ([Actor.thread, Actor.thread, Actor.thread] ++
      ((List.replicate threadMaxSpins Actor.thread ++ [Actor.thread]) ++
        [Actor.thread, Actor.thread])))))

/-- Both commands are handed over, although the handler declines to go on behind the first one. -/
private theorem patientSchedule_run :
    ∃ first, start 2 (.new (plainStream [rmdirFrame, endFrame]) none) () = .ok first ∧
      ((system (fun _ => 0) decliningHandler).run patientSchedule first).returned =
        some (.ok ()) ∧
      ((system (fun _ => 0) decliningHandler).run patientSchedule first).calls.map Prod.fst =
        [rmdirFrame, endFrame].map (Frame.call 2) := by
  obtain ⟨first, filled, ended, started, holds, holdsEnd, sent⟩ := run_sendBoth decliningHandler ()
  have last : ended.command = SendCmd.key EndCmd := holdsEnd.command
  refine ⟨first, started, ?_⟩
  rw [patientSchedule, System.run_append, sent, System.run_append,
    run_answer _ _ (by exact holds.slice) (by rfl) (room_one _), System.run_append]
  simp only [List.nil_append]
  -- With the first buffer back the reader sees that it has read the last command.
  rw [run_take, System.run_append, run_finish, System.run_append,
    run_answer _ _ (by exact holdsEnd.slice) (by rfl) (room_one _), System.run_append,
    run_threadDoubt, run_quit]
  · refine ⟨rfl, ?_⟩
    rw [holds.command, holdsEnd.command]
    rfl
  · exact last

/-- The buffered receive calls a handler again that has asked for no more commands. -/
theorem patientSchedule_differs :
    Valid (fun _ => 0) 2 [rmdirFrame] endFrame (plainStream [rmdirFrame, endFrame]) ∧
      decliningHandler.Accepts ∧
      ∃ first, start 2 (.new (plainStream [rmdirFrame, endFrame]) none) () = .ok first ∧
        ((system (fun _ => 0) decliningHandler).run patientSchedule first).returned =
          some (.ok ()) ∧
        (system (fun _ => 0) decliningHandler).Avoids Loses patientSchedule first ∧
        ((system (fun _ => 0) decliningHandler).run patientSchedule first).calls.map Prod.fst ≠
          (readAndHandle (fun _ => 0) decliningHandler.recording
            (.new (plainStream [rmdirFrame, endFrame]) none) ((), [])).2.2.2 := by
  -- The run was evaluated, and it calls the handler behind the refusal too.
  obtain ⟨first, started, finished, calls⟩ := patientSchedule_run
  refine ⟨valid_rmdirFrame, decliningHandler_accepts, first, started, finished, ?_, ?_⟩
  · exact avoids_of_delivered decliningHandler_accepts valid_rmdirFrame started finished calls
  · rw [calls, unbuffered_calls _ decliningHandler_accepts valid_rmdirFrame none ()]
    decide

/-- Without the handler thread only the first one is handed over. -/
theorem buffered_calls_eq_iff_patientSchedule :
    ∃ first, start 2 (.new (plainStream [rmdirFrame, endFrame]) none) () = .ok first ∧
      (readAndHandle (fun _ => 0) decliningHandler.recording
          (.new (plainStream [rmdirFrame, endFrame]) none) ((), [])).2.2.2 =
        (decliningHandler.throughNone 2 ([rmdirFrame] ++ [endFrame]) ()).map (Frame.call 2) := by
  -- The run was evaluated, so the theorem applies to it.
  obtain ⟨first, started, finished, _⟩ := patientSchedule_run
  exact ⟨first, started, (buffered_calls_eq_iff (fun _ => 0) decliningHandler
    decliningHandler_accepts 2 2 [rmdirFrame] endFrame (plainStream [rmdirFrame, endFrame])
    valid_rmdirFrame none () first started patientSchedule (.ok ()) finished).1⟩

end Buffered

end Libbtrfs
