import Libbtrfs.SendStream.BufferedSend

/-! What the calls of a handler make of its state, in whatever way its stream is received. -/

namespace Libbtrfs

/--
The calls that a handler was given and what it has answered, with the state that it is in then.

No call follows one that was answered with a failure.
-/
inductive Conversation {σ : Type} (handler : HandleCmd σ) (start : σ) :
    List (Call × Outcome (Option Unit)) → σ → Prop
  | opens : Conversation handler start [] start
  | call {entries : List (Call × Outcome (Option Unit))} {state : σ} (call : Call)
      (earlier : Conversation handler start entries state) (fine : NoErrors entries) :
      Conversation handler start
        (entries ++ [(call, (handler call.command call.payload call.version state).1)])
        (handler call.command call.payload call.version state).2

/-- A state that a handler is in behind a front part of some calls. -/
def Converses {σ : Type} (handler : HandleCmd σ) (start : σ) (all : List Call) (state : σ) : Prop :=
  ∃ entries, Conversation handler start entries state ∧ entries.map Prod.fst <+: all

section Plain

variable {σ : Type} {crc : Bytes → UInt32} {handler : HandleCmd σ} {start : σ}

/-- The next call of a conversation, with its answer. -/
theorem Conversation.answered {entries : List (Call × Outcome (Option Unit))} {state after : σ}
    {answer : Outcome (Option Unit)} (earlier : Conversation handler start entries state)
    (fine : NoErrors entries) (call : Call)
    (answers : handler call.command call.payload call.version state = (answer, after)) :
    Conversation handler start (entries ++ [(call, answer)]) after := by
  -- The answer is what the handler returns in the state that it is in.
  have next := Conversation.call call earlier fine
  rw [answers] at next
  exact next

/-- The reference reading goes on with a conversation, with calls of its frames in their order. -/
theorem decodeFrames_converses (version : UInt32) (input : Bytes) {state : σ}
    {entries : List (Call × Outcome (Option Unit))}
    (earlier : Conversation handler start entries state) (fine : NoErrors entries) :
    ∃ more, Conversation handler start (entries ++ more)
        (decodeFrames crc handler version input state).state ∧
      more.map Prod.fst <+: (frames crc input).map (Frame.call version) := by
  -- The induction is on the frames of the input, up to the one that is refused.
  induction input using frames.induct crc generalizing state entries with
  | case1 input failure taken =>
    rw [decodeFrames_error taken]
    exact ⟨[], by rw [List.append_nil]; exact earlier, List.nil_prefix⟩
  | case2 input frame rest taken ih =>
    rw [decodeFrames_ok taken, frames_ok taken, List.map_cons]
    have called := @Conversation.answered σ handler start entries state
    rcases answered : handler frame.command frame.payload version state with ⟨_ | _ | _, after⟩
    · exact ⟨[(frame.call version, _)], called earlier fine (frame.call version) answered,
        List.prefix_append [frame.call version] _⟩
    · exact ⟨[(frame.call version, _)], called earlier fine (frame.call version) answered,
        List.prefix_append [frame.call version] _⟩
    · -- The handler has asked for more, so the conversation goes on.
      obtain ⟨more, talks, front⟩ := ih (called earlier fine (frame.call version) answered)
        (fine.accepted (frame.call version) _)
      refine ⟨(frame.call version, .ok (some ())) :: more, ?_, ?_⟩
      · rw [List.append_assoc, List.singleton_append] at talks
        exact talks
      · exact List.prefix_cons_inj _ |>.mpr front

/-- An unbuffered receive leaves its handler behind a front part of the calls of its stream. -/
theorem readAndHandle_converses (crc : Bytes → UInt32) (handler : HandleCmd σ) (input : Bytes)
    (atomicPos : Option Nat) (start : σ) :
    Converses handler start (Buffered.streamCalls crc input)
      (readAndHandle crc handler (.new input atomicPos) start).2.2 := by
  rw [(readAndHandle_decodeWith crc handler input atomicPos start).2, decode, Buffered.streamCalls]
  cases takeHeader input with
  | error failure => exact ⟨[], .opens, List.nil_prefix⟩
  | ok pair =>
    -- Behind the header there are the frames.
    obtain ⟨more, talks, front⟩ :=
      @decodeFrames_converses σ crc handler start pair.1 pair.2 start []
      .opens (fun _ impossible => by cases impossible)
    exact ⟨more, talks, front⟩

end Plain

namespace Buffered

variable {σ : Type} {nbuf : Nat} {crc : Bytes → UInt32} {handle : HandleCmd σ} {start : σ}
  {all : List Call} {now after : Buffered σ nbuf}

/-- The reader has no part in what the handler thread and its handler say to each other. -/
theorem MainStep.conversation (step : MainStep crc now after)
    (talks : Conversation handle start now.calls now.handler) :
    Conversation handle start after.calls after.handler := by
  -- It touches neither the calls nor the handler.
  obtain ⟨_, calls, _, handler⟩ := step.frame
  rw [calls, handler]
  exact talks

/-- The handler thread makes a call only where none has failed, and keeps what it has made of it. -/
theorem ThreadStep.conversation (survives : now.Survives crc all)
    (step : ThreadStep handle now after)
    (talks : Conversation handle start now.calls now.handler) :
    Conversation handle start after.calls after.handler := by
  have fine : ∀ packet, now.thread = .call packet → NoErrors now.calls := by
    intro packet stands
    rcases survives with sound | broken
    · have held := sound.thread
      rw [ThreadHolds, stands] at held
      exact held.1
    · -- A thread that has left its loop is not in front of a call.
      rcases broken.left with gone | gone
      · cases stands.symm.trans gone
      · cases stands.symm.trans gone
  cases step with
  | panic stands inside answered => exact talks.answered (fine _ stands) _ answered
  | refuse stands inside answered => exact talks.answered (fine _ stands) _ answered
  | accept stands inside answered => exact talks.answered (fine _ stands) _ answered
  | take | spin | doubt | quit | wait | slice | report | giveBack | full | leave => exact talks

/-- What the handler thread has said to its handler, besides what holds of it anyway. -/
def Talks (crc : Bytes → UInt32) (handle : HandleCmd σ) (start : σ) (all : List Call)
    (now : Buffered σ nbuf) : Prop :=
  now.Survives crc all ∧ Conversation handle start now.calls now.handler

/-- Every step of either process keeps the conversation one. -/
theorem Talks.step {actor : Actor} (talks : now.Talks crc handle start all)
    (stepped : (system crc handle).step actor now = some after) :
    after.Talks crc handle start all := by
  -- The reader says nothing, and the thread takes the next of the calls.
  refine ⟨talks.1.step stepped, ?_⟩
  cases actor with
  | main => exact ((mainStep_iff crc now after).mp stepped).conversation talks.2
  | thread => exact ((threadStep_iff handle now after).mp stepped).conversation talks.1 talks.2

/-- Where the two processes start, there has been no call yet. -/
theorem start_talks (crc : Bytes → UInt32) (handle : HandleCmd σ) {bufCountArgs : Nat}
    {input : Bytes} {atomicPos : Option Nat} {first : Buffered σ (clampBufs bufCountArgs)}
    (started : Buffered.start bufCountArgs (.new input atomicPos) start = .ok first) :
    first.Talks crc handle start (streamCalls crc input) := by
  -- The handler is in the state that it was given in.
  obtain ⟨_, _, _, fresh⟩ := start_fresh started
  refine ⟨Or.inl (start_sound crc started), ?_⟩
  rw [fresh.calls, fresh.handler]
  exact .opens

/-- In every state of a buffered receive the handler is behind a front part of the calls. -/
theorem Talks.converses (talks : now.Talks crc handle start all) :
    Converses handle start all now.handler :=
  ⟨now.calls, talks.2, talks.1.delivered⟩

end Buffered

namespace Receiving

variable {σ : Type} {crc : Bytes → UInt32} {handler : HandleCmd σ} {start : σ} {written : Bytes}

/-- The state of the handler, unless the receive has dropped it. -/
def handlerState : Receiving σ → Option σ
  | .opening _ _ state => some state
  | .plain _ state => some state
  | .buffered now => some now.handler
  | .done _ => none

/-- A receive of the given stream, between two calls of its handler. -/
def Talks (crc : Bytes → UInt32) (handler : HandleCmd σ) (start : σ) (written : Bytes) :
    Receiving σ → Prop
  | .opening _ stream state => stream = .new written none ∧ state = start
  | .plain stream state =>
    Ready stream ∧ ∃ entries, Conversation handler start entries state ∧ NoErrors entries ∧
      Buffered.streamCalls crc written =
        entries.map Prod.fst ++ (frames crc stream.reader).map (Frame.call stream.version)
  | .buffered now => now.Talks crc handler start (Buffered.streamCalls crc written)
  | .done _ => True

variable {now next : Receiving σ}

/-- Behind the header, the frames are all to come. -/
theorem Talks.opens {ahead : Bool} {stream : SendStream} {state : σ}
    (talks : (Receiving.opening ahead stream state).Talks crc handler start written)
    (moved : Receiving.opens ahead stream state = .moves next) :
    next.Talks crc handler start written := by
  -- The header is refused, or the receive goes on in one of the two ways.
  obtain ⟨rfl, rfl⟩ := talks
  obtain ⟨_, _, _, _, rfl⟩ | ⟨_, _, _, rfl⟩ | ⟨_, first, started, rfl⟩ |
    ⟨_, read, header, rfl⟩ := Receiving.opens_cases moved
  · trivial
  · trivial
  · exact Buffered.start_talks crc handler started
  · obtain ⟨_, _, _, refused⟩ | ⟨version, rest, after, taken, same, ready, reader,
      announced, _⟩ := readHeader_cases written none
    · cases header.symm.trans refused
    · cases header.symm.trans same
      refine ⟨ready, [], .opens, (fun _ impossible => by cases impossible), ?_⟩
      rw [Buffered.streamCalls, taken, reader, announced]
      rfl

/-- A round hands the first of the frames that are to come to the handler. -/
theorem Talks.round {stream : SendStream} {state : σ}
    (talks : (Receiving.plain stream state).Talks crc handler start written)
    (moved : Receiving.round crc handler stream state = .moves next) :
    next.Talks crc handler start written := by
  obtain ⟨ready, entries, earlier, fine, calls⟩ := talks
  rw [Receiving.round] at moved
  obtain ⟨failure, after, _, refused⟩ | ⟨frame, rest, read, taken, found, holds⟩ :=
    readCmd_cases crc ready
  · rw [refused] at moved
    simp only at moved
    split at moved
    · cases moved
    · cases moved
      trivial
  · rw [found] at moved
    have sliced : read.payload = .ok frame.payload := holds.payload
    simp only [sliced, holds.command, holds.version] at moved
    rcases answered : handler frame.command frame.payload stream.version state with
      ⟨_ | _ | _, after⟩
    all_goals
      rw [answered] at moved
      cases moved
    · trivial
    · trivial
    · -- What was called and what is to come are the same calls as before.
      refine ⟨holds.ready, _, earlier.answered fine (frame.call stream.version) answered,
        fine.accepted _ _, ?_⟩
      rw [calls, frames_ok taken, holds.reader, holds.version]
      simp

/-- With the whole stream in sight, every step keeps the conversation one. -/
theorem Talks.step {actor : Actor} (talks : now.Talks crc handler start written)
    (stepped : (receiveStream crc handler).entire.step actor now = some next) :
    next.Talks crc handler start written := by
  -- In each of its states the receive has a step of its own, or asks for what never comes.
  cases now with
  | buffered now =>
    obtain ⟨after, taken, rfl⟩ := entire_buffered stepped
    exact Buffered.Talks.step talks taken
  | opening ahead stream state =>
    cases actor with
    | thread => cases stepped
    | main =>
      rcases Consumer.entire_cases stepped with moved | ⟨_, rfl⟩
      · exact Talks.opens talks moved
      · trivial
  | plain stream state =>
    cases actor with
    | thread => cases stepped
    | main =>
      rcases Consumer.entire_cases stepped with moved | ⟨_, rfl⟩
      · exact Talks.round talks moved
      · trivial
  | done result =>
    cases actor with
    | main => cases stepped
    | thread => cases stepped

/-- A handler that is there still is behind a front part of the calls of the stream. -/
theorem Talks.converses {state : σ} {more : Bytes}
    (talks : (now.give more).Talks crc handler start written)
    (there : now.handlerState = some state) :
    Converses handler start (Buffered.streamCalls crc written) state := by
  -- Unless it is done, the handler is in one of its states.
  cases now with
  | opening ahead stream other =>
    cases there
    obtain ⟨_, rfl⟩ := talks
    exact ⟨[], .opens, List.nil_prefix⟩
  | plain stream other =>
    cases there
    obtain ⟨_, entries, earlier, _, calls⟩ := talks
    exact ⟨entries, earlier, ⟨_, calls.symm⟩⟩
  | buffered now =>
    cases there
    have held : (now.give more).Talks crc handler start (Buffered.streamCalls crc written) := talks
    exact held.converses
  | done result => cases there

end Receiving

/-- In every state of a send its handler is behind a front part of the calls of its stream. -/
theorem Sending.run_converses {σ : Type} {crc : Bytes → UInt32} {handler : HandleCmd σ}
    {builder : SendBuilder} {kernel : SendKernel} {call : SendCall} {start state : σ}
    {first : Sending σ} (begun : builder.begins kernel call start = .ok first)
    (schedule : List Party)
    (there : ((Sending.system crc handler).run schedule first).receiver.handlerState = some state) :
    Converses handler start (Buffered.streamCalls crc (kernel.send builder.args).1) state := by
  obtain ⟨delivered, rest, same, piped⟩ :=
    @Sending.run_flows σ crc handler builder kernel call start first begun schedule
  obtain ⟨turns, whole⟩ := piped.entire
  rw [← same] at whole
  -- With all of its bytes, the receiver is in a state of a receive of the whole stream.
  have starts : Receiving.Talks crc handler start (kernel.send builder.args).1
      ((receiveStream crc handler).give (kernel.send builder.args).1
        (.start builder.buffered start)) := ⟨rfl, rfl⟩
  have ends := (receiveStream crc handler).entire.run_invariant
    (fun _ _ _ held stepped => Receiving.Talks.step held stepped) turns starts
  rw [← whole] at ends
  exact Receiving.Talks.converses ends there

end Libbtrfs
