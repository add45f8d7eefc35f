import Libbtrfs.SendStream.BufferedSafety
import Libbtrfs.SendStream.Sufficing

/-! The reader of a buffered receive does not ask for more than the bytes that are enough for it. -/

namespace Libbtrfs

/-- There are only errors among the replies. -/
def NoBuffers (replies : List Reply) : Prop := ∀ reply ∈ replies, ∃ error, reply = .error error

/-- There is no buffer where there is nothing. -/
theorem NoBuffers.nil : NoBuffers [] := fun _ impossible => absurd impossible List.not_mem_nil

/-- An error behind errors leaves no buffer among them. -/
theorem NoBuffers.report {replies : List Reply} (errors : NoBuffers replies) (error : IoError) :
    NoBuffers (replies ++ [.error error]) := by
  -- The replies are those of before, and the error.
  intro reply member
  rcases List.mem_append.mp member with earlier | this
  · exact errors reply earlier
  · exact ⟨error, List.mem_singleton.mp this⟩

/--
The frames are enough behind packets that the handler thread has yet to answer.

The reader looks at an answer only after it has sent the next packet.
-/
def Awaits {σ : Type} (handler : HandleCmd σ) (version : UInt32) (coming : List Frame) :
    List Packet → σ → Prop
  | [], state => handler.Halts version coming state
  | packet :: rest, state =>
    match getRange packet.buf packet.payload.start packet.payload.stop with
    | none => rest ≠ [] ∨ coming ≠ []
    | some payload =>
      match handler packet.command payload version state with
      | (.ok _, state) => Awaits handler version coming rest state
      | (.error _, _) => rest ≠ [] ∨ coming ≠ []

/-- The handler thread has neither failed nor left its loop. -/
def ThreadPc.Answers : ThreadPc → Prop
  | .pop _ | .test _ | .call _ | .push (.ok _) => True
  | .push (.error _) | .leave _ | .done _ => False

/-- A reader that waits holds no buffer, so it neither reads nor sends. -/
theorem MainPc.Waits.holds_none {main : MainPc} (waits : main.Waits) :
    main.tokens = 0 ∧ main ≠ .read ∧ main ≠ .push := by
  -- It waits in the ring or in front of the test of it.
  obtain ⟨spins, rfl | rfl⟩ := waits
  · exact ⟨rfl, nofun, nofun⟩
  · exact ⟨rfl, nofun, nofun⟩

/-- A handler thread that waits holds neither a packet nor a buffer, and will answer. -/
theorem ThreadPc.Waits.holds_none {thread : ThreadPc} (waits : thread.Waits) :
    thread.inHand = [] ∧ thread.tokens = 0 ∧ thread.Answers ∧
      ∀ reply, thread ≠ .push reply := by
  -- It waits in the ring or in front of the test of it.
  obtain ⟨spins, rfl | rfl⟩ := waits
  · exact ⟨rfl, rfl, trivial, nofun⟩
  · exact ⟨rfl, rfl, trivial, nofun⟩

/-- A frame that was read is enough as the packet that it becomes. -/
theorem Awaits.read {σ : Type} {handler : HandleCmd σ} {version : UInt32} {frame : Frame}
    {coming : List Frame} {packets : List Packet} {state : σ} {packet : Packet}
    (command : packet.command = frame.command)
    (slice : getRange packet.buf packet.payload.start packet.payload.stop = some frame.payload)
    (more : frame.command ≠ SendCmd.key EndCmd)
    (awaits : Awaits handler version (frame :: coming) packets state) :
    Awaits handler version coming (packets ++ [packet]) state := by
  -- The packets in front of it are answered in the same way.
  induction packets generalizing state with
  | nil =>
    have halts := awaits.resolve_left more
    simp only [List.nil_append, Awaits, slice, command]
    rcases answered : handler frame.command frame.payload version state with ⟨_ | _, later⟩
    · rw [answered] at halts
      exact Or.inr halts
    · rw [answered] at halts
      exact halts
  | cons first rest ih =>
    rw [List.cons_append, Awaits]
    rw [Awaits] at awaits
    have behind : rest ++ [packet] ≠ [] := List.append_ne_nil_of_right_ne_nil _ nofun
    split
    · exact Or.inl behind
    · rename_i payload inside
      rw [inside] at awaits
      simp only at awaits
      rcases answered : handler first.command payload version state with ⟨_ | _, later⟩
      · exact Or.inl behind
      · rw [answered] at awaits
        exact ih awaits

namespace Buffered

variable {σ : Type}

/-- The reader will come to the answer of a handler thread that has failed. -/
def Breaks (crc : Bytes → UInt32) (now : Buffered σ (clampBufs 2)) : Prop :=
  match now.main with
  | .read => NoBuffers now.free.items ∧ frames crc now.stream.reader ≠ []
  | .push => NoBuffers now.free.items
  | .pop _ | .test _ =>
    NoBuffers now.free.items ∨ frames crc now.stream.reader ≠ [] ∧
      ∃ reply rest, now.free.items = reply :: rest ∧ NoBuffers rest
  | _ => True

/-- The handler thread leads the reader to the end of its loop, whether it still answers or not. -/
structure Goes (crc : Bytes → UInt32) (handler : HandleCmd σ) (now : Buffered σ (clampBufs 2)) :
    Prop where
  answers : now.thread.Answers →
    Awaits handler now.version (frames crc now.stream.reader) now.packets now.handler
  broken : ¬ now.thread.Answers → now.Breaks crc

/--
What holds of the two processes until the reader leaves its loop.

No more than two buffers are held, each of them has room for a header, and the reader has enough of
the stream to come to its end.
-/
structure Fed (crc : Bytes → UInt32) (handler : HandleCmd σ) (now : Buffered σ (clampBufs 2)) :
    Prop where
  tokens : now.data.items.length + now.free.items.length + now.main.tokens + now.thread.tokens ≤ 2
  start : now.stream.data.start = cmdHeaderSize
  own : now.main = .read ∨ now.main = .push → cmdHeaderSize ≤ now.stream.buf.length
  sent : ∀ packet ∈ now.thread.inHand ++ now.data.items, cmdHeaderSize ≤ packet.buf.length
  answer : ∀ buf, now.thread = .push (.ok buf) → cmdHeaderSize ≤ buf.length
  back : ∀ buf, .ok buf ∈ now.free.items → cmdHeaderSize ≤ buf.length
  attached : now.data.abandoned = false
  course : leftover crc now.stream.reader ≠ eof ∨ now.stream.command = SendCmd.key EndCmd ∨
    now.Goes crc handler

/-- The reader has left its loop, with whatever result. -/
def Left (now : Buffered σ (clampBufs 2)) : Prop :=
  (∃ result, now.main = .leave result) ∨ ∃ result, now.main = .done result

variable {crc : Bytes → UInt32} {handler : HandleCmd σ} {now after : Buffered σ (clampBufs 2)}

/-- A reader that is about to read is ready to. -/
theorem Fed.ready (fed : now.Fed crc handler) (stands : now.main = .read) : Ready now.stream :=
  ⟨fed.start, fed.own (Or.inl stands)⟩

/-- There are frames left for a reader that has neither come to its end nor to an answer. -/
theorem Fed.frames_left (fed : now.Fed crc handler) (stands : now.main = .read)
    (enough : leftover crc now.stream.reader = eof)
    (more : now.stream.command ≠ SendCmd.key EndCmd) : frames crc now.stream.reader ≠ [] := by
  -- At most one packet is under way, as the reader holds a buffer itself.
  have tokens := fed.tokens
  rw [stands] at tokens
  have goes := (fed.course.resolve_left (absurd enough)).resolve_left more
  have pending : now.pending = [] := by simp only [Buffered.pending, stands]
  have few : now.packets.length ≤ 1 := by
    have held : now.thread.inHand.length ≤ now.thread.tokens := by
      cases now.thread <;> simp [ThreadPc.inHand, ThreadPc.tokens]
    rw [packets, pending]
    simp only [List.length_append, List.length_nil, MainPc.tokens] at tokens ⊢
    omega
  intro none_left
  have lost : ∀ packets : List Packet, packets.length ≤ 1 →
      ¬ Awaits handler now.version [] packets now.handler := by
    intro packets few awaits
    rcases packets with _ | ⟨packet, _ | ⟨second, rest⟩⟩
    · exact awaits
    · rw [Awaits] at awaits
      split at awaits
      · rcases awaits with impossible | impossible
        · exact impossible rfl
        · exact impossible rfl
      · split at awaits
        · exact awaits
        · rcases awaits with impossible | impossible
          · exact impossible rfl
          · exact impossible rfl
    · exact absurd few (by simp)
  by_cases answers : now.thread.Answers
  · have awaits := goes.answers answers
    rw [none_left] at awaits
    exact lost _ few awaits
  · have breaks := goes.broken answers
    simp only [Breaks, stands] at breaks
    exact breaks.2 none_left

/-- A reader with enough of the stream does not run out of input. -/
theorem Fed.not_starving (fed : now.Fed crc handler) : now.starving crc = false := by
  cases stands : now.main with
  | read =>
    by_cases last : now.stream.command = SendCmd.key EndCmd
    · simp only [starving, stands, if_pos last]
    · simp only [starving, stands, if_neg last]
      cases read : readCmd crc now.stream with
      | ok done after => rfl
      | error failure after =>
        have refused := readCmd_error (fed.ready stands) read
        simp only [decide_eq_false_iff_not]
        intro dry
        -- Then there is no frame left, but there has to be one.
        rw [dry] at refused
        exact fed.frames_left stands (leftover_error refused) last (frames_error refused)
  | push | pop | test | leave | done => simp only [starving, stands]

/-- The course of a reader that spins stays the same. -/
theorem Goes.spin {main : MainPc} (goes : now.Goes crc handler) (waits : now.main.Waits)
    (still : main.Waits) : Goes crc handler { now with main := main } := by
  -- Neither pc that waits is named by what is under way, nor told from the other by what breaks.
  obtain ⟨spins, stands | stands⟩ := waits
  all_goals
    obtain ⟨others, same | same⟩ := still
    all_goals
      refine ⟨fun answers => ?_, fun broken => ?_⟩
      · have awaits := goes.answers answers
        simp only [packets, pending, stands, same] at awaits ⊢
        exact awaits
      · have breaks := goes.broken broken
        simp only [Breaks, stands, same] at breaks ⊢
        exact breaks

/-- A reader that spins still has enough of the stream. -/
theorem Fed.spin {main : MainPc} (fed : now.Fed crc handler) (waits : now.main.Waits)
    (still : main.Waits) : Fed crc handler { now with main := main } := by
  -- Only the program counter changes, and both of its values stand for a wait.
  obtain ⟨same, not_read, not_push⟩ := still.holds_none
  refine ⟨?_, fed.start, ?_, fed.sent, fed.answer, fed.back, fed.attached, ?_⟩
  · rw [same, ← waits.holds_none.1]
    exact fed.tokens
  · -- Without a buffer of its own there is nothing to say about one.
    rintro (reads | pushes)
    · exact absurd reads not_read
    · exact absurd pushes not_push
  · exact fed.course.imp id (Or.imp id fun goes => goes.spin waits still)

/-- A reader that has read a command still has enough of the stream behind it. -/
theorem Fed.read {stream : SendStream} (fed : now.Fed crc handler) (stands : now.main = .read)
    (more : now.stream.command ≠ SendCmd.key EndCmd)
    (done : readCmd crc now.stream = .ok () stream) :
    Fed crc handler { now with stream := stream, main := .push } := by
  -- The buffer stays with the reader, and the first of the frames becomes its packet.
  obtain ⟨frame, rest, taken, holds⟩ := readCmd_ok (fed.ready stands) done
  have tokens := fed.tokens
  rw [stands] at tokens
  refine ⟨tokens, holds.ready.start, fun _ => holds.ready.room, fed.sent, fed.answer, fed.back,
    fed.attached, ?_⟩
  have course := fed.course
  rw [leftover_ok taken] at course
  simp only [holds.reader, holds.command]
  refine course.imp id fun course => ?_
  by_cases last : frame.command = SendCmd.key EndCmd
  · exact Or.inl last
  · -- The frame is now a packet, and is answered behind those that are under way.
    have goes := course.resolve_left more
    refine Or.inr ⟨fun answers => ?_, fun broken => ?_⟩
    · have awaits := goes.answers answers
      rw [frames_ok taken] at awaits
      simp only [packets, pending, stands, packet, List.append_nil, holds.reader] at awaits ⊢
      exact Awaits.read holds.command holds.slice last awaits
    · have breaks := goes.broken broken
      simp only [Breaks, stands] at breaks ⊢
      exact breaks.1

/-- A reader that has sent a packet still has enough of the stream behind it. -/
theorem Fed.push {data : Ring Packet (clampBufs 2)} (fed : now.Fed crc handler)
    (stands : now.main = .push) (pushed : now.data.push now.packet = some data) :
    Fed crc handler
      { now with stream := { now.stream with buf := [] }, data := data, main := .pop 0 } := by
  -- The buffer goes into the data ring with the packet, so the count stays the same.
  obtain ⟨items, attached⟩ := Ring.push_some pushed
  have tokens := fed.tokens
  rw [stands] at tokens
  refine ⟨?_, fed.start, ?_, ?_, fed.answer, fed.back, attached.trans fed.attached, ?_⟩
  · simp only [MainPc.tokens, items, List.length_append, List.length_singleton] at tokens ⊢
    omega
  · rintro (impossible | impossible)
    · cases impossible
    · cases impossible
  · -- The packet has the buffer of the reader.
    intro sent member
    simp only [items] at member
    rw [← List.append_assoc] at member
    rcases List.mem_append.mp member with earlier | this
    · exact fed.sent sent earlier
    · rw [List.mem_singleton.mp this]
      exact fed.own (Or.inr stands)
  · refine fed.course.imp id (Or.imp id fun goes => ⟨fun answers => ?_, fun broken => ?_⟩)
    · have awaits := goes.answers answers
      simp only [packets, pending, stands, items, List.append_nil, List.append_assoc]
        at awaits ⊢
      exact awaits
    · have breaks := goes.broken broken
      simp only [Breaks, stands] at breaks ⊢
      exact Or.inl breaks

/-- A reader that gets a buffer back still has enough of the stream. -/
theorem Fed.take {spins : Nat} {buf : Bytes} {free : Ring Reply (clampBufs 2)}
    (fed : now.Fed crc handler) (stands : now.main = .pop spins)
    (popped : now.free.pop = some (.ok buf, free)) :
    Fed crc handler
      { now with stream := { now.stream with buf := buf }, free := free, main := .read } := by
  -- The buffer in front of the free ring is the one that the reader goes on with.
  obtain ⟨items, _⟩ := Ring.pop_some popped
  have tokens := fed.tokens
  rw [stands] at tokens
  refine ⟨?_, fed.start, fun _ => fed.back buf ?_, fed.sent, fed.answer, ?_, fed.attached, ?_⟩
  · simp only [MainPc.tokens, items, List.length_cons] at tokens ⊢
    omega
  · rw [items]
    exact List.mem_cons_self
  · intro other member
    refine fed.back other ?_
    rw [items]
    exact List.mem_cons_of_mem _ member
  · refine fed.course.imp id (Or.imp id fun goes => ⟨fun answers => ?_, fun broken => ?_⟩)
    · have awaits := goes.answers answers
      simp only [packets, pending, stands] at awaits ⊢
      exact awaits
    · -- The buffer was the one in front of the error.
      have breaks := goes.broken broken
      simp only [Breaks, stands, items] at breaks ⊢
      rcases breaks with errors | ⟨left, reply, rest, split, errors⟩
      · obtain ⟨error, impossible⟩ := errors (.ok buf) List.mem_cons_self
        cases impossible
      · rw [(List.cons.inj split).2]
        exact ⟨errors, left⟩

/-- Behind a step of the reader it has left its loop, or still has enough of the stream. -/
theorem Fed.mainStep (fed : now.Fed crc handler) (step : MainStep crc now after) :
    after.Left ∨ after.Fed crc handler := by
  -- The steps that end the loop are those with a result; all others keep the invariant.
  cases step with
  | finish stands last => exact Or.inl (Or.inl ⟨_, rfl⟩)
  | refuse stands more failed => exact Or.inl (Or.inl ⟨_, rfl⟩)
  | read stands more done => exact Or.inr (fed.read stands more done)
  | push stands pushed => exact Or.inr (fed.push stands pushed)
  | full stands full => exact Or.inl (Or.inl ⟨_, rfl⟩)
  | take stands popped => exact Or.inr (fed.take stands popped)
  | fail stands popped => exact Or.inl (Or.inl ⟨_, rfl⟩)
  | spin stands empty few =>
    exact Or.inr (fed.spin ⟨_, Or.inl stands⟩ ⟨_, Or.inl rfl⟩)
  | doubt stands empty many =>
    exact Or.inr (fed.spin ⟨_, Or.inl stands⟩ ⟨_, Or.inr rfl⟩)
  | orphaned stands gone => exact Or.inl (Or.inl ⟨_, rfl⟩)
  | wait stands there =>
    exact Or.inr (fed.spin ⟨_, Or.inr stands⟩ ⟨_, Or.inl rfl⟩)
  | leave stands => exact Or.inl (Or.inr ⟨_, rfl⟩)

/-- What the reader does about a thread that fails at its packet, as long as something follows it. -/
theorem Fed.breaks {packet : Packet} (fed : now.Fed crc handler)
    (stands : now.thread = .call packet)
    (ends : now.data.items ++ now.pending ≠ [] ∨ frames crc now.stream.reader ≠ []) :
    now.Breaks crc := by
  have tokens := fed.tokens
  rw [stands] at tokens
  unfold Breaks
  cases main : now.main with
  | read =>
    -- The thread and the reader have both buffers.
    rw [main] at tokens
    simp only [MainPc.tokens, ThreadPc.tokens] at tokens
    have data : now.data.items = [] := List.eq_nil_of_length_eq_zero (by omega)
    have free : now.free.items = [] := List.eq_nil_of_length_eq_zero (by omega)
    simp only [pending, main, data, List.append_nil] at ends
    rw [free]
    exact ⟨.nil, ends.resolve_left (absurd rfl)⟩
  | push =>
    rw [main] at tokens
    simp only [MainPc.tokens, ThreadPc.tokens] at tokens
    have free : now.free.items = [] := List.eq_nil_of_length_eq_zero (by omega)
    simp only [free]
    exact .nil
  | pop spins | test spins =>
    rw [main] at tokens
    simp only [MainPc.tokens, ThreadPc.tokens] at tokens
    cases free : now.free.items with
    | nil => exact Or.inl .nil
    | cons reply rest =>
      -- Then the other buffer has come back already, and no packet is under way.
      rw [free, List.length_cons] at tokens
      have data : now.data.items = [] := List.eq_nil_of_length_eq_zero (by omega)
      have last : rest = [] := List.eq_nil_of_length_eq_zero (by omega)
      simp only [pending, main, data, List.append_nil] at ends
      rw [last]
      exact Or.inr ⟨ends.resolve_left (absurd rfl), reply, [], rfl, .nil⟩
  | leave result | done result => trivial

/-- A thread that fails at its packet leaves the reader with enough of the stream. -/
theorem Fed.fails {packet : Packet} {thread : ThreadPc} (fed : now.Fed crc handler)
    (stands : now.thread = .call packet) (broken : ¬ thread.Answers)
    (ends : Awaits handler now.version (frames crc now.stream.reader)
        (packet :: (now.data.items ++ now.pending)) now.handler →
      now.data.items ++ now.pending ≠ [] ∨ frames crc now.stream.reader ≠ [])
    (state : σ) (calls : List (Call × Outcome (Option Unit))) :
    Fed crc handler { now with handler := state, calls := calls, thread := thread } := by
  -- The packet is dropped, and that the reader still comes to the error is left to `Fed.breaks`.
  have tokens := fed.tokens
  rw [stands] at tokens
  have few : thread.tokens ≤ 1 := by
    cases thread <;> simp [ThreadPc.tokens]
  have empty : thread.inHand = [] := by
    cases thread <;> first | rfl | exact absurd trivial broken
  refine ⟨?_, fed.start, fed.own, ?_, ?_, fed.back, fed.attached, ?_⟩
  · simp only [ThreadPc.tokens] at tokens
    dsimp only
    omega
  · intro sent member
    simp only [empty, List.nil_append] at member
    exact fed.sent sent (List.mem_append_right _ member)
  · rintro buf rfl
    exact absurd trivial broken
  · refine fed.course.imp id (Or.imp id fun goes => ⟨fun answers => absurd answers broken, ?_⟩)
    intro _
    have awaits := goes.answers (by rw [stands]; trivial)
    rw [packets, stands, ThreadPc.inHand, List.append_assoc, List.singleton_append] at awaits
    exact fed.breaks stands (ends awaits)

/-- A thread that goes on answering the same reader leads it to the same end. -/
theorem Fed.answering (fed : now.Fed crc handler) (answers : now.thread.Answers)
    (still : after.thread.Answers) (stream : after.stream = now.stream)
    (awaits : Awaits handler now.version (frames crc now.stream.reader) now.packets now.handler →
      Awaits handler after.version (frames crc now.stream.reader) after.packets after.handler) :
    leftover crc after.stream.reader ≠ eof ∨ after.stream.command = SendCmd.key EndCmd ∨
      after.Goes crc handler := by
  -- The end of the stream and the last command are read off the stream, which is the same.
  rw [stream]
  refine fed.course.imp id (Or.imp id fun goes => ⟨fun _ => ?_, fun broken => absurd still broken⟩)
  rw [stream]
  exact awaits (goes.answers answers)

/-- A thread that takes a packet from the ring leaves everything under way that was. -/
theorem Fed.receive {spins : Nat} {packet : Packet} {data : Ring Packet (clampBufs 2)}
    (fed : now.Fed crc handler) (stands : now.thread = .pop spins)
    (popped : now.data.pop = some (packet, data)) :
    Fed crc handler { now with data := data, thread := .call packet } := by
  -- The ring gives up what the thread gets, in the packets and in the buffers alike.
  obtain ⟨items, attached⟩ := Ring.pop_some popped
  have tokens := fed.tokens
  have sent := fed.sent
  rw [stands, items] at tokens
  rw [stands, items] at sent
  refine ⟨?_, fed.start, fed.own, sent, nofun, fed.back, attached.trans fed.attached, ?_⟩
  · simp only [ThreadPc.tokens, List.length_cons] at tokens ⊢
    omega
  · -- The packet is in its hand instead of in front of the ring.
    refine fed.answering (by rw [stands]; trivial) trivial rfl fun awaits => ?_
    rw [packets, stands, items] at awaits
    exact awaits

/-- A thread that waits for a packet leaves everything as it was. -/
theorem Fed.wait {thread : ThreadPc} (fed : now.Fed crc handler) (waits : now.thread.Waits)
    (still : thread.Waits) : Fed crc handler { now with thread := thread } := by
  -- What a waiting thread holds is nothing, before and after.
  obtain ⟨no_packet, no_buffer, answers, _⟩ := waits.holds_none
  obtain ⟨still_no_packet, still_no_buffer, still_answers, not_push⟩ := still.holds_none
  refine ⟨?_, fed.start, fed.own, ?_, ?_, fed.back, fed.attached, ?_⟩
  · rw [still_no_buffer, ← no_buffer]
    exact fed.tokens
  · rw [still_no_packet, ← no_packet]
    exact fed.sent
  · intro buf pushes
    exact absurd pushes (not_push _)
  · refine fed.answering answers still_answers rfl fun awaits => ?_
    rw [packets, no_packet] at awaits
    rw [packets, still_no_packet]
    exact awaits

/-- A thread whose packet is accepted goes on to those behind it. -/
theorem Fed.accept {packet : Packet} {payload : Bytes} {goes : Option Unit} {state : σ}
    (fed : now.Fed crc handler) (stands : now.thread = .call packet)
    (inside : getRange packet.buf packet.payload.start packet.payload.stop = some payload)
    (answered : handler packet.command payload now.version now.handler = (.ok goes, state))
    (calls : List (Call × Outcome (Option Unit))) :
    Fed crc handler
      { now with handler := state, calls := calls, thread := .push (.ok packet.buf) } := by
  -- The answer of the handler to the first packet is the one that `Awaits` has looked at.
  have tokens := fed.tokens
  have sent := fed.sent
  rw [stands] at tokens sent
  refine ⟨tokens, fed.start, fed.own, fun other member => sent other (List.mem_cons_of_mem _ member),
    ?_, fed.back, fed.attached, ?_⟩
  · -- The buffer that goes back is that of the packet.
    intro buf same
    cases same
    exact sent packet List.mem_cons_self
  · refine fed.answering (by rw [stands]; trivial) trivial rfl fun awaits => ?_
    rw [packets, stands, ThreadPc.inHand, List.append_assoc, List.singleton_append, Awaits, inside]
      at awaits
    simp only [answered] at awaits
    exact awaits

/-- A reply keeps everything but the course, which depends on what the reply is. -/
theorem Fed.reply {reply : Reply} {free : Ring Reply (clampBufs 2)} {thread : ThreadPc}
    (fed : now.Fed crc handler) (stands : now.thread = .push reply)
    (pushed : now.free.push reply = some free) (empty : thread.inHand = [])
    (spent : thread.tokens = 0) (answered : ∀ other, thread ≠ .push other)
    (course : leftover crc now.stream.reader ≠ eof ∨ now.stream.command = SendCmd.key EndCmd ∨
      Goes crc handler { now with free := free, thread := thread }) :
    Fed crc handler { now with free := free, thread := thread } := by
  -- The buffer moves from the thread to the free ring, behind all others.
  obtain ⟨items, _⟩ := Ring.push_some pushed
  have tokens := fed.tokens
  have sent := fed.sent
  rw [stands] at tokens sent
  refine ⟨?_, fed.start, fed.own, ?_, fun buf pushes => absurd pushes (answered _), ?_, fed.attached,
    course⟩
  · simp only [spent, items, List.length_append, List.length_singleton]
    simp only [ThreadPc.tokens] at tokens
    omega
  · simp only [empty]
    exact sent
  · intro buf member
    rw [items] at member
    rcases List.mem_append.mp member with earlier | this
    · exact fed.back buf earlier
    · exact fed.answer buf (by rw [stands, List.mem_singleton.mp this])

/-- A thread that gives a buffer back leaves the reader with enough of the stream. -/
theorem Fed.giveBack {buf : Bytes} {free : Ring Reply (clampBufs 2)} (fed : now.Fed crc handler)
    (stands : now.thread = .push (.ok buf)) (pushed : now.free.push (.ok buf) = some free) :
    Fed crc handler { now with free := free, thread := .pop 0 } := by
  -- It goes on to the packets behind the one that it has answered.
  refine fed.reply stands pushed rfl rfl nofun ?_
  have answers : now.thread.Answers := by
    rw [stands]
    trivial
  refine @Fed.answering _ _ _ _ { now with free := free, thread := .pop 0 } fed answers trivial rfl
    fun awaits => ?_
  rw [packets, stands] at awaits
  exact awaits

/-- A thread that reports its error leaves the reader with enough of the stream. -/
theorem Fed.report {error : IoError} {free : Ring Reply (clampBufs 2)} (fed : now.Fed crc handler)
    (stands : now.thread = .push (.error error))
    (pushed : now.free.push (.error error) = some free) :
    Fed crc handler { now with free := free, thread := .leave false } := by
  obtain ⟨items, _⟩ := Ring.push_some pushed
  refine fed.reply stands pushed rfl rfl nofun ?_
  refine fed.course.imp id (Or.imp id fun goes => ⟨fun answers => answers.elim, fun _ => ?_⟩)
  have breaks := goes.broken (by rw [stands]; exact id)
  unfold Breaks at breaks ⊢
  simp only [items]
  -- The error comes behind all other replies, wherever the reader stands.
  cases main : now.main with
  | read =>
    rw [main] at breaks
    exact ⟨breaks.1.report error, breaks.2⟩
  | push =>
    rw [main] at breaks
    exact breaks.report error
  | pop spins | test spins =>
    rw [main] at breaks
    rcases breaks with all | ⟨left, reply, rest, split, others⟩
    · exact Or.inl (all.report error)
    · exact Or.inr
        ⟨left, reply, rest ++ [.error error], by rw [split]; rfl, others.report error⟩
  | leave result | done result => trivial

/-- A thread that drops its ends of the rings leaves the reader with enough of the stream. -/
theorem Fed.drop {panicked : Bool} (fed : now.Fed crc handler)
    (stands : now.thread = .leave panicked) :
    Fed crc handler { now with free := now.free.abandon, thread := .done panicked } := by
  -- The ring is abandoned with everything still in it.
  have tokens := fed.tokens
  have sent := fed.sent
  rw [stands] at tokens sent
  refine ⟨tokens, fed.start, fed.own, sent, nofun, fed.back, fed.attached, ?_⟩
  refine fed.course.imp id (Or.imp id fun goes => ⟨fun answers => answers.elim, fun _ => ?_⟩)
  exact goes.broken (by rw [stands]; exact id)

/-- Behind a step of the handler thread the reader still has enough of the stream. -/
theorem Fed.threadStep (fed : now.Fed crc handler) (step : ThreadStep handler now after) :
    after.Fed crc handler := by
  cases step with
  | take stands popped => exact fed.receive stands popped
  | spin stands empty few => exact fed.wait ⟨_, Or.inl stands⟩ ⟨_, Or.inl rfl⟩
  | doubt stands empty many => exact fed.wait ⟨_, Or.inl stands⟩ ⟨_, Or.inr rfl⟩
  | quit stands gone =>
    rw [fed.attached] at gone
    cases gone
  | wait stands there => exact fed.wait ⟨_, Or.inr stands⟩ ⟨_, Or.inl rfl⟩
  | slice stands outside =>
    refine fed.fails stands id (fun awaits => ?_) now.handler now.calls
    rw [Awaits, outside] at awaits
    exact awaits
  | panic stands inside answered =>
    refine fed.fails stands id (fun awaits => ?_) _ _
    simp only [Awaits, inside, answered] at awaits
    exact awaits
  | refuse stands inside answered =>
    refine fed.fails stands id (fun awaits => ?_) _ _
    simp only [Awaits, inside, answered] at awaits
    exact awaits
  | accept stands inside answered => exact fed.accept stands inside answered _
  | report stands pushed => exact fed.report stands pushed
  | giveBack stands pushed => exact fed.giveBack stands pushed
  | full stands full =>
    -- The reply is one of the two buffers, and finds room for itself.
    have tokens := fed.tokens
    have crowded := Ring.push_none full
    have two : clampBufs 2 = 2 := rfl
    rw [stands] at tokens
    simp only [ThreadPc.tokens] at tokens
    omega
  | leave stands => exact fed.drop stands

/-- Two processes that start with enough of the stream have it. -/
theorem Fresh.fed {version : UInt32} {rest : Bytes} {state : σ}
    (fresh : now.Fresh version rest state)
    (enough : leftover crc rest ≠ eof ∨ handler.Halts version (frames crc rest) state) :
    now.Fed crc handler := by
  -- Nothing is under way yet, and all but one of the buffers are in the free ring.
  have packets : now.packets = [] := by
    simp only [Buffered.packets, pending, fresh.main, fresh.thread, fresh.data]
    rfl
  refine ⟨?_, fresh.ready.start, fun _ => fresh.ready.room, ?_, ?_, ?_, ?_, ?_⟩
  · rw [fresh.data, fresh.free, fresh.main, fresh.thread, List.length_replicate]
    exact Nat.le_refl _
  · rw [fresh.thread, fresh.data]
    intro _ impossible
    cases impossible
  · rw [fresh.thread]
    intro _ impossible
    cases impossible
  · intro buf member
    rw [fresh.free] at member
    cases List.eq_of_mem_replicate member
    exact fresh.ready.room
  · rw [fresh.data]
    rfl
  · rw [fresh.reader]
    refine enough.imp id fun halts => Or.inr ⟨fun _ => ?_, fun broken => ?_⟩
    · rw [packets, fresh.version, fresh.reader, fresh.handler]
      exact halts
    · rw [fresh.thread] at broken
      exact absurd trivial broken

/-- A reader that has left its loop does not come back to it. -/
theorem Left.mainStep (left : now.Left) (step : MainStep crc now after) : after.Left := by
  -- From here on the reader only hands over its result.
  have taken := step.taken
  rcases left with ⟨result, stands⟩ | ⟨result, stands⟩
  · simp only [Buffered.mainStep, stands] at taken
    cases taken
    exact Or.inr ⟨_, rfl⟩
  · exact absurd stands (step.not_done result)

/-- The handler thread does not bring the reader back. -/
theorem Left.threadStep (left : now.Left) (step : ThreadStep handler now after) : after.Left := by
  -- It does not touch the reader.
  have frame := step.frame.1
  unfold Left at left ⊢
  rw [frame]
  exact left

end Buffered

namespace Receiving

variable {σ : Type} {crc : Bytes → UInt32} {handler : HandleCmd σ}

/-- The receive has enough of the stream, wherever it stands. -/
def Fed (crc : Bytes → UInt32) (handler : HandleCmd σ) : Receiving σ → Prop
  | .opening ahead stream state =>
    ∃ input, stream = .new input none ∧ Suffices crc handler ahead input state
  | .plain stream state => PlainFed crc handler stream state
  | .buffered now => now.Left ∨ now.Fed crc handler
  | .done _ => True

/-- The header of a stream that is enough is taken, and so is what is behind it. -/
theorem Fed.opens {ahead : Bool} {input : Bytes} {state : σ}
    (enough : Suffices crc handler ahead input state) :
    ∃ next, Receiving.opens ahead (.new input none) state = .moves next ∧ next.Fed crc handler := by
  -- The header is refused, or starts either of the two kinds of receive.
  have started := Buffered.start_takeHeader 2 input none state
  unfold Suffices at enough
  rw [Receiving.opens]
  obtain ⟨failure, after, taken, refused⟩ |
      ⟨version, rest, after, taken, read, ready, reader, announced, _⟩ :=
    readHeader_cases input none
  · rw [taken] at enough
    simp only [refused, if_neg enough]
    exact ⟨_, rfl, trivial⟩
  · rw [taken] at started enough
    obtain ⟨first, begun, fresh⟩ := started
    simp only [read, begun]
    cases ahead with
    | true => exact ⟨_, rfl, Or.inr (fresh.fed enough)⟩
    | false =>
      refine ⟨_, rfl, ready, ?_⟩
      rw [reader, announced]
      exact enough

/-- A receive with enough of the stream takes a step after which it still has, or none at all. -/
theorem Fed.step {now : Receiving σ} (fed : now.Fed crc handler) (actor : Actor) :
    Receiving.step crc handler actor now = .idle ∨
      ∃ next, Receiving.step crc handler actor now = .moves next ∧ next.Fed crc handler := by
  -- One case for each kind of receive, and in it one for each actor.
  cases now with
  | opening ahead stream state =>
    cases actor with
    | thread => exact Or.inl rfl
    | main =>
      obtain ⟨input, same, enough⟩ := fed
      rw [Receiving.step, same]
      exact Or.inr (Fed.opens enough)
  | plain stream state =>
    cases actor with
    | thread => exact Or.inl rfl
    | main =>
      obtain ⟨next, goes, ended | ⟨read, later, same, still⟩⟩ := PlainFed.round fed
      · obtain ⟨result, rfl⟩ := ended
        exact Or.inr ⟨_, goes, trivial⟩
      · subst same
        exact Or.inr ⟨_, goes, still⟩
  | buffered now =>
    cases actor with
    | main =>
      have plenty : now.starving crc = false := by
        rcases fed with (⟨result, stands⟩ | ⟨result, stands⟩) | fed
        · simp only [Buffered.starving, stands]
        · simp only [Buffered.starving, stands]
        · exact fed.not_starving
      simp only [Receiving.step, plenty, Bool.false_eq_true, if_false]
      cases stepped : Buffered.mainStep crc now with
      | none => exact Or.inl rfl
      | some after =>
        have step := Buffered.mainStep_cases stepped
        refine Or.inr ⟨_, rfl, ?_⟩
        exact fed.elim (fun left => Or.inl (left.mainStep step)) fun fed => fed.mainStep step
    | thread =>
      simp only [Receiving.step]
      cases stepped : Buffered.threadStep handler now with
      | none => exact Or.inl rfl
      | some after =>
        have step := Buffered.threadStep_cases stepped
        refine Or.inr ⟨_, rfl, ?_⟩
        exact fed.imp (fun left => left.threadStep step) fun fed => fed.threadStep step
  | done result =>
    cases actor with
    | main => exact Or.inl rfl
    | thread => exact Or.inl rfl

/-- A receive that has returned takes no more steps. -/
theorem result_idle (crc : Bytes → UInt32) (handler : HandleCmd σ) (actor : Actor)
    {now : Receiving σ} {result : Outcome Unit} (returned : now.result = some result) :
    step crc handler actor now = .idle := by
  -- A receive returns once both of its processes are done, and neither then has a step.
  cases now with
  | opening ahead stream state => cases returned
  | plain stream state => cases returned
  | buffered now =>
    obtain ⟨outcome, panicked, main, thread, _⟩ := Buffered.returned_done returned
    cases actor with
    | main =>
      simp only [step, Buffered.starving, Buffered.mainStep, main]
      rfl
    | thread =>
      simp only [step, Buffered.threadStep, thread]
      rfl
  | done result =>
    cases actor with
    | main => rfl
    | thread => rfl

end Receiving

/-- With bytes that are enough for it a receive never asks for more of them. -/
theorem suffices_sated {σ : Type} {crc : Bytes → UInt32} {handler : HandleCmd σ} {buffered : Bool}
    {input : Bytes} {state : σ} (enough : Suffices crc handler buffered input state) :
    (receiveStream crc handler).Sated ((Receiving.start buffered state).give input) := by
  -- The invariant of the receive excludes that either actor asks for more.
  have start : Receiving.Fed crc handler ((Receiving.start buffered state).give input) := by
    refine ⟨input, ?_, enough⟩
    simp only [SendStream.give, SendStream.new, List.nil_append]
  refine Consumer.sated_of_invariant ?_ ?_ start
  · intro actor now next fed moved
    rcases fed.step actor with idle | ⟨other, goes, still⟩
    · cases moved.symm.trans idle
    · cases moved.symm.trans goes
      exact still
  · intro actor now fed hungry
    rcases fed.step actor with idle | ⟨other, goes, _⟩
    · cases hungry.symm.trans idle
    · cases hungry.symm.trans goes

end Libbtrfs
