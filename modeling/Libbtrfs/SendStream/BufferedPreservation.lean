import Libbtrfs.SendStream.BufferedInvariant

/-! Every step of either process keeps the invariant of the buffered receiver. -/

namespace Libbtrfs

namespace Buffered

variable {σ : Type} {nbuf : Nat}

/-- The invariant carries over a step that moves the reader alone, and no buffer. -/
theorem Sound.main_alone {crc : Bytes → UInt32} {all : List Call} {now : Buffered σ nbuf}
    (sound : now.Sound crc all) (stream : SendStream) (main : MainPc)
    (tokens : main.tokens = now.main.tokens)
    (packets : { now with stream := stream, main := main }.packets = now.packets)
    (holds : { now with stream := stream, main := main }.sent = now.sent →
      ∀ unread, all = now.sent ++ unread → now.MainHolds crc unread →
      ∃ unread, all = now.sent ++ unread ∧
        { now with stream := stream, main := main }.MainHolds crc unread)
    (going : ∀ result, now.main ≠ .leave result ∧ now.main ≠ .done result)
    (still : ∀ result, main ≠ .done result) :
    { now with stream := stream, main := main }.Sound crc all := by
  -- All that is said of the handler thread and of the rings stays as it is.
  have same : { now with stream := stream, main := main }.sent = now.sent :=
    sent_of_same packets rfl rfl
  obtain ⟨unread, split, held⟩ := sound.order
  obtain ⟨unread, split, held⟩ := holds same unread split held
  refine ⟨?_, ⟨unread, ?_, held⟩, ?_, ?_, ?_, sound.freeGone⟩
  · have conserved := sound.tokens
    simp only [tokens]
    exact conserved
  · rw [same]
    exact split
  · rw [packets]
    exact sound.slices
  · refine sound.thread.of_same rfl rfl rfl id ?_
    intro error ended
    rcases ended with leaving | gone
    · exact absurd leaving (going _).1
    · exact absurd gone (going _).2
  · exact sound.data_kept rfl (fun result => (going result).2) still

section Reader

variable {crc : Bytes → UInt32} {all : List Call} {now : Buffered σ nbuf}
  (sound : now.Sound crc all)

include sound

/-- A frame that is read becomes the packet that is about to be pushed. -/
theorem Sound.after_read {stream : SendStream} (stands : now.main = .read)
    (more : now.stream.command ≠ SendCmd.key EndCmd)
    (done : readCmd crc now.stream = .ok () stream) :
    { now with stream := stream, main := .push }.Sound crc all := by
  obtain ⟨unread, split, holds⟩ := sound.order
  simp only [MainHolds, stands] at holds
  obtain ⟨frame, rest, taken, read⟩ := readCmd_ok ⟨holds.1.start, holds.2⟩ done
  -- The call of the frame moves from the unread ones to the end of those that are sent.
  have before : now.packets = now.thread.inHand ++ now.data.items := by
    simp only [packets, pending, stands, List.append_nil]
  have behind : { now with stream := stream, main := .push }.packets = now.packets ++
      [⟨stream.command, stream.data, stream.buf⟩] := by
    rw [before]
    rfl
  have call : Packet.call now.version ⟨stream.command, stream.data, stream.buf⟩ =
      frame.call now.version := by
    simp only [Packet.call, Frame.call, read.command, read.slice, Option.getD_some]
  have sent : { now with stream := stream, main := .push }.sent = now.sent ++
      [frame.call now.version] := by
    rw [Buffered.sent, behind, List.map_append, List.map_singleton, call, ← List.append_assoc]
    rfl
  refine ⟨?_, ⟨(frames crc rest).map (Frame.call now.version), ?_, ?_, read.ready.room⟩, ?_, ?_,
    ?_, sound.freeGone⟩
  · have tokens := sound.tokens
    rw [stands] at tokens
    exact tokens
  · rw [sent, split, holds.1.rest, frames_ok taken, List.map_cons, List.append_assoc]
    rfl
  · -- What was read before it was not the last command, or the loop would have ended.
    refine ⟨?_, read.ready.start, ?_, ?_⟩
    · rw [← read.reader]
    · rw [sent, List.dropLast_concat]
      exact holds.1.more more
    · rw [sent, List.getLast?_concat]
      exact read.command.symm
  · rw [behind]
    intro packet member
    rcases List.mem_append.mp member with earlier | this
    · exact sound.slices packet earlier
    · rw [List.mem_singleton.mp this]
      exact ⟨read.ready.room, _, read.slice⟩
  · refine sound.thread.of_same rfl rfl rfl id ?_
    intro error ended
    rw [stands] at ended
    simp at ended
  · exact sound.data_kept rfl (by simp [stands]) (by simp)

/-- A packet that is pushed moves from the reader to the ring. -/
theorem Sound.after_push {data : Ring Packet nbuf} (stands : now.main = .push)
    (pushed : now.data.push now.packet = some data) :
    Sound crc all
      { now with stream := { now.stream with buf := [] }, data := data, main := .pop 0 } := by
  -- The packets under way are the same, now that one has gone from hand to ring.
  obtain ⟨unread, split, holds⟩ := sound.order
  simp only [MainHolds, stands] at holds
  obtain ⟨items, abandoned⟩ := Ring.push_some pushed
  have same : packets
      { now with stream := { now.stream with buf := [] }, data := data, main := .pop 0 } =
        now.packets := by
    simp only [packets, pending, stands, items, List.append_nil, List.append_assoc]
  have sent := sent_of_same same rfl rfl
  refine ⟨?_, ⟨unread, ?_, ?_⟩, ?_, ?_, ?_, sound.freeGone⟩
  · -- The buffer that the reader kept is now one of those in the ring.
    have tokens := sound.tokens
    rw [stands] at tokens
    simp only [items, List.length_append, List.length_singleton, MainPc.tokens] at tokens ⊢
    omega
  · rw [sent]
    exact split
  · exact holds.1.of_same sent rfl rfl rfl rfl
  · rw [same]
    exact sound.slices
  · refine sound.thread.of_same rfl rfl rfl (fun gone => abandoned.trans gone) ?_
    intro error ended
    rw [stands] at ended
    simp at ended
  · exact sound.data_kept abandoned (by simp [stands]) (by simp)

/-- A buffer that is popped moves from the ring to the reader. -/
theorem Sound.after_take {spins : Nat} {buf : Bytes} {free : Ring Reply nbuf}
    (stands : now.main = .pop spins) (popped : now.free.pop = some (.ok buf, free)) :
    Sound crc all
      { now with stream := { now.stream with buf := buf }, free := free, main := .read } := by
  -- The packets under way are the same, for the reader had none in hand.
  obtain ⟨unread, split, holds⟩ := sound.order
  simp only [MainHolds, stands] at holds
  obtain ⟨items, abandoned⟩ := Ring.pop_some popped
  have same : packets
      { now with stream := { now.stream with buf := buf }, free := free, main := .read } =
        now.packets :=
    packets_idle rfl rfl (by rw [stands]; simp) (by simp)
  have sent := sent_of_same same rfl rfl
  refine ⟨?_, ⟨unread, ?_, ?_, sound.thread.pop_buffer items⟩, ?_, ?_, ?_, ?_⟩
  · have tokens := sound.tokens
    rw [stands, items] at tokens
    simp only [List.length_cons, MainPc.tokens] at tokens ⊢
    omega
  · rw [sent]
    exact split
  · exact holds.of_same sent rfl rfl rfl rfl
  · rw [same]
    exact sound.slices
  · exact sound.thread.after_take rfl rfl items rfl
  · exact sound.data_kept rfl (by simp [stands]) (by simp)
  · rw [← sound.freeGone, ← abandoned]

/-- An error that is popped ends the reader, and is the last reply of a thread that has stopped. -/
theorem Sound.after_fail {spins : Nat} {error : IoError} {free : Ring Reply nbuf}
    (stands : now.main = .pop spins) (popped : now.free.pop = some (.error error, free)) :
    { now with free := free, main := .leave (.error (.io error)) }.Sound crc all := by
  -- The packets under way are the same, for the reader had none in hand.
  obtain ⟨unread, split, holds⟩ := sound.order
  simp only [MainHolds, stands] at holds
  obtain ⟨items, abandoned⟩ := Ring.pop_some popped
  obtain ⟨nothing, erred, stopped⟩ := sound.thread.pop_error items
  have same : packets { now with free := free, main := .leave (.error (.io error)) } =
      now.packets := packets_idle rfl rfl (by rw [stands]; simp) (by simp)
  have sent := sent_of_same same rfl rfl
  refine ⟨?_, ⟨unread, ?_, Or.inl ⟨erred, nothing, stopped, ?_⟩⟩, ?_, ?_, ?_, ?_⟩
  · -- The error took the place of a buffer, so the reader counts for the one it stands for.
    have tokens := sound.tokens
    rw [stands, items] at tokens
    simp only [List.length_cons, MainPc.tokens] at tokens ⊢
    omega
  · rw [sent]
    exact split
  · rw [sent]
    exact holds.before
  · rw [same]
    exact sound.slices
  · -- The thread has reported this error, and nothing else is left of its replies.
    have ended : Stopped { now with free := free, main := .leave (.error (.io error)) } false :=
      ⟨rfl, Or.inr ⟨error, erred, Or.inr ⟨nothing, Or.inl rfl⟩⟩⟩
    rcases stopped with leaving | gone
    · simp only [ThreadHolds, leaving]
      exact ended
    · simp only [ThreadHolds, gone]
      exact ended
  · exact sound.data_kept rfl (by simp [stands]) (by simp)
  · rw [← sound.freeGone, ← abandoned]

/-- A reader that leaves drops its ends of the rings. -/
theorem Sound.after_leave {result : Outcome Unit} (stands : now.main = .leave result) :
    { now with data := now.data.abandon, main := .done result }.Sound crc all := by
  -- The packets under way are the same, for the reader had none in hand.
  obtain ⟨unread, split, holds⟩ := sound.order
  simp only [MainHolds, stands] at holds
  have same : packets { now with data := now.data.abandon, main := .done result } =
      now.packets := packets_idle rfl rfl (by rw [stands]; simp) (by simp)
  have sent := sent_of_same same rfl rfl
  refine ⟨?_, ⟨unread, ?_, ?_⟩, ?_, ?_, ?_, sound.freeGone⟩
  · have tokens := sound.tokens
    rw [stands, ← MainPc.tokens_done] at tokens
    exact tokens
  · rw [sent]
    exact split
  · -- How the receive ends does not depend on the rings.
    cases result with
    | ok _ =>
      simp only [MainHolds, Ended, sent] at holds ⊢
      exact holds
    | error failure =>
      cases failure with
      | io error =>
        simp only [MainHolds, Ended, sent] at holds ⊢
        exact holds
      | panic message => exact holds
  · rw [same]
    exact sound.slices
  · refine sound.thread.of_same rfl rfl rfl (fun _ => rfl) ?_
    intro error ended
    rw [stands] at ended
    rcases ended with leaving | gone
    · cases leaving
      exact Or.inr rfl
    · cases gone
  · exact ⟨fun _ => ⟨result, rfl⟩, fun _ => rfl⟩

/-- The reader keeps the invariant with every step. -/
theorem Sound.mainStep {after : Buffered σ nbuf} (step : MainStep crc now after) :
    after.Sound crc all := by
  -- Where no buffer moves, the reader has sent the same calls before and behind the step.
  cases step with
  | finish stands last =>
    refine sound.main_alone _ _ (by rw [stands]; rfl)
      (packets_idle rfl rfl (by rw [stands]; simp) (by simp)) ?_ (by simp [stands]) (by simp)
    intro same unread split holds
    simp only [MainHolds, stands] at holds
    refine ⟨unread, split, ?_⟩
    have ended := holds.1.ended last
    simp only [MainHolds, Ended, same] at ended ⊢
    exact ended
  | refuse stands more failed =>
    obtain ⟨unread, split, holds⟩ := sound.order
    simp only [MainHolds, stands] at holds
    have refused := readCmd_error ⟨holds.1.start, holds.2⟩ failed
    obtain ⟨error, rfl⟩ := takeFrame_io refused
    refine sound.main_alone _ (.leave (.error (.io error))) (by rw [stands]; rfl)
      (packets_idle rfl rfl (by rw [stands]; simp) (by simp)) ?_ (by simp [stands]) (by simp)
    intro same _ _ _
    -- No frame was left on the stream when the read failed, and none of them was the last.
    have nothing : unread = [] := by rw [holds.1.rest, frames_error refused, List.map_nil]
    have more := holds.1.more more
    refine ⟨unread, split, ?_⟩
    simp only [MainHolds, Ended, same]
    exact Or.inr ⟨nothing, more⟩
  | read stands more done => exact sound.after_read stands more done
  | push stands pushed => exact sound.after_push stands pushed
  | full stands full =>
    -- The ring has room for as many packets as there are buffers.
    have room := sound.data_room stands
    have none_left := Ring.push_none full
    omega
  | take stands popped => exact sound.after_take stands popped
  | fail stands popped => exact sound.after_fail stands popped
  | orphaned stands gone =>
    refine sound.main_alone now.stream _ (by rw [stands]; rfl)
      (packets_idle rfl rfl (by rw [stands]; simp) (by simp)) ?_ (by simp [stands]) (by simp)
    intro same unread split holds
    exact ⟨unread, split, rfl⟩
  | spin stands _ _ | doubt stands _ _ | wait stands _ =>
    -- The reader waits for a buffer and knows what it knew before.
    refine sound.main_alone now.stream _ (by rw [stands]; rfl)
      (packets_idle rfl rfl (by rw [stands]; simp) (by simp)) ?_ (by simp [stands]) (by simp)
    intro same unread split holds
    simp only [MainHolds, stands] at holds
    exact ⟨unread, split, holds.of_same same rfl rfl rfl rfl⟩
  | leave stands => exact sound.after_leave stands

end Reader

/-- The invariant carries over a step that moves the handler thread alone, and no buffer. -/
theorem Sound.thread_alone {crc : Bytes → UInt32} {all : List Call} {now : Buffered σ nbuf}
    (sound : now.Sound crc all) (thread : ThreadPc) (tokens : thread.tokens = now.thread.tokens)
    (hand : thread.inHand = now.thread.inHand) (holds : { now with thread := thread }.ThreadHolds)
    (going : ¬ now.HasStopped) (still : ∀ panicked, now.thread ≠ .done panicked)
    (stays : ∀ panicked, thread ≠ .done panicked) :
    { now with thread := thread }.Sound crc all := by
  -- All that is said of the reader and of the rings stays as it is.
  obtain ⟨unread, split, held⟩ := sound.order
  have same : { now with thread := thread }.packets = now.packets := by
    rw [packets, packets, hand]
    rfl
  have sent := sent_of_same same rfl rfl
  refine ⟨?_, ⟨unread, ?_, ?_⟩, ?_, holds, sound.dataGone, ?_⟩
  · have conserved := sound.tokens
    simp only [tokens]
    exact conserved
  · rw [sent]
    exact split
  · exact held.of_same rfl rfl rfl sent (fun stopped => absurd stopped going)
  · rw [same]
    exact sound.slices
  · exact sound.free_kept rfl still stays

/-- The invariant carries over an answered call, which turns the packet in hand into a reply. -/
theorem Sound.answer {crc : Bytes → UInt32} {all : List Call} {now : Buffered σ nbuf}
    (sound : now.Sound crc all) {packet : Packet} {payload : Bytes} (handler : σ)
    (answer : Outcome (Option Unit)) (reply : Reply) (stands : now.thread = .call packet)
    (inside : getRange packet.buf packet.payload.start packet.payload.stop = some payload)
    (holds : ThreadHolds
      { now with
        handler := handler
        calls := now.calls ++ [(⟨packet.command, payload, now.version⟩, answer)]
        thread := .push reply }) :
    Sound crc all
      { now with
        handler := handler
        calls := now.calls ++ [(⟨packet.command, payload, now.version⟩, answer)]
        thread := .push reply } := by
  -- The call that is answered leaves the packets and joins the answered ones.
  obtain ⟨unread, split, held⟩ := sound.order
  have before : now.packets = packet :: (now.data.items ++ now.pending) := by
    rw [packets, stands]
    rfl
  have behind : packets
      { now with
        handler := handler
        calls := now.calls ++ [(⟨packet.command, payload, now.version⟩, answer)]
        thread := .push reply } = now.data.items ++ now.pending := rfl
  have call : packet.call now.version = ⟨packet.command, payload, now.version⟩ := by
    rw [Packet.call, inside]
    rfl
  have sent : Buffered.sent
      { now with
        handler := handler
        calls := now.calls ++ [(⟨packet.command, payload, now.version⟩, answer)]
        thread := .push reply } = now.sent := by
    rw [Buffered.sent, Buffered.sent, behind, before, List.map_cons, call, List.map_append,
      List.append_assoc]
    rfl
  have going : ¬ now.HasStopped := not_stopped stands (by simp) (by simp)
  refine ⟨?_, ⟨unread, ?_, ?_⟩, ?_, holds, sound.dataGone, ?_⟩
  · have tokens := sound.tokens
    rw [stands] at tokens
    exact tokens
  · rw [sent]
    exact split
  · exact held.of_same rfl rfl rfl sent (fun stopped => absurd stopped going)
  · intro other member
    rw [behind] at member
    exact sound.slices other (by rw [before]; exact List.mem_cons_of_mem _ member)
  · exact sound.free_kept rfl (by simp [stands]) (by simp)

/-- The invariant carries over a reply, which moves from the hand of the thread to the ring. -/
theorem Sound.reply {crc : Bytes → UInt32} {all : List Call} {now : Buffered σ nbuf}
    (sound : now.Sound crc all) {reply : Reply} {free : Ring Reply nbuf} {thread : ThreadPc}
    (stands : now.thread = .push reply) (pushed : now.free.push reply = some free)
    (tokens : thread.tokens = 0) (hand : thread.inHand = [])
    (stays : ∀ panicked, thread ≠ .done panicked)
    (holds : { now with free := free, thread := thread }.ThreadHolds) :
    { now with free := free, thread := thread }.Sound crc all := by
  -- The reply was in the hand of the thread, where it counted as a buffer.
  obtain ⟨unread, split, held⟩ := sound.order
  obtain ⟨items, abandoned⟩ := Ring.push_some pushed
  have same : packets { now with free := free, thread := thread } = now.packets := by
    rw [packets, packets, hand, stands]
    rfl
  have sent := sent_of_same same rfl rfl
  have going : ¬ now.HasStopped := not_stopped stands (by simp) (by simp)
  refine ⟨?_, ⟨unread, ?_, ?_⟩, ?_, holds, sound.dataGone, ?_⟩
  · have conserved := sound.tokens
    have held : now.thread.tokens = 1 := by rw [stands]; rfl
    simp only [items, List.length_append, List.length_singleton, tokens]
    omega
  · rw [sent]
    exact split
  · exact held.of_same rfl rfl rfl sent (fun stopped => absurd stopped going)
  · rw [same]
    exact sound.slices
  · exact sound.free_kept abandoned (by simp [stands]) stays

section Thread

variable {crc : Bytes → UInt32} {all : List Call} {now : Buffered σ nbuf}
  (sound : now.Sound crc all)

include sound

/-- A packet that is popped moves from the ring to the hand of the thread. -/
theorem Sound.after_receive {spins : Nat} {packet : Packet} {data : Ring Packet nbuf}
    (stands : now.thread = .pop spins) (popped : now.data.pop = some (packet, data)) :
    { now with data := data, thread := .call packet }.Sound crc all := by
  -- The packets under way are the same, now that one has gone from ring to hand.
  have held := sound.thread
  obtain ⟨unread, split, mainHeld⟩ := sound.order
  obtain ⟨items, abandoned⟩ := Ring.pop_some popped
  have same : packets { now with data := data, thread := .call packet } = now.packets := by
    simp only [packets, stands, items, ThreadPc.inHand, List.nil_append, List.cons_append]
    rfl
  have sent := sent_of_same same rfl rfl
  have going : ¬ now.HasStopped := not_stopped stands (by simp) (by simp)
  refine ⟨?_, ⟨unread, ?_, ?_⟩, ?_, ?_, ?_, ?_⟩
  · -- The buffer of the packet is now in the hand of the thread.
    have tokens := sound.tokens
    rw [stands, items] at tokens
    simp only [List.length_cons, ThreadPc.tokens] at tokens ⊢
    omega
  · rw [sent]
    exact split
  · exact mainHeld.of_same rfl rfl rfl sent (fun stopped => absurd stopped going)
  · rw [same]
    exact sound.slices
  · rw [ThreadHolds, stands] at held
    exact held
  · rw [← sound.dataGone, ← abandoned]
  · exact sound.free_kept rfl (by simp [stands]) (by simp)

/-- A handler that returns the buffer of a packet has answered one more call without an error. -/
theorem Sound.after_accept {packet : Packet} {payload : Bytes} {goes : Option Unit} (handler : σ)
    (stands : now.thread = .call packet)
    (inside : getRange packet.buf packet.payload.start packet.payload.stop = some payload) :
    Sound crc all
      { now with
        handler := handler
        calls := now.calls ++ [(⟨packet.command, payload, now.version⟩, .ok goes)]
        thread := .push (.ok packet.buf) } := by
  -- The buffer of the packet has the room that every packet has.
  have held := sound.thread
  rw [ThreadHolds, stands] at held
  have member : packet ∈ now.packets := by
    rw [packets, stands]
    exact List.mem_cons_self
  have clean := held.1.accepted ⟨packet.command, payload, now.version⟩ goes
  exact sound.answer _ _ _ stands inside ⟨clean, held.2, (sound.slices packet member).room⟩

/-- A buffer that is given back is one more buffer in the ring. -/
theorem Sound.after_giveBack {buf : Bytes} {free : Ring Reply nbuf}
    (stands : now.thread = .push (.ok buf)) (pushed : now.free.push (.ok buf) = some free) :
    { now with free := free, thread := .pop 0 }.Sound crc all := by
  -- The thread had a buffer in hand, and all in the ring were buffers.
  have held := sound.thread
  rw [ThreadHolds, stands] at held
  have items := (Ring.push_some pushed).1
  have buffers : AllBuffers free.items := by
    intro reply member
    rw [items] at member
    rcases List.mem_append.mp member with earlier | this
    · exact held.2.1 reply earlier
    · rw [List.mem_singleton.mp this]
      exact ⟨buf, rfl, held.2.2⟩
  exact sound.reply stands pushed rfl rfl (by simp) ⟨held.1, buffers⟩

/-- A thread that leaves drops its ends of the rings. -/
theorem Sound.after_drop {panicked : Bool} (stands : now.thread = .leave panicked) :
    { now with free := now.free.abandon, thread := .done panicked }.Sound crc all := by
  -- What was known of a thread about to leave is known of one that has gone.
  have held := sound.thread
  rw [ThreadHolds, stands] at held
  obtain ⟨unread, split, mainHeld⟩ := sound.order
  have same : packets { now with free := now.free.abandon, thread := .done panicked } =
      now.packets := by
    rw [packets, packets, stands]
    rfl
  have sent := sent_of_same same rfl rfl
  refine ⟨?_, ⟨unread, ?_, ?_⟩, ?_, held, sound.dataGone, ?_⟩
  · have tokens := sound.tokens
    rw [stands] at tokens
    exact tokens
  · rw [sent]
    exact split
  · refine mainHeld.of_same rfl rfl rfl sent (fun _ => ⟨rfl, rfl, Or.inr ?_⟩)
    rw [held.1]
  · rw [same]
    exact sound.slices
  · exact ⟨fun _ => ⟨panicked, rfl⟩, fun _ => rfl⟩

/-- The handler thread keeps the invariant with every step, if its handler does not panic. -/
theorem Sound.threadStep {handle : HandleCmd σ} (calm : handle.Calm) {after : Buffered σ nbuf}
    (step : ThreadStep handle now after) : after.Sound crc all := by
  -- What is known of the thread is different at each of the places it stands at.
  have held := sound.thread
  cases step with
  | take stands popped => exact sound.after_receive stands popped
  | spin stands _ _ | doubt stands _ _ | wait stands _ =>
    -- The thread waits for a packet, and nothing moves.
    rw [ThreadHolds, stands] at held
    exact sound.thread_alone _ (by rw [stands]; rfl) (by rw [stands]; rfl) held
      (not_stopped stands (by simp) (by simp)) (by simp [stands]) (by simp)
  | quit stands gone =>
    rw [ThreadHolds, stands] at held
    exact sound.thread_alone _ (by rw [stands]; rfl) (by rw [stands]; rfl)
      ⟨rfl, Or.inl ⟨held.1, held.2, gone⟩⟩
      (not_stopped stands (by simp) (by simp)) (by simp [stands]) (by simp)
  | slice stands outside =>
    -- Every packet under way has its payload inside its buffer.
    rename_i packet
    have member : packet ∈ now.packets := by
      rw [packets, stands]
      exact List.mem_cons_self
    obtain ⟨payload, inside⟩ := (sound.slices packet member).slice
    rw [outside] at inside
    cases inside
  | panic stands inside answered =>
    rename_i packet payload message handler
    have never := calm packet.command payload now.version now.handler
    rw [answered] at never
    exact absurd (Outcome.panics_panic message) never
  | refuse stands inside answered =>
    rw [ThreadHolds, stands] at held
    exact sound.answer _ _ _ stands inside ⟨⟨now.calls, _, rfl, held.1⟩, held.2⟩
  | accept stands inside answered => exact sound.after_accept _ stands inside
  | report stands pushed =>
    -- The error stands behind all buffers that were given back before it.
    rename_i error free
    rw [ThreadHolds, stands] at held
    have items := (Ring.push_some pushed).1
    exact sound.reply stands pushed rfl rfl (by simp)
      ⟨rfl, Or.inr ⟨error, held.1, Or.inl ⟨_, held.2, items⟩⟩⟩
  | giveBack stands pushed => exact sound.after_giveBack stands pushed
  | full stands full =>
    -- The ring has room for as many replies as there are buffers.
    have room := sound.free_room stands
    have none_left := Ring.push_none full
    omega
  | leave stands => exact sound.after_drop stands

end Thread

/-- Every turn of either process keeps the invariant. -/
theorem Sound.run {crc : Bytes → UInt32} {all : List Call} {handle : HandleCmd σ}
    (calm : handle.Calm) {first : Buffered σ nbuf} (sound : first.Sound crc all)
    (schedule : List Actor) : ((system crc handle).run schedule first).Sound crc all := by
  -- One step of either process keeps the invariant, and so does each of them.
  refine (system crc handle).run_invariant ?_ schedule sound
  intro actor now after held stepped
  cases actor with
  | main => exact held.mainStep ((mainStep_iff crc now after).mp stepped)
  | thread => exact held.threadStep calm ((threadStep_iff handle now after).mp stepped)

end Buffered

end Libbtrfs
