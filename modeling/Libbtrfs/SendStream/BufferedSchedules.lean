import Libbtrfs.SendStream.BufferedSafety

/-! Stretches of a schedule in which one of the two processes gets through a part of its loop. -/

namespace Libbtrfs

namespace Buffered

variable {σ : Type} {nbuf : Nat} (crc : Bytes → UInt32) (handle : HandleCmd σ)

/-- The processes start with one buffer in the hand of the reader, and the others in the ring. -/
theorem Fresh.eq {version : UInt32} {rest : Bytes} {state : σ} {first : Buffered σ nbuf}
    (fresh : first.Fresh version rest state) :
    first = ⟨first.stream, .read, version, state, .pop 0, ⟨[], Nat.zero_le _, false⟩,
      ⟨List.replicate (nbuf - 1) (.ok first.stream.buf),
        by rw [List.length_replicate]; exact Nat.sub_le _ _, false⟩, []⟩ := by
  -- Every field of a fresh receiver but its stream is known.
  obtain ⟨main, thread, ready, reader, command, announced, handler, data, free, abandoned, calls⟩ :=
    fresh
  obtain ⟨stream, main, version, handler, thread, data, ⟨items, fits, gone⟩, calls⟩ := first
  simp only at main thread announced handler data free abandoned calls
  subst main thread announced handler data free abandoned calls
  rfl

/-- A turn of the reader is one of its steps. -/
theorem run_main {now after : Buffered σ nbuf} (step : MainStep crc now after)
    (rest : List Actor) :
    (system crc handle).run (.main :: rest) now = (system crc handle).run rest after :=
  System.run_step _ ((mainStep_iff crc now after).mpr step) rest

/-- A turn of the handler thread is one of its steps. -/
theorem run_thread {now after : Buffered σ nbuf} (step : ThreadStep handle now after)
    (rest : List Actor) :
    (system crc handle).run (.thread :: rest) now = (system crc handle).run rest after :=
  System.run_step _ ((threadStep_iff handle now after).mpr step) rest

section Reader

variable {version : UInt32} {handler : σ} {thread : ThreadPc} {packets : List Packet}
  {replies : List Reply} {gone : Bool} {calls : List (Call × Outcome (Option Unit))}

/-- The reader reads a frame and sends it to the handler thread. -/
theorem run_send {stream filled : SendStream} {lost : Bool} {fits : packets.length ≤ nbuf}
    {free : Ring Reply nbuf} (more : stream.command ≠ SendCmd.key EndCmd)
    (read : readCmd crc stream = .ok () filled)
    (room : (packets ++ [(⟨filled.command, filled.data, filled.buf⟩ : Packet)]).length ≤ nbuf) :
    (system crc handle).run [.main, .main]
        ⟨stream, .read, version, handler, thread, ⟨packets, fits, lost⟩, free, calls⟩ =
      ⟨{ filled with buf := [] }, .pop 0, version, handler, thread,
        ⟨packets ++ [⟨filled.command, filled.data, filled.buf⟩], room, lost⟩, free, calls⟩ := by
  -- One turn of the reader is the step that it makes.
  refine (run_main crc handle (.read rfl more read) _).trans ?_
  exact run_main crc handle (.push rfl (Ring.push_items _ room)) _

/-- The reader takes a free buffer and goes on. -/
theorem run_take {stream : SendStream} {spins : Nat} {data : Ring Packet nbuf} {buf : Bytes}
    {fits : ((.ok buf : Reply) :: replies).length ≤ nbuf} :
    (system crc handle).run [.main]
        ⟨stream, .pop spins, version, handler, thread, data, ⟨.ok buf :: replies, fits, gone⟩,
          calls⟩ =
      ⟨{ stream with buf := buf }, .read, version, handler, thread, data,
        ⟨replies, Nat.le_of_succ_le fits, gone⟩, calls⟩ := by
  -- The ring is not empty.
  exact run_main crc handle (.take rfl Ring.pop_items) _

/-- The reader has read the last command and returns. -/
theorem run_finish {stream : SendStream} {fits : packets.length ≤ nbuf} {lost : Bool}
    {free : Ring Reply nbuf} (last : stream.command = SendCmd.key EndCmd) :
    (system crc handle).run [.main, .main]
        ⟨stream, .read, version, handler, thread, ⟨packets, fits, lost⟩, free, calls⟩ =
      ⟨stream.storePos, .done (.ok ()), version, handler, thread, ⟨packets, fits, true⟩, free,
        calls⟩ := by
  -- The last command ends the loop, and then the reader drops its ends.
  refine (run_main crc handle (.finish rfl last) _).trans ?_
  exact run_main crc handle (.leave rfl) _

/-- The reader spins at an empty ring until it doubts that the handler thread is still there. -/
theorem run_doubt {stream : SendStream} {data : Ring Packet nbuf}
    {fits : ([] : List Reply).length ≤ nbuf} :
    (system crc handle).run (List.replicate mainMaxSpins .main ++ [.main])
        ⟨stream, .pop 0, version, handler, thread, data, ⟨[], fits, gone⟩, calls⟩ =
      ⟨stream, .test mainMaxSpins, version, handler, thread, data, ⟨[], fits, gone⟩, calls⟩ := by
  -- One turn for each of the spins, and one that gives them up.
  have spins : ∀ count, count < mainMaxSpins → (system crc handle).step .main
      ⟨stream, .pop count, version, handler, thread, data, ⟨[], fits, gone⟩, calls⟩ =
      some ⟨stream, .pop (count + 1), version, handler, thread, data, ⟨[], fits, gone⟩, calls⟩ := by
    intro count few
    rw [system_main, mainStep_iff]
    exact .spin rfl rfl (Nat.not_le.mpr few)
  have spun := (system crc handle).run_replicate spins mainMaxSpins 0 (by simp)
  rw [System.run_append, spun]
  exact run_main crc handle (.doubt rfl rfl (by simp)) _

/-- The reader finds that the handler thread has gone, and panics. -/
theorem run_orphaned {stream : SendStream} {spins : Nat} {data : Ring Packet nbuf}
    {fits : replies.length ≤ nbuf} :
    (system crc handle).run [.main, .main]
        ⟨stream, .test spins, version, handler, thread, data, ⟨replies, fits, true⟩, calls⟩ =
      ⟨stream, .done (.error (.panic "Handler thread panicked")), version, handler, thread,
        data.abandon, ⟨replies, fits, true⟩, calls⟩ := by
  -- The reader panics, and then drops its ends.
  refine (run_main crc handle (.orphaned rfl rfl) _).trans ?_
  exact run_main crc handle (.leave rfl) _

end Reader

section Thread

variable {version : UInt32} {handler after : σ} {stream : SendStream} {main : MainPc}
  {packets : List Packet} {replies : List Reply} {lost gone : Bool}
  {calls : List (Call × Outcome (Option Unit))} {packet : Packet} {payload : Bytes}

/-- The handler thread takes a packet, and gives its buffer back behind the call. -/
theorem run_answer {spins : Nat} {fits : (packet :: packets).length ≤ nbuf}
    {room : replies.length ≤ nbuf} {goes : Option Unit}
    (inside : getRange packet.buf packet.payload.start packet.payload.stop = some payload)
    (answered : handle packet.command payload version handler = (.ok goes, after))
    (roomy : (replies ++ [(.ok packet.buf : Reply)]).length ≤ nbuf) :
    (system crc handle).run [.thread, .thread, .thread]
        ⟨stream, main, version, handler, .pop spins, ⟨packet :: packets, fits, lost⟩,
          ⟨replies, room, gone⟩, calls⟩ =
      ⟨stream, main, version, after, .pop 0, ⟨packets, Nat.le_of_succ_le fits, lost⟩,
        ⟨replies ++ [.ok packet.buf], roomy, gone⟩,
        calls ++ [(⟨packet.command, payload, version⟩, .ok goes)]⟩ := by
  -- The packet is taken, the handler is called, and the buffer is given back.
  refine (run_thread crc handle (.take rfl Ring.pop_items) _).trans ?_
  refine (run_thread crc handle (.accept rfl inside answered) _).trans ?_
  exact run_thread crc handle (.giveBack rfl (Ring.push_items _ roomy)) _

/-- The handler thread takes a packet, reports the error of the call, and ends. -/
theorem run_refuse {spins : Nat} {fits : (packet :: packets).length ≤ nbuf}
    {room : replies.length ≤ nbuf} {error : IoError}
    (inside : getRange packet.buf packet.payload.start packet.payload.stop = some payload)
    (answered : handle packet.command payload version handler = (.error (.io error), after))
    (roomy : (replies ++ [(.error error : Reply)]).length ≤ nbuf) :
    (system crc handle).run [.thread, .thread, .thread, .thread]
        ⟨stream, main, version, handler, .pop spins, ⟨packet :: packets, fits, lost⟩,
          ⟨replies, room, gone⟩, calls⟩ =
      ⟨stream, main, version, after, .done false, ⟨packets, Nat.le_of_succ_le fits, lost⟩,
        ⟨replies ++ [.error error], roomy, true⟩,
        calls ++ [(⟨packet.command, payload, version⟩, .error (.io error))]⟩ := by
  -- The packet is taken, the handler is called, the error is reported, the thread leaves.
  refine (run_thread crc handle (.take rfl Ring.pop_items) _).trans ?_
  refine (run_thread crc handle (.refuse rfl inside answered) _).trans ?_
  refine (run_thread crc handle (.report rfl (Ring.push_items _ roomy)) _).trans ?_
  exact run_thread crc handle (.leave rfl) _

/-- The handler thread spins at an empty ring until it doubts that the reader is still there. -/
theorem run_threadDoubt {fits : ([] : List Packet).length ≤ nbuf} {free : Ring Reply nbuf} :
    (system crc handle).run (List.replicate threadMaxSpins .thread ++ [.thread])
        ⟨stream, main, version, handler, .pop 0, ⟨[], fits, lost⟩, free, calls⟩ =
      ⟨stream, main, version, handler, .test threadMaxSpins, ⟨[], fits, lost⟩, free, calls⟩ := by
  -- One turn for each of the spins, and one that gives them up.
  have spins : ∀ count, count < threadMaxSpins → (system crc handle).step .thread
      ⟨stream, main, version, handler, .pop count, ⟨[], fits, lost⟩, free, calls⟩ =
      some ⟨stream, main, version, handler, .pop (count + 1), ⟨[], fits, lost⟩, free, calls⟩ := by
    intro count few
    rw [system_thread, threadStep_iff]
    exact .spin rfl rfl (Nat.not_le.mpr few)
  have spun := (system crc handle).run_replicate spins threadMaxSpins 0 (by simp)
  rw [System.run_append, spun]
  exact run_thread crc handle (.doubt rfl rfl (by simp)) _

/-- The handler thread finds that the reader has gone, and ends. -/
theorem run_quit {spins : Nat} {fits : packets.length ≤ nbuf} {free : Ring Reply nbuf} :
    (system crc handle).run [.thread, .thread]
        ⟨stream, main, version, handler, .test spins, ⟨packets, fits, true⟩, free, calls⟩ =
      ⟨stream, main, version, handler, .done false, ⟨packets, fits, true⟩, free.abandon,
        calls⟩ := by
  -- The thread finds the reader gone, and then drops its ends.
  refine (run_thread crc handle (.quit rfl rfl) _).trans ?_
  exact run_thread crc handle (.leave rfl) _

end Thread

section Plain

/-- A version 2 stream of the given frames, with zero for every checksum. -/
def plainStream (written : List Frame) : Bytes :=
  streamHeader 2 ++ written.flatMap (Frame.bytes fun _ => 0)

/-- A frame of the last command. -/
def endFrame : Frame := ⟨21, []⟩

/-- A frame that removes a directory. -/
def rmdirFrame : Frame := ⟨12, [15, 0, 1, 0, 97]⟩

/-- The receive of such a stream starts in front of its frames, with or without a counter. -/
theorem start_plainStream_with {σ : Type} (written : List Frame) (atomicPos : Option Nat)
    (state : σ) :
    ∃ first, start 2 (.new (plainStream written) atomicPos) state = .ok first ∧
      first.Fresh 2 (written.flatMap (Frame.bytes fun _ => 0)) state := by
  -- The header is the one that the stream begins with.
  have header := start_takeHeader 2 (plainStream written) atomicPos state
  rw [plainStream, takeHeader_bytes (by decide)] at header
  exact header

/-- The receive of such a stream starts in front of its frames. -/
theorem start_plainStream {σ : Type} (written : List Frame) (state : σ) :
    ∃ first, start 2 (.new (plainStream written) none) state = .ok first ∧
      first.Fresh 2 (written.flatMap (Frame.bytes fun _ => 0)) state :=
  start_plainStream_with written none state

/-- In front of the only frame of a stream, the last command is read and is none so far. -/
theorem start_endFrame_with {σ : Type} (atomicPos : Option Nat) (state : σ) :
    ∃ first filled, start 2 (.new (plainStream [endFrame]) atomicPos) state = .ok first ∧
      first.Fresh 2 (endFrame.bytes (fun _ => 0) ++ []) state ∧
      readCmd (fun _ => 0) first.stream = .ok () filled ∧
      HoldsFrame first.stream endFrame [] filled ∧
      first.stream.command ≠ SendCmd.key EndCmd ∧ filled.command = SendCmd.key EndCmd := by
  obtain ⟨first, started, fresh⟩ := start_plainStream_with [endFrame] atomicPos state
  obtain ⟨filled, read, holds⟩ := readCmd_bytes (fun _ => 0) fresh.ready
    (show endFrame.Fits by decide) fresh.reader
  -- Nothing was read when the receive starts, so its command is not the last one.
  have more : first.stream.command ≠ SendCmd.key EndCmd := by
    rw [fresh.command]
    decide
  exact ⟨first, filled, started, fresh, read, holds, more, holds.command⟩

/-- The same for a receive without a counter. -/
theorem start_endFrame {σ : Type} (state : σ) :
    ∃ first filled, start 2 (.new (plainStream [endFrame]) none) state = .ok first ∧
      first.Fresh 2 (endFrame.bytes (fun _ => 0) ++ []) state ∧
      readCmd (fun _ => 0) first.stream = .ok () filled ∧
      HoldsFrame first.stream endFrame [] filled ∧
      first.stream.command ≠ SendCmd.key EndCmd ∧ filled.command = SendCmd.key EndCmd :=
  start_endFrame_with none state

/-- One item is not too much for the smallest ring. -/
theorem room_one {α : Type} (one : α) : ([] ++ [one]).length ≤ clampBufs 2 := by
  -- It has at least two places.
  rw [List.nil_append, List.length_singleton]
  decide

/-- Two items are not too much for the smallest ring. -/
theorem room_two {α : Type} (one two : α) : ([one] ++ [two]).length ≤ clampBufs 2 := by
  -- It has at least two places.
  rw [List.singleton_append, List.length_cons, List.length_singleton]
  decide

/-- With two buffers the ring of free ones starts with one buffer in it. -/
theorem Fresh.two_buffers {version : UInt32} {rest : Bytes} {state : σ}
    {first : Buffered σ (clampBufs 2)} (fresh : first.Fresh version rest state) :
    first = ⟨first.stream, .read, version, state, .pop 0, ⟨[], Nat.zero_le _, false⟩,
      ⟨[.ok first.stream.buf], room_one first.stream.buf, false⟩, []⟩ :=
  fresh.eq

/-- The turns in which the reader sends two frames, which takes the one buffer in the ring. -/
def sendBoth : List Actor :=
  [Actor.main, Actor.main] ++ ([Actor.main] ++ [Actor.main, Actor.main])

/-- Two frames get under way to the handler thread, and no buffer is left for the reader. -/
theorem run_sendBoth (handle : HandleCmd σ) (state : σ) :
    ∃ first filled ended, start 2 (.new (plainStream [rmdirFrame, endFrame]) none) state = .ok first ∧
      HoldsFrame first.stream rmdirFrame (endFrame.bytes (fun _ => 0) ++ []) filled ∧
      HoldsFrame { filled with buf := first.stream.buf } endFrame [] ended ∧
      (system (fun _ => 0) handle).run sendBoth first =
        ⟨{ ended with buf := [] }, .pop 0, 2, state, .pop 0,
          ⟨[⟨filled.command, filled.data, filled.buf⟩, ⟨ended.command, ended.data, ended.buf⟩],
            room_two _ _, false⟩,
          ⟨[], Nat.zero_le _, false⟩, []⟩ := by
  obtain ⟨first, started, fresh⟩ := start_plainStream [rmdirFrame, endFrame] state
  have reader := fresh.reader
  rw [List.flatMap_cons, List.flatMap_cons, List.flatMap_nil] at reader
  obtain ⟨filled, read, holds⟩ := readCmd_bytes (fun _ => 0) fresh.ready
    (show rmdirFrame.Fits by decide) reader
  -- The second frame is read into the buffer that was taken from the ring.
  have refilled : Ready { filled with buf := first.stream.buf } :=
    ⟨holds.ready.start, fresh.ready.room⟩
  obtain ⟨ended, readEnd, holdsEnd⟩ := readCmd_bytes (fun _ => 0) refilled
    (show endFrame.Fits by decide) holds.reader
  have more : first.stream.command ≠ SendCmd.key EndCmd := by
    rw [fresh.command]
    decide
  have still : { filled with buf := first.stream.buf }.command ≠ SendCmd.key EndCmd := by
    rw [holds.command]
    decide
  refine ⟨first, filled, ended, started, holds, holdsEnd, ?_⟩
  rw [fresh.two_buffers, sendBoth, System.run_append, run_send _ _ more read (room_one _),
    System.run_append, run_take]
  simp only [List.nil_append]
  rw [run_send _ _ still readEnd (room_two _ _)]
  rfl

end Plain

/--
Whatever the schedule, no buffer is lost before an error, and no push ever finds its ring full.

The two processes never wait for each other at two empty rings, and the handler is given the
frames of the stream in their order, each of them once and with the bytes that were read. A
receive that does not start is one whose stream header was refused.
-/
theorem buffered_conserves {σ : Type} (crc : Bytes → UInt32) (handle : HandleCmd σ)
    (calm : handle.Calm) (bufCountArgs : Nat) (input : Bytes) (atomicPos : Option Nat)
    (state : σ) :
    (∀ failure, start bufCountArgs (.new input atomicPos) state = .error failure →
        takeHeader input = .error failure) ∧
      ∀ first, start bufCountArgs (.new input atomicPos) state = .ok first →
        ∀ schedule,
          let now := (system crc handle).run schedule first
          (now.BeforeError → now.main.buffers + now.data.items.length + now.thread.buffers +
              bufferCount now.free.items = clampBufs bufCountArgs) ∧
            (now.main = .push → ∃ data, now.data.push now.packet = some data) ∧
            (∀ reply, now.thread = .push reply → ∃ free, now.free.push reply = some free) ∧
            now.main ≠ .leave (.error (.panic "Handler panicked: Full(_)")) ∧
            now.main ≠ .done (.error (.panic "Handler panicked: Full(_)")) ∧
            ¬ (now.main.Waits ∧ now.free.items = [] ∧ now.thread.Waits ∧ now.data.items = []) ∧
            now.calls.map Prod.fst <+: streamCalls crc input := by
  -- The start either fails at the header, or the invariant holds from there on.
  refine ⟨?_, ?_⟩
  · -- A receive that does not start has refused the header of the stream.
    intro failure refused
    have header := start_takeHeader bufCountArgs input atomicPos state
    cases taken : takeHeader input with
    | error other =>
      rw [taken, refused] at header
      cases header
      rfl
    | ok pair =>
      rw [taken] at header
      obtain ⟨first, started, _⟩ := header
      rw [refused] at started
      cases started
  · -- All the facts are read off the invariant of the state that is reached.
    intro first started schedule now
    have sound : now.Sound crc (streamCalls crc input) :=
      reachable_sound crc calm started schedule
    have some_buf : 0 < clampBufs bufCountArgs := by
      unfold clampBufs
      omega
    refine ⟨sound.buffers, ?_, ?_, ?_, ?_, sound.not_both_wait some_buf, sound.delivered⟩
    · intro stands
      exact Ring.push_room now.packet (sound.data_room stands)
    · intro reply stands
      exact Ring.push_room reply (sound.free_room stands)
    · intro stands
      have message := sound.panic_message (Or.inl stands)
      exact absurd message (by decide)
    · intro stands
      have message := sound.panic_message (Or.inr stands)
      exact absurd message (by decide)

/-- The turns in which both frames are sent, and the first of them is handed over. -/
def handOne : List Actor := sendBoth ++ [Actor.thread, Actor.thread, Actor.thread]

/-- Behind them the second frame is in one ring, and the buffer of the first one in the other. -/
theorem run_handOne :
    ∃ first, start 2 (.new (plainStream [rmdirFrame, endFrame]) none) () = .ok first ∧
      let now := (system (fun _ => 0) eagerHandler).run handOne first
      now.main = .pop 0 ∧ now.data.items.length = 1 ∧ now.free.items.length = 1 ∧
        now.calls = [(rmdirFrame.call 2, .ok (some ()))] := by
  -- Both frames are sent, and the thread then answers the first one.
  obtain ⟨first, filled, ended, started, holds, _, sent⟩ := run_sendBoth eagerHandler ()
  refine ⟨first, started, ?_⟩
  rw [handOne, System.run_append, sent,
    run_answer _ _ (by exact holds.slice) (by rfl) (room_one _)]
  refine ⟨rfl, rfl, rfl, ?_⟩
  rw [holds.command]
  rfl

/-- The two buffers are accounted for there, one in each ring, and one frame has been delivered. -/
theorem buffered_conserves_handOne :
    ∃ first, start 2 (.new (plainStream [rmdirFrame, endFrame]) none) () = .ok first ∧
      let now := (system (fun _ => 0) eagerHandler).run handOne first
      now.data.items.length = 1 ∧ now.free.items.length = 1 ∧
        now.main.buffers + now.data.items.length + now.thread.buffers +
          bufferCount now.free.items = 2 ∧
        [rmdirFrame.call 2] <+: streamCalls (fun _ => 0) (plainStream [rmdirFrame, endFrame]) := by
  obtain ⟨first, started, stands, data, free, calls⟩ := run_handOne
  have held := (buffered_conserves (fun _ => 0) eagerHandler eagerHandler_calm 2
    (plainStream [rmdirFrame, endFrame]) none ()).2 first started handOne
  have delivered := held.2.2.2.2.2.2
  rw [calls] at delivered
  refine ⟨first, started, data, free, held.1 ⟨?_, fun failure => ?_⟩, delivered⟩
  · -- The one call was answered without an error.
    rw [calls]
    exact List.forall_mem_singleton.mpr ⟨_, rfl⟩
  · rw [stands]
    exact ⟨nofun, nofun⟩

end Buffered

end Libbtrfs
