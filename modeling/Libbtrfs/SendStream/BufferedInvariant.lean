import Libbtrfs.SendStream.BufferedSteps
import Libbtrfs.SendStream.Refinement

/-! Which buffers, frames and errors the two processes hold between them in every reachable state. -/

namespace Libbtrfs

/-- The handler call that a packet asks for. -/
def Packet.call (version : UInt32) (packet : Packet) : Call :=
  ⟨packet.command, (getRange packet.buf packet.payload.start packet.payload.stop).getD [],
    version⟩

/-- A packet whose payload lies inside its buffer, which has room for the next header too. -/
structure Packet.Sound (packet : Packet) : Prop where
  room : cmdHeaderSize ≤ packet.buf.length
  slice : ∃ payload, getRange packet.buf packet.payload.start packet.payload.stop = some payload

/-- The buffers that the reader keeps, where a failed receive counts for the one it was left with. -/
def MainPc.tokens : MainPc → Nat
  | .read | .push => 1
  | .pop _ | .test _ => 0
  | .leave (.error (.panic _)) | .done (.error (.panic _)) => 0
  | .leave _ | .done _ => 1

/-- The buffers, or replies, that the handler thread keeps. -/
def ThreadPc.tokens : ThreadPc → Nat
  | .call _ | .push _ => 1
  | _ => 0

/-- The packet that the handler thread has popped and not answered yet. -/
def ThreadPc.inHand : ThreadPc → List Packet
  | .call packet => [packet]
  | _ => []

/-- A handler none of whose answers is a panic. -/
def HandleCmd.Calm {σ : Type} (handle : HandleCmd σ) : Prop :=
  ∀ command payload version state, ¬ (handle command payload version state).1.Panics

/-- Every call was answered without an error. -/
def NoErrors (calls : List (Call × Outcome (Option Unit))) : Prop :=
  ∀ entry ∈ calls, ∃ goes, entry.2 = .ok goes

/-- The last call, and no call before it, was answered with the error. -/
def Erred (calls : List (Call × Outcome (Option Unit))) (error : IoError) : Prop :=
  ∃ before call, calls = before ++ [(call, .error (.io error))] ∧ NoErrors before

/-- Every reply is a buffer, and one that has room for a header. -/
def AllBuffers (replies : List Reply) : Prop :=
  ∀ reply ∈ replies, ∃ buf, reply = .ok buf ∧ cmdHeaderSize ≤ buf.length

/-- A reader that has dropped its ends of the rings counts as it did before. -/
theorem MainPc.tokens_done (result : Outcome Unit) :
    (MainPc.done result).tokens = (MainPc.leave result).tokens := by
  -- What the reader ends with is the same before and behind the last step.
  cases result with
  | ok _ => rfl
  | error failure =>
    cases failure with
    | io error => rfl
    | panic message => rfl

/-- Behind the first one of them, buffers are buffers still. -/
theorem AllBuffers.tail {reply : Reply} {rest : List Reply}
    (buffers : AllBuffers (reply :: rest)) : AllBuffers rest := by
  -- What holds of all replies holds of those behind the first.
  intro other member
  exact buffers other (List.mem_cons_of_mem _ member)

/-- Calls answered without an error stay so with one more that was accepted. -/
theorem NoErrors.accepted {calls : List (Call × Outcome (Option Unit))} (clean : NoErrors calls)
    (call : Call) (goes : Option Unit) : NoErrors (calls ++ [(call, .ok goes)]) := by
  -- The entry is one of the earlier ones, or the accepted call itself.
  intro entry member
  rcases List.mem_append.mp member with earlier | this
  · exact clean entry earlier
  · rw [List.mem_singleton.mp this]
    exact ⟨goes, rfl⟩

namespace Buffered

variable {σ : Type} {nbuf : Nat}

/-- The packet that the reader is about to push. -/
def pending (now : Buffered σ nbuf) : List Packet :=
  match now.main with
  | .push => [now.packet]
  | _ => []

/-- The packets under way from the reader to the handler, the oldest one first. -/
def packets (now : Buffered σ nbuf) : List Packet :=
  now.thread.inHand ++ now.data.items ++ now.pending

/-- The calls made so far and those that are under way, in the order of their frames. -/
def sent (now : Buffered σ nbuf) : List Call :=
  now.calls.map Prod.fst ++ now.packets.map (Packet.call now.version)

/-- What a reader in its loop knows about its stream and the frames it has read from it. -/
structure Reading (crc : Bytes → UInt32) (unread : List Call) (now : Buffered σ nbuf) : Prop where
  rest : unread = (frames crc now.stream.reader).map (Frame.call now.version)
  start : now.stream.data.start = cmdHeaderSize
  -- Only the last frame can be that of the last command.
  before : ∀ call ∈ now.sent.dropLast, call.command ≠ SendCmd.key EndCmd
  last : (now.sent.getLast?.map Call.command).getD 0 = now.stream.command

/-- The handler thread has left its loop without a panic. -/
def HasStopped (now : Buffered σ nbuf) : Prop :=
  now.thread = .leave false ∨ now.thread = .done false

/-- How a receive ends: behind the last command, on an error of either side, or in doubt. -/
def Ended (unread : List Call) (now : Buffered σ nbuf) : Outcome Unit → Prop
  | .ok () => ∃ before call, now.sent = before ++ [call] ∧ call.command = SendCmd.key EndCmd ∧
      ∀ earlier ∈ before, earlier.command ≠ SendCmd.key EndCmd
  | .error (.io error) =>
    (Erred now.calls error ∧ now.free.items = [] ∧ now.HasStopped ∧
        ∀ call ∈ now.sent.dropLast, call.command ≠ SendCmd.key EndCmd) ∨
      unread = [] ∧ ∀ call ∈ now.sent, call.command ≠ SendCmd.key EndCmd
  | .error (.panic message) => message = "Handler thread panicked"

/-- What holds of the reader, depending on where it stands. -/
def MainHolds (crc : Bytes → UInt32) (unread : List Call) (now : Buffered σ nbuf) : Prop :=
  match now.main with
  | .read | .push => now.Reading crc unread ∧ cmdHeaderSize ≤ now.stream.buf.length
  | .pop _ | .test _ => now.Reading crc unread
  | .leave result | .done result => now.Ended unread result

/-- Why the handler thread ended: the reader had gone, or an error that it reported to the reader. -/
def Stopped (now : Buffered σ nbuf) (panicked : Bool) : Prop :=
  panicked = false ∧
    (NoErrors now.calls ∧ AllBuffers now.free.items ∧ now.data.abandoned = true ∨
      ∃ error, Erred now.calls error ∧
        ((∃ bufs, AllBuffers bufs ∧ now.free.items = bufs ++ [.error error]) ∨
          now.free.items = [] ∧ (now.main = .leave (.error (.io error)) ∨
            now.main = .done (.error (.io error)))))

/-- What holds of the handler thread, depending on where it stands. -/
def ThreadHolds (now : Buffered σ nbuf) : Prop :=
  match now.thread with
  | .pop _ | .test _ | .call _ => NoErrors now.calls ∧ AllBuffers now.free.items
  | .push (.ok buf) =>
    NoErrors now.calls ∧ AllBuffers now.free.items ∧ cmdHeaderSize ≤ buf.length
  | .push (.error error) => Erred now.calls error ∧ AllBuffers now.free.items
  | .leave panicked | .done panicked => now.Stopped panicked

/--
The invariant of the two processes, for a handler that does not panic.

The calls of the whole stream are those that were sent and those that are unread, and the buffers
that the processes and the rings hold add up to all of them.
-/
structure Sound (crc : Bytes → UInt32) (all : List Call) (now : Buffered σ nbuf) : Prop where
  tokens : now.data.items.length + now.free.items.length + now.main.tokens + now.thread.tokens =
    nbuf
  order : ∃ unread, all = now.sent ++ unread ∧ now.MainHolds crc unread
  slices : ∀ packet ∈ now.packets, packet.Sound
  thread : now.ThreadHolds
  dataGone : now.data.abandoned = true ↔ ∃ result, now.main = .done result
  freeGone : now.free.abandoned = true ↔ ∃ panicked, now.thread = .done panicked

/-- What a reader knows carries over to a state with the same stream position and calls. -/
theorem Reading.of_same {crc : Bytes → UInt32} {unread : List Call} {now after : Buffered σ nbuf}
    (reading : now.Reading crc unread) (sent : after.sent = now.sent)
    (version : after.version = now.version) (reader : after.stream.reader = now.stream.reader)
    (start : after.stream.data.start = now.stream.data.start)
    (command : after.stream.command = now.stream.command) : after.Reading crc unread := by
  -- Each of the facts is about one of the parts that stay.
  refine ⟨?_, start.trans reading.start, ?_, ?_⟩
  · rw [reader, version]
    exact reading.rest
  · rw [sent]
    exact reading.before
  · rw [sent, command]
    exact reading.last

/-- As long as the last command was not read, none of the calls is the last one. -/
theorem Reading.more {crc : Bytes → UInt32} {unread : List Call} {now : Buffered σ nbuf}
    (reading : now.Reading crc unread) (more : now.stream.command ≠ SendCmd.key EndCmd) :
    ∀ call ∈ now.sent, call.command ≠ SendCmd.key EndCmd := by
  -- All but the last call are known, and the last is the command that was read last.
  have before := reading.before
  have last := reading.last
  rcases List.eq_nil_or_concat' now.sent with nothing | ⟨front, final, split⟩
  · -- Nothing was sent yet.
    intro call member
    rw [nothing] at member
    cases member
  · rw [split] at before last ⊢
    rw [List.dropLast_concat] at before
    simp only [List.getLast?_concat, Option.map_some, Option.getD_some] at last
    intro call member
    rcases List.mem_append.mp member with earlier | this
    · exact before call earlier
    · rw [List.mem_singleton.mp this, last]
      exact more

/-- Once the last command was read, it is that of the last call and of no earlier one. -/
theorem Reading.ended {crc : Bytes → UInt32} {unread : List Call} {now : Buffered σ nbuf}
    (reading : now.Reading crc unread) (ended : now.stream.command = SendCmd.key EndCmd) :
    now.Ended unread (.ok ()) := by
  -- The last call that was sent is the command that was read last.
  have before := reading.before
  have last := reading.last
  rcases List.eq_nil_or_concat' now.sent with nothing | ⟨front, final, split⟩
  · -- Before the first frame the command is zero.
    rw [nothing, ended] at last
    exact absurd last (by decide)
  · rw [split] at before last
    rw [List.dropLast_concat] at before
    simp only [List.getLast?_concat, Option.map_some, Option.getD_some] at last
    exact ⟨front, final, split, last.trans ended, before⟩

/-- The reason for the end of the thread carries over when the reader goes on or stays gone. -/
theorem Stopped.of_same {now after : Buffered σ nbuf} {panicked : Bool}
    (stopped : now.Stopped panicked) (calls : after.calls = now.calls)
    (free : after.free.items = now.free.items)
    (data : now.data.abandoned = true → after.data.abandoned = true)
    (left : ∀ error, (now.main = .leave (.error (.io error)) ∨
        now.main = .done (.error (.io error))) →
      after.main = .leave (.error (.io error)) ∨ after.main = .done (.error (.io error))) :
    after.Stopped panicked := by
  -- Whether the replies are buffers or end in the error, none of them has moved.
  refine ⟨stopped.1, ?_⟩
  rw [calls, free]
  rcases stopped.2 with ⟨clean, buffers, gone⟩ | ⟨error, erred, reported | ⟨taken, ended⟩⟩
  · exact Or.inl ⟨clean, buffers, data gone⟩
  · exact Or.inr ⟨error, erred, Or.inl reported⟩
  · exact Or.inr ⟨error, erred, Or.inr ⟨taken, left error ended⟩⟩

/-- What holds of the thread carries over when its replies stay and the reader goes on or left. -/
theorem ThreadHolds.of_same {now after : Buffered σ nbuf} (holds : now.ThreadHolds)
    (thread : after.thread = now.thread) (calls : after.calls = now.calls)
    (free : after.free.items = now.free.items)
    (data : now.data.abandoned = true → after.data.abandoned = true)
    (left : ∀ error, (now.main = .leave (.error (.io error)) ∨
        now.main = .done (.error (.io error))) →
      after.main = .leave (.error (.io error)) ∨ after.main = .done (.error (.io error))) :
    after.ThreadHolds := by
  -- Where the thread stands decides what is known, and it has not moved.
  unfold ThreadHolds at holds ⊢
  rw [thread]
  cases stands : now.thread with
  | pop spins | test spins | call packet =>
    rw [stands] at holds
    rw [calls, free]
    exact holds
  | push reply =>
    rw [stands] at holds
    rw [calls, free]
    cases reply with
    | ok buf => exact holds
    | error error => exact holds
  | leave panicked | done panicked =>
    rw [stands] at holds
    exact Stopped.of_same holds calls free data left

/-- States with the same packets and calls have sent the same. -/
theorem sent_of_same {now after : Buffered σ nbuf} (packets : after.packets = now.packets)
    (version : after.version = now.version) (calls : after.calls = now.calls) :
    after.sent = now.sent := by
  -- The calls that were sent are the answered ones and the packets under way.
  rw [sent, version, calls, packets]
  rfl

/-- Packets under way stay the same when the reader is not about to push one, before or behind. -/
theorem packets_idle {now after : Buffered σ nbuf} (thread : after.thread = now.thread)
    (data : after.data.items = now.data.items) (before : now.main ≠ .push)
    (behind : after.main ≠ .push) : after.packets = now.packets := by
  -- Only a reader that is about to push holds a packet of its own.
  have none_now : now.pending = [] := by
    unfold pending
    split
    · rename_i stands
      exact absurd stands before
    · rfl
  have none_after : after.pending = [] := by
    unfold pending
    split
    · rename_i stands
      exact absurd stands behind
    · rfl
  rw [packets, packets, thread, data, none_now, none_after]

/-- The reader finds room for its packet, because it holds a buffer itself. -/
theorem Sound.data_room {crc : Bytes → UInt32} {all : List Call} {now : Buffered σ nbuf}
    (sound : now.Sound crc all) (stands : now.main = .push) :
    now.data.items.length < nbuf := by
  -- Every buffer counts once, and the one of the reader is not in the ring.
  have tokens := sound.tokens
  rw [stands] at tokens
  simp only [MainPc.tokens] at tokens
  omega

/-- The handler thread finds room for its reply, because it holds a buffer or an error itself. -/
theorem Sound.free_room {crc : Bytes → UInt32} {all : List Call} {now : Buffered σ nbuf}
    (sound : now.Sound crc all) {reply : Reply} (stands : now.thread = .push reply) :
    now.free.items.length < nbuf := by
  -- Every buffer counts once, and the one of the thread is not in the ring.
  have tokens := sound.tokens
  rw [stands] at tokens
  simp only [ThreadPc.tokens] at tokens
  omega

/-- A buffer that is left behind has room for a header. -/
private theorem Stopped.pop_buffer {now : Buffered σ nbuf} {panicked : Bool}
    (stopped : now.Stopped panicked) {buf : Bytes} {rest : List Reply}
    (items : now.free.items = .ok buf :: rest) : cmdHeaderSize ≤ buf.length := by
  -- A thread that stopped has left buffers, and behind them at most its error.
  rcases stopped.2 with ⟨_, buffers, _⟩ | ⟨error, _, ⟨bufs, buffers, reported⟩ | ⟨taken, _⟩⟩
  · obtain ⟨other, same, room⟩ := buffers (.ok buf) (by simp [items])
    cases same
    exact room
  · -- The error stands behind all buffers, so the buffer in front is one of them.
    rw [items] at reported
    cases bufs with
    | nil => cases reported
    | cons first others =>
      cases reported
      obtain ⟨other, same, room⟩ := buffers (.ok buf) List.mem_cons_self
      cases same
      exact room
  · rw [items] at taken
    cases taken

/-- A buffer at the front of the free ring has room for a header. -/
theorem ThreadHolds.pop_buffer {now : Buffered σ nbuf} (holds : now.ThreadHolds) {buf : Bytes}
    {rest : List Reply} (items : now.free.items = .ok buf :: rest) :
    cmdHeaderSize ≤ buf.length := by
  -- A reply that is one of the buffers has the room of a buffer.
  have alone : AllBuffers now.free.items → cmdHeaderSize ≤ buf.length := by
    intro buffers
    obtain ⟨other, same, room⟩ := buffers (.ok buf) (by simp [items])
    cases same
    exact room
  unfold ThreadHolds at holds
  -- Until the thread stops, the ring holds buffers alone.
  split at holds
  · exact alone holds.2
  · exact alone holds.2
  · exact alone holds.2
  · exact alone holds.2.1
  · exact alone holds.2
  · exact Stopped.pop_buffer holds items
  · exact Stopped.pop_buffer holds items

/-- Taking a buffer changes nothing of a thread that has stopped. -/
private theorem Stopped.after_take {now after : Buffered σ nbuf} {panicked : Bool}
    (stopped : now.Stopped panicked) {buf : Bytes} (calls : after.calls = now.calls)
    (items : now.free.items = .ok buf :: after.free.items)
    (data : after.data.abandoned = now.data.abandoned) : after.Stopped panicked := by
  -- Without its first buffer the ring still ends as it did.
  refine ⟨stopped.1, ?_⟩
  rw [calls, data]
  rcases stopped.2 with ⟨clean, buffers, gone⟩ | ⟨error, erred, ⟨bufs, buffers, reported⟩ | ended⟩
  · rw [items] at buffers
    exact Or.inl ⟨clean, buffers.tail, gone⟩
  · rw [items] at reported
    cases bufs with
    | nil => cases reported
    | cons first others =>
      obtain ⟨_, rest⟩ := List.cons.inj reported
      exact Or.inr ⟨error, erred, Or.inl ⟨others, buffers.tail, rest⟩⟩
  · rw [items] at ended
    cases ended.1

/-- What holds of the thread carries over when the reader takes a buffer from the free ring. -/
theorem ThreadHolds.after_take {now after : Buffered σ nbuf} (holds : now.ThreadHolds)
    {buf : Bytes} (thread : after.thread = now.thread) (calls : after.calls = now.calls)
    (items : now.free.items = .ok buf :: after.free.items)
    (data : after.data.abandoned = now.data.abandoned) : after.ThreadHolds := by
  -- The buffers that are left are buffers as before.
  have tail : AllBuffers now.free.items → AllBuffers after.free.items := by
    intro buffers
    rw [items] at buffers
    exact buffers.tail
  unfold ThreadHolds at holds ⊢
  rw [thread, calls]
  cases stands : now.thread with
  | pop spins | test spins | call packet =>
    rw [stands] at holds
    exact ⟨holds.1, tail holds.2⟩
  | push reply =>
    rw [stands] at holds
    cases reply with
    | ok held => exact ⟨holds.1, tail holds.2.1, holds.2.2⟩
    | error error => exact ⟨holds.1, tail holds.2⟩
  | leave panicked | done panicked =>
    rw [stands] at holds
    exact Stopped.after_take holds calls items data

/-- An error is the last of the replies, and the answer to the last call. -/
private theorem Stopped.pop_error {now : Buffered σ nbuf} {panicked : Bool}
    (stopped : now.Stopped panicked) {error : IoError} {rest : List Reply}
    (items : now.free.items = .error error :: rest) : rest = [] ∧ Erred now.calls error := by
  -- The error is the last reply, so it is in front of the ring only when alone.
  rcases stopped.2 with ⟨_, buffers, _⟩ | ⟨other, erred, ⟨bufs, buffers, reported⟩ | ended⟩
  · obtain ⟨buf, impossible, _⟩ := buffers (.error error) (by simp [items])
    cases impossible
  · rw [items] at reported
    cases bufs with
    | nil =>
      cases reported
      exact ⟨rfl, erred⟩
    | cons first others =>
      obtain ⟨same, _⟩ := List.cons.inj reported
      obtain ⟨buf, impossible, _⟩ := buffers first List.mem_cons_self
      rw [← same] at impossible
      cases impossible
  · rw [items] at ended
    cases ended.1

/-- An error at the front of the free ring is the last reply of a thread that has stopped. -/
theorem ThreadHolds.pop_error {now : Buffered σ nbuf} (holds : now.ThreadHolds) {error : IoError}
    {rest : List Reply} (items : now.free.items = .error error :: rest) :
    rest = [] ∧ Erred now.calls error ∧ now.HasStopped := by
  -- A thread that goes on has given back buffers and nothing else.
  have never : ¬ AllBuffers now.free.items := by
    intro buffers
    obtain ⟨buf, impossible, _⟩ := buffers (.error error) (by simp [items])
    cases impossible
  unfold ThreadHolds at holds
  -- Until the thread stops, the ring holds buffers alone.
  split at holds
  · exact absurd holds.2 never
  · exact absurd holds.2 never
  · exact absurd holds.2 never
  · exact absurd holds.2.1 never
  · exact absurd holds.2 never
  · rename_i stands
    have popped := Stopped.pop_error holds items
    rw [holds.1] at stands
    exact ⟨popped.1, popped.2, Or.inl stands⟩
  · rename_i stands
    have popped := Stopped.pop_error holds items
    rw [holds.1] at stands
    exact ⟨popped.1, popped.2, Or.inr stands⟩

/-- What holds of the reader carries over a step of the thread that keeps what was sent. -/
theorem MainHolds.of_same {crc : Bytes → UInt32} {unread : List Call} {now after : Buffered σ nbuf}
    (holds : now.MainHolds crc unread) (main : after.main = now.main)
    (stream : after.stream = now.stream) (version : after.version = now.version)
    (sent : after.sent = now.sent)
    (stopped : now.HasStopped → after.calls = now.calls ∧ after.free.items = now.free.items ∧
      after.HasStopped) : after.MainHolds crc unread := by
  -- Where the reader stands decides what is known, and it has not moved.
  have reading : now.Reading crc unread → after.Reading crc unread := fun reading =>
    reading.of_same sent version (by rw [stream]) (by rw [stream]) (by rw [stream])
  -- Of the replies, only an error that was taken counts for how the reader ended.
  have ended : ∀ result, now.Ended unread result → after.Ended unread result := by
    intro result ended
    cases result with
    | ok _ =>
      simp only [Ended, sent] at ended ⊢
      exact ended
    | error failure =>
      cases failure with
      | io error =>
        simp only [Ended, sent] at ended ⊢
        rcases ended with ⟨erred, taken, gone, before⟩ | failed
        · obtain ⟨calls, free, still⟩ := stopped gone
          rw [calls, free]
          exact Or.inl ⟨erred, taken, still, before⟩
        · exact Or.inr failed
      | panic message => exact ended
  unfold MainHolds at holds ⊢
  rw [main, stream]
  cases stands : now.main with
  | read | push =>
    rw [stands] at holds
    exact ⟨reading holds.1, holds.2⟩
  | pop spins | test spins =>
    rw [stands] at holds
    exact reading holds
  | leave result | done result =>
    rw [stands] at holds
    exact ended result holds

/-- A thread that stands elsewhere has not left its loop. -/
theorem not_stopped {now : Buffered σ nbuf} {thread : ThreadPc}
    (stands : now.thread = thread) (going : ∀ panicked, thread ≠ .leave panicked)
    (still : ∀ panicked, thread ≠ .done panicked) : ¬ now.HasStopped := by
  -- The thread stands at one place only.
  intro stopped
  rcases stopped with leaving | gone
  · exact going false (stands.symm.trans leaving)
  · exact still false (stands.symm.trans gone)

/-- A reader that goes on has not abandoned the ring of packets, before or behind the step. -/
theorem Sound.data_kept {crc : Bytes → UInt32} {all : List Call} {now after : Buffered σ nbuf}
    (sound : now.Sound crc all) (data : after.data.abandoned = now.data.abandoned)
    (going : ∀ result, now.main ≠ .done result) (still : ∀ result, after.main ≠ .done result) :
    after.data.abandoned = true ↔ ∃ result, after.main = .done result := by
  -- The reader drops its end with its last step, which this one is not.
  rw [data, sound.dataGone]
  constructor
  · rintro ⟨result, stands⟩
    exact absurd stands (going result)
  · rintro ⟨result, stands⟩
    exact absurd stands (still result)

/-- A thread that goes on has not abandoned the ring of replies, before or behind the step. -/
theorem Sound.free_kept {crc : Bytes → UInt32} {all : List Call} {now after : Buffered σ nbuf}
    (sound : now.Sound crc all) (free : after.free.abandoned = now.free.abandoned)
    (going : ∀ panicked, now.thread ≠ .done panicked)
    (still : ∀ panicked, after.thread ≠ .done panicked) :
    after.free.abandoned = true ↔ ∃ panicked, after.thread = .done panicked := by
  -- The thread drops its end with its last step, which this one is not.
  rw [free, sound.freeGone]
  constructor
  · rintro ⟨panicked, stands⟩
    exact absurd stands (going panicked)
  · rintro ⟨panicked, stands⟩
    exact absurd stands (still panicked)

end Buffered

end Libbtrfs
