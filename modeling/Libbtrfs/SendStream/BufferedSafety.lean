import Libbtrfs.SendStream.BufferedStart

/-! No buffer is lost, no process waits for the other in vain, and frames are handed over in order. -/

namespace Libbtrfs

/-- The buffers that the reader keeps. -/
def MainPc.buffers : MainPc → Nat
  | .read | .push | .leave (.ok ()) | .done (.ok ()) => 1
  | _ => 0

/-- The buffers that the handler thread keeps. -/
def ThreadPc.buffers : ThreadPc → Nat
  | .call _ | .push (.ok _) => 1
  | _ => 0

/-- The buffers among the replies in the free ring. -/
def bufferCount (replies : List Reply) : Nat := replies.countP fun reply => reply.isOk

/-- The reader waits for a reply. -/
def MainPc.Waits (main : MainPc) : Prop := ∃ spins, main = .pop spins ∨ main = .test spins

/-- The handler thread waits for a packet. -/
def ThreadPc.Waits (thread : ThreadPc) : Prop := ∃ spins, thread = .pop spins ∨ thread = .test spins

/-- Two calls answered without an error cannot end with one that was. -/
theorem NoErrors.not_erred {calls : List (Call × Outcome (Option Unit))} {error : IoError}
    (clean : NoErrors calls) (erred : Erred calls error) : False := by
  -- The error would be one of the answers, and all of those are clean.
  obtain ⟨before, call, split, _⟩ := erred
  obtain ⟨goes, answered⟩ := clean (call, .error (.io error)) (by simp [split])
  cases answered

/-- Replies that are all buffers count as buffers. -/
theorem AllBuffers.count {replies : List Reply} (buffers : AllBuffers replies) :
    bufferCount replies = replies.length := by
  -- Every one of the replies is counted.
  rw [bufferCount, List.countP_eq_length]
  intro reply member
  obtain ⟨buf, same, _⟩ := buffers reply member
  rw [same]
  rfl

/-- The reader has panicked. -/
def MainPc.Panicked (main : MainPc) : Prop :=
  ∃ message, main = .leave (.error (.panic message)) ∨ main = .done (.error (.panic message))

namespace Buffered

variable {σ : Type} {nbuf : Nat}

/-- No call has failed, and the receive has not either. -/
def BeforeError (now : Buffered σ nbuf) : Prop :=
  NoErrors now.calls ∧
    ∀ failure, now.main ≠ .leave (.error failure) ∧ now.main ≠ .done (.error failure)

/-- Without an error among its answers, a thread that has stopped has left buffers alone. -/
private theorem stopped_buffers {now : Buffered σ nbuf} {panicked : Bool}
    (stopped : now.Stopped panicked) (clean : NoErrors now.calls) :
    AllBuffers now.free.items := by
  -- A thread that stops without an error has given back buffers alone.
  rcases stopped.2 with ⟨_, buffers, _⟩ | ⟨error, erred, _⟩
  · exact buffers
  · exact absurd (clean.not_erred erred) id

/-- Before an error the handler thread holds and returns buffers only. -/
theorem ThreadHolds.before_error {now : Buffered σ nbuf} (holds : now.ThreadHolds)
    (clean : NoErrors now.calls) :
    AllBuffers now.free.items ∧ now.thread.buffers = now.thread.tokens := by
  -- Without an error the thread holds a buffer wherever it holds a reply.
  unfold ThreadHolds at holds
  cases stands : now.thread with
  | pop spins | test spins | call packet =>
    rw [stands] at holds
    exact ⟨holds.2, rfl⟩
  | push reply =>
    rw [stands] at holds
    cases reply with
    | ok buf => exact ⟨holds.2.1, rfl⟩
    | error error => exact absurd (clean.not_erred holds.1) id
  | leave panicked | done panicked =>
    rw [stands] at holds
    exact ⟨stopped_buffers holds clean, rfl⟩

/-- Before an error the reader, the handler thread and the two rings hold all of the buffers. -/
theorem Sound.buffers {crc : Bytes → UInt32} {all : List Call} {now : Buffered σ nbuf}
    (sound : now.Sound crc all) (early : now.BeforeError) :
    now.main.buffers + now.data.items.length + now.thread.buffers +
      bufferCount now.free.items = nbuf := by
  -- Without an error every token is a buffer.
  obtain ⟨buffers, thread⟩ := sound.thread.before_error early.1
  have main : now.main.buffers = now.main.tokens := by
    cases stands : now.main with
    | read | push | pop spins | test spins => rfl
    | leave result =>
      cases result with
      | ok _ => rfl
      | error failure => exact absurd stands (early.2 failure).1
    | done result =>
      cases result with
      | ok _ => rfl
      | error failure => exact absurd stands (early.2 failure).2
  have tokens := sound.tokens
  rw [buffers.count]
  omega

/-- The two processes never wait for each other at two empty rings. -/
theorem Sound.not_both_wait {crc : Bytes → UInt32} {all : List Call} {now : Buffered σ nbuf}
    (sound : now.Sound crc all) (some_buf : 0 < nbuf) :
    ¬ (now.main.Waits ∧ now.free.items = [] ∧ now.thread.Waits ∧ now.data.items = []) := by
  intro ⟨⟨spins, reader⟩, free, ⟨turns, thread⟩, data⟩
  -- With both hands and both rings empty there would be no buffer left at all.
  have main : now.main.tokens = 0 := by
    rcases reader with stands | stands
    · rw [stands]
      rfl
    · rw [stands]
      rfl
  have hand : now.thread.tokens = 0 := by
    rcases thread with stands | stands
    · rw [stands]
      rfl
    · rw [stands]
      rfl
  have tokens := sound.tokens
  rw [data, free, main, hand] at tokens
  simp only [List.length_nil] at tokens
  omega

/-- The reader does not panic for want of room in the ring of packets. -/
theorem Sound.panic_message {crc : Bytes → UInt32} {all : List Call} {now : Buffered σ nbuf}
    (sound : now.Sound crc all) {message : String}
    (ended : now.main = .leave (.error (.panic message)) ∨
      now.main = .done (.error (.panic message))) : message = "Handler thread panicked" := by
  -- The invariant knows the one panic with which the reader ends.
  obtain ⟨unread, _, holds⟩ := sound.order
  rcases ended with stands | stands
  · rw [MainHolds, stands] at holds
    exact holds
  · rw [MainHolds, stands] at holds
    exact holds

/-- The reader panics in one place only: where it finds that the handler thread has gone. -/
theorem Sound.panic_origin {crc : Bytes → UInt32} {all : List Call} {now after : Buffered σ nbuf}
    (sound : now.Sound crc all) (step : MainStep crc now after) (panicked : after.main.Panicked) :
    now.main.Panicked ∨ (∃ spins, now.main = .test spins) ∧ now.free.abandoned = true := by
  -- Each step is asked whether it ends the reader with a panic.
  obtain ⟨message, ended⟩ := panicked
  cases step with
  | finish _ _ | read _ _ _ | push _ _ | take _ _ | fail _ _ | spin _ _ _ | doubt _ _ _
  | wait _ _ =>
    -- None of these steps ends the reader with a panic.
    rcases ended with leaving | done
    · cases leaving
    · cases done
  | refuse stands more failed =>
    -- A read into a buffer with room fails with an error of the stream.
    obtain ⟨unread, _, holds⟩ := sound.order
    rw [MainHolds, stands] at holds
    obtain ⟨error, rfl⟩ := takeFrame_io (readCmd_error ⟨holds.1.start, holds.2⟩ failed)
    rcases ended with leaving | done
    · cases leaving
    · cases done
  | full stands full =>
    -- The ring is never full when the reader pushes.
    have room := sound.data_room stands
    have none_left := Ring.push_none full
    omega
  | orphaned stands gone => exact Or.inr ⟨⟨_, stands⟩, gone⟩
  | leave stands =>
    rcases ended with leaving | done
    · cases leaving
    · cases done
      exact Or.inl ⟨message, Or.inl stands⟩

/-- A reader that still waits finds the handler thread there, or its last reply in the ring. -/
theorem Sound.still_there {crc : Bytes → UInt32} {all : List Call} {now : Buffered σ nbuf}
    (sound : now.Sound crc all) (waits : now.main.Waits) (empty : now.free.items = []) :
    now.free.abandoned = false := by
  -- A thread that has gone had found the reader gone, or had reported an error to it.
  by_contra gone
  obtain ⟨panicked, done⟩ := sound.freeGone.mp (Bool.not_eq_false _ ▸ gone)
  have going : ∀ result, now.main ≠ .leave result ∧ now.main ≠ .done result := by
    obtain ⟨spins, stands | stands⟩ := waits
    · rw [stands]
      exact fun result => ⟨by simp, by simp⟩
    · rw [stands]
      exact fun result => ⟨by simp, by simp⟩
  have holds := sound.thread
  rw [ThreadHolds, done] at holds
  rcases holds.2 with ⟨_, _, abandoned⟩ | ⟨error, _, ⟨bufs, _, items⟩ | ⟨_, leaving | ended⟩⟩
  · obtain ⟨result, ended⟩ := sound.dataGone.mp abandoned
    exact (going result).2 ended
  · rw [empty] at items
    simp at items
  · exact (going _).1 leaving
  · exact (going _).2 ended

/-- What was handed to the handler is a front part of the calls of the stream. -/
theorem Sound.delivered {crc : Bytes → UInt32} {all : List Call} {now : Buffered σ nbuf}
    (sound : now.Sound crc all) : now.calls.map Prod.fst <+: all := by
  -- The answered calls come before the packets under way and the unread calls.
  obtain ⟨unread, split, _⟩ := sound.order
  refine ⟨now.packets.map (Packet.call now.version) ++ unread, ?_⟩
  rw [split, sent, List.append_assoc]

/-- A receive returns once both processes have gone, the result being the reader's. -/
theorem returned_done {now : Buffered σ nbuf} {result : Outcome Unit}
    (finished : now.returned = some result) :
    ∃ outcome panicked, now.main = .done outcome ∧ now.thread = .done panicked ∧
      (panicked = false → outcome = result) := by
  -- The panic of the thread is the only thing that overrules the reader.
  unfold returned at finished
  split at finished
  · rename_i reader thread
    cases finished
    exact ⟨_, _, reader, thread, fun _ => rfl⟩
  · rename_i reader thread
    exact ⟨_, _, reader, thread, fun clean => by cases clean⟩
  · rename_i reader thread
    cases finished
    exact ⟨_, _, reader, thread, fun _ => rfl⟩
  · cases finished

/-- A handler that does not panic leaves the result to the reader. -/
theorem Sound.returned {crc : Bytes → UInt32} {all : List Call} {now : Buffered σ nbuf}
    (sound : now.Sound crc all) {result : Outcome Unit} (finished : now.returned = some result) :
    now.main = .done result ∧ now.thread = .done false := by
  -- A thread that has gone did not panic, so the result is the one of the reader.
  obtain ⟨outcome, panicked, reader, thread, same⟩ := returned_done finished
  have stopped := sound.thread
  rw [ThreadHolds, thread] at stopped
  have clean := stopped.1
  rw [clean] at thread
  rw [same clean] at reader
  exact ⟨reader, thread⟩

/-- Once both processes have gone, what was sent is what was called and what is left in the ring. -/
theorem sent_done {now : Buffered σ nbuf} {result : Outcome Unit} {panicked : Bool}
    (reader : now.main = .done result) (thread : now.thread = .done panicked) :
    now.sent = now.calls.map Prod.fst ++ now.data.items.map (Packet.call now.version) := by
  -- Neither of the two holds a packet any longer.
  rw [sent, packets, pending, reader, thread]
  simp only [ThreadPc.inHand, List.nil_append, List.append_nil]

/-- A handler that asks for every next command. -/
def eagerHandler : HandleCmd Unit := fun _ _ _ state => (.ok (some ()), state)

/-- The eager handler does not panic. -/
theorem eagerHandler_calm : eagerHandler.Calm := by
  -- What is returned does not depend on the frame.
  intro command payload version state
  exact Outcome.not_panics_ok _

end Buffered

end Libbtrfs
