import Libbtrfs.SendStream.ReceivingProgress
import Libbtrfs.SendStream.SendRefinement

/-! What a receive can do with its stream alone, some schedule of a send has it do. -/

namespace Libbtrfs

namespace Receiving

variable {σ : Type} {crc : Bytes → UInt32} {handler : HandleCmd σ}

/-- An actor of a receive that cannot move is not moved by what arrives. -/
theorem idle_give {actor : Actor} {now : Receiving σ}
    (idle : step crc handler actor now = .idle) (more : Bytes) :
    step crc handler actor (now.give more) = .idle := by
  cases now with
  | opening ahead stream state =>
    cases actor with
    | thread => rfl
    | main =>
      -- The header is taken, refused or asked for.
      simp only [step, opens] at idle
      repeat' split at idle
      all_goals cases idle
  | plain stream state =>
    cases actor with
    | thread => rfl
    | main =>
      simp only [step, round] at idle
      repeat' split at idle
      all_goals cases idle
  | buffered now =>
    cases actor with
    | thread =>
      simp only [step] at idle ⊢
      cases moved : Buffered.threadStep handler now with
      | some next =>
        rw [moved] at idle
        cases idle
      | none =>
        -- The thread has gone, and does not come back for what arrives.
        obtain ⟨panicked, gone⟩ : ∃ panicked, now.thread = .done panicked := by
          by_contra there
          obtain ⟨next, goes⟩ := Buffered.threadStep_moves handler (not_exists.mp there)
          cases moved.symm.trans goes
        have still : (now.give more).thread = .done panicked := gone
        simp only [give, Buffered.threadStep, still]
        rfl
    | main =>
      simp only [step] at idle ⊢
      split at idle
      · cases idle
      · rename_i fed
        rw [Bool.not_eq_true] at fed
        cases moved : Buffered.mainStep crc now with
        | some next =>
          rw [moved] at idle
          cases idle
        | none =>
          -- The reader has gone as well.
          obtain ⟨result, gone⟩ : ∃ result, now.main = .done result := by
            by_contra there
            obtain ⟨next, goes⟩ := Buffered.mainStep_moves crc (not_exists.mp there)
            cases moved.symm.trans goes
          have still : (now.give more).main = .done result := gone
          simp only [give, Buffered.starving_give fed, Buffered.mainStep, still]
          rfl
  | done result =>
    cases actor with
    | main => rfl
    | thread => rfl

/-- A receive that is done when more has arrived was done before. -/
theorem done_of_give {now : Receiving σ} {more : Bytes} {result : Outcome Unit}
    (ended : now.give more = .done result) : now = .done result := by
  -- Only what is done stays done.
  cases now with
  | done other => exact ended
  | opening | plain | buffered => cases ended

/-- A receive that has its whole stream begins by itself with the header. -/
theorem alone_opens {ahead : Bool} {stream : Bytes} {state : σ} {next : Receiving σ}
    (moved : opens ahead (.new stream none) state = .moves next) :
    (receiveStream crc handler).alone.step .main ((start ahead state).give stream) = some next := by
  -- All of the stream is in front of it, as if it had been there from the beginning.
  have same : (SendStream.new [] none).give stream = .new stream none := rfl
  rw [Consumer.alone_moves]
  simp only [receiveStream, start, give, step, same]
  exact moved

/-- The turns of the reader are those of the reading process, as long as it does not starve. -/
theorem alone_main {now after : Buffered σ (clampBufs 2)} (fed : now.starving crc = false)
    (step : Buffered.MainStep crc now after) :
    (receiveStream crc handler).alone.step .main (.buffered now) = some (.buffered after) := by
  -- It does not ask for more, so its step is one that is taken alone.
  rw [Consumer.alone_moves]
  simp only [receiveStream, Receiving.step, fed, (Buffered.mainStep_iff crc now after).mpr step]
  rfl

/-- The turns of the handler thread are its own. -/
theorem alone_thread {now after : Buffered σ (clampBufs 2)}
    (step : Buffered.ThreadStep handler now after) :
    (receiveStream crc handler).alone.step .thread (.buffered now) = some (.buffered after) := by
  -- It never asks for more of the stream.
  rw [Consumer.alone_moves]
  simp only [receiveStream, Receiving.step, (Buffered.threadStep_iff handler now after).mpr step]
  rfl

end Receiving

namespace Sending

variable {σ : Type} {crc : Bytes → UInt32} {handler : HandleCmd σ} {builder : SendBuilder}
  {kernel : SendKernel} {call : SendCall} {room : Nat} {state : σ}

/-- A receive that asks for more has not returned. -/
theorem hungry_going {actor : Actor} {receiver : Receiving σ}
    (hungry : (receiveStream crc handler).step actor receiver = .hungry) :
    receiver.result = none := by
  -- Behind its return it takes no further step, and asks for nothing.
  by_contra returned
  obtain ⟨result, returned⟩ := Option.ne_none_iff_exists'.mp returned
  cases hungry.symm.trans (Receiving.result_idle crc handler actor returned)

/-- What a receive can take by itself, it can take of a send that writes to a pipe with room. -/
theorem run_takes (roomy : 0 < room) {taken : Bytes} {receiver : Receiving σ}
    (takes : (receiveStream crc handler).Takes (.start builder.buffered state) taken receiver)
    (rest : Bytes) (whole : (kernel.send builder.args).1 = taken ++ rest) :
    ∃ schedule, (system crc handler).run schedule (builder.sending kernel call room state) =
      { builder.sending kernel call room state with
        sender := .sending rest (kernel.send builder.args).2
        receiver := receiver } := by
  induction takes generalizing rest with
  | start =>
    refine ⟨[], ?_⟩
    rw [System.run, SendBuilder.sending, whole, List.nil_append]
  | @moves actor taken before next _ moved ih =>
    obtain ⟨schedule, ran⟩ := ih rest whole
    refine ⟨schedule ++ [.receiver actor], (system crc handler).run_concat ?_⟩
    rw [ran]
    simp only [system, receiverStep, Consumer.pull, moved, Option.map_some]
  | @pulls actor taken before item _ hungry ih =>
    -- The ioctl writes one more byte, and the receiver takes it off the pipe at once.
    rw [List.append_assoc] at whole
    obtain ⟨schedule, ran⟩ := ih ([item] ++ rest) whole
    have going := hungry_going hungry
    have wrote : (system crc handler).run (schedule ++ [.sender])
        (builder.sending kernel call room state) =
        { builder.sending kernel call room state with
          pipe := [item]
          sender := .sending rest (kernel.send builder.args).2
          receiver := before } := by
      refine (system crc handler).run_concat ?_
      rw [ran]
      simp only [system, senderStep, List.singleton_append, going, Option.isSome_none,
        Bool.false_eq_true, if_false]
      exact if_pos roomy
    refine ⟨schedule ++ [.sender] ++ [.receiver actor], (system crc handler).run_concat ?_⟩
    rw [wrote]
    simp only [system, receiverStep, Consumer.pull, hungry, Option.map_some]
    rfl

/-- Where the receive gets to alone with a front part of the stream, it gets to in a send. -/
theorem run_alone (roomy : 0 < room) {front rest : Bytes}
    (whole : (kernel.send builder.args).1 = front ++ rest) (turns : List Actor) :
    ∃ schedule left receiver,
      (system crc handler).run schedule (builder.sending kernel call room state) =
        { builder.sending kernel call room state with
          sender := .sending (left ++ rest) (kernel.send builder.args).2
          receiver := receiver } ∧
      receiver.give left = (receiveStream crc handler).alone.run turns
        ((Receiving.start builder.buffered state).give front) := by
  -- It takes the bytes of that part one by one, and may leave some of them.
  obtain ⟨taken, left, receiver, split, takes, same⟩ := Consumer.takes_of_alone
    (receiveStream_lawful crc handler) (fun _ _ items idle => Receiving.idle_give idle items)
    (.start builder.buffered state) front turns
  rw [split, List.append_assoc] at whole
  obtain ⟨schedule, ran⟩ := run_takes roomy takes (left ++ rest) whole
  exact ⟨schedule, left, receiver, ran, same⟩

end Sending

end Libbtrfs
