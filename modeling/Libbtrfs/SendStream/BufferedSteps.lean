import Libbtrfs.SendStream.Buffered

/-! What each process of the buffered receiver can do in one step, said once. -/

namespace Libbtrfs

namespace Buffered

variable {σ : Type} {nbuf : Nat}

/-- The packet that the reader has made of its last frame. -/
def packet (now : Buffered σ nbuf) : Packet :=
  ⟨now.stream.command, now.stream.data, now.stream.buf⟩

/-- The steps of the reader, each with what it finds and what it changes. -/
inductive MainStep (crc : Bytes → UInt32) (now : Buffered σ nbuf) : Buffered σ nbuf → Prop where
  | finish (stands : now.main = .read) (last : now.stream.command = SendCmd.key EndCmd) :
      MainStep crc now { now with stream := now.stream.storePos, main := .leave (.ok ()) }
  | refuse {failure : Failure} {stream : SendStream} (stands : now.main = .read)
      (more : now.stream.command ≠ SendCmd.key EndCmd)
      (failed : readCmd crc now.stream = .error failure stream) :
      MainStep crc now { now with stream := stream, main := .leave (.error failure) }
  | read {stream : SendStream} (stands : now.main = .read)
      (more : now.stream.command ≠ SendCmd.key EndCmd)
      (done : readCmd crc now.stream = .ok () stream) :
      MainStep crc now { now with stream := stream, main := .push }
  | push {data : Ring Packet nbuf} (stands : now.main = .push)
      (pushed : now.data.push now.packet = some data) :
      MainStep crc now
        { now with stream := { now.stream with buf := [] }, data := data, main := .pop 0 }
  | full (stands : now.main = .push) (full : now.data.push now.packet = none) :
      MainStep crc now
        { now with
          stream := { now.stream with buf := [] }
          main := .leave (.error (.panic "Handler panicked: Full(_)")) }
  | take {spins : Nat} {buf : Bytes} {free : Ring Reply nbuf} (stands : now.main = .pop spins)
      (popped : now.free.pop = some (.ok buf, free)) :
      MainStep crc now
        { now with stream := { now.stream with buf := buf }, free := free, main := .read }
  | fail {spins : Nat} {error : IoError} {free : Ring Reply nbuf} (stands : now.main = .pop spins)
      (popped : now.free.pop = some (.error error, free)) :
      MainStep crc now { now with free := free, main := .leave (.error (.io error)) }
  | spin {spins : Nat} (stands : now.main = .pop spins) (empty : now.free.pop = none)
      (few : ¬ spins ≥ mainMaxSpins) :
      MainStep crc now { now with main := .pop (spins + 1) }
  | doubt {spins : Nat} (stands : now.main = .pop spins) (empty : now.free.pop = none)
      (many : spins ≥ mainMaxSpins) : MainStep crc now { now with main := .test spins }
  | orphaned {spins : Nat} (stands : now.main = .test spins)
      (gone : now.free.abandoned = true) :
      MainStep crc now
        { now with main := .leave (.error (.panic "Handler thread panicked")) }
  | wait {spins : Nat} (stands : now.main = .test spins) (there : now.free.abandoned = false) :
      MainStep crc now { now with main := .pop spins }
  | leave {result : Outcome Unit} (stands : now.main = .leave result) :
      MainStep crc now { now with data := now.data.abandon, main := .done result }

/-- The steps of the handler thread, each with what it finds and what it changes. -/
inductive ThreadStep (handle : HandleCmd σ) (now : Buffered σ nbuf) : Buffered σ nbuf → Prop where
  | take {spins : Nat} {packet : Packet} {data : Ring Packet nbuf}
      (stands : now.thread = .pop spins) (popped : now.data.pop = some (packet, data)) :
      ThreadStep handle now { now with data := data, thread := .call packet }
  | spin {spins : Nat} (stands : now.thread = .pop spins) (empty : now.data.pop = none)
      (few : ¬ spins ≥ threadMaxSpins) :
      ThreadStep handle now { now with thread := .pop (spins + 1) }
  | doubt {spins : Nat} (stands : now.thread = .pop spins) (empty : now.data.pop = none)
      (many : spins ≥ threadMaxSpins) : ThreadStep handle now { now with thread := .test spins }
  | quit {spins : Nat} (stands : now.thread = .test spins) (gone : now.data.abandoned = true) :
      ThreadStep handle now { now with thread := .leave false }
  | wait {spins : Nat} (stands : now.thread = .test spins)
      (there : now.data.abandoned = false) :
      ThreadStep handle now { now with thread := .pop spins }
  | slice {packet : Packet} (stands : now.thread = .call packet)
      (outside : getRange packet.buf packet.payload.start packet.payload.stop = none) :
      ThreadStep handle now { now with thread := .leave true }
  | panic {packet : Packet} {payload : Bytes} {message : String} {handler : σ}
      (stands : now.thread = .call packet)
      (inside : getRange packet.buf packet.payload.start packet.payload.stop = some payload)
      (answered : handle packet.command payload now.version now.handler =
        (.error (.panic message), handler)) :
      ThreadStep handle now
        { now with
          handler := handler
          calls := now.calls ++
            [(⟨packet.command, payload, now.version⟩, .error (.panic message))]
          thread := .leave true }
  | refuse {packet : Packet} {payload : Bytes} {error : IoError} {handler : σ}
      (stands : now.thread = .call packet)
      (inside : getRange packet.buf packet.payload.start packet.payload.stop = some payload)
      (answered : handle packet.command payload now.version now.handler =
        (.error (.io error), handler)) :
      ThreadStep handle now
        { now with
          handler := handler
          calls := now.calls ++ [(⟨packet.command, payload, now.version⟩, .error (.io error))]
          thread := .push (.error error) }
  | accept {packet : Packet} {payload : Bytes} {goes : Option Unit} {handler : σ}
      (stands : now.thread = .call packet)
      (inside : getRange packet.buf packet.payload.start packet.payload.stop = some payload)
      (answered : handle packet.command payload now.version now.handler = (.ok goes, handler)) :
      ThreadStep handle now
        { now with
          handler := handler
          calls := now.calls ++ [(⟨packet.command, payload, now.version⟩, .ok goes)]
          thread := .push (.ok packet.buf) }
  | report {error : IoError} {free : Ring Reply nbuf} (stands : now.thread = .push (.error error))
      (pushed : now.free.push (.error error) = some free) :
      ThreadStep handle now { now with free := free, thread := .leave false }
  | giveBack {buf : Bytes} {free : Ring Reply nbuf} (stands : now.thread = .push (.ok buf))
      (pushed : now.free.push (.ok buf) = some free) :
      ThreadStep handle now { now with free := free, thread := .pop 0 }
  | full {reply : Reply} (stands : now.thread = .push reply)
      (full : now.free.push reply = none) :
      ThreadStep handle now { now with thread := .leave false }
  | leave {panicked : Bool} (stands : now.thread = .leave panicked) :
      ThreadStep handle now { now with free := now.free.abandon, thread := .done panicked }

/-- What the reader does in one turn is one of its steps. -/
theorem mainStep_cases {crc : Bytes → UInt32} {now after : Buffered σ nbuf}
    (stepped : mainStep crc now = some after) : MainStep crc now after := by
  -- Every branch of the turn is one of the rules.
  unfold mainStep at stepped
  split at stepped
  · rename_i stands
    split at stepped
    · rename_i last
      cases stepped
      exact .finish stands last
    · rename_i more
      split at stepped
      · rename_i failed
        cases stepped
        exact .refuse stands more failed
      · rename_i done
        cases stepped
        exact .read stands more done
  · rename_i stands
    simp only at stepped
    split at stepped
    · rename_i pushed
      cases stepped
      exact .push stands pushed
    · rename_i full
      cases stepped
      exact .full stands full
  · rename_i stands
    split at stepped
    · rename_i popped
      cases stepped
      exact .take stands popped
    · rename_i popped
      cases stepped
      exact .fail stands popped
    · rename_i empty
      split at stepped
      · rename_i many
        cases stepped
        exact .doubt stands empty many
      · rename_i few
        cases stepped
        exact .spin stands empty few
  · rename_i stands
    split at stepped
    · rename_i gone
      cases stepped
      exact .orphaned stands gone
    · rename_i there
      cases stepped
      exact .wait stands (Bool.not_eq_true _ ▸ there)
  · rename_i stands
    cases stepped
    exact .leave stands
  · cases stepped

/-- Every step of the reader is what it does in one turn. -/
theorem MainStep.taken {crc : Bytes → UInt32} {now after : Buffered σ nbuf}
    (step : MainStep crc now after) : mainStep crc now = some after := by
  -- Every rule takes one branch of the turn.
  cases step with
  | finish stands last => simp only [mainStep, stands, if_pos last]
  | refuse stands more failed => simp only [mainStep, stands, if_neg more, failed]
  | read stands more done => simp only [mainStep, stands, if_neg more, done]
  | push stands pushed =>
    rw [packet] at pushed
    simp only [mainStep, stands, pushed]
  | full stands full =>
    rw [packet] at full
    simp only [mainStep, stands, full]
  | take stands popped => simp only [mainStep, stands, popped]
  | fail stands popped => simp only [mainStep, stands, popped]
  | spin stands empty few => simp only [mainStep, stands, empty, if_neg few]
  | doubt stands empty many => simp only [mainStep, stands, empty, if_pos many]
  | orphaned stands gone => simp only [mainStep, stands, if_pos gone]
  | wait stands there => simp only [mainStep, stands, there, Bool.false_eq_true, if_false]
  | leave stands => simp only [mainStep, stands]

/-- The reader steps exactly as its list of steps says. -/
theorem mainStep_iff (crc : Bytes → UInt32) (now after : Buffered σ nbuf) :
    mainStep crc now = some after ↔ MainStep crc now after :=
  ⟨mainStep_cases, MainStep.taken⟩

/-- What the handler thread does in one turn is one of its steps. -/
theorem threadStep_cases {handle : HandleCmd σ} {now after : Buffered σ nbuf}
    (stepped : threadStep handle now = some after) : ThreadStep handle now after := by
  -- Every branch of the turn is one of the rules.
  unfold threadStep at stepped
  split at stepped
  · rename_i stands
    split at stepped
    · rename_i popped
      cases stepped
      exact .take stands popped
    · rename_i empty
      split at stepped
      · rename_i many
        cases stepped
        exact .doubt stands empty many
      · rename_i few
        cases stepped
        exact .spin stands empty few
  · rename_i stands
    split at stepped
    · rename_i gone
      cases stepped
      exact .quit stands gone
    · rename_i there
      cases stepped
      exact .wait stands (Bool.not_eq_true _ ▸ there)
  · rename_i packet stands
    split at stepped
    · rename_i outside
      cases stepped
      exact .slice stands outside
    · rename_i payload inside
      simp only at stepped
      -- The answer of the handler decides which of the three ways the thread goes.
      cases answered : handle packet.command payload now.version now.handler with
      | mk answer handler =>
        rw [answered] at stepped
        simp only at stepped
        split at stepped
        · rename_i message
          cases stepped
          exact .panic stands inside answered
        · rename_i error
          cases stepped
          exact .refuse stands inside answered
        · rename_i goes
          cases stepped
          exact .accept stands inside answered
  · rename_i reply stands
    split at stepped
    · rename_i pushed
      cases stepped
      exact .report stands pushed
    · rename_i full
      cases stepped
      exact .full stands full
    · rename_i pushed
      cases stepped
      exact .giveBack stands pushed
    · rename_i full
      cases stepped
      exact .full stands full
  · rename_i stands
    cases stepped
    exact .leave stands
  · cases stepped

/-- Every step of the handler thread is what it does in one turn. -/
theorem ThreadStep.taken {handle : HandleCmd σ} {now after : Buffered σ nbuf}
    (step : ThreadStep handle now after) : threadStep handle now = some after := by
  -- Every rule takes one branch of the turn.
  cases step with
  | take stands popped => simp only [threadStep, stands, popped]
  | spin stands empty few => simp only [threadStep, stands, empty, if_neg few]
  | doubt stands empty many => simp only [threadStep, stands, empty, if_pos many]
  | quit stands gone => simp only [threadStep, stands, if_pos gone]
  | wait stands there => simp only [threadStep, stands, there, Bool.false_eq_true, if_false]
  | slice stands outside => simp only [threadStep, stands, outside]
  | panic stands inside answered => simp only [threadStep, stands, inside, answered]
  | refuse stands inside answered => simp only [threadStep, stands, inside, answered]
  | accept stands inside answered => simp only [threadStep, stands, inside, answered]
  | report stands pushed => simp only [threadStep, stands, pushed]
  | giveBack stands pushed => simp only [threadStep, stands, pushed]
  | full stands full =>
    rename_i reply
    cases reply with
    | error error => simp only [threadStep, stands, full]
    | ok buf => simp only [threadStep, stands, full]
  | leave stands => simp only [threadStep, stands]

/-- The handler thread steps exactly as its list of steps says. -/
theorem threadStep_iff (handle : HandleCmd σ) (now after : Buffered σ nbuf) :
    threadStep handle now = some after ↔ ThreadStep handle now after :=
  ⟨threadStep_cases, ThreadStep.taken⟩

/-- The reader touches neither the handler thread nor what it has called. -/
theorem MainStep.frame {crc : Bytes → UInt32} {now after : Buffered σ nbuf}
    (step : MainStep crc now after) :
    after.thread = now.thread ∧ after.calls = now.calls ∧ after.version = now.version ∧
      after.handler = now.handler := by
  -- No rule of the reader names what belongs to the handler thread.
  cases step <;> exact ⟨rfl, rfl, rfl, rfl⟩

/-- A reader that has dropped its ends of the rings does not step any more. -/
theorem MainStep.not_done {crc : Bytes → UInt32} {now after : Buffered σ nbuf}
    (step : MainStep crc now after) (result : Outcome Unit) : now.main ≠ .done result := by
  -- Every rule names the place it starts from, and none starts from the end.
  intro done
  cases step with
  | finish stands _ | refuse stands _ _ | read stands _ _ | push stands _ | full stands _
  | take stands _ | fail stands _ | spin stands _ _ | doubt stands _ _ | orphaned stands _
  | wait stands _ | leave stands =>
    rw [stands] at done
    cases done

/-- A handler thread that has dropped its ends of the rings does not step any more. -/
theorem ThreadStep.not_done {handle : HandleCmd σ} {now after : Buffered σ nbuf}
    (step : ThreadStep handle now after) (panicked : Bool) : now.thread ≠ .done panicked := by
  -- Every rule names the place it starts from, and none starts from the end.
  intro done
  cases step with
  | take stands _ | spin stands _ _ | doubt stands _ _ | quit stands _ | wait stands _
  | slice stands _ | panic stands _ _ | refuse stands _ _ | accept stands _ _ | report stands _
  | giveBack stands _ | full stands _ | leave stands =>
    rw [stands] at done
    cases done

/-- The handler thread does not touch the reader. -/
theorem ThreadStep.frame {handle : HandleCmd σ} {now after : Buffered σ nbuf}
    (step : ThreadStep handle now after) :
    after.main = now.main ∧ after.stream = now.stream ∧ after.version = now.version ∧
      after.data.abandoned = now.data.abandoned := by
  -- The ring of packets is touched by a pop alone, which keeps its mark.
  cases step with
  | take stands popped => exact ⟨rfl, rfl, rfl, (Ring.pop_some popped).2⟩
  | _ => exact ⟨rfl, rfl, rfl, rfl⟩

end Buffered

end Libbtrfs
