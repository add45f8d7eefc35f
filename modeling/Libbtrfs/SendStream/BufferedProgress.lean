import Libbtrfs.SendStream.BufferedSafety

/-! The buffered receiver returns under every fair schedule. -/

namespace Libbtrfs

/-- What is left to do for the reader, which reads from the given number of bytes. -/
def MainPc.work (bytes : Nat) : MainPc → Nat
  | .read | .pop _ | .test _ => 6 * bytes + 2
  | .push => 6 * bytes + 7
  | .leave _ => 1
  | .done _ => 0

/-- What is left to do for the handler thread. -/
def ThreadPc.work : ThreadPc → Nat
  | .pop _ | .test _ => 2
  | .call _ => 5
  | .push _ => 4
  | .leave _ => 1
  | .done _ => 0

/-- A reader whose reply is there finds it after one more turn at most. -/
def MainPc.patience : MainPc → Nat
  | .test _ => 1
  | _ => 0

/--
How often the handler thread can turn before it gets something done.

In front of an empty ring it spins until it doubts that the reader is still there.
-/
def ThreadPc.patience (packets : List Packet) : ThreadPc → Nat
  | .pop spins => if packets = [] then threadMaxSpins - spins + 1 else 0
  | .test _ => if packets = [] then 0 else 1
  | _ => 0

/-- A reader that waits has the same work before it wherever it does so. -/
theorem MainPc.Waits.work {main : MainPc} (waits : main.Waits) (bytes : Nat) :
    main.work bytes = 6 * bytes + 2 := by
  -- It waits in the ring or in front of the test of it.
  obtain ⟨spins, rfl | rfl⟩ := waits
  · rfl
  · rfl

/-- A thread does not spin for longer than its limit. -/
theorem ThreadPc.patience_le (packets : List Packet) (thread : ThreadPc) :
    thread.patience packets ≤ threadMaxSpins + 1 := by
  -- The spins that were made are taken off those that are allowed.
  unfold patience
  split
  · split
    · omega
    · omega
  · split
    · omega
    · omega
  · omega

namespace Buffered

variable {σ : Type} {nbuf : Nat}

/-- What is left to do for both processes, and for the packets and replies under way. -/
def work (now : Buffered σ nbuf) : Nat :=
  now.main.work now.stream.reader.length + 4 * now.data.items.length + now.thread.work +
    now.free.items.length

/-- Who has to move next: the reader, unless it waits for a reply or has gone. -/
def helper (now : Buffered σ nbuf) : Actor :=
  match now.main with
  | .pop _ | .test _ => if now.free.items = [] ∧ now.free.abandoned = false then .thread else .main
  | .done _ => .thread
  | .read | .push | .leave _ => .main

/-- How often the process that has to move next can turn before it gets something done. -/
def patience (now : Buffered σ nbuf) : Nat :=
  match now.helper with
  | .main => now.main.patience
  | .thread => now.thread.patience now.data.items

/-- The work, and behind it the patience. -/
def rank (now : Buffered σ nbuf) : Nat := now.work * (threadMaxSpins + 2) + now.patience

/-- Neither of the processes spins for longer than its limit. -/
theorem patience_le (now : Buffered σ nbuf) : now.patience ≤ threadMaxSpins + 1 := by
  -- The one who has to move has at most the patience of the handler thread.
  unfold patience
  split
  · unfold MainPc.patience
    split
    · omega
    · omega
  · exact ThreadPc.patience_le _ _

/-- Less work is a lower rank, however much patience it takes. -/
theorem rank_of_work {now after : Buffered σ nbuf} (less : after.work < now.work) :
    after.rank < now.rank := by
  -- The patience never makes up for one unit of work.
  have bound := after.patience_le
  have step := Nat.mul_le_mul_right (threadMaxSpins + 2) (Nat.succ_le_of_lt less)
  rw [Nat.succ_mul] at step
  unfold rank
  omega

/-- A step of the reader gets something done, or the reader only goes round in its spin loop. -/
theorem MainStep.works {crc : Bytes → UInt32} {now after : Buffered σ nbuf}
    (step : MainStep crc now after) :
    after.work < now.work ∨ ∃ main, after = { now with main := main } ∧ main.Waits ∧
      ((∃ spins, now.main = .pop spins) ∧ now.free.items = [] ∨
        ∃ spins, now.main = .test spins ∧ main = .pop spins ∧ now.free.abandoned = false) := by
  -- Only the steps of the spin loop change nothing but the place of the reader.
  cases step with
  | finish stands _ | refuse stands _ _ | orphaned stands _ | leave stands | full stands _ =>
    refine Or.inl ?_
    simp only [work, stands, MainPc.work, Ring.abandon_items]
    omega
  | read stands more done =>
    have shorter := readCmd_consumes done
    refine Or.inl ?_
    simp only [work, stands, MainPc.work]
    simp only [cmdHeaderSize] at shorter
    omega
  | push stands pushed =>
    have longer := Ring.push_length pushed
    refine Or.inl ?_
    simp only [work, stands, MainPc.work]
    omega
  | take stands popped | fail stands popped =>
    have shorter := Ring.pop_length popped
    refine Or.inl ?_
    simp only [work, stands, MainPc.work]
    omega
  | spin stands empty few =>
    exact Or.inr ⟨_, rfl, ⟨_, Or.inl rfl⟩, Or.inl ⟨⟨_, stands⟩, Ring.pop_none empty⟩⟩
  | doubt stands empty many =>
    exact Or.inr ⟨_, rfl, ⟨_, Or.inr rfl⟩, Or.inl ⟨⟨_, stands⟩, Ring.pop_none empty⟩⟩
  | wait stands there => exact Or.inr ⟨_, rfl, ⟨_, Or.inl rfl⟩, Or.inr ⟨_, stands, rfl, there⟩⟩

/-- A step of the handler thread gets something done, or goes round in the spin loop. -/
theorem ThreadStep.works {handle : HandleCmd σ} {now after : Buffered σ nbuf}
    (step : ThreadStep handle now after) :
    after.work < now.work ∨ ∃ thread, after = { now with thread := thread } ∧
      ((∃ spins, now.thread = .pop spins ∧ now.data.items = [] ∧
          (spins < threadMaxSpins ∧ thread = .pop (spins + 1) ∨
            threadMaxSpins ≤ spins ∧ thread = .test spins)) ∨
        ∃ spins, now.thread = .test spins ∧ thread = .pop spins ∧
          now.data.abandoned = false) := by
  -- Only the steps of the spin loop change nothing but the place of the thread.
  cases step with
  | quit stands _ | slice stands _ | panic stands _ _ | refuse stands _ _ | accept stands _ _
  | full stands _ | leave stands =>
    refine Or.inl ?_
    simp only [work, stands, ThreadPc.work, Ring.abandon_items]
    omega
  | take stands popped =>
    have shorter := Ring.pop_length popped
    refine Or.inl ?_
    simp only [work, stands, ThreadPc.work]
    omega
  | report stands pushed | giveBack stands pushed =>
    have longer := Ring.push_length pushed
    refine Or.inl ?_
    simp only [work, stands, ThreadPc.work]
    omega
  | spin stands empty few =>
    exact Or.inr ⟨_, rfl, Or.inl ⟨_, stands, Ring.pop_none empty,
      Or.inl ⟨Nat.lt_of_not_le few, rfl⟩⟩⟩
  | doubt stands empty many =>
    exact Or.inr ⟨_, rfl, Or.inl ⟨_, stands, Ring.pop_none empty, Or.inr ⟨many, rfl⟩⟩⟩
  | wait stands there => exact Or.inr ⟨_, rfl, Or.inr ⟨_, stands, rfl, there⟩⟩

/-- A reader that waits at an empty ring needs the handler thread to move. -/
theorem helper_waits {now : Buffered σ nbuf} (waits : now.main.Waits)
    (empty : now.free.items = []) (there : now.free.abandoned = false) :
    now.helper = .thread := by
  -- Both places at which a reader waits ask whether there is a reply.
  obtain ⟨spins, stands | stands⟩ := waits
  · simp only [helper, stands, empty, there, and_self, if_true]
  · simp only [helper, stands, empty, there, and_self, if_true]

/-- A reader that finds a reply can move on by itself. -/
theorem helper_finds {now : Buffered σ nbuf} (waits : now.main.Waits)
    (some_reply : now.free.items ≠ []) : now.helper = .main := by
  -- Both places at which a reader waits ask whether there is a reply.
  have no : ¬ (now.free.items = [] ∧ now.free.abandoned = false) := fun both => some_reply both.1
  obtain ⟨spins, stands | stands⟩ := waits
  · simp only [helper, stands, if_neg no]
  · simp only [helper, stands, if_neg no]

/-- The handler thread has to move next only when the reader waits for it or has gone. -/
theorem helper_thread {now : Buffered σ nbuf} (helping : now.helper = .thread) :
    (now.main.Waits ∧ now.free.items = [] ∧ now.free.abandoned = false) ∨
      ∃ result, now.main = .done result := by
  -- The places of the reader decide who has to move.
  unfold helper at helping
  split at helping
  · rename_i spins stands
    split at helping
    · rename_i both
      exact Or.inl ⟨⟨spins, Or.inl stands⟩, both⟩
    · cases helping
  · rename_i spins stands
    split at helping
    · rename_i both
      exact Or.inl ⟨⟨spins, Or.inr stands⟩, both⟩
    · cases helping
  · rename_i result stands
    exact Or.inr ⟨result, stands⟩
  · cases helping
  · cases helping
  · cases helping

/-- With the same work and the same process to move, less patience is a lower rank. -/
theorem rank_of_patience {now after : Buffered σ nbuf} (same : after.work = now.work)
    (less : after.patience < now.patience) : after.rank < now.rank := by
  -- The work is the larger part of the rank, and here it is the same.
  unfold rank
  rw [same]
  omega

/-- Every step of the reader lowers the rank, unless the handler thread has to move next. -/
theorem Sound.mainStep_lowers {crc : Bytes → UInt32} {all : List Call} {now after : Buffered σ nbuf}
    (sound : now.Sound crc all) (step : MainStep crc now after) :
    after.rank < now.rank ∨
      after.rank = now.rank ∧ after.helper = now.helper ∧ now.helper ≠ .main := by
  -- Either there is less work, or the reader went round in its spin loop.
  rcases step.works with less | ⟨main, rfl, waits, going⟩
  · exact Or.inl (rank_of_work less)
  · have waited : now.main.Waits := by
      rcases going with ⟨⟨spins, stands⟩, _⟩ | ⟨spins, stands, _⟩
      · exact ⟨spins, Or.inl stands⟩
      · exact ⟨spins, Or.inr stands⟩
    have same : { now with main := main }.work = now.work := by
      simp only [work, waits.work, waited.work]
    by_cases empty : now.free.items = []
    · -- At an empty ring it is the handler thread that has to move, before and behind the step.
      have there := sound.still_there waited empty
      have before := helper_waits waited empty there
      have behind : { now with main := main }.helper = .thread := helper_waits waits empty there
      refine Or.inr ⟨?_, behind.trans before.symm, by simp [before]⟩
      simp only [rank, same, patience, behind, before]
    · rcases going with ⟨_, nothing⟩ | ⟨spins, stands, rfl, _⟩
      · exact absurd nothing empty
      · have before := helper_finds waited empty
        have behind : { now with main := .pop spins }.helper = .main := helper_finds waits empty
        refine Or.inl (rank_of_patience same ?_)
        simp only [patience, behind, before, stands, MainPc.patience]
        omega

/-- Every step of the handler thread lowers the rank, unless the reader has to move next. -/
theorem Sound.threadStep_lowers {crc : Bytes → UInt32} {all : List Call} {handle : HandleCmd σ}
    {now after : Buffered σ nbuf} (some_buf : 0 < nbuf) (sound : now.Sound crc all)
    (step : ThreadStep handle now after) :
    after.rank < now.rank ∨
      after.rank = now.rank ∧ after.helper = now.helper ∧ now.helper ≠ .thread := by
  -- Either there is less work, or the thread went round in its spin loop.
  rcases step.works with less | ⟨thread, rfl, going⟩
  · exact Or.inl (rank_of_work less)
  · -- Who has to move does not depend on the handler thread.
    have helped : { now with thread := thread }.helper = now.helper := rfl
    have same : { now with thread := thread }.work = now.work := by
      rcases going with ⟨spins, stands, _, ⟨_, rfl⟩ | ⟨_, rfl⟩⟩ | ⟨spins, stands, rfl, _⟩
      · simp only [work, stands, ThreadPc.work]
      · simp only [work, stands, ThreadPc.work]
      · simp only [work, stands, ThreadPc.work]
    cases helper : now.helper with
    | main =>
      refine Or.inr ⟨?_, helper, by simp⟩
      simp only [rank, same, patience, helped, helper]
    | thread =>
      refine Or.inl (rank_of_patience same ?_)
      rcases going with ⟨spins, stands, empty, ⟨few, rfl⟩ | ⟨many, rfl⟩⟩ | ⟨spins, stands, rfl, there⟩
      · simp only [patience, helped, helper, stands, ThreadPc.patience, empty, if_true]
        omega
      · simp only [patience, helped, helper, stands, ThreadPc.patience, empty, if_true]
        omega
      · -- The reader is there and waits itself, so one of the rings is not empty.
        have held : now.data.items ≠ [] := by
          intro empty
          rcases helper_thread helper with ⟨waits, nothing, _⟩ | ⟨result, done⟩
          · exact sound.not_both_wait some_buf
              ⟨waits, nothing, ⟨spins, Or.inr stands⟩, empty⟩
          · rw [sound.dataGone.mpr ⟨result, done⟩] at there
            cases there
        simp only [patience, helped, helper, stands, ThreadPc.patience, if_neg held]
        omega

/-- The reader can move until it has gone. -/
theorem mainStep_moves (crc : Bytes → UInt32) {now : Buffered σ nbuf}
    (going : ∀ result, now.main ≠ .done result) : ∃ next, mainStep crc now = some next := by
  -- Every place but the last has a step for whatever it finds.
  unfold mainStep
  split
  · split
    · exact ⟨_, rfl⟩
    · split
      · exact ⟨_, rfl⟩
      · exact ⟨_, rfl⟩
  · simp only
    split
    · exact ⟨_, rfl⟩
    · exact ⟨_, rfl⟩
  · split
    · exact ⟨_, rfl⟩
    · exact ⟨_, rfl⟩
    · split
      · exact ⟨_, rfl⟩
      · exact ⟨_, rfl⟩
  · split
    · exact ⟨_, rfl⟩
    · exact ⟨_, rfl⟩
  · exact ⟨_, rfl⟩
  · rename_i result done
    exact absurd done (going result)

/-- The handler thread can move until it has gone. -/
theorem threadStep_moves (handle : HandleCmd σ) {now : Buffered σ nbuf}
    (going : ∀ panicked, now.thread ≠ .done panicked) :
    ∃ next, threadStep handle now = some next := by
  -- Every place but the last has a step for whatever it finds.
  unfold threadStep
  split
  · split
    · exact ⟨_, rfl⟩
    · split
      · exact ⟨_, rfl⟩
      · exact ⟨_, rfl⟩
  · split
    · exact ⟨_, rfl⟩
    · exact ⟨_, rfl⟩
  · split
    · exact ⟨_, rfl⟩
    · simp only
      split
      · exact ⟨_, rfl⟩
      · exact ⟨_, rfl⟩
      · exact ⟨_, rfl⟩
  · split
    · exact ⟨_, rfl⟩
    · exact ⟨_, rfl⟩
    · exact ⟨_, rfl⟩
    · exact ⟨_, rfl⟩
  · exact ⟨_, rfl⟩
  · rename_i panicked done
    exact absurd done (going panicked)

/-- Once both processes have gone, the receive has returned. -/
theorem returned_some {now : Buffered σ nbuf} {result : Outcome Unit} {panicked : Bool}
    (reader : now.main = .done result) (thread : now.thread = .done panicked) :
    ∃ outcome, now.returned = some outcome := by
  -- A panic of the reader comes first, and then one of the handler thread.
  rw [returned, reader, thread]
  split
  · exact ⟨_, rfl⟩
  · exact ⟨_, rfl⟩
  · exact ⟨_, rfl⟩
  · rename_i neither broken clean
    cases panicked with
    | true => exact absurd rfl (broken result rfl)
    | false => exact absurd rfl (clean result rfl)

/-- The processes help each other on, until both have gone. -/
theorem system_helps (crc : Bytes → UInt32) {handle : HandleCmd σ} (calm : handle.Calm)
    (all : List Call) (some_buf : 0 < nbuf) :
    (system crc handle : System Actor (Buffered σ nbuf)).Helps (Sound crc all)
      (fun now => ∃ result, now.returned = some result) rank helper where
  keeps := by
    intro actor now next sound stepped
    cases actor with
    | main => exact sound.mainStep ((mainStep_iff crc now next).mp stepped)
    | thread => exact sound.threadStep calm ((threadStep_iff handle now next).mp stepped)
  moves := by
    intro now sound open_end
    -- The one who is to help has not gone, as then all would be over.
    cases helping : now.helper with
    | main =>
      refine mainStep_moves crc fun result done => ?_
      simp only [helper, done] at helping
      cases helping
    | thread =>
      refine threadStep_moves handle fun panicked done => ?_
      rcases helper_thread helping with ⟨_, _, there⟩ | ⟨result, reader⟩
      · rw [sound.freeGone.mpr ⟨panicked, done⟩] at there
        cases there
      · exact open_end (returned_some reader done)
  lowers := by
    intro actor now next sound stepped
    cases actor with
    | main => exact sound.mainStep_lowers ((mainStep_iff crc now next).mp stepped)
    | thread =>
      exact sound.threadStep_lowers some_buf ((threadStep_iff handle now next).mp stepped)

/-- Under every fair schedule a receive whose handler does not panic returns. -/
theorem fair_returns (crc : Bytes → UInt32) {handle : HandleCmd σ} (calm : handle.Calm)
    {bufCountArgs : Nat} {input : Bytes} {atomicPos : Option Nat} {state : σ}
    {first : Buffered σ (clampBufs bufCountArgs)}
    (started : start bufCountArgs (.new input atomicPos) state = .ok first)
    {turns : Nat → Actor} (fair : System.Fair turns) :
    ∃ count result, ((system crc handle).after turns count first).returned = some result := by
  -- The processes help each other on from the start, which is sound.
  have some_buf : 0 < clampBufs bufCountArgs := by
    unfold clampBufs
    omega
  exact (system_helps crc calm (streamCalls crc input) some_buf).reaches _ fair
    (start_sound crc started)

end Buffered

end Libbtrfs
