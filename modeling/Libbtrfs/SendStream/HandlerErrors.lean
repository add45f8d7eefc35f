import Libbtrfs.SendStream.BufferedErrors
import Libbtrfs.SendStream.BufferedProgress

/-! Which errors of the handler a receive returns, with and without the handler thread. -/

namespace Libbtrfs

/-- A handler that also writes down the calls that reach it, each with its answer. -/
def HandleCmd.auditing {σ : Type} (handler : HandleCmd σ) :
    HandleCmd (σ × List (Call × Outcome (Option Unit))) :=
  fun command payload version (state, calls) =>
    let (answer, state) := handler command payload version state
    (answer, (state, calls ++ [(⟨command, payload, version⟩, answer)]))

/-- The reference reading returns the error of a call, if there is one. -/
theorem decodeFrames_auditing {σ : Type} (crc : Bytes → UInt32) (handler : HandleCmd σ)
    (version : UInt32) (input : Bytes) (state : σ) (calls : List (Call × Outcome (Option Unit)))
    {call : Call} {failure : Failure}
    (failed : (call, .error failure) ∈
      (decodeFrames crc handler.auditing version input (state, calls)).state.2) :
    (call, .error failure) ∈ calls ∨
      (decodeFrames crc handler.auditing version input (state, calls)).result =
        .error failure := by
  -- The induction is on the frames of the input, up to the one that is refused.
  induction input using frames.induct crc generalizing state calls with
  | case1 input other taken =>
    rw [decodeFrames_error taken] at failed
    exact Or.inl failed
  | case2 input frame rest taken ih =>
    rw [decodeFrames_ok taken] at failed ⊢
    simp only [HandleCmd.auditing] at failed ⊢
    cases answered : handler frame.command frame.payload version state with
    | mk answer after =>
      rw [answered] at failed
      cases answer with
      | error other =>
        simp only [List.mem_append, List.mem_singleton, Prod.mk.injEq] at failed
        rcases failed with earlier | ⟨_, same⟩
        · exact Or.inl earlier
        · cases same
          exact Or.inr rfl
      | ok goes =>
        cases goes with
        | none =>
          simp only [List.mem_append, List.mem_singleton, Prod.mk.injEq] at failed
          rcases failed with earlier | ⟨_, same⟩
          · exact Or.inl earlier
          · cases same
        | some _ =>
          rcases ih after _ failed with earlier | ended
          · simp only [List.mem_append, List.mem_singleton, Prod.mk.injEq] at earlier
            rcases earlier with before | ⟨_, same⟩
            · exact Or.inl before
            · cases same
          · exact Or.inr ended

/-- The unbuffered receive returns the error of a call, if there is one. -/
theorem readAndHandle_auditing {σ : Type} (crc : Bytes → UInt32) (handler : HandleCmd σ)
    (input : Bytes) (atomicPos : Option Nat) (state : σ) {call : Call} {failure : Failure}
    (failed : (call, .error failure) ∈
      (readAndHandle crc handler.auditing (.new input atomicPos) (state, [])).2.2.2) :
    (readAndHandle crc handler.auditing (.new input atomicPos) (state, [])).1 =
      .error failure := by
  -- The audit has the call only if the decoder made it, and that ended the loop.
  obtain ⟨result, after⟩ := readAndHandle_decodeWith crc handler.auditing input atomicPos (state, [])
  rw [after, decode] at failed
  rw [result, decode]
  split at failed
  · cases failed
  · rename_i version rest header
    rcases decodeFrames_auditing crc handler version rest state [] failed with none_before | ended
    · cases none_before
    · exact ended

/-- The handler that answers `None` wherever the given one would panic. -/
def HandleCmd.calmed {σ : Type} (handle : HandleCmd σ) : HandleCmd σ :=
  fun command payload version state =>
    match handle command payload version state with
    | (.error (.panic _), state) => (.ok none, state)
    | answered => answered

/-- A handler whose panics are replaced does not panic. -/
theorem HandleCmd.calmed_calm {σ : Type} (handle : HandleCmd σ) : handle.calmed.Calm := by
  -- Each of the three answers is looked at, and the panic is replaced.
  intro command payload version state panics
  rw [calmed] at panics
  cases answered : handle command payload version state with
  | mk answer after =>
    rw [answered] at panics
    match answer with
    | .ok goes => exact Outcome.not_panics_ok _ panics
    | .error (.io error) => exact Outcome.not_panics_io _ panics
    | .error (.panic message) => exact Outcome.not_panics_ok _ panics

/-- An answer that is not a panic is kept. -/
theorem HandleCmd.calmed_eq {σ : Type} {handle : HandleCmd σ} {command : UInt16}
    {payload : Bytes} {version : UInt32} {state after : σ} {answer : Outcome (Option Unit)}
    (answered : handle command payload version state = (answer, after))
    (quiet : ¬ answer.Panics) :
    handle.calmed command payload version state = (answer, after) := by
  -- Each of the three answers is looked at, and the panic is excluded.
  rw [calmed, answered]
  match answer, quiet with
  | .ok goes, _ => rfl
  | .error (.io error), _ => rfl
  | .error (.panic message), quiet => exact absurd (Outcome.panics_panic message) quiet

namespace Buffered

variable {σ : Type} {nbuf : Nat}

/-- None of the calls has panicked. -/
def Unbroken (now : Buffered σ nbuf) : Prop := ∀ entry ∈ now.calls, ¬ entry.2.Panics

/-- Calls are never taken back. -/
theorem calls_turn (crc : Bytes → UInt32) (handle : HandleCmd σ) (actor : Actor)
    (now : Buffered σ nbuf) : now.calls <+: ((system crc handle).turn actor now).calls := by
  -- The reader calls nothing, and the thread adds its call behind the others.
  refine @System.turn_invariant _ _ (system crc handle) (fun after => now.calls <+: after.calls)
    actor now (List.prefix_refl _) ?_
  intro after stepped
  cases actor with
  | main =>
    have untouched := ((mainStep_iff crc now after).mp stepped).frame.2.1
    exact untouched ▸ List.prefix_refl _
  | thread =>
    cases (threadStep_iff handle now after).mp stepped with
    | panic _ _ _ | refuse _ _ _ | accept _ _ _ => exact List.prefix_append _ _
    | take _ _ | spin _ _ _ | doubt _ _ _ | quit _ _ | wait _ _ | slice _ _ | report _ _
    | giveBack _ _ | full _ _ | leave _ => exact List.prefix_refl _

/-- A run takes none of the calls back. -/
theorem calls_run (crc : Bytes → UInt32) (handle : HandleCmd σ) (schedule : List Actor)
    (now : Buffered σ nbuf) : now.calls <+: ((system crc handle).run schedule now).calls := by
  -- Turn by turn the calls grow at their end.
  induction schedule generalizing now with
  | nil => exact List.prefix_refl _
  | cons actor rest ih => exact (calls_turn crc handle actor now).trans (ih _)

/-- A state none of whose calls has panicked was reached through such states. -/
theorem Unbroken.of_prefix {now after : Buffered σ nbuf} (grown : now.calls <+: after.calls)
    (unbroken : after.Unbroken) : now.Unbroken := by
  -- What is true of all the calls is true of the first of them.
  intro entry member
  exact unbroken entry (grown.subset member)

/-- A turn without a panic of the handler is the same for the handler that never panics. -/
theorem turn_calmed (crc : Bytes → UInt32) (handle : HandleCmd σ) (actor : Actor)
    {now : Buffered σ nbuf} (unbroken : ((system crc handle).turn actor now).Unbroken) :
    (system crc handle).turn actor now = (system crc handle.calmed).turn actor now := by
  cases actor with
  | main => rfl
  | thread =>
    cases stepped : threadStep handle now with
    | none =>
      -- The thread has gone, for one handler as for the other.
      have done : ∃ panicked, now.thread = .done panicked := by
        by_contra going
        obtain ⟨next, moved⟩ := threadStep_moves handle fun panicked done => going ⟨panicked, done⟩
        rw [stepped] at moved
        cases moved
      obtain ⟨panicked, done⟩ := done
      simp only [System.turn, system_thread, threadStep, done]
    | some after =>
      rw [System.turn, system_thread, stepped, Option.getD_some] at unbroken
      have same : ThreadStep handle.calmed now after := by
        cases (threadStep_iff handle now after).mp stepped with
        | take stands popped => exact .take stands popped
        | spin stands empty few => exact .spin stands empty few
        | doubt stands empty many => exact .doubt stands empty many
        | quit stands gone => exact .quit stands gone
        | wait stands there => exact .wait stands there
        | slice stands outside => exact .slice stands outside
        | panic stands inside answered =>
          have last := unbroken _ (List.mem_append_right _ (List.mem_singleton_self _))
          exact absurd (Outcome.panics_panic _) last
        | refuse stands inside answered =>
          exact .refuse stands inside
            (HandleCmd.calmed_eq answered (Outcome.not_panics_io _))
        | accept stands inside answered =>
          exact .accept stands inside
            (HandleCmd.calmed_eq answered (Outcome.not_panics_ok _))
        | report stands pushed => exact .report stands pushed
        | giveBack stands pushed => exact .giveBack stands pushed
        | full stands full => exact .full stands full
        | leave stands => exact .leave stands
      have moved := (threadStep_iff handle.calmed now after).mpr same
      rw [System.turn, System.turn, system_thread, system_thread, stepped, moved]

/-- A run without a panic of the handler is one of the handler that never panics. -/
theorem agree_calmed (crc : Bytes → UInt32) (handle : HandleCmd σ) (schedule : List Actor)
    {now : Buffered σ nbuf} (unbroken : ((system crc handle).run schedule now).Unbroken) :
    (system crc handle).Agree (system crc handle.calmed) schedule now := by
  -- As the calls of every state on the way are among the last ones, none of them panics.
  induction schedule generalizing now with
  | nil => trivial
  | cons actor rest ih =>
    refine ⟨turn_calmed crc handle actor ?_, ih unbroken⟩
    exact Unbroken.of_prefix (calls_run crc handle rest _) unbroken

/-- A thread that will pop or call again, or gives back a buffer, has seen no error. -/
def ThreadGoes (now : Buffered σ nbuf) : Prop :=
  match now.thread with
  | .pop _ | .test _ | .call _ | .push (.ok _) => True
  | .push (.error _) | .leave _ | .done _ => False

/-- Only the last call can have failed, and then the thread makes no further one. -/
def Halts (now : Buffered σ nbuf) : Prop :=
  NoErrors now.calls ∨
    ∃ before call failure, now.calls = before ++ [(call, .error failure)] ∧ NoErrors before ∧
      ¬ now.ThreadGoes

/-- A handler that halts still does, as long as there is no further call. -/
private theorem Halts.same {now after : Buffered σ nbuf} (halts : now.Halts)
    (calls : after.calls = now.calls) (going : after.ThreadGoes → now.ThreadGoes) :
    after.Halts := by
  -- A step without a call can only end the loop, never start it again.
  rcases halts with clean | ⟨before, call, failure, split, clean, stopped⟩
  · exact Or.inl (calls ▸ clean)
  · exact Or.inr ⟨before, call, failure, calls.trans split, clean, fun goes => stopped (going goes)⟩

/-- A thread that goes on has had no error. -/
private theorem Halts.clean {now : Buffered σ nbuf} (halts : now.Halts) (goes : now.ThreadGoes) :
    NoErrors now.calls := by
  -- A thread that goes on has not stopped with an error.
  rcases halts with clean | ⟨_, _, _, _, _, stopped⟩
  · exact clean
  · exact absurd goes stopped

/-- A call is made only as long as no earlier one has failed. -/
theorem Halts.step {handle : HandleCmd σ} {now after : Buffered σ nbuf} (halts : now.Halts)
    (step : ThreadStep handle now after) : after.Halts := by
  -- Only the three rules that call the handler add an answer.
  cases step with
  | take stands _ | spin stands _ _ | doubt stands _ _ | wait stands _ | giveBack stands _ =>
    refine halts.same rfl fun _ => ?_
    rw [ThreadGoes, stands]
    trivial
  | quit _ _ | slice _ _ | report _ _ | full _ _ | leave _ => exact halts.same rfl False.elim
  | panic stands _ _ | refuse stands _ _ =>
    have goes : now.ThreadGoes := by
      rw [ThreadGoes, stands]
      trivial
    exact Or.inr ⟨now.calls, _, _, rfl, halts.clean goes, id⟩
  | accept stands _ _ =>
    have goes : now.ThreadGoes := by
      rw [ThreadGoes, stands]
      trivial
    exact Or.inl ((halts.clean goes).accepted _ _)

/-- A call that has failed with an error is the last one, and no call has panicked. -/
theorem Halts.failed {now : Buffered σ nbuf} (halts : now.Halts) {call : Call} {error : IoError}
    (failed : (call, .error (.io error)) ∈ now.calls) :
    now.Unbroken ∧ ∃ before, now.calls = before ++ [(call, .error (.io error))] ∧
      NoErrors before := by
  -- An error among the answers is the last of them.
  rcases halts with clean | ⟨before, last, failure, split, clean, _⟩
  · obtain ⟨goes, answered⟩ := clean _ failed
    cases answered
  · have same : (call, (.error (.io error) : Outcome (Option Unit))) = (last, .error failure) := by
      rw [split] at failed
      rcases List.mem_append.mp failed with earlier | this
      · obtain ⟨goes, answered⟩ := clean _ earlier
        cases answered
      · exact List.mem_singleton.mp this
    rw [← same] at split
    refine ⟨fun entry member => ?_, before, split, clean⟩
    rw [split] at member
    rcases List.mem_append.mp member with earlier | this
    · obtain ⟨goes, answered⟩ := clean entry earlier
      rw [answered]
      exact Outcome.not_panics_ok _
    · rw [List.mem_singleton.mp this]
      exact Outcome.not_panics_io _

/-- In every reachable state only the last call can have failed. -/
theorem halts_run (crc : Bytes → UInt32) (handle : HandleCmd σ) {bufCountArgs : Nat}
    {input : Bytes} {atomicPos : Option Nat} {state : σ}
    {first : Buffered σ (clampBufs bufCountArgs)}
    (started : start bufCountArgs (.new input atomicPos) state = .ok first)
    (schedule : List Actor) : ((system crc handle).run schedule first).Halts := by
  -- No call was made at the start, and every step of the thread keeps the fact.
  have begun : first.Halts := by
    obtain ⟨version, rest, _, fresh⟩ := start_fresh started
    refine Or.inl ?_
    rw [fresh.calls]
    intro entry member
    cases member
  refine (system crc handle).run_invariant ?_ schedule begun
  intro actor now after halts stepped
  cases actor with
  | main =>
    obtain ⟨thread, calls, _⟩ := ((mainStep_iff crc now after).mp stepped).frame
    refine halts.same calls ?_
    rw [ThreadGoes, ThreadGoes, thread]
    exact id
  | thread => exact halts.step ((threadStep_iff handle now after).mp stepped)

/-- With two buffers an error that the reader does not return is that of the last command. -/
theorem Sound.ok_ends {crc : Bytes → UInt32} {all : List Call} {now : Buffered σ nbuf}
    (two : nbuf = 2) (sound : now.Sound crc all) (reader : now.main = .done (.ok ()))
    (thread : now.thread = .done false) {before : List (Call × Outcome (Option Unit))}
    {call : Call} {error : IoError} (split : now.calls = before ++ [(call, .error (.io error))])
    (clean : NoErrors before) : call.command = SendCmd.key EndCmd := by
  -- The error is still in the ring, so no packet is in the other one.
  have waiting : 0 < now.free.items.length := by
    rcases sound.error_kept (Or.inr thread) ⟨before, call, split, clean⟩ with
      ⟨bufs, _, items⟩ | ⟨_, leaving | ended⟩
    · rw [items, List.length_append, List.length_singleton]
      omega
    · rw [reader] at leaving
      cases leaving
    · rw [reader] at ended
      cases ended
  have drained : now.data.items = [] := by
    have tokens := sound.tokens
    rw [reader, thread] at tokens
    simp only [MainPc.tokens, ThreadPc.tokens] at tokens
    exact List.eq_nil_of_length_eq_zero (by omega)
  obtain ⟨unread, _, holds⟩ := sound.order
  rw [MainHolds, reader] at holds
  obtain ⟨front, last, whole, ended, _⟩ := holds
  rw [sent_done reader thread, drained, split, List.map_append, List.map_nil, List.append_nil]
    at whole
  obtain ⟨_, same⟩ := List.append_inj' whole rfl
  cases same
  exact ended

/-- With two buffers the reader returns an error only if the failed call is not the last command. -/
theorem Sound.error_inside {crc : Bytes → UInt32} {all : List Call} {now : Buffered σ nbuf}
    (two : nbuf = 2) (sound : now.Sound crc all) {reported : IoError}
    (reader : now.main = .done (.error (.io reported))) (thread : now.thread = .done false)
    {call : Call} {answer : Outcome (Option Unit)} (member : (call, answer) ∈ now.calls) :
    call.command ≠ SendCmd.key EndCmd := by
  -- Either the error was reported by the thread, or the reader met it in the stream.
  have called : call ∈ now.calls.map Prod.fst := List.mem_map_of_mem member
  have sent := sent_done reader thread
  obtain ⟨unread, _, holds⟩ := sound.order
  rw [MainHolds, reader] at holds
  rcases holds with ⟨_, taken, _, inside⟩ | ⟨_, inside⟩
  · -- One frame was sent behind the failed call, and that one only can be the last command.
    have tokens := sound.tokens
    rw [reader, thread, taken] at tokens
    simp only [MainPc.tokens, ThreadPc.tokens, List.length_nil] at tokens
    obtain ⟨packet, one⟩ := List.length_eq_one_iff.mp (show now.data.items.length = 1 by omega)
    rw [sent, one, List.map_singleton, List.dropLast_concat] at inside
    exact inside call called
  · rw [sent] at inside
    exact inside call (List.mem_append_left _ called)

/-- A receive that has returned stays as it is. -/
theorem run_returned (crc : Bytes → UInt32) (handle : HandleCmd σ) (schedule : List Actor)
    {now : Buffered σ nbuf} {result : Outcome Unit} (finished : now.returned = some result) :
    (system crc handle).run schedule now = now := by
  obtain ⟨outcome, panicked, reader, thread, _⟩ := returned_done finished
  -- Neither of the two processes can move.
  refine @System.run_invariant _ _ (system crc handle) (fun state => state = now) ?_ schedule now rfl
  intro actor state after same stepped
  subst same
  cases actor with
  | main => exact absurd reader (((mainStep_iff crc _ after).mp stepped).not_done outcome)
  | thread => exact absurd thread (((threadStep_iff handle _ after).mp stepped).not_done panicked)

/-- A run with a failed call is one of the handler that never panics. -/
theorem failed_agree (crc : Bytes → UInt32) (handle : HandleCmd σ) {bufCountArgs : Nat}
    {input : Bytes} {atomicPos : Option Nat} {state : σ}
    {first : Buffered σ (clampBufs bufCountArgs)}
    (started : start bufCountArgs (.new input atomicPos) state = .ok first)
    {schedule : List Actor} {call : Call} {error : IoError}
    (failed : (call, .error (.io error)) ∈ ((system crc handle).run schedule first).calls) :
    (system crc handle).Agree (system crc handle.calmed) schedule first :=
  agree_calmed crc handle schedule ((halts_run crc handle started schedule).failed failed).1

/-- With two buffers the reader returns the error of a call, or panics, or it was the last one. -/
theorem failed_result (crc : Bytes → UInt32) (handle : HandleCmd σ) {input : Bytes}
    {atomicPos : Option Nat} {state : σ} {first : Buffered σ (clampBufs 2)}
    (started : start 2 (.new input atomicPos) state = .ok first) {schedule : List Actor}
    {call : Call} {error : IoError}
    (failed : (call, .error (.io error)) ∈ ((system crc handle).run schedule first).calls)
    {result : Outcome Unit}
    (finished : ((system crc handle).run schedule first).returned = some result) :
    (∃ reported, result = .error (.io reported)) ↔
      (system crc handle).Avoids Orphans schedule first ∧ call.command ≠ SendCmd.key EndCmd := by
  -- The error is the last answer, so no answer is a panic.
  obtain ⟨_, before, split, clean⟩ := (halts_run crc handle started schedule).failed failed
  -- The handler is as good as one that never panics, for which the invariant holds.
  have agree := failed_agree crc handle started failed
  rw [agree.avoids]
  rw [agree.run] at failed finished split
  have panics := returned_panics_iff crc handle.calmed_calm started finished
  have sound := reachable_sound crc handle.calmed_calm started schedule
  obtain ⟨reader, thread⟩ := sound.returned finished
  have two : clampBufs 2 = 2 := by decide
  constructor
  · intro ⟨reported, same⟩
    rw [same] at panics reader
    refine ⟨?_, sound.error_inside two reader thread failed⟩
    by_contra hit
    exact Outcome.not_panics_io _ (panics.mpr hit)
  · intro ⟨keeps, inside⟩
    match result with
    | .ok () => exact absurd (sound.ok_ends two reader thread split clean) inside
    | .error (.io reported) => exact ⟨reported, rfl⟩
    | .error (.panic message) => exact absurd keeps (panics.mp (Outcome.panics_panic message))

/-- Under every fair schedule a receive with a failed call returns. -/
theorem failed_returns (crc : Bytes → UInt32) (handle : HandleCmd σ) {bufCountArgs : Nat}
    {input : Bytes} {atomicPos : Option Nat} {state : σ}
    {first : Buffered σ (clampBufs bufCountArgs)}
    (started : start bufCountArgs (.new input atomicPos) state = .ok first)
    {turns : Nat → Actor} (fair : System.Fair turns) {count : Nat} {call : Call} {error : IoError}
    (failed : (call, .error (.io error)) ∈ ((system crc handle).after turns count first).calls) :
    ∃ later result, ((system crc handle).after turns later first).returned = some result := by
  obtain ⟨calmCount, result, finished⟩ := fair_returns crc handle.calmed_calm started fair
  -- Far enough out, the call has failed and the receive of the other handler has returned.
  refine ⟨count + calmCount, result, ?_⟩
  have still : (call, .error (.io error)) ∈
      ((system crc handle).after turns (count + calmCount) first).calls := by
    rw [System.after_add]
    exact (calls_run crc handle _ _).subset failed
  have agree := failed_agree crc handle started still
  rw [System.after, agree.run, ← System.after, Nat.add_comm, System.after_add,
    run_returned crc _ _ finished]
  exact finished

/--
An error of the handler is returned by the unbuffered receive always, and by the buffered one
exactly if the reader is not orphaned and the command that failed is not the last one.

Under a fair schedule the buffered receive does return.
-/
theorem receive_error_iff {σ : Type} (crc : Bytes → UInt32) (handle : HandleCmd σ)
    (input : Bytes) (atomicPos : Option Nat) (state : σ) :
    let unbuffered := readAndHandle crc handle.auditing (.new input atomicPos) (state, [])
    (∀ call failure, (call, .error failure) ∈ unbuffered.2.2.2 →
        unbuffered.1 = .error failure) ∧
      ∀ first, start 2 (.new input atomicPos) state = .ok first →
        (∀ schedule call error result,
          (call, .error (.io error)) ∈ ((system crc handle).run schedule first).calls →
          ((system crc handle).run schedule first).returned = some result →
          ((∃ reported, result = .error (.io reported)) ↔
            (system crc handle).Avoids Orphans schedule first ∧
              call.command ≠ SendCmd.key EndCmd)) ∧
        ∀ turns, System.Fair turns → ∀ count call error,
          (call, .error (.io error)) ∈ ((system crc handle).after turns count first).calls →
          ∃ later result,
            ((system crc handle).after turns later first).returned = some result := by
  -- The unbuffered loop comes first, and then the buffered one.
  refine ⟨?_, ?_⟩
  · intro call failure failed
    exact readAndHandle_auditing crc handle input atomicPos state failed
  · intro first started
    refine ⟨?_, ?_⟩
    · intro schedule call error result failed finished
      exact failed_result crc handle started failed finished
    · intro turns fair count call error failed
      exact failed_returns crc handle started fair failed

/-- The reader has sent the last command and returned, and then the handler fails at it. -/
def swallowingSchedule : List Actor :=
  [Actor.main, Actor.main] ++ ([Actor.main] ++ ([Actor.main, Actor.main] ++
    [Actor.thread, Actor.thread, Actor.thread, Actor.thread]))

/-- The handler fails at the last command, and the buffered receive returns `Ok`. -/
theorem swallowingSchedule_swallows :
    ∃ first, start 2 (.new (plainStream [endFrame]) none) () = .ok first ∧
      (endFrame.call 2, .error (receiveError "failed")) ∈
        ((system (fun _ => 0) failingHandler).run swallowingSchedule first).calls ∧
      ((system (fun _ => 0) failingHandler).run swallowingSchedule first).returned =
        some (.ok ()) := by
  obtain ⟨first, filled, started, fresh, read, holds, more, last⟩ := start_endFrame ()
  refine ⟨first, started, ?_⟩
  rw [fresh.two_buffers, swallowingSchedule, System.run_append,
    run_send _ _ more read (room_one _), System.run_append, run_take, System.run_append,
    run_finish]
  · simp only [List.nil_append]
    -- The reader has gone with the last buffer, and the thread reports to nobody.
    rw [run_refuse _ _ (by exact holds.slice) (by rfl) (room_one _)]
    refine ⟨?_, rfl⟩
    rw [holds.command]
    exact List.mem_singleton_self _
  · exact last

end Buffered

end Libbtrfs
