import Libbtrfs.SendStream.BufferedSchedules

/-! What becomes of the errors of the handler in the buffered receiver. -/

namespace Libbtrfs

namespace Buffered

variable {σ : Type} {nbuf : Nat}

/--
The step with which the handler thread makes the reader panic.

It drops its end of the ring of replies after the reader has found the ring empty, and before the
reader tests whether the thread is still there.
-/
def Orphans (actor : Actor) (now : Buffered σ nbuf) : Prop :=
  actor = .thread ∧ (∃ panicked, now.thread = .leave panicked) ∧ ∃ spins, now.main = .test spins

/-- What holds in every state as long as the reader is not left alone behind an empty pop. -/
structure Heeded (crc : Bytes → UInt32) (all : List Call) (now : Buffered σ nbuf) : Prop where
  sound : now.Sound crc all
  there : ∀ spins, now.main = .test spins → now.free.abandoned = false
  quiet : ¬ now.main.Panicked

/-- The reader does not panic by itself. -/
theorem Heeded.mainStep {crc : Bytes → UInt32} {all : List Call} {now after : Buffered σ nbuf}
    (heeded : now.Heeded crc all) (step : MainStep crc now after) : after.Heeded crc all := by
  refine ⟨heeded.sound.mainStep step, ?_, ?_⟩
  · -- Only one step leads to the test, and it has just found the ring empty.
    cases step with
    | doubt stands empty many =>
      intro spins _
      exact heeded.sound.still_there ⟨_, Or.inl stands⟩ (Ring.pop_none empty)
    | finish _ _ | refuse _ _ _ | read _ _ _ | push _ _ | full _ _ | take _ _ | fail _ _
    | spin _ _ _ | orphaned _ _ | wait _ _ | leave _ =>
      intro spins stands
      cases stands
  · intro panicked
    rcases heeded.sound.panic_origin step panicked with before | ⟨⟨spins, stands⟩, gone⟩
    · exact heeded.quiet before
    · rw [heeded.there spins stands] at gone
      cases gone

/-- The handler thread does not make the reader panic, unless it takes the one step that does. -/
theorem Heeded.threadStep {crc : Bytes → UInt32} {all : List Call} {handle : HandleCmd σ}
    (calm : handle.Calm) {now after : Buffered σ nbuf} (heeded : now.Heeded crc all)
    (keeps : ¬ Orphans .thread now) (step : ThreadStep handle now after) :
    after.Heeded crc all := by
  -- The mark of the ring changes with the last step alone, and that one would orphan.
  refine ⟨heeded.sound.threadStep calm step, ?_, ?_⟩
  · intro spins stands
    rw [step.frame.1] at stands
    have there := heeded.there spins stands
    cases step with
    | report _ pushed => exact (Ring.push_some pushed).2.trans there
    | giveBack _ pushed => exact (Ring.push_some pushed).2.trans there
    | leave leaving => exact absurd ⟨rfl, ⟨_, leaving⟩, ⟨spins, stands⟩⟩ keeps
    | take _ _ | spin _ _ _ | doubt _ _ _ | quit _ _ | wait _ _ | slice _ _ | panic _ _ _
    | refuse _ _ _ | accept _ _ _ | full _ _ => exact there
  · rw [step.frame.1]
    exact heeded.quiet

/-- A schedule without such a step reaches only states in which the reader has not panicked. -/
theorem heeded_run (crc : Bytes → UInt32) {handle : HandleCmd σ} (calm : handle.Calm)
    {bufCountArgs : Nat} {input : Bytes} {atomicPos : Option Nat} {state : σ}
    {first : Buffered σ (clampBufs bufCountArgs)}
    (started : start bufCountArgs (.new input atomicPos) state = .ok first)
    (schedule : List Actor) (keeps : (system crc handle).Avoids Orphans schedule first) :
    ((system crc handle).run schedule first).Heeded crc (streamCalls crc input) := by
  have begun : first.Heeded crc (streamCalls crc input) := by
    -- The reader starts in front of its first frame.
    obtain ⟨version, rest, _, fresh⟩ := start_fresh started
    refine ⟨start_sound crc started, ?_, ?_⟩
    · rw [fresh.main]
      intro spins stands
      cases stands
    · rw [fresh.main]
      intro ⟨message, ended⟩
      rcases ended with leaving | done
      · cases leaving
      · cases done
  refine (system crc handle).run_invariant_avoiding ?_ schedule begun keeps
  intro actor now after held keeping stepped
  cases actor with
  | main => exact held.mainStep ((mainStep_iff crc now after).mp stepped)
  | thread => exact held.threadStep calm keeping ((threadStep_iff handle now after).mp stepped)

/-- The reader has panicked, or it will as soon as it tests for the handler thread. -/
structure Doomed (crc : Bytes → UInt32) (all : List Call) (now : Buffered σ nbuf) : Prop where
  sound : now.Sound crc all
  doom : now.main.Panicked ∨
    (∃ spins, now.main = .test spins) ∧ ∃ panicked, now.thread = .done panicked

/-- A reader that is doomed stays so. -/
theorem Doomed.run {crc : Bytes → UInt32} {all : List Call} {handle : HandleCmd σ}
    (calm : handle.Calm) {now : Buffered σ nbuf} (doomed : now.Doomed crc all)
    (schedule : List Actor) : ((system crc handle).run schedule now).Doomed crc all := by
  -- The next step of the reader is the panic, and the thread has no step that helps.
  refine (system crc handle).run_invariant ?_ schedule doomed
  intro actor now after held stepped
  cases actor with
  | main =>
    have step := (mainStep_iff crc now after).mp stepped
    refine ⟨held.sound.mainStep step, Or.inl ?_⟩
    rcases held.doom with ⟨message, leaving | done⟩ | ⟨⟨spins, testing⟩, ended⟩
    · -- A panic unwinds to the end of the scope.
      cases step with
      | leave stands =>
        rw [leaving] at stands
        cases stands
        exact ⟨message, Or.inr rfl⟩
      | finish stands _ | refuse stands _ _ | read stands _ _ | push stands _ | full stands _
      | take stands _ | fail stands _ | spin stands _ _ | doubt stands _ _ | orphaned stands _
      | wait stands _ =>
        rw [leaving] at stands
        cases stands
    · exact absurd done (step.not_done _)
    · have gone := held.sound.freeGone.mpr ended
      cases step with
      | orphaned _ _ => exact ⟨_, Or.inl rfl⟩
      | wait _ there =>
        rw [gone] at there
        cases there
      | finish stands _ | refuse stands _ _ | read stands _ _ | push stands _ | full stands _
      | take stands _ | fail stands _ | spin stands _ _ | doubt stands _ _ | leave stands =>
        rw [testing] at stands
        cases stands
  | thread =>
    have step := (threadStep_iff handle now after).mp stepped
    refine ⟨held.sound.threadStep calm step, ?_⟩
    rw [step.frame.1]
    rcases held.doom with panicked | ⟨_, panicked, ended⟩
    · exact Or.inl panicked
    · exact absurd ended (step.not_done panicked)

/-- The step that leaves the reader alone behind its empty pop dooms it. -/
theorem Orphans.doomed {crc : Bytes → UInt32} {all : List Call} {handle : HandleCmd σ}
    (calm : handle.Calm) {actor : Actor} {now : Buffered σ nbuf} (sound : now.Sound crc all)
    (orphans : Orphans actor now) : ((system crc handle).turn actor now).Doomed crc all := by
  -- The step is the one with which the thread drops its ends.
  obtain ⟨rfl, ⟨panicked, leaving⟩, testing⟩ := orphans
  have step : ThreadStep handle now
      { now with free := now.free.abandon, thread := .done panicked } := .leave leaving
  have moved : (system crc handle).step .thread now = some _ := (threadStep_iff handle now _).mpr step
  rw [System.turn, moved, Option.getD_some]
  exact ⟨sound.threadStep calm step, Or.inr ⟨testing, panicked, rfl⟩⟩

/-- A schedule with such a step ends with a reader that is doomed. -/
theorem doomed_run (crc : Bytes → UInt32) {handle : HandleCmd σ} (calm : handle.Calm)
    {bufCountArgs : Nat} {input : Bytes} {atomicPos : Option Nat} {state : σ}
    {first : Buffered σ (clampBufs bufCountArgs)}
    (started : start bufCountArgs (.new input atomicPos) state = .ok first)
    {schedule : List Actor} (hit : ¬ (system crc handle).Avoids Orphans schedule first) :
    ((system crc handle).run schedule first).Doomed crc (streamCalls crc input) := by
  -- The schedule is cut behind the first such step.
  obtain ⟨before, actor, behind, split, orphans⟩ := (system crc handle).hits_of_not_avoids hit
  have reached := reachable_sound crc calm started before
  have doomed := (orphans.doomed calm reached).run calm behind
  rw [split, (system crc handle).run_append]
  exact doomed

/-- A reader that is doomed and has gone has panicked. -/
theorem Doomed.result {crc : Bytes → UInt32} {all : List Call} {now : Buffered σ nbuf}
    (doomed : now.Doomed crc all) {result : Outcome Unit} (reader : now.main = .done result) :
    result.Panics := by
  -- A reader that has gone is past the test, so it went with the panic.
  rcases doomed.doom with ⟨message, leaving | done⟩ | ⟨⟨spins, testing⟩, _⟩
  · rw [reader] at leaving
    cases leaving
  · rw [reader] at done
    cases done
    exact ⟨message, rfl⟩
  · rw [reader] at testing
    cases testing

/-- A complete run ends in a panic exactly if the reader was orphaned on the way. -/
theorem returned_panics_iff (crc : Bytes → UInt32) {handle : HandleCmd σ} (calm : handle.Calm)
    {bufCountArgs : Nat} {input : Bytes} {atomicPos : Option Nat} {state : σ}
    {first : Buffered σ (clampBufs bufCountArgs)}
    (started : start bufCountArgs (.new input atomicPos) state = .ok first)
    {schedule : List Actor} {result : Outcome Unit}
    (finished : ((system crc handle).run schedule first).returned = some result) :
    result.Panics ↔ ¬ (system crc handle).Avoids Orphans schedule first := by
  -- Without an orphaning step there is no panic, and with one there is no way around it.
  obtain ⟨reader, _⟩ := (reachable_sound crc calm started schedule).returned finished
  constructor
  · intro ⟨message, panics⟩ keeps
    rw [panics] at reader
    exact (heeded_run crc calm started schedule keeps).quiet ⟨message, Or.inr reader⟩
  · intro hit
    exact (doomed_run crc calm started hit).result reader

/-- An error that ended the handler thread is in the ring of replies, or the reader returns it. -/
theorem Sound.error_kept {crc : Bytes → UInt32} {all : List Call} {now : Buffered σ nbuf}
    (sound : now.Sound crc all) {error : IoError} (stopped : now.HasStopped)
    (erred : Erred now.calls error) :
    (∃ bufs, AllBuffers bufs ∧ now.free.items = bufs ++ [.error error]) ∨
      now.free.items = [] ∧ (now.main = .leave (.error (.io error)) ∨
        now.main = .done (.error (.io error))) := by
  -- The thread that stopped knows the error it stopped with.
  have why : now.Stopped false := by
    have holds := sound.thread
    rcases stopped with stands | stands
    · rw [ThreadHolds, stands] at holds
      exact holds
    · rw [ThreadHolds, stands] at holds
      exact holds
  rcases why.2 with ⟨clean, _⟩ | ⟨other, failed, kept⟩
  · exact absurd (clean.not_erred erred) id
  · -- There is one last call, so the two errors are the same.
    obtain ⟨before, call, split, _⟩ := erred
    obtain ⟨others, last, again, _⟩ := failed
    rw [split] at again
    obtain ⟨_, same⟩ := List.append_inj' again rfl
    cases same
    exact kept

/--
For a handler that does not panic the reader panics in no run without the step that orphans it, and
every complete run with such a step ends in a panic.

The error of the call that ended the handler thread stays in the ring of replies until the reader
takes it, and the reader that takes it returns it.
-/
theorem reader_panics_iff {σ : Type} (crc : Bytes → UInt32) (handle : HandleCmd σ)
    (calm : handle.Calm) (bufCountArgs : Nat) (input : Bytes) (atomicPos : Option Nat) (state : σ)
    (first : Buffered σ (clampBufs bufCountArgs))
    (started : start bufCountArgs (.new input atomicPos) state = .ok first)
    (schedule : List Actor) :
    let now := (system crc handle).run schedule first
    ((system crc handle).Avoids Orphans schedule first → ¬ now.main.Panicked) ∧
      (∀ result, now.returned = some result →
        (result.Panics ↔ ¬ (system crc handle).Avoids Orphans schedule first)) ∧
      ∀ error, now.HasStopped → Erred now.calls error →
        (∃ bufs, AllBuffers bufs ∧ now.free.items = bufs ++ [.error error]) ∨
          now.free.items = [] ∧ (now.main = .leave (.error (.io error)) ∨
            now.main = .done (.error (.io error))) := by
  -- The three parts are about a quiet run, a returned one and a reported error.
  intro now
  refine ⟨fun keeps => (heeded_run crc calm started schedule keeps).quiet, ?_, ?_⟩
  · intro result finished
    exact returned_panics_iff crc calm started finished
  · intro error stopped erred
    exact (reachable_sound crc calm started schedule).error_kept stopped erred

/-- A handler that fails at every command. -/
def failingHandler : HandleCmd Unit :=
  fun _ _ _ state => (.error (receiveError "failed"), state)

/-- The failing handler does not panic. -/
theorem failingHandler_calm : failingHandler.Calm := by
  -- What is returned is an error, for every frame.
  intro command payload version state
  exact Outcome.not_panics_receiveError _

/--
The reader finds its ring empty, the handler thread fails, pushes its error and drops its end of
the ring, and only then the reader tests whether the handler thread is still there.
-/
def orphaningSchedule : List Actor :=
  sendBoth ++ ((List.replicate mainMaxSpins Actor.main ++ [Actor.main]) ++
    ([Actor.thread, Actor.thread, Actor.thread, Actor.thread] ++ [Actor.main, Actor.main]))

/-- The reader finds the other ends of its rings gone, and no error in them. -/
private theorem orphaningSchedule_run :
    ∃ first, start 2 (.new (plainStream [rmdirFrame, endFrame]) none) () = .ok first ∧
      ((system (fun _ => 0) failingHandler).run orphaningSchedule first).returned =
        some (.error (.panic "Handler thread panicked")) := by
  obtain ⟨first, filled, ended, started, holds, _, sent⟩ := run_sendBoth failingHandler ()
  refine ⟨first, started, ?_⟩
  -- Both frames are under way, and the handler fails at the first one.
  rw [orphaningSchedule, System.run_append, sent, System.run_append, run_doubt, System.run_append,
    run_refuse _ _ (by exact holds.slice) (by rfl) (room_one _), run_orphaned]
  rfl

/-- A handler that fails at a command makes the reader panic. -/
theorem orphaningSchedule_panics :
    failingHandler.Calm ∧
      ∃ first, start 2 (.new (plainStream [rmdirFrame, endFrame]) none) () = .ok first ∧
        ((system (fun _ => 0) failingHandler).run orphaningSchedule first).main.Panicked := by
  -- The run was evaluated, and the reader ends with the result it returns.
  obtain ⟨first, started, finished⟩ := orphaningSchedule_run
  have sound := reachable_sound (fun _ => 0) failingHandler_calm started orphaningSchedule
  exact ⟨failingHandler_calm, first, started, _, Or.inr (sound.returned finished).1⟩

/-- That is a panic, and the schedule takes the step that leads to it. -/
theorem reader_panics_iff_orphaningSchedule :
    ∃ first, start 2 (.new (plainStream [rmdirFrame, endFrame]) none) () = .ok first ∧
      ¬ (system (fun _ => 0) failingHandler).Avoids Orphans orphaningSchedule first := by
  -- The run was evaluated, so the theorem applies to it.
  obtain ⟨first, started, finished⟩ := orphaningSchedule_run
  have panics := (reader_panics_iff (fun _ => 0) failingHandler failingHandler_calm 2
    (plainStream [rmdirFrame, endFrame]) none () first started orphaningSchedule).2.1 _ finished
  exact ⟨first, started, panics.mp ⟨_, rfl⟩⟩

end Buffered

end Libbtrfs
