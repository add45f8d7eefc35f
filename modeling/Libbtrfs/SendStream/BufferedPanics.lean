import Libbtrfs.SendStream.BufferedProgress
import Libbtrfs.SendStream.BufferedSchedules

/-! The buffered receiver with a handler that may panic: it returns, and with the panic. -/

namespace Libbtrfs

/-- The handler, with another answer in the place of each panic. -/
def HandleCmd.soft {σ : Type} (handle : HandleCmd σ) : HandleCmd σ :=
  fun command payload version state =>
    match handle command payload version state with
    | (.error (.panic _), state) => (.ok none, state)
    | answered => answered

/-- That handler does not panic. -/
theorem HandleCmd.soft_calm {σ : Type} (handle : HandleCmd σ) : handle.soft.Calm := by
  -- A panic is what it answers otherwise, so that what is left is no panic.
  intro command payload version state
  unfold soft
  split
  · exact Outcome.not_panics_ok _
  · rename_i other
    rintro ⟨message, panics⟩
    rcases answered : handle command payload version state with ⟨answer, later⟩
    rw [answered] at panics
    exact other message later (by rw [answered, show answer = _ from panics])

/--
How often the reader can turn before it gets something done.

In front of an empty ring that the handler thread has abandoned it spins until it has a doubt.
-/
def MainPc.endurance (replies : List Reply) : MainPc → Nat
  | .pop spins => if replies = [] then mainMaxSpins - spins + 1 else 0
  | .test _ => if replies = [] then 0 else 1
  | _ => 0

/-- A reader does not spin for longer than its limit. -/
theorem MainPc.endurance_le (replies : List Reply) (main : MainPc) :
    main.endurance replies ≤ mainMaxSpins + 1 := by
  -- The spins that were made are taken off those that are allowed.
  unfold endurance
  split
  · split
    · omega
    · omega
  · split
    · omega
    · omega
  · omega

namespace Buffered

variable {σ : Type} {nbuf : Nat}

/-- The last call was answered with a panic, and no call before it with an error. -/
def CallPanicked (calls : List (Call × Outcome (Option Unit))) : Prop :=
  ∃ before call message, calls = before ++ [(call, .error (.panic message))] ∧ NoErrors before

/-- What holds once a call of the handler has panicked: its thread goes, and makes no more calls. -/
structure Broken (all : List Call) (now : Buffered σ nbuf) : Prop where
  left : now.thread = .leave true ∨ now.thread = .done true
  calls : CallPanicked now.calls
  delivered : now.calls.map Prod.fst <+: all
  freeGone : now.free.abandoned = true ↔ now.thread = .done true

/-- What holds of the two processes whatever their handler does. -/
def Survives (crc : Bytes → UInt32) (all : List Call) (now : Buffered σ nbuf) : Prop :=
  now.Sound crc all ∨ now.Broken all

section Steps

variable {crc : Bytes → UInt32} {all : List Call} {handle : HandleCmd σ}
  {now after : Buffered σ nbuf}

/-- The reader does not tell whether the handler thread has abandoned the ring of replies. -/
theorem MainStep.free_kept (step : MainStep crc now after) :
    after.free.abandoned = now.free.abandoned := by
  -- The reader takes replies out of the ring, and does nothing else to it.
  cases step with
  | take _ popped | fail _ popped => exact (Ring.pop_some popped).2
  | finish _ _ | refuse _ _ _ | read _ _ _ | push _ _ | full _ _ | spin _ _ _ | doubt _ _ _
  | orphaned _ _ | wait _ _ | leave _ => rfl

/-- A thread that has left its loop can only drop its ends of the rings. -/
theorem ThreadStep.leaves {panicked : Bool} (step : ThreadStep handle now after)
    (stands : now.thread = .leave panicked) :
    after = { now with free := now.free.abandon, thread := .done panicked } := by
  -- There is one step from there.
  have taken := step.taken
  simp only [threadStep, stands] at taken
  exact (Option.some.inj taken).symm

/-- The reader keeps what holds behind a panic. -/
theorem Broken.mainStep (broken : now.Broken all) (step : MainStep crc now after) :
    after.Broken all := by
  -- It touches neither the thread nor its calls, and does not bring back a free ring that is gone.
  obtain ⟨thread, calls, _, _⟩ := step.frame
  refine ⟨?_, ?_, ?_, ?_⟩
  · rw [thread]
    exact broken.left
  · rw [calls]
    exact broken.calls
  · rw [calls]
    exact broken.delivered
  · rw [step.free_kept, thread]
    exact broken.freeGone

/-- The handler thread keeps what holds behind a panic. -/
theorem Broken.threadStep (broken : now.Broken all) (step : ThreadStep handle now after) :
    after.Broken all := by
  -- A thread that has gone takes no step at all.
  rcases broken.left with stands | stands
  · rw [step.leaves stands]
    exact ⟨Or.inr rfl, broken.calls, broken.delivered, fun _ => rfl, fun _ => rfl⟩
  · exact absurd stands (step.not_done true)

/-- Calls without an error, or with one that is not a panic at their end, have not panicked. -/
theorem not_panics_of_answers {calls : List (Call × Outcome (Option Unit))}
    (answers : NoErrors calls ∨ ∃ error, Erred calls error) :
    ∀ entry ∈ calls, ¬entry.2.Panics := by
  -- All answers but perhaps the last one are `Ok`.
  have clean : ∀ front, NoErrors front → ∀ entry ∈ front, ¬entry.2.Panics := by
    intro front fine entry member
    obtain ⟨goes, answered⟩ := fine entry member
    rw [answered]
    exact Outcome.not_panics_ok _
  rcases answers with fine | ⟨error, before, call, rfl, fine⟩
  · exact clean calls fine
  · intro entry member
    rcases List.mem_append.mp member with earlier | this
    · exact clean before fine entry earlier
    · rw [List.mem_singleton.mp this]
      exact Outcome.not_panics_io _

/-- As long as the two processes are sound, no call has been answered with a panic. -/
theorem Sound.not_panicked (sound : now.Sound crc all) :
    ∀ entry ∈ now.calls, ¬entry.2.Panics := by
  refine not_panics_of_answers ?_
  -- Wherever the thread stands, it knows how the calls were answered.
  have holds := sound.thread
  unfold ThreadHolds at holds
  split at holds
  · exact Or.inl holds.1
  · exact Or.inl holds.1
  · exact Or.inl holds.1
  · exact Or.inl holds.1
  · exact Or.inr ⟨_, holds.1⟩
  · exact holds.2.imp And.left fun ⟨error, failed, _⟩ => ⟨error, failed⟩
  · exact holds.2.imp And.left fun ⟨error, failed, _⟩ => ⟨error, failed⟩

/-- Behind a panic there is no further call. -/
theorem Broken.last (broken : now.Broken all) {entry : Call × Outcome (Option Unit)}
    (member : entry ∈ now.calls) (panics : entry.2.Panics) : now.calls.getLast? = some entry := by
  -- All calls in front of the one that panicked were answered without an error.
  obtain ⟨before, call, message, same, fine⟩ := broken.calls
  rw [same] at member ⊢
  rcases List.mem_append.mp member with earlier | this
  · exact absurd panics (not_panics_of_answers (Or.inl fine) entry earlier)
  · rw [List.mem_singleton.mp this, List.getLast?_concat]

/-- A step of the handler thread is one with the other answers, unless the handler panics. -/
theorem ThreadStep.soft (step : ThreadStep handle now after) :
    ThreadStep handle.soft now after ∨
      ∃ packet payload message handler, now.thread = .call packet ∧
        getRange packet.buf packet.payload.start packet.payload.stop = some payload ∧
        after =
          { now with
            handler := handler
            calls := now.calls ++
              [(⟨packet.command, payload, now.version⟩, .error (.panic message))]
            thread := .leave true } := by
  -- Only the answers of the handler are looked at, and only the panics among them are others.
  cases step with
  | take stands popped => exact Or.inl (.take stands popped)
  | spin stands empty few => exact Or.inl (.spin stands empty few)
  | doubt stands empty many => exact Or.inl (.doubt stands empty many)
  | quit stands gone => exact Or.inl (.quit stands gone)
  | wait stands there => exact Or.inl (.wait stands there)
  | slice stands outside => exact Or.inl (.slice stands outside)
  | panic stands inside _ => exact Or.inr ⟨_, _, _, _, stands, inside, rfl⟩
  | refuse stands inside answered =>
    exact Or.inl (.refuse stands inside (by simp only [HandleCmd.soft, answered]))
  | accept stands inside answered =>
    exact Or.inl (.accept stands inside (by simp only [HandleCmd.soft, answered]))
  | report stands pushed => exact Or.inl (.report stands pushed)
  | giveBack stands pushed => exact Or.inl (.giveBack stands pushed)
  | full stands full => exact Or.inl (.full stands full)
  | leave stands => exact Or.inl (.leave stands)

/-- The handler thread goes on as it does with a handler that does not panic, or breaks. -/
theorem Sound.threadStep_survives (sound : now.Sound crc all)
    (step : ThreadStep handle now after) : after.Survives crc all := by
  rcases step.soft with going | ⟨packet, payload, message, handler, stands, inside, rfl⟩
  · exact Or.inl (sound.threadStep handle.soft_calm going)
  · -- The call that panics is the next one of the stream.
    have held := sound.thread
    rw [ThreadHolds, stands] at held
    refine Or.inr ⟨Or.inl rfl, ⟨now.calls, _, message, rfl, held.1⟩, ?_, ?_⟩
    · obtain ⟨unread, split, _⟩ := sound.order
      have call : packet.call now.version = ⟨packet.command, payload, now.version⟩ := by
        rw [Packet.call, inside]
        rfl
      refine ⟨(now.data.items ++ now.pending).map (Packet.call now.version) ++ unread, ?_⟩
      rw [split, sent, packets, stands]
      simp only [ThreadPc.inHand, List.map_cons, List.map_append, call, List.map_nil,
        List.append_assoc, List.cons_append, List.nil_append]
    · have there : now.free.abandoned ≠ true := by
        intro gone
        obtain ⟨panicked, done⟩ := sound.freeGone.mp gone
        cases stands.symm.trans done
      refine ⟨fun gone => absurd gone there, fun gone => ?_⟩
      cases gone

/-- Every step of either process keeps what holds whatever the handler does. -/
theorem Survives.step {actor : Actor} (survives : now.Survives crc all)
    (stepped : (system crc handle).step actor now = some after) : after.Survives crc all := by
  -- Either of the processes keeps what was there in front of a panic, and what is there behind one.
  cases actor with
  | main =>
    have step := (mainStep_iff crc now after).mp stepped
    exact survives.imp (fun sound => sound.mainStep step) fun broken => broken.mainStep step
  | thread =>
    have step := (threadStep_iff handle now after).mp stepped
    rcases survives with sound | broken
    · exact sound.threadStep_survives step
    · exact Or.inr (broken.threadStep step)

/-- What was handed to the handler is a front part of the calls of the stream. -/
theorem Survives.delivered (survives : now.Survives crc all) :
    now.calls.map Prod.fst <+: all :=
  survives.elim Sound.delivered Broken.delivered

/-- A receive in which a call has panicked does not return anything else. -/
theorem Broken.returned (broken : now.Broken all) {result : Outcome Unit}
    (finished : now.returned = some result) : result.Panics := by
  -- The thread has gone with a panic, and the reader may have had one of its own.
  obtain ⟨outcome, ended, reader, thread, _⟩ := returned_done finished
  have broke : ended = true := by
    rcases broken.left with stands | stands
    · cases thread.symm.trans stands
    · cases thread.symm.trans stands
      rfl
  rw [broke] at thread
  unfold Buffered.returned at finished
  rw [reader, thread] at finished
  split at finished
  · cases finished
    exact Outcome.panics_panic _
  · cases finished
    exact Outcome.panics_panic _
  · rename_i same
    cases same
  · cases finished

end Steps

/-- How often the process that has to move next can turn before it gets something done. -/
def endurance (now : Buffered σ nbuf) : Nat :=
  match now.helper with
  | .main => now.main.endurance now.free.items
  | .thread => now.thread.patience now.data.items

/-- The work, and behind it the endurance. -/
def fullRank (now : Buffered σ nbuf) : Nat := now.work * (threadMaxSpins + 2) + now.endurance

/-- Neither of the processes spins for longer than its limit. -/
theorem endurance_le (now : Buffered σ nbuf) : now.endurance ≤ threadMaxSpins + 1 := by
  -- Both processes allow themselves the same number of spins.
  unfold endurance
  split
  · exact MainPc.endurance_le _ _
  · exact ThreadPc.patience_le _ _

/-- Less work is a lower rank, however much endurance it takes. -/
theorem fullRank_of_work {now after : Buffered σ nbuf} (less : after.work < now.work) :
    after.fullRank < now.fullRank := by
  -- The endurance never makes up for one unit of work.
  have bound := after.endurance_le
  have step := Nat.mul_le_mul_right (threadMaxSpins + 2) (Nat.succ_le_of_lt less)
  rw [Nat.succ_mul] at step
  unfold fullRank
  omega

section Lowers

variable {crc : Bytes → UInt32} {all : List Call} {handle : HandleCmd σ}
  {now after : Buffered σ nbuf}

/-- As long as no call has panicked, it takes no more endurance than patience. -/
theorem Sound.fullRank_eq (sound : now.Sound crc all) : now.fullRank = now.rank := by
  have same : now.endurance = now.patience := by
    unfold endurance patience
    cases helping : now.helper with
    | thread => rfl
    | main =>
      -- A reader that waits finds a reply, as it would wait for the thread otherwise.
      have found : now.main.Waits → now.free.items ≠ [] := by
        intro waits empty
        have waiting := helper_waits waits empty (sound.still_there waits empty)
        cases helping.symm.trans waiting
      cases stands : now.main with
      | pop spins => simp only [MainPc.endurance, MainPc.patience,
          if_neg (found ⟨spins, Or.inl stands⟩)]
      | test spins => simp only [MainPc.endurance, MainPc.patience,
          if_neg (found ⟨spins, Or.inr stands⟩)]
      | read | push | leave | done => rfl
  rw [fullRank, rank, same]

/-- A reader that spins at an empty ring comes closer to its test of the handler thread. -/
theorem MainStep.endures {main : MainPc} (step : MainStep crc now { now with main := main })
    (empty : now.free.items = []) (pops : ∃ spins, now.main = .pop spins) :
    main.endurance now.free.items < now.main.endurance now.free.items := by
  -- With nothing to pop it counts one spin more, or goes on to the test.
  obtain ⟨spins, stands⟩ := pops
  have taken := step.taken
  have nothing : now.free.pop = none := by
    cases popped : now.free.pop with
    | none => rfl
    | some found =>
      have items := (Ring.pop_some popped).1
      rw [empty] at items
      cases items
  simp only [Buffered.mainStep, stands, nothing] at taken
  rw [stands]
  split at taken
  · rename_i many
    have moved := congrArg Buffered.main (Option.some.inj taken)
    simp only at moved
    rw [← moved]
    simp only [MainPc.endurance, if_pos empty]
    omega
  · rename_i few
    have moved := congrArg Buffered.main (Option.some.inj taken)
    simp only at moved
    rw [← moved]
    simp only [MainPc.endurance, if_pos empty]
    omega

/-- Every step of the reader lowers the full rank, unless the handler thread has to move next. -/
theorem MainStep.lowers (step : MainStep crc now after) :
    after.fullRank < now.fullRank ∨
      after.fullRank = now.fullRank ∧ after.helper = now.helper ∧ now.helper ≠ .main := by
  -- Either there is less work, or the reader went round in its spin loop.
  rcases step.works with less | ⟨main, rfl, waits, going⟩
  · exact Or.inl (fullRank_of_work less)
  · have waited : now.main.Waits := by
      rcases going with ⟨⟨spins, stands⟩, _⟩ | ⟨spins, stands, _⟩
      · exact ⟨spins, Or.inl stands⟩
      · exact ⟨spins, Or.inr stands⟩
    have same : { now with main := main }.work = now.work := by
      simp only [work, waits.work, waited.work]
    by_cases empty : now.free.items = []
    · by_cases there : now.free.abandoned = false
      · -- The thread has yet to drop its end of the ring.
        have before := helper_waits waited empty there
        have behind : { now with main := main }.helper = .thread := helper_waits waits empty there
        refine Or.inr ⟨?_, behind.trans before.symm, by simp [before]⟩
        simp only [fullRank, same, endurance, behind, before]
      · -- It has, so the reader spins alone, and no longer than it allows itself.
        rcases going with ⟨pops, _⟩ | ⟨_, _, _, still⟩
        · have fewer := step.endures empty pops
          have alone : ∀ state : Buffered σ nbuf, state.main.Waits → state.free = now.free →
              state.helper = .main := by
            intro state waiting ring
            have no : ¬(state.free.items = [] ∧ state.free.abandoned = false) := by
              rw [ring]
              exact fun both => there both.2
            obtain ⟨spins, stands | stands⟩ := waiting
            · simp only [helper, stands, if_neg no]
            · simp only [helper, stands, if_neg no]
          have before := alone now waited rfl
          have behind := alone { now with main := main } waits rfl
          refine Or.inl ?_
          simp only [fullRank, same, endurance, behind, before]
          omega
        · exact absurd still there
    · rcases going with ⟨_, nothing⟩ | ⟨spins, stands, rfl, _⟩
      · exact absurd nothing empty
      · have before := helper_finds waited empty
        have behind : { now with main := .pop spins }.helper = .main := helper_finds waits empty
        refine Or.inl ?_
        simp only [fullRank, same, endurance, behind, before, stands, MainPc.endurance,
          if_neg empty]
        omega

/-- Every step lowers the full rank, or neither changes it nor who has to move next. -/
theorem Survives.lowers (some_buf : 0 < nbuf) {actor : Actor} (survives : now.Survives crc all)
    (stepped : (system crc handle).step actor now = some after) :
    after.fullRank < now.fullRank ∨
      after.fullRank = now.fullRank ∧ after.helper = now.helper ∧ now.helper ≠ actor := by
  -- A step of the thread is one of the softened handler, or the one that panics, or one behind
  -- that.
  cases actor with
  | main => exact MainStep.lowers ((mainStep_iff crc now after).mp stepped)
  | thread =>
    have step := (threadStep_iff handle now after).mp stepped
    rcases survives with sound | broken
    · rcases step.soft with going | ⟨packet, payload, message, handler, stands, _, rfl⟩
      · have still := sound.threadStep handle.soft_calm going
        rw [sound.fullRank_eq, still.fullRank_eq]
        exact sound.threadStep_lowers some_buf going
      · refine Or.inl (fullRank_of_work ?_)
        simp only [work, stands, ThreadPc.work]
        omega
    · rcases broken.left with stands | stands
      · rw [step.leaves stands]
        refine Or.inl (fullRank_of_work ?_)
        simp only [work, stands, ThreadPc.work, Ring.abandon_items]
        omega
      · exact absurd stands (step.not_done true)

/-- The one who has to move next can move, until both processes have gone. -/
theorem Survives.moves (survives : now.Survives crc all)
    (open_end : ¬∃ result, now.returned = some result) :
    ∃ next, (system crc handle).step now.helper now = some next := by
  cases helping : now.helper with
  | main =>
    refine mainStep_moves crc fun result done => ?_
    simp only [helper, done] at helping
    cases helping
  | thread =>
    refine threadStep_moves handle fun panicked done => ?_
    rcases helper_thread helping with ⟨_, _, there⟩ | ⟨result, reader⟩
    · -- A thread that has gone has dropped its end of the ring.
      have gone : now.free.abandoned = true := by
        rcases survives with sound | broken
        · exact sound.freeGone.mpr ⟨panicked, done⟩
        · refine broken.freeGone.mpr (broken.left.resolve_left fun stands => ?_)
          cases stands.symm.trans done
      rw [gone] at there
      cases there
    · exact open_end (returned_some reader done)

end Lowers

/-- Whatever the handler does, the processes help each other on until both have gone. -/
theorem system_helps_all (crc : Bytes → UInt32) (handle : HandleCmd σ) (all : List Call)
    (some_buf : 0 < nbuf) :
    (system crc handle : System Actor (Buffered σ nbuf)).Helps (Survives crc all)
      (fun now => ∃ result, now.returned = some result) fullRank helper where
  keeps _ _ _ survives stepped := survives.step stepped
  moves _ survives open_end := survives.moves open_end
  lowers _ _ _ survives stepped := survives.lowers some_buf stepped

/--
Under every fair schedule a receive returns, whatever its handler does, and the handler is given a
front part of the calls of the stream. When one of them panics then it is the last, and the receive
returns nothing but a panic.
-/
theorem panics_surface {σ : Type} (crc : Bytes → UInt32) (handle : HandleCmd σ)
    (bufCountArgs : Nat) (input : Bytes) (atomicPos : Option Nat) (state : σ)
    (first : Buffered σ (clampBufs bufCountArgs))
    (started : start bufCountArgs (.new input atomicPos) state = .ok first)
    (turns : Nat → Actor) (fair : System.Fair turns) :
    (∃ count result, ((system crc handle).after turns count first).returned = some result) ∧
      ∀ count,
        let now := (system crc handle).after turns count first
        now.calls.map Prod.fst <+: streamCalls crc input ∧
          ∀ entry ∈ now.calls, entry.2.Panics →
            now.calls.getLast? = some entry ∧
              ∀ result, now.returned = some result → result.Panics := by
  -- What survives holds in front of a panic and behind one, and every step brings the end closer.
  have some_buf : 0 < clampBufs bufCountArgs := by
    unfold clampBufs
    omega
  have helps := system_helps_all crc handle (streamCalls crc input) some_buf
  have starts : first.Survives crc (streamCalls crc input) := Or.inl (start_sound crc started)
  refine ⟨helps.reaches _ fair starts, fun count => ?_⟩
  have survives := (system crc handle).run_invariant helps.keeps ((List.range count).map turns)
    starts
  refine ⟨survives.delivered, fun entry member panics => ?_⟩
  rcases survives with sound | broken
  · exact absurd panics (sound.not_panicked entry member)
  · exact ⟨broken.last member panics, fun result finished => broken.returned finished⟩

/-- A handler that panics whatever it is called with. -/
def crashingHandler : HandleCmd Unit := fun _ _ _ state => (.error (.panic "crashed"), state)

/-- The two processes in turn. -/
def inTurn (count : Nat) : Actor := if count % 2 = 0 then .main else .thread

/-- Taking turns is fair. -/
theorem inTurn_fair : System.Fair inTurn := by
  -- Every other turn is one of the reader, and the turns between are those of the thread.
  intro actor count
  cases actor with
  | main => exact ⟨2 * count, by omega, if_pos (by omega)⟩
  | thread => exact ⟨2 * count + 1, by omega, if_neg (by omega)⟩

/-- A handler that panics at the last command of a stream that has no other. -/
theorem panics_surface_crashing :
    ∃ first, start 2 (.new (plainStream [endFrame]) none) () = .ok first ∧
      (∃ count result,
        ((system (fun _ => 0) crashingHandler).after inTurn count first).returned = some result) ∧
      ∀ count,
        let now := (system (fun _ => 0) crashingHandler).after inTurn count first
        now.calls.map Prod.fst <+: streamCalls (fun _ => 0) (plainStream [endFrame]) ∧
          ∀ entry ∈ now.calls, entry.2.Panics →
            now.calls.getLast? = some entry ∧
              ∀ result, now.returned = some result → result.Panics := by
  -- The schedule that gives each of the two its turn is fair.
  obtain ⟨first, _, started, _⟩ := start_endFrame ()
  exact ⟨first, started, panics_surface (fun _ => 0) crashingHandler 2 _ none () first started
    inTurn inTurn_fair⟩

end Buffered

end Libbtrfs
