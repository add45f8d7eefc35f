import Libbtrfs.SendStream.Taking

/-! What the handler of a buffered send is called with, in whatever order its parties move. -/

namespace Libbtrfs

namespace Receiving

variable {σ : Type} {crc : Bytes → UInt32} {handler : HandleCmd σ} {written : Bytes}

/-- With its whole stream in sight, a buffered receive steps as its two processes do. -/
theorem entire_buffered {actor : Actor} {now : Buffered σ (clampBufs 2)} {next : Receiving σ}
    (stepped : (receiveStream crc handler).entire.step actor (.buffered now) = some next) :
    ∃ after, (Buffered.system crc handler).step actor now = some after ∧
      next = .buffered after := by
  rcases Consumer.entire_cases stepped with moved | ⟨hungry, rfl⟩
  · exact step_buffered moved
  · -- The read that finds the end of the stream is a step of the reader.
    obtain ⟨stands, after, taken⟩ := starve_buffered hungry
    cases actor with
    | thread =>
      have asks : step crc handler .thread (.buffered now) = .hungry := hungry
      exact absurd asks (thread_fed crc handler _)
    | main => exact ⟨after, taken, by simp only [receiveStream, starve, taken, Option.getD_some]⟩

/-- A buffered receive of the given stream, of which the handler was given a front part. -/
def Ahead (crc : Bytes → UInt32) (written : Bytes) : Receiving σ → Prop
  | .opening ahead stream _ => ahead = true ∧ stream = .new written none
  | .buffered now => now.Survives crc (Buffered.streamCalls crc written)
  | .plain _ _ => False
  | .done _ => True

/-- With the whole stream in sight, every step stays with that. -/
theorem Ahead.step {actor : Actor} {now next : Receiving σ} (ahead : now.Ahead crc written)
    (stepped : (receiveStream crc handler).entire.step actor now = some next) :
    next.Ahead crc written := by
  cases now with
  | opening buffered stream state =>
    obtain ⟨rfl, same⟩ := ahead
    cases actor with
    | thread => cases stepped
    | main =>
      -- The header is refused, or missing, or the two processes start behind it.
      rcases Consumer.entire_cases stepped with moved | ⟨_, rfl⟩
      · obtain ⟨_, _, _, _, rfl⟩ | ⟨_, _, _, rfl⟩ | ⟨_, first, started, rfl⟩ |
          ⟨impossible, _⟩ := opens_cases moved
        · trivial
        · trivial
        · rw [same] at started
          exact Or.inl (Buffered.start_sound crc started)
        · cases impossible
      · trivial
  | plain stream state => exact ahead.elim
  | buffered now =>
    obtain ⟨after, taken, rfl⟩ := entire_buffered stepped
    exact Buffered.Survives.step ahead taken
  | done result =>
    cases actor with
    | main => cases stepped
    | thread => cases stepped

end Receiving

/-- The calls that the handler thread has made, with their answers. -/
def Receiving.calls {σ : Type} : Receiving σ → List (Call × Outcome (Option Unit))
  | .buffered now => now.calls
  | _ => []

/-- What arrives is no call of the handler. -/
theorem Receiving.calls_give {σ : Type} (more : Bytes) (now : Receiving σ) :
    (now.give more).calls = now.calls := by
  -- In every one of its states only the input grows.
  cases now with
  | opening | plain | buffered | done => rfl

/-- A receive that goes ahead of its handler has given it a front part of the calls. -/
theorem Receiving.Ahead.delivered {σ : Type} {crc : Bytes → UInt32} {written more : Bytes}
    {now : Receiving σ} (ahead : (now.give more).Ahead crc written) :
    now.calls.map Prod.fst <+: Buffered.streamCalls crc written ∧
      ∀ entry ∈ now.calls, entry.2.Panics → now.calls.getLast? = some entry := by
  -- Only a buffered receive has a handler thread to give calls to.
  cases now with
  | opening | plain | done => exact ⟨List.nil_prefix, fun _ impossible => by cases impossible⟩
  | buffered now =>
    have survives : (now.give more).Survives crc (Buffered.streamCalls crc written) := ahead
    refine ⟨survives.delivered, fun entry member panics => ?_⟩
    rcases survives with sound | broken
    · exact absurd panics (sound.not_panicked entry member)
    · exact broken.last member panics

/--
Whatever the order of the steps, the handler of a buffered send is given a front part of the calls
that its stream asks for, in their order, and none behind one that panics.
-/
theorem buffered_send_delivers {σ : Type} (crc : Bytes → UInt32) (handler : HandleCmd σ)
    (builder : SendBuilder) (ahead : builder.buffered = true) (kernel : SendKernel)
    (call : SendCall) (state : σ) (first : Sending σ)
    (begun : builder.begins kernel call state = .ok first) (schedule : List Party) :
    let calls := ((Sending.system crc handler).run schedule first).receiver.calls
    calls.map Prod.fst <+: Buffered.streamCalls crc (kernel.send builder.args).1 ∧
      ∀ entry ∈ calls, entry.2.Panics → calls.getLast? = some entry := by
  -- What a receive of the whole stream keeps holds of this one with the bytes that are on their
  -- way.
  obtain ⟨delivered, rest, same, piped⟩ :=
    @Sending.run_flows σ crc handler builder kernel call state first begun schedule
  obtain ⟨turns, whole⟩ := piped.entire
  rw [← same, ahead] at whole
  have starts : Receiving.Ahead crc (kernel.send builder.args).1
      ((receiveStream crc handler).give (kernel.send builder.args).1 (.start true state)) :=
    ⟨rfl, rfl⟩
  have ends : Receiving.Ahead crc (kernel.send builder.args).1
      ((receiveStream crc handler).entire.run turns _) :=
    (receiveStream crc handler).entire.run_invariant
      (fun _ _ _ held stepped => Receiving.Ahead.step held stepped) turns starts
  rw [← whole] at ends
  exact Receiving.Ahead.delivered ends

/-- A receive by itself whose handler panics at the only command it is given. -/
theorem Receiving.alone_crashing :
    ∃ now, (receiveStream (fun _ => 0) Buffered.crashingHandler).alone.run
        [.main, .main, .main, .thread, .thread]
        ((Receiving.start true ()).give (Buffered.plainStream [Buffered.endFrame])) =
          .buffered now ∧
      now.calls = [(Buffered.endFrame.call 2, .error (.panic "crashed"))] := by
  obtain ⟨first, filled, started, fresh, read, holds, more, _⟩ := Buffered.start_endFrame ()
  -- The only frame is read and sent, and the handler thread takes it and calls the handler.
  have fed : first.starving (fun _ => 0) = false := by
    simp only [Buffered.starving, fresh.main, if_neg more, read]
  rw [System.run_step _ (Receiving.alone_opens (Receiving.opens_buffered started)),
    System.run_step _ (Receiving.alone_main fed (.read fresh.main more read)), fresh.two_buffers,
    System.run_step _
      (Receiving.alone_main rfl (.push rfl (Ring.push_items _ (Buffered.room_one _)))),
    System.run_step _ (Receiving.alone_thread (.take rfl Ring.pop_items)),
    System.run_step _ (Receiving.alone_thread (.panic rfl (by exact holds.slice) rfl))]
  refine ⟨_, rfl, ?_⟩
  simp only [List.nil_append, Buffered.packet, holds.command]
  rfl

/-- The handler of a send is called with the only command, and panics. -/
theorem buffered_send_delivers_crashing :
    ∃ first schedule, SendBuilder.begins ⟨true, 2, 0⟩
        (openKernel (Buffered.plainStream [Buffered.endFrame]) (.ok ())) .spawn () = .ok first ∧
      let calls := ((Sending.system (fun _ => 0) Buffered.crashingHandler).run
        schedule first).receiver.calls
      calls = [(Buffered.endFrame.call 2, .error (.panic "crashed"))] ∧
        calls.map Prod.fst <+:
          Buffered.streamCalls (fun _ => 0) (Buffered.plainStream [Buffered.endFrame]) ∧
        ∀ entry ∈ calls, entry.2.Panics → calls.getLast? = some entry := by
  -- Alone the receive comes to the panic, and a schedule of the send lets it do so.
  obtain ⟨now, ran, called⟩ := Receiving.alone_crashing
  obtain ⟨schedule, left, receiver, runs, same⟩ := @Sending.run_alone Unit (fun _ => 0)
    Buffered.crashingHandler ⟨true, 2, 0⟩
    (openKernel (Buffered.plainStream [Buffered.endFrame]) (.ok ())) .spawn
    (SendBuilder.pipeSz ⟨true, 2, 0⟩) () (by decide) _ [] (List.append_nil _).symm
    [.main, .main, .main, .thread, .thread]
  have delivers := buffered_send_delivers (fun _ => 0) Buffered.crashingHandler ⟨true, 2, 0⟩ rfl
    (openKernel (Buffered.plainStream [Buffered.endFrame]) (.ok ())) .spawn () _ rfl schedule
  refine ⟨_, schedule, rfl, ?_, delivers⟩
  have calls : receiver.calls = now.calls := by
    rw [← Receiving.calls_give left, same.trans ran]
    rfl
  rw [runs, ← called, ← calls]

end Libbtrfs
