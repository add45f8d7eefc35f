import Libbtrfs.SendStream.BufferedDelivery
import Libbtrfs.SendStream.BufferedProgress
import Libbtrfs.SendStream.Progress

/-! The receivers between the frames of a receive, in both modes, and that they follow its input. -/

namespace Libbtrfs

section Plain

variable {σ : Type} (crc : Bytes → UInt32) (handler : HandleCmd σ)

/-- The state with which the loop goes on behind a frame, if the handler asks for another one. -/
def goesOn (read : SendStream) (state : σ) : Option σ :=
  match read.payload with
  | .error _ => none
  | .ok data =>
    match handler read.command data read.version state with
    | (.ok (some ()), state) => some state
    | _ => none

/-- The receivers behind each of the frames that the loop of `read_and_handle` reads. -/
def readTrace (stream : SendStream) (state : σ) : List SendStream :=
  match _ : readCmd crc stream with
  | .error _ _ => []
  | .ok () read =>
    match goesOn handler read state with
    | none => [read]
    | some state => read :: readTrace read state
termination_by stream.reader.length
decreasing_by
  have shorter := readCmd_consumes ‹readCmd crc stream = .ok () _›
  simp only [cmdHeaderSize] at shorter
  omega

/-- The receivers between the frames of a whole receive: behind the header, and behind each frame. -/
def receiveMoments (stream : SendStream) (state : σ) : List SendStream :=
  match readHeader stream with
  | .error _ _ => []
  | .ok () first => first :: readTrace crc handler first state

variable {crc handler}

/-- Where no frame can be read, nothing is added to the trace. -/
theorem readTrace_error {stream after : SendStream} {failure : Failure}
    (refused : readCmd crc stream = .error failure after) (state : σ) :
    readTrace crc handler stream state = [] := by
  -- Reading a frame is the first thing of each round.
  rw [readTrace]
  split
  · rfl
  · rename_i found
    rw [refused] at found
    cases found

/-- The receiver behind a frame that is read comes first, and what follows depends on the handler. -/
theorem readTrace_ok {stream read : SendStream} (done : readCmd crc stream = .ok () read)
    (state : σ) :
    (goesOn handler read state = none → readTrace crc handler stream state = [read]) ∧
      ∀ next, goesOn handler read state = some next →
        readTrace crc handler stream state = read :: readTrace crc handler read next := by
  rw [readTrace]
  split
  · rename_i found
    rw [done] at found
    cases found
  · rename_i found
    rw [done] at found
    cases found
    -- The trace has the receiver in any case, and goes on if the handler does.
    refine ⟨fun stops => ?_, fun next goes => ?_⟩
    · rw [stops]
    · rw [goes]

/-- The loop goes on exactly as `goesOn` says. -/
theorem handleLoop_goesOn {stream read : SendStream} (done : readCmd crc stream = .ok () read)
    (state : σ) :
    (goesOn handler read state = none → (handleLoop crc handler stream state).2.1 = read) ∧
      ∀ next, goesOn handler read state = some next →
        handleLoop crc handler stream state = handleLoop crc handler read next := by
  cases sliced : read.payload with
  | error failure =>
    have stops : goesOn handler read state = none := by rw [goesOn, sliced]
    rw [stops]
    refine ⟨fun _ => ?_, fun next impossible => by cases impossible⟩
    -- The loop ends with the panic of the slice.
    rw [handleLoop]
    split
    · rename_i found
      rw [done] at found
      cases found
    · rename_i found
      rw [done] at found
      cases found
      rw [sliced]
  | ok data =>
    rw [handleLoop_ok done sliced, goesOn, sliced]
    simp only
    cases handler read.command data read.version state with
    | mk answer next =>
      cases answer with
      | error failure => exact ⟨fun _ => rfl, fun _ impossible => by cases impossible⟩
      | ok goes =>
        cases goes with
        | none => exact ⟨fun _ => rfl, fun _ impossible => by cases impossible⟩
        | some _ =>
          refine ⟨fun impossible => (by cases impossible), fun other same => ?_⟩
          cases same
          rfl

/-- The loop follows the frames of its input, and leaves the position behind the last of them. -/
theorem handleLoop_follows {first : SendStream} :
    ∀ {stream : SendStream} {moments : List SendStream} (state : σ),
      Follows crc first moments stream →
      ∃ last, Follows crc first (moments ++ readTrace crc handler stream state) last ∧
        SamePos last (handleLoop crc handler stream state).2.1 ∧
        ((handleLoop crc handler stream state).1 = .ok () →
          (handleLoop crc handler stream state).2.1 = last) := by
  intro stream
  -- The induction is on what is left of the input, which every frame shortens.
  induction left : stream.reader.length using Nat.strongRecOn generalizing stream with
  | ind remaining ih =>
    intro moments state follows
    cases read : readCmd crc stream with
    | error failure after =>
      rw [readTrace_error read, handleLoop_error read, List.append_nil]
      refine ⟨stream, follows, readCmd_error_samePos read, fun impossible => ?_⟩
      cases impossible
    | ok done after =>
      have later := Follows.read follows read
      cases goes : goesOn handler after state with
      | none =>
        have ended := (handleLoop_goesOn read state).1 goes
        rw [(readTrace_ok read state).1 goes, ended]
        exact ⟨after, later, .refl _, fun _ => rfl⟩
      | some next =>
        have shorter : after.reader.length < remaining := by
          have consumed := readCmd_consumes read
          simp only [cmdHeaderSize] at consumed
          omega
        rw [(readTrace_ok read state).2 next goes, (handleLoop_goesOn read state).2 next goes]
        have rest := ih _ shorter rfl next later
        rw [List.append_assoc, List.singleton_append] at rest
        exact rest

/-- A whole receive follows the frames behind the header, and stores the position if it returns. -/
theorem readAndHandle_follows {stream first : SendStream} (read : readHeader stream = .ok () first)
    (state : σ) :
    ∃ last, Follows crc first (receiveMoments crc handler stream state) last ∧
      ((readAndHandle crc handler stream state).1 = .ok () →
        (readAndHandle crc handler stream state).2.1 = last.storePos) ∧
      ((readAndHandle crc handler stream state).1 ≠ .ok () →
        SamePos last (readAndHandle crc handler stream state).2.1) := by
  obtain ⟨last, follows, same, stops⟩ :=
    @handleLoop_follows σ crc handler first first [first] state .start
  rw [receiveMoments, readAndHandle, read]
  refine ⟨last, follows, ?_⟩
  -- Whether the position is stored depends on how the loop has ended.
  cases ended : handleLoop crc handler first state with
  | mk result rest =>
    rw [ended] at same stops
    cases result with
    | error failure =>
      simp only [ended]
      exact ⟨fun impossible => (by cases impossible), fun _ => same⟩
    | ok done =>
      simp only [ended]
      refine ⟨fun _ => ?_, fun other => absurd rfl other⟩
      rw [← stops rfl]

end Plain

/-- How the receiver of the reader relates to the one behind the last frame. -/
def MainPc.Leaves (last stream : SendStream) : MainPc → Prop
  | .leave (.ok _) | .done (.ok _) => stream = last.storePos
  | .leave (.error _) | .done (.error _) => SamePos last stream
  | .read | .push | .pop _ | .test _ => stream = last

namespace Buffered

variable {σ : Type} {nbuf : Nat}

/-- The receiver behind the frame that is read in a turn, if one is. -/
def accepted (crc : Bytes → UInt32) (actor : Actor) (now : Buffered σ nbuf) : List SendStream :=
  match actor, now.main with
  | .main, .read =>
    if now.stream.command = SendCmd.key EndCmd then []
    else
      match readCmd crc now.stream with
      | .error _ _ => []
      | .ok () read => [read]
  | _, _ => []

/-- The receivers behind each of the frames that are read in a schedule. -/
def readTrace (crc : Bytes → UInt32) (handle : HandleCmd σ) :
    List Actor → Buffered σ nbuf → List SendStream
  | [], _ => []
  | actor :: rest, now =>
    accepted crc actor now ++ readTrace crc handle rest ((system crc handle).turn actor now)

/-- The receiver of the reader follows the frames of its input. -/
def Tracks (crc : Bytes → UInt32) (first : SendStream) (moments : List SendStream)
    (now : Buffered σ nbuf) : Prop :=
  ∃ last, Follows crc first moments last ∧ now.main.Leaves last now.stream

/-- A step of the handler thread changes nothing of the reader. -/
theorem ThreadStep.reader {handle : HandleCmd σ} {now after : Buffered σ nbuf}
    (step : ThreadStep handle now after) : after.main = now.main ∧ after.stream = now.stream := by
  -- None of its steps is about the reader.
  cases step <;> exact ⟨rfl, rfl⟩

/-- A reader that has no step is done. -/
theorem mainStep_none {crc : Bytes → UInt32} {now : Buffered σ nbuf}
    (idle : mainStep crc now = none) : ∃ result, now.main = .done result := by
  -- In any other state it could move.
  by_contra going
  obtain ⟨next, moved⟩ := mainStep_moves crc (not_exists.mp going)
  cases idle.symm.trans moved

section Tracks

variable {crc : Bytes → UInt32} {handle : HandleCmd σ} {first : SendStream}
  {moments : List SendStream} {now after : Buffered σ nbuf}

/-- While the reader is in its loop, its receiver is the one behind the last frame. -/
theorem Tracks.running (tracks : now.Tracks crc first moments)
    (running : ∀ result, now.main ≠ .leave result ∧ now.main ≠ .done result) :
    Follows crc first moments now.stream := by
  obtain ⟨last, follows, leaves⟩ := tracks
  -- In each of the other states of the reader nothing is stored yet.
  cases stands : now.main with
  | leave result => exact absurd stands (running result).1
  | done result => exact absurd stands (running result).2
  | _ =>
    rw [stands] at leaves
    have same : now.stream = last := leaves
    rw [same]
    exact follows

/-- A step of the reader keeps track of the frames, to which it may add one. -/
theorem Tracks.mainStep (tracks : now.Tracks crc first moments) (step : MainStep crc now after) :
    after.Tracks crc first (moments ++ accepted crc .main now) := by
  -- Only a frame that is read is added, and a buffer is exchanged between two of them.
  cases step with
  | finish stands ended =>
    have follows := tracks.running (by simp [stands])
    simp only [accepted, stands, if_pos ended, List.append_nil]
    exact ⟨now.stream, follows, rfl⟩
  | refuse stands more failed =>
    have follows := tracks.running (by simp [stands])
    simp only [accepted, stands, if_neg more, failed, List.append_nil]
    exact ⟨now.stream, follows, readCmd_error_samePos failed⟩
  | @read stream stands more done =>
    have follows := tracks.running (by simp [stands])
    simp only [accepted, stands, if_neg more, done]
    exact ⟨stream, .read follows done, rfl⟩
  | push stands pushed =>
    have follows := tracks.running (by simp [stands])
    simp only [accepted, stands, List.append_nil]
    exact ⟨_, .swap follows [], rfl⟩
  | full stands full =>
    have follows := tracks.running (by simp [stands])
    simp only [accepted, stands, List.append_nil]
    exact ⟨_, .swap follows [], .refl _⟩
  | @take spins buf free stands popped =>
    have follows := tracks.running (by simp [stands])
    simp only [accepted, stands, List.append_nil]
    exact ⟨_, .swap follows buf, rfl⟩
  | fail stands popped =>
    have follows := tracks.running (by simp [stands])
    simp only [accepted, stands, List.append_nil]
    exact ⟨now.stream, follows, .refl _⟩
  | spin stands empty few =>
    have follows := tracks.running (by simp [stands])
    simp only [accepted, stands, List.append_nil]
    exact ⟨now.stream, follows, rfl⟩
  | doubt stands empty many =>
    have follows := tracks.running (by simp [stands])
    simp only [accepted, stands, List.append_nil]
    exact ⟨now.stream, follows, rfl⟩
  | orphaned stands gone =>
    have follows := tracks.running (by simp [stands])
    simp only [accepted, stands, List.append_nil]
    exact ⟨now.stream, follows, .refl _⟩
  | wait stands there =>
    have follows := tracks.running (by simp [stands])
    simp only [accepted, stands, List.append_nil]
    exact ⟨now.stream, follows, rfl⟩
  | @leave result stands =>
    obtain ⟨last, follows, leaves⟩ := tracks
    rw [stands] at leaves
    simp only [accepted, stands, List.append_nil]
    refine ⟨last, follows, ?_⟩
    -- What the receiver is left as was decided in front of this step.
    cases result with
    | ok done => exact leaves
    | error failure => exact leaves

/-- Every turn keeps track of the frames. -/
theorem Tracks.turn (tracks : now.Tracks crc first moments) (actor : Actor) :
    ((system crc handle).turn actor now).Tracks crc first (moments ++ accepted crc actor now) := by
  rw [System.turn]
  cases actor with
  | main =>
    rw [system_main]
    cases stepped : Buffered.mainStep crc now with
    | some after => exact tracks.mainStep (mainStep_cases stepped)
    | none =>
      -- A reader that is done reads nothing.
      obtain ⟨result, stands⟩ := mainStep_none stepped
      simp only [accepted, stands, List.append_nil]
      exact tracks
  | thread =>
    have nothing : accepted crc .thread now = [] := rfl
    rw [system_thread, nothing, List.append_nil]
    cases stepped : threadStep handle now with
    | none => exact tracks
    | some after =>
      obtain ⟨main, stream⟩ := (threadStep_cases stepped).reader
      obtain ⟨last, follows, leaves⟩ := tracks
      refine ⟨last, follows, ?_⟩
      show after.main.Leaves last after.stream
      rw [main, stream]
      exact leaves

/-- Every schedule keeps track of the frames that are read in it. -/
theorem Tracks.run (tracks : now.Tracks crc first moments) (schedule : List Actor) :
    ((system crc handle).run schedule now).Tracks crc first
      (moments ++ readTrace crc handle schedule now) := by
  -- One turn at a time, with the frames of each behind those of the earlier ones.
  induction schedule generalizing now moments with
  | nil =>
    rw [readTrace, List.append_nil]
    exact tracks
  | cons actor rest ih =>
    rw [readTrace, ← List.append_assoc]
    exact ih (tracks.turn actor)

end Tracks

/-- The two processes are started with the receiver as it is behind the header. -/
theorem start_stream {bufCountArgs : Nat} {stream : SendStream} {state : σ}
    {first : Buffered σ (clampBufs bufCountArgs)}
    (started : start bufCountArgs stream state = .ok first) :
    readHeader stream = .ok () first.stream ∧ first.main = .read := by
  rw [start] at started
  cases read : readHeader stream with
  | error failure after =>
    rw [read] at started
    cases started
  | ok done after =>
    rw [read] at started
    -- The other buffers are made before the two processes start.
    simp only at started
    split at started
    · cases started
    · cases started
      exact ⟨rfl, rfl⟩

/-- A run of the two processes follows the frames behind the header, like any other receive. -/
theorem run_tracks {crc : Bytes → UInt32} {handle : HandleCmd σ} {bufCountArgs : Nat}
    {stream : SendStream} {state : σ} {first : Buffered σ (clampBufs bufCountArgs)}
    (started : start bufCountArgs stream state = .ok first) (schedule : List Actor) :
    ((system crc handle).run schedule first).Tracks crc first.stream
      (first.stream :: readTrace crc handle schedule first) := by
  -- Behind the header no frame was read yet.
  have begun : first.Tracks crc first.stream [first.stream] := by
    refine ⟨first.stream, .start, ?_⟩
    rw [(start_stream started).2]
    rfl
  exact begun.run schedule

/-- A receive that returns without an error leaves the reader so. -/
theorem returned_ok {now : Buffered σ nbuf} (finished : now.returned = some (.ok ())) :
    now.main = .done (.ok ()) := by
  unfold returned at finished
  -- Every other way to return is with an error.
  split at finished
  · cases finished
  · cases finished
  · rename_i reader thread
    cases finished
    exact reader
  · cases finished

/-- A receiver that is kept track of is the one behind the last frame, or that one as it is stored. -/
theorem Tracks.cases {crc : Bytes → UInt32} {first : SendStream} {moments : List SendStream}
    {now : Buffered σ nbuf} (tracks : now.Tracks crc first moments) :
    ∃ last, Follows crc first moments last ∧
      (now.stream = last.storePos ∨ SamePos last now.stream) ∧
      (now.returned = some (.ok ()) → now.stream = last.storePos) := by
  obtain ⟨last, follows, leaves⟩ := tracks
  refine ⟨last, follows, ?_, fun finished => ?_⟩
  · cases stands : now.main with
    | leave result =>
      rw [stands] at leaves
      cases result with
      | ok done => exact Or.inl leaves
      | error failure => exact Or.inr leaves
    | done result =>
      rw [stands] at leaves
      cases result with
      | ok done => exact Or.inl leaves
      | error failure => exact Or.inr leaves
    | _ =>
      rw [stands] at leaves
      have same : now.stream = last := leaves
      exact Or.inr (same ▸ .refl _)
  · -- A result without an error comes behind the store.
    rw [returned_ok finished] at leaves
    exact leaves

end Buffered

end Libbtrfs
