import Libbtrfs.SendStream.BufferedPanics
import Libbtrfs.SendStream.BufferedSufficing

/-! How a receive gets on with what has arrived, whichever way it handles its stream. -/

namespace Libbtrfs

/-- What is behind the header of an input is no more than the input. -/
theorem takeHeader_rest {input rest : Bytes} {version : UInt32}
    (taken : takeHeader input = .ok (version, rest)) : rest.length ≤ input.length := by
  -- The header is dropped from the front.
  unfold takeHeader at taken
  split at taken
  · cases taken
  · simp only at taken
    split at taken
    · cases taken
    · split at taken
      · cases taken
      · cases taken
        rw [List.length_drop]
        omega

namespace Receiving

variable {σ : Type} {crc : Bytes → UInt32} {handler : HandleCmd σ}

/-- What is left to do, of which the header is a part that comes before all others. -/
def rank : Receiving σ → Nat
  | .opening _ stream _ => (6 * stream.reader.length + 6) * (threadMaxSpins + 2)
  | .plain stream _ => stream.reader.length + 1
  | .buffered now => now.fullRank
  | .done _ => 0

/-- Who has to move next. -/
def helper : Receiving σ → Actor
  | .buffered now => now.helper
  | _ => .main

/-- A receive that was started, and has gone on as either kind of receive does. -/
def Proper (crc : Bytes → UInt32) : Receiving σ → Prop
  | .opening _ stream _ => ∃ input, stream = .new input none
  | .buffered now => ∃ all, now.Survives crc all
  | .plain _ _ => True
  | .done _ => True

/-- What arrives does not change who has to move next. -/
@[simp] theorem helper_give (more : Bytes) (now : Receiving σ) :
    (now.give more).helper = now.helper := by
  -- Only the two processes of a buffered receive are looked at, and not its input.
  cases now with
  | opening | plain | done => rfl
  | buffered now => rfl

/-- What arrives does not make a receive return. -/
@[simp] theorem result_give (more : Bytes) (now : Receiving σ) :
    (now.give more).result = now.result := by
  -- The result is no part of the input.
  cases now with
  | opening | plain | done => rfl
  | buffered now => rfl

/-- Two processes that have just been started have less to do than the header in front of them. -/
theorem fresh_lowers {version : UInt32} {rest input : Bytes} {state : σ}
    {first : Buffered σ (clampBufs 2)} (fresh : first.Fresh version rest state)
    (shorter : rest.length ≤ input.length) :
    first.fullRank < (6 * input.length + 6) * (threadMaxSpins + 2) := by
  -- What is left to do is counted in bytes, and the header takes some of them.
  have work : first.work ≤ 6 * input.length + 5 := by
    simp only [Buffered.work, fresh.main, fresh.thread, fresh.data, fresh.free, fresh.reader,
      MainPc.work, ThreadPc.work, Ring.empty_items, List.length_nil, List.length_replicate, clampBufs]
    omega
  have bound := first.endurance_le
  have step := Nat.mul_le_mul_right (threadMaxSpins + 2) work
  have split : (6 * input.length + 6) * (threadMaxSpins + 2) =
      (6 * input.length + 5) * (threadMaxSpins + 2) + (threadMaxSpins + 2) := Nat.succ_mul _ _
  unfold Buffered.fullRank
  omega

/-- The header leaves less to do, and the two kinds of receive start properly behind it. -/
theorem opens_lowers {ahead : Bool} {input : Bytes} {state : σ} {next : Receiving σ}
    (moved : opens ahead (.new input none) state = .moves next) :
    next.Proper crc ∧ next.rank < (opening ahead (.new input none) state).rank := by
  -- Either the header is refused, or what is behind it is shorter.
  have reader : (SendStream.new input none).reader = input := rfl
  have room : 0 < (6 * input.length + 6) * (threadMaxSpins + 2) := Nat.mul_pos (by omega) (by omega)
  rw [opens] at moved
  obtain ⟨failure, after, taken, refused⟩ |
      ⟨version, rest, after, taken, read, ready, behind, announced, _⟩ :=
    readHeader_cases input none
  · rw [refused] at moved
    simp only at moved
    split at moved
    · cases moved
    · cases moved
      refine ⟨trivial, ?_⟩
      rw [rank, rank, reader]
      exact room
  · rw [read] at moved
    have shorter := takeHeader_rest taken
    cases ahead with
    | false =>
      cases moved
      refine ⟨trivial, ?_⟩
      have wide := Nat.le_mul_of_pos_right (6 * input.length + 6)
        (show 0 < threadMaxSpins + 2 by omega)
      rw [rank, rank, reader, behind]
      omega
    | true =>
      have begun := Buffered.start_takeHeader 2 input none state
      rw [taken] at begun
      obtain ⟨first, started, fresh⟩ := begun
      simp only [started, if_true] at moved
      cases moved
      refine ⟨⟨_, Or.inl (Buffered.start_sound crc started)⟩, ?_⟩
      rw [rank, rank, reader]
      exact fresh_lowers fresh shorter

/-- A round of the loop leaves less to do. -/
theorem round_lowers {stream : SendStream} {state : σ} {next : Receiving σ}
    (moved : round crc handler stream state = .moves next) :
    next.Proper crc ∧ next.rank < (plain stream state).rank := by
  -- Each round that goes on has read a command.
  rw [round] at moved
  split at moved
  · split at moved
    · cases moved
    · cases moved
      exact ⟨trivial, Nat.succ_pos _⟩
  · rename_i read taken
    have shorter := readCmd_consumes taken
    split at moved
    · cases moved
      exact ⟨trivial, Nat.succ_pos _⟩
    · split at moved
      · cases moved
        exact ⟨trivial, Nat.succ_pos _⟩
      · cases moved
        exact ⟨trivial, Nat.succ_pos _⟩
      · cases moved
        refine ⟨trivial, ?_⟩
        simp only [cmdHeaderSize] at shorter
        simp only [rank]
        omega

variable {now next : Receiving σ} {actor : Actor}

/-- A step of a buffered receive is one of its two processes. -/
theorem step_buffered {now : Buffered σ (clampBufs 2)}
    (moved : step crc handler actor (.buffered now) = .moves next) :
    ∃ after, (Buffered.system crc handler).step actor now = some after ∧
      next = .buffered after := by
  -- A step of a buffered receive is that of its actor, unless the reader starves.
  cases actor with
  | main =>
    simp only [step] at moved
    split at moved
    · cases moved
    · obtain ⟨after, stepped, rfl⟩ := Option.map_eq_some_iff.mp (Turn.ofOption_moves.mp moved)
      exact ⟨after, stepped, rfl⟩
  | thread =>
    simp only [step] at moved
    obtain ⟨after, stepped, rfl⟩ := Option.map_eq_some_iff.mp (Turn.ofOption_moves.mp moved)
    exact ⟨after, stepped, rfl⟩

/-- A step leaves less to do, or nothing that matters has changed. -/
theorem Proper.step (proper : now.Proper crc)
    (moved : Receiving.step crc handler actor now = .moves next) :
    next.Proper crc ∧ (next.rank < now.rank ∨
      next.rank = now.rank ∧ next.helper = now.helper ∧ now.helper ≠ actor) := by
  -- Two of the states take something off their input, and the processes of the third one go on.
  cases now with
  | opening ahead stream state =>
    cases actor with
    | thread => cases moved
    | main =>
      obtain ⟨input, rfl⟩ := proper
      have lowers := @opens_lowers σ crc ahead input state next moved
      exact ⟨lowers.1, Or.inl lowers.2⟩
  | plain stream state =>
    cases actor with
    | thread => cases moved
    | main =>
      have lowers := round_lowers moved
      exact ⟨lowers.1, Or.inl lowers.2⟩
  | buffered now =>
    obtain ⟨all, survives⟩ := proper
    obtain ⟨after, stepped, rfl⟩ := step_buffered moved
    have some_buf : 0 < clampBufs 2 := by decide
    exact ⟨⟨all, survives.step stepped⟩, survives.lowers some_buf stepped⟩
  | done result =>
    cases actor with
    | main => cases moved
    | thread => cases moved

/-- The handler thread never asks for more of the stream. -/
theorem thread_fed (crc : Bytes → UInt32) (handler : HandleCmd σ) (now : Receiving σ) :
    step crc handler .thread now ≠ .hungry := by
  -- It moves or it is idle, in every state.
  intro asks
  cases now with
  | opening | plain | done => cases asks
  | buffered now =>
    simp only [step] at asks
    cases taken : Buffered.threadStep handler now with
    | none =>
      rw [taken] at asks
      cases asks
    | some after =>
      rw [taken] at asks
      cases asks

/-- The end of the stream is one step more of a reader that stands in front of a command. -/
theorem starve_buffered {now : Buffered σ (clampBufs 2)}
    (hungry : step crc handler actor (.buffered now) = .hungry) :
    now.main = .read ∧ ∃ after, Buffered.mainStep crc now = some after := by
  -- Only the reader can starve, and only in front of a command.
  cases actor with
  | thread => exact absurd hungry (thread_fed crc handler _)
  | main =>
    have starving : now.starving crc = true := by
      simp only [step] at hungry
      split at hungry
      · assumption
      · cases moved : Buffered.mainStep crc now with
        | none =>
          rw [moved] at hungry
          cases hungry
        | some after =>
          rw [moved] at hungry
          cases hungry
    have stands : now.main = .read := by
      unfold Buffered.starving at starving
      split at starving
      · assumption
      · cases starving
    refine ⟨stands, Buffered.mainStep_moves crc fun result done => ?_⟩
    cases stands.symm.trans done

/-- The end of the stream leaves less to do as well. -/
theorem Proper.starve (proper : now.Proper crc)
    (hungry : Receiving.step crc handler actor now = .hungry) :
    (now.starve crc).Proper crc ∧ (now.starve crc).rank < now.rank := by
  cases now with
  | opening ahead stream state =>
    refine ⟨trivial, ?_⟩
    rw [Receiving.starve, rank, rank]
    · exact Nat.mul_pos (by omega) (by omega)
    · exact fun _ impossible => by cases impossible
  | plain stream state => exact ⟨trivial, Nat.succ_pos _⟩
  | buffered now =>
    obtain ⟨all, survives⟩ := proper
    -- The reader stands in front of a command, so it has to move next itself.
    obtain ⟨stands, after, stepped⟩ := starve_buffered hungry
    have taken : (Buffered.system crc handler).step .main now = some after := stepped
    have helping : now.helper = .main := by rw [Buffered.helper, stands]
    simp only [Receiving.starve, stepped, Option.getD_some]
    refine ⟨⟨all, survives.step taken⟩, ?_⟩
    rcases survives.lowers (show 0 < clampBufs 2 by decide) taken with lower | ⟨_, _, other⟩
    · exact lower
    · exact absurd helping other
  | done result =>
    cases actor with
    | main => cases hungry
    | thread => cases hungry

/-- Until it has returned, the one who has to move next moves or asks for more. -/
theorem Proper.goes (proper : now.Proper crc) (open_end : now.result = none) :
    Receiving.step crc handler now.helper now ≠ .idle := by
  -- Each of the states moves or asks for more, as long as there is no result.
  intro idle
  cases now with
  | opening ahead stream state =>
    simp only [helper, Receiving.step, opens] at idle
    split at idle
    · split at idle
      · cases idle
      · cases idle
    · split at idle
      · split at idle
        · cases idle
        · cases idle
      · cases idle
  | plain stream state =>
    simp only [helper, Receiving.step, round] at idle
    split at idle
    · split at idle
      · cases idle
      · cases idle
    · split at idle
      · cases idle
      · split at idle
        · cases idle
        · cases idle
        · cases idle
  | buffered now =>
    obtain ⟨all, survives⟩ := proper
    have going : ¬∃ result, now.returned = some result := by
      rintro ⟨result, returned⟩
      cases open_end.symm.trans returned
    obtain ⟨after, stepped⟩ := @Buffered.Survives.moves σ _ crc all handler now survives going
    cases helping : now.helper with
    | main =>
      rw [helping] at stepped
      have moved : Buffered.mainStep crc now = some after := stepped
      simp only [helper, helping, Receiving.step, moved] at idle
      split at idle
      · cases idle
      · cases idle
    | thread =>
      rw [helping] at stepped
      have moved : Buffered.threadStep handler now = some after := stepped
      simp only [helper, helping, Receiving.step, moved] at idle
      cases idle
  | done result => cases open_end

/-- The steps of the handler thread do not make the reader ask for more, or for less. -/
theorem hungry_of_thread (moved : step crc handler .thread now = .moves next) :
    step crc handler .main next = .hungry ↔ step crc handler .main now = .hungry := by
  cases now with
  | opening | plain | done => cases moved
  | buffered now =>
    obtain ⟨after, stepped, rfl⟩ := step_buffered moved
    obtain ⟨main, stream, _⟩ := (Buffered.threadStep_cases stepped).frame
    have same : after.starving crc = now.starving crc := by
      unfold Buffered.starving
      rw [main, stream]
    -- The reader asks for more exactly when it starves.
    have hungry : ∀ state : Buffered σ (clampBufs 2),
        step crc handler .main (.buffered state) = .hungry ↔ state.starving crc = true := by
      intro state
      simp only [step]
      split
      · rename_i starving
        exact ⟨fun _ => starving, fun _ => rfl⟩
      · rename_i fed
        refine ⟨fun asks => ?_, fun starving => absurd starving fed⟩
        cases taken : Buffered.mainStep crc state with
        | none =>
          rw [taken] at asks
          cases asks
        | some after =>
          rw [taken] at asks
          cases asks
    rw [hungry, hungry, same]

/-- The steps of one actor do not make the other one ask for more, or for less. -/
theorem hungry_kept {other : Actor} (moved : step crc handler actor now = .moves next)
    (different : other ≠ actor) :
    step crc handler other next = .hungry ↔ step crc handler other now = .hungry := by
  -- The handler thread never asks, and its steps leave the reader where it was.
  cases other with
  | main =>
    cases actor with
    | main => exact absurd rfl different
    | thread => exact hungry_of_thread moved
  | thread =>
    exact ⟨fun asks => absurd asks (thread_fed crc handler next),
      fun asks => absurd asks (thread_fed crc handler now)⟩

end Receiving

end Libbtrfs
