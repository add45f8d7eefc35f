import Libbtrfs.SendStream.BufferedPreservation

/-! Where a buffered receive starts, and the invariant of every state that it reaches from there. -/

namespace Libbtrfs

namespace Buffered

variable {σ : Type} {nbuf : Nat}

/-- The free ring takes as many buffers as it has room for. -/
private theorem prime_ok (buf : Bytes) (count : Nat) (free : Ring Reply nbuf)
    (room : free.items.length + count ≤ nbuf) :
    ∃ primed, prime buf count free = .ok primed ∧
      primed.items = free.items ++ List.replicate count (.ok buf) ∧
      primed.abandoned = free.abandoned := by
  -- Each of the pushes finds room, so the count goes down by one with each of them.
  induction count generalizing free with
  | zero => exact ⟨free, rfl, by simp, rfl⟩
  | succ count ih =>
    cases pushed : free.push (.ok buf) with
    | none =>
      have none_left := Ring.push_none pushed
      omega
    | some next =>
      obtain ⟨items, abandoned⟩ := Ring.push_some pushed
      have length := Ring.push_length pushed
      obtain ⟨primed, done, held, still⟩ := ih next (by omega)
      refine ⟨primed, ?_, ?_, still.trans abandoned⟩
      · rw [prime, pushed]
        exact done
      · rw [held, items, List.append_assoc, List.singleton_append, ← List.replicate_succ]

/-- What the two processes start from, for a stream whose header is accepted. -/
structure Fresh (version : UInt32) (rest : Bytes) (state : σ) (now : Buffered σ nbuf) : Prop where
  main : now.main = .read
  thread : now.thread = .pop 0
  ready : Ready now.stream
  reader : now.stream.reader = rest
  command : now.stream.command = 0
  version : now.version = version
  handler : now.handler = state
  data : now.data = Ring.empty
  free : now.free.items = List.replicate (nbuf - 1) (.ok now.stream.buf)
  abandoned : now.free.abandoned = false
  calls : now.calls = []

/-- The two processes are started exactly when the header of the stream is accepted. -/
theorem start_takeHeader (bufCountArgs : Nat) (input : Bytes) (atomicPos : Option Nat)
    (state : σ) :
    match takeHeader input with
    | .error failure => start bufCountArgs (.new input atomicPos) state = .error failure
    | .ok (version, rest) =>
      ∃ first, start bufCountArgs (.new input atomicPos) state = .ok first ∧
        first.Fresh version rest state := by
  obtain ⟨failure, after, taken, refused⟩ |
      ⟨version, rest, stream, taken, read, ready, reader, announced, command⟩ :=
    readHeader_cases input atomicPos
  · rw [taken]
    simp only
    rw [start, refused]
  · rw [taken]
    -- One buffer less than the ring holds is primed, so that each push finds room.
    obtain ⟨free, primed, items, abandoned⟩ :=
      prime_ok stream.buf (clampBufs bufCountArgs - 1) (Ring.empty)
        (show 0 + (clampBufs bufCountArgs - 1) ≤ clampBufs bufCountArgs by omega)
    simp only
    rw [start, read]
    simp only [primed]
    refine ⟨_, rfl, rfl, rfl, ready, reader, command, announced, rfl, rfl, ?_, abandoned, rfl⟩
    rw [items]
    rfl

/-- The calls that the frames of a whole stream ask for, in their order. -/
def streamCalls (crc : Bytes → UInt32) (input : Bytes) : List Call :=
  match takeHeader input with
  | .error _ => []
  | .ok (version, rest) => (frames crc rest).map (Frame.call version)

/-- The invariant holds where the two processes start. -/
theorem Fresh.sound {crc : Bytes → UInt32} {version : UInt32} {rest : Bytes} {state : σ}
    {first : Buffered σ nbuf} (fresh : first.Fresh version rest state) (some_buf : 0 < nbuf) :
    first.Sound crc ((frames crc rest).map (Frame.call version)) := by
  -- Nothing was sent, answered or given back yet, so each of the parts is empty.
  have nothing : first.packets = [] := by
    rw [packets, fresh.thread, pending, fresh.main, fresh.data]
    rfl
  have unsent : first.sent = [] := by
    rw [sent, nothing, fresh.calls]
    rfl
  refine ⟨?_, ⟨(frames crc rest).map (Frame.call version), ?_, ?_⟩, ?_, ?_, ?_, ?_⟩
  · -- The reader has one of the buffers, and the ring was filled with all the others.
    rw [fresh.data, fresh.free, fresh.main, fresh.thread]
    simp only [Ring.empty_items, List.length_nil, List.length_replicate, MainPc.tokens,
      ThreadPc.tokens]
    omega
  · rw [unsent, List.nil_append]
  · rw [MainHolds, fresh.main]
    refine ⟨⟨?_, fresh.ready.start, ?_, ?_⟩, fresh.ready.room⟩
    · rw [fresh.reader, fresh.version]
    · rw [unsent]
      intro call member
      cases member
    · rw [unsent, fresh.command]
      rfl
  · rw [nothing]
    intro packet member
    cases member
  · rw [ThreadHolds, fresh.thread]
    refine ⟨?_, ?_⟩
    · rw [fresh.calls]
      intro entry member
      cases member
    · rw [fresh.free]
      intro reply member
      exact ⟨_, List.eq_of_mem_replicate member, fresh.ready.room⟩
  · rw [fresh.data, fresh.main]
    simp
  · rw [fresh.abandoned, fresh.thread]
    simp

/-- Processes that were started are fresh, on a stream whose header was accepted. -/
theorem start_fresh {bufCountArgs : Nat} {input : Bytes} {atomicPos : Option Nat} {state : σ}
    {first : Buffered σ (clampBufs bufCountArgs)}
    (started : start bufCountArgs (.new input atomicPos) state = .ok first) :
    ∃ version rest, takeHeader input = .ok (version, rest) ∧ first.Fresh version rest state := by
  -- The header was taken, for a refused one would have stopped the start.
  have header := start_takeHeader bufCountArgs input atomicPos state
  cases taken : takeHeader input with
  | error failure =>
    rw [taken, started] at header
    cases header
  | ok pair =>
    rw [taken] at header
    obtain ⟨again, same, fresh⟩ := header
    rw [started] at same
    cases same
    exact ⟨pair.1, pair.2, rfl, fresh⟩

/-- The invariant holds where the two processes of a receive are started. -/
theorem start_sound (crc : Bytes → UInt32) {bufCountArgs : Nat} {input : Bytes}
    {atomicPos : Option Nat} {state : σ} {first : Buffered σ (clampBufs bufCountArgs)}
    (started : start bufCountArgs (.new input atomicPos) state = .ok first) :
    first.Sound crc (streamCalls crc input) := by
  -- There are at least two buffers, whatever number was asked for.
  obtain ⟨version, rest, taken, fresh⟩ := start_fresh started
  have some_buf : 0 < clampBufs bufCountArgs := by
    unfold clampBufs
    omega
  rw [streamCalls, taken]
  exact fresh.sound some_buf

/-- The invariant of every state that a schedule reaches from the start of a buffered receive. -/
theorem reachable_sound (crc : Bytes → UInt32) {handle : HandleCmd σ} (calm : handle.Calm)
    {bufCountArgs : Nat} {input : Bytes} {atomicPos : Option Nat} {state : σ}
    {first : Buffered σ (clampBufs bufCountArgs)}
    (started : start bufCountArgs (.new input atomicPos) state = .ok first)
    (schedule : List Actor) :
    ((system crc handle).run schedule first).Sound crc (streamCalls crc input) :=
  (start_sound crc started).run calm schedule

end Buffered

end Libbtrfs
