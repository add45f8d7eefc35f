import Libbtrfs.SendStream.PlainSend
import Libbtrfs.SendStream.ReceivingProgress

/-! A send whose stream is enough for its receiver returns under every fair schedule. -/

namespace Libbtrfs

/-- What is left to do for the ioctl, which moves each byte through the pipe. -/
def SenderPc.work : SenderPc → Nat
  | .sending rest _ => 2 * rest.length + 1
  | .finished _ => 0

/-- How many steps are left to the caller. -/
def CallerPc.work : CallerPc → Nat
  | .busy => 3
  | .joinReceiver => 2
  | .joinSender => 1
  | .returned _ => 0

namespace Buffered

variable {σ : Type} {nbuf : Nat} {crc : Bytes → UInt32} {all : List Call}
  {now : Buffered σ nbuf}

/-- What arrives adds to the calls of the stream, and to nothing that is held. -/
theorem Survives.give (survives : now.Survives crc all) (more : Bytes) :
    ∃ all, (now.give more).Survives crc all := by
  rcases survives with sound | broken
  · obtain ⟨tokens, ⟨unread, split, holds⟩, slices, thread, dataGone, freeGone⟩ := sound
    -- A reader that is in its loop has all of the longer input to go through.
    have order : ∃ all unread, all = (now.give more).sent ++ unread ∧
        (now.give more).MainHolds crc unread := by
      have reading : now.Reading crc unread → (now.give more).Reading crc
          ((frames crc (now.give more).stream.reader).map (Frame.call now.version)) :=
        fun reading => ⟨rfl, reading.start, reading.before, reading.last⟩
      unfold MainHolds at holds ⊢
      cases stands : now.main with
      | read | push =>
        rw [stands] at holds
        have same : (now.give more).main = _ := stands
        exact ⟨_, _, rfl, by rw [same]; exact ⟨reading holds.1, holds.2⟩⟩
      | pop spins | test spins =>
        rw [stands] at holds
        have same : (now.give more).main = _ := stands
        exact ⟨_, _, rfl, by rw [same]; exact reading holds⟩
      | leave result | done result =>
        rw [stands] at holds
        have same : (now.give more).main = _ := stands
        exact ⟨_, unread, rfl, by rw [same]; exact holds⟩
    obtain ⟨whole, rest, split, holds⟩ := order
    exact ⟨whole, Or.inl ⟨tokens, ⟨rest, split, holds⟩, slices, thread, dataGone, freeGone⟩⟩
  · exact ⟨all, Or.inr ⟨broken.left, broken.calls, broken.delivered, broken.freeGone⟩⟩

end Buffered

/-- A receive is started properly whatever arrives. -/
theorem Receiving.Proper.give {σ : Type} {crc : Bytes → UInt32} {now : Receiving σ}
    (proper : now.Proper crc) (more : Bytes) : (now.give more).Proper crc := by
  -- What arrives goes to the end of the input.
  cases now with
  | opening ahead stream state =>
    obtain ⟨input, rfl⟩ := proper
    exact ⟨input ++ more, rfl⟩
  | plain stream state => trivial
  | buffered now =>
    obtain ⟨all, survives⟩ := proper
    exact survives.give more
  | done result => trivial

namespace Sending

variable {σ : Type}

/-- The receiver with all that is under way to it. -/
def image (now : Sending σ) : Receiving σ := now.receiver.give (now.pipe ++ now.unwritten)

/-- What is left to do for the receiver, until it has returned. -/
def receiverWork (now : Sending σ) : Nat :=
  match now.receiver.result with
  | some _ => 0
  | none => now.image.rank + 1

/-- What is left to do for all parties. -/
def rank (now : Sending σ) : Nat :=
  now.receiverWork + now.sender.work + now.pipe.length + now.caller.work

/-- The one of the receiver who has to move next asks for more of the stream. -/
def asks (crc : Bytes → UInt32) (handler : HandleCmd σ) (now : Sending σ) : Bool :=
  match Receiving.step crc handler now.receiver.helper now.receiver with
  | .hungry => true
  | _ => false

/-- Who has to move next. -/
def helper (crc : Bytes → UInt32) (handler : HandleCmd σ) (now : Sending σ) : Party :=
  match now.callerStep, now.receiver.result with
  | some _, _ => .caller
  | none, some _ => .sender
  | none, none =>
    match now.pipe, now.sender, now.asks crc handler with
    -- The receiver waits for a byte that has yet to be written.
    | [], .sending _ _, true => .sender
    | _, _, _ => .receiver now.receiver.helper

/-- A send that can come to its end. -/
structure Underway (crc : Bytes → UInt32) (handler : HandleCmd σ) (now : Sending σ) : Prop where
  room : 0 < now.room
  proper : now.receiver.Proper crc
  ends : now.Supplied crc handler ∨ now.Fails

variable {crc : Bytes → UInt32} {handler : HandleCmd σ} {now after : Sending σ}

/-- A turn of the receiver is a step, a byte that it is given, or the end of the stream. -/
theorem receiverStep_cases {actor : Actor}
    (stepped : now.receiverStep crc handler actor = some after) :
    (∃ next, Receiving.step crc handler actor now.receiver = .moves next ∧
        after = { now with receiver := next }) ∨
      Receiving.step crc handler actor now.receiver = .hungry ∧
        ((∃ byte rest, now.pipe = byte :: rest ∧
            after = { now with pipe := rest, receiver := now.receiver.give [byte] }) ∨
          now.pipe = [] ∧ now.writeEnds.isEmpty = true ∧
            after = { now with receiver := now.receiver.starve crc }) := by
  -- Where the receiver asks for more, the pipe is looked at, and its write ends if it is empty.
  obtain ⟨⟨pipe, receiver⟩, pulled, rfl⟩ := Option.map_eq_some_iff.mp stepped
  unfold Consumer.pull at pulled
  simp only [receiveStream] at pulled
  split at pulled
  · rename_i next moved
    cases pulled
    exact Or.inl ⟨_, moved, rfl⟩
  · cases pulled
  · rename_i hungry
    split at pulled
    · rename_i byte rest holds
      cases pulled
      exact Or.inr ⟨hungry, Or.inl ⟨byte, _, holds, rfl⟩⟩
    · rename_i holds
      split at pulled
      · rename_i closed
        cases pulled
        refine Or.inr ⟨hungry, Or.inr ⟨holds, closed, ?_⟩⟩
        rw [← holds]
      · cases pulled

/-- A step of the ioctl is a byte that it writes, or its end. -/
theorem senderStep_cases (stepped : now.senderStep = some after) :
    (∃ byte rest result, now.sender = .sending (byte :: rest) result ∧
        after = { now with pipe := now.pipe ++ [byte], sender := .sending rest result }) ∨
      ∃ rest result ended, now.sender = .sending rest result ∧
        (rest = [] ∨ now.receiver.result.isSome) ∧ after = { now with sender := .finished ended } := by
  -- There is a byte left to write, or there is none.
  unfold senderStep at stepped
  split at stepped
  · rename_i byte rest result stands
    split at stepped
    · rename_i returned
      cases stepped
      exact Or.inr ⟨_, _, _, stands, Or.inr returned, rfl⟩
    · split at stepped
      · cases stepped
        exact Or.inl ⟨_, _, _, stands, rfl⟩
      · cases stepped
  · rename_i result stands
    cases stepped
    exact Or.inr ⟨_, _, _, stands, Or.inl rfl, rfl⟩
  · cases stepped

/-- Every step of the ioctl leaves it less to do. -/
theorem senderStep_lowers (stepped : now.senderStep = some after) : after.rank < now.rank := by
  rcases senderStep_cases stepped with
    ⟨byte, rest, result, stands, rfl⟩ | ⟨rest, result, ended, stands, ended_all, rfl⟩
  · -- The byte is still on its way to the receiver.
    have same : { now with
        pipe := now.pipe ++ [byte], sender := .sending rest result }.receiverWork =
        now.receiverWork := by
      simp only [receiverWork, image, unwritten, stands, List.append_assoc, List.singleton_append]
    rw [rank, rank, same]
    simp only [stands, SenderPc.work, List.length_append, List.length_cons, List.length_nil]
    omega
  · have same : { now with sender := .finished ended }.receiverWork = now.receiverWork := by
      rcases ended_all with rfl | returned
      · simp only [receiverWork, image, unwritten, stands]
      · obtain ⟨received, returned⟩ := Option.isSome_iff_exists.mp returned
        simp only [receiverWork, returned]
    rw [rank, rank, same]
    simp only [stands, SenderPc.work]
    omega

/-- A step of the caller brings it closer to its end, and changes nothing else. -/
theorem callerStep_closer (stepped : now.callerStep = some after) :
    ∃ caller, after = { now with caller := caller } ∧ caller.work < now.caller.work := by
  -- From each place it goes on to a later one, or returns.
  unfold callerStep at stepped
  split at stepped
  · rename_i stands
    cases stepped
    exact ⟨_, rfl, by rw [stands]; exact Nat.lt_succ_self _⟩
  · rename_i stands
    rw [stands]
    split at stepped
    · cases stepped
    · split at stepped
      · cases stepped
        exact ⟨_, rfl, Nat.succ_pos _⟩
      · cases stepped
        exact ⟨_, rfl, Nat.lt_succ_self _⟩
  · rename_i stands
    rw [stands]
    split at stepped
    · cases stepped
      exact ⟨_, rfl, Nat.succ_pos _⟩
    · cases stepped
  · rename_i stands
    rw [stands]
    split at stepped
    · cases stepped
    · cases stepped
      exact ⟨_, rfl, Nat.succ_pos _⟩
    · cases stepped
      exact ⟨_, rfl, Nat.lt_succ_self _⟩
  · rename_i stands
    rw [stands]
    split at stepped
    · cases stepped
    · cases stepped
      exact ⟨_, rfl, Nat.succ_pos _⟩
  · cases stepped

/-- Every step of the caller leaves less to do. -/
theorem callerStep_lowers (stepped : now.callerStep = some after) : after.rank < now.rank := by
  -- The caller comes closer, and the receiver has the same to do.
  obtain ⟨caller, rfl, fewer⟩ := callerStep_closer stepped
  have same : { now with caller := caller }.receiverWork = now.receiverWork := rfl
  rw [rank, rank, same]
  exact Nat.add_lt_add_left fewer _

/-- The caller can go on after as before while its call, the ioctl and the result are the same. -/
theorem callerStep_congr (call : after.call = now.call) (caller : after.caller = now.caller)
    (sender : after.sender = now.sender) (result : after.receiver.result = now.receiver.result) :
    after.callerStep.isSome = now.callerStep.isSome := by
  unfold callerStep
  rw [call, caller, sender, result]
  -- Each branch ends with a state or without one, on both sides.
  split
  · rfl
  · split
    · rfl
    · split
      · rfl
      · rfl
  · split
    · rfl
    · rfl
  · split
    · rfl
    · rfl
    · rfl
  · split
    · rfl
    · rfl
  · rfl

/-- A receiver asks for more when the one who has to move next does. -/
theorem asks_iff : now.asks crc handler = true ↔
    Receiving.step crc handler now.receiver.helper now.receiver = .hungry := by
  -- The test is for this answer.
  unfold asks
  split
  · rename_i hungry
    exact ⟨fun _ => hungry, fun _ => rfl⟩
  · rename_i fed
    exact ⟨nofun, fun hungry => absurd hungry fed⟩

/-- A step of the receiver that gets nothing done leaves the same party to move next. -/
theorem helper_kept {actor : Actor} {next : Receiving σ}
    (moved : Receiving.step crc handler actor now.receiver = .moves next)
    (helping : next.helper = now.receiver.helper) (other : now.receiver.helper ≠ actor)
    (going : now.receiver.result = none) (still : next.result = none) :
    { now with receiver := next }.helper crc handler = now.helper crc handler ∧
      now.helper crc handler ≠ .receiver actor := by
  have callers : { now with receiver := next }.callerStep.isSome = now.callerStep.isSome :=
    callerStep_congr rfl rfl rfl (still.trans going.symm)
  have asking : { now with receiver := next }.asks crc handler = now.asks crc handler := by
    rw [Bool.eq_iff_iff, asks_iff, asks_iff, helping]
    exact Receiving.hungry_kept moved other
  -- The caller comes first, before and behind the step.
  cases calls : now.callerStep with
  | some waiting =>
    rw [calls] at callers
    obtain ⟨later, same⟩ := Option.isSome_iff_exists.mp callers
    simp only [helper, calls, same]
    exact ⟨trivial, nofun⟩
  | none =>
    rw [calls] at callers
    have same := Option.not_isSome_iff_eq_none.mp (Bool.not_eq_true _ ▸ callers)
    have party : { now with receiver := next }.helper crc handler = now.helper crc handler := by
      simp only [helper, calls, same, going, still, asking, helping]
    refine ⟨party, ?_⟩
    simp only [helper, calls, going]
    split
    · exact nofun
    · intro impossible
      cases impossible
      exact other rfl

/-- A step of the receiver leaves less to do, or nothing that matters has changed. -/
theorem Underway.receiverStep_lowers {actor : Actor} (underway : now.Underway crc handler)
    (stepped : now.receiverStep crc handler actor = some after) :
    after.rank < now.rank ∨ after.rank = now.rank ∧
      after.helper crc handler = now.helper crc handler ∧
      now.helper crc handler ≠ .receiver actor := by
  have going := receiverStep_going stepped
  rcases receiverStep_cases stepped with
    ⟨next, moved, rfl⟩ | ⟨hungry, ⟨byte, rest, holds, rfl⟩ | ⟨empty, closed, rfl⟩⟩
  · have image := (receiveStream_lawful crc handler).moves_give actor now.receiver next
      (now.pipe ++ now.unwritten) moved
    have lowers := (underway.proper.give (now.pipe ++ now.unwritten)).step image
    cases still : next.result with
    | some result =>
      refine Or.inl ?_
      simp only [rank, receiverWork, going, still]
      omega
    | none =>
      rcases lowers.2 with fewer | ⟨same, helping, other⟩
      · refine Or.inl ?_
        simp only [rank, receiverWork, going, still]
        have less : { now with receiver := next }.image.rank < now.image.rank := fewer
        omega
      · refine Or.inr ⟨?_, ?_⟩
        · simp only [rank, receiverWork, going, still]
          have equal : { now with receiver := next }.image.rank = now.image.rank := same
          omega
        · have same : next.helper = now.receiver.helper := by
            have whole : (next.give (now.pipe ++ now.unwritten)).helper =
              (now.receiver.give (now.pipe ++ now.unwritten)).helper := helping
            simpa only [Receiving.helper_give] using whole
          have astray : now.receiver.helper ≠ actor := by
            simpa only [Receiving.helper_give] using other
          exact helper_kept moved same astray going still
  · -- The byte has gone from the pipe to the receiver.
    refine Or.inl ?_
    have same : { now with pipe := rest, receiver := now.receiver.give [byte] }.image =
        now.image := by
      simp only [image, unwritten, holds]
      rw [Receiving.give_give, List.singleton_append, List.cons_append]
    simp only [rank, receiverWork, Receiving.result_give, going, same, holds, List.length_cons]
    omega
  · refine Or.inl ?_
    have none_left := unwritten_closed closed
    obtain ⟨proper, fewer⟩ := underway.proper.starve hungry
    have before : now.image = now.receiver := by
      rw [image, empty, none_left, List.append_nil, Receiving.give_nil]
    have behind : { now with receiver := now.receiver.starve crc }.image =
        now.receiver.starve crc := by
      have nothing : { now with receiver := now.receiver.starve crc }.unwritten = [] := none_left
      rw [image, nothing]
      simp only [empty, List.append_nil, Receiving.give_nil]
    cases still : (now.receiver.starve crc).result with
    | some result =>
      simp only [rank, receiverWork, going, still]
      omega
    | none =>
      simp only [rank, receiverWork, going, still, before, behind]
      omega

/-- Every step of any party leaves a send that can come to its end. -/
theorem Underway.step {party : Party} (underway : now.Underway crc handler)
    (stepped : (system crc handler).step party now = some after) :
    after.Underway crc handler := by
  -- What makes it come to its end is kept by each party for itself.
  obtain ⟨room, proper, ends⟩ := underway
  have still : after.Supplied crc handler ∨ after.Fails :=
    ends.imp (fun supplied => supplied.step stepped) fun fails => fails.step stepped
  cases party with
  | sender =>
    rcases senderStep_cases stepped with ⟨_, _, _, _, rfl⟩ | ⟨_, _, _, _, _, rfl⟩
    · exact ⟨room, proper, still⟩
    · exact ⟨room, proper, still⟩
  | caller =>
    obtain ⟨caller, rfl, _⟩ := callerStep_closer stepped
    exact ⟨room, proper, still⟩
  | receiver actor =>
    rcases receiverStep_cases stepped with
      ⟨next, moved, rfl⟩ | ⟨hungry, ⟨byte, rest, _, rfl⟩ | ⟨_, _, rfl⟩⟩
    · exact ⟨room, (proper.step moved).1, still⟩
    · exact ⟨room, proper.give [byte], still⟩
    · exact ⟨room, (proper.starve hungry).1, still⟩

/-- Every step leaves less to do, or the same to the one who has to move next. -/
theorem Underway.lowers {party : Party} (underway : now.Underway crc handler)
    (stepped : (system crc handler).step party now = some after) :
    after.rank < now.rank ∨ after.rank = now.rank ∧
      after.helper crc handler = now.helper crc handler ∧ now.helper crc handler ≠ party := by
  -- Only a step of the receiver may leave as much to do as there was.
  cases party with
  | sender => exact Or.inl (senderStep_lowers stepped)
  | caller => exact Or.inl (callerStep_lowers stepped)
  | receiver actor => exact underway.receiverStep_lowers stepped

/-- The caller of a spawned send can go on unless it waits for one of the other two. -/
theorem spawn_waits (spawn : now.call = .spawn) (waits : now.callerStep = none)
    (open_end : ∀ result, now.caller ≠ .returned result) :
    now.receiver.result = none ∨ ∃ rest result, now.sender = .sending rest result := by
  -- The caller stands in front of its first join, of its second one, or of its return.
  unfold callerStep at waits
  rw [spawn] at waits
  cases stands : now.caller with
  | busy =>
    rw [stands] at waits
    cases waits
  | joinReceiver =>
    rw [stands] at waits
    simp only at waits
    split at waits
    · rename_i going
      exact Or.inl going
    · split at waits
      · cases waits
      · cases waits
  | joinSender =>
    rw [stands] at waits
    simp only at waits
    split at waits
    · cases waits
    · rename_i rest result sending
      exact Or.inr ⟨rest, result, sending⟩
  | returned result => exact absurd stands (open_end result)

/-- The caller of a blocking send can go on once the ioctl has finished, unless it has joined. -/
theorem blocking_waits (blocking : now.Blocking) (waits : now.callerStep = none)
    (open_end : ∀ result, now.caller ≠ .returned result) :
    (∃ rest result, now.sender = .sending rest result) ∨
      now.caller = .joinReceiver ∧ now.receiver.result = none := by
  -- The caller waits for the ioctl first, and then for the receiver.
  obtain ⟨call, _, elsewhere⟩ := blocking
  unfold callerStep at waits
  rw [call] at waits
  cases stands : now.caller with
  | busy =>
    rw [stands] at waits
    simp only at waits
    split at waits
    · rename_i rest result sending
      exact Or.inl ⟨rest, result, sending⟩
    · cases waits
    · cases waits
  | joinReceiver =>
    rw [stands] at waits
    simp only at waits
    split at waits
    · rename_i going
      exact Or.inr ⟨rfl, going⟩
    · cases waits
  | joinSender => exact absurd stands elsewhere
  | returned result => exact absurd stands (open_end result)

/-- An ioctl that has not finished can go on when the receiver has returned or the pipe has room. -/
theorem senderStep_moves {rest : Bytes} {result : Except IoError Unit}
    (sending : now.sender = .sending rest result)
    (free : now.receiver.result.isSome ∨ now.pipe.length < now.room) :
    ∃ next, now.senderStep = some next := by
  -- There is nothing left to write, or the pipe is broken, or there is room for a byte.
  unfold senderStep
  rw [sending]
  cases rest with
  | nil => exact ⟨_, rfl⟩
  | cons byte rest =>
    simp only
    by_cases returned : now.receiver.result.isSome
    · rw [if_pos returned]
      exact ⟨_, rfl⟩
    · rw [if_neg returned, if_pos (free.resolve_left returned)]
      exact ⟨_, rfl⟩

/-- A caller that waits for the receiver, behind an ioctl that has finished, closes the circle. -/
theorem stuck_of_waits {sent : Except IoError Unit} (calling : now.Calling)
    (finished : now.sender = .finished sent) (empty : now.pipe = [])
    (hungry : Receiving.step crc handler .main now.receiver = .hungry)
    (opened : now.writeEnds ≠ []) (waits : now.callerStep = none)
    (open_end : ∀ result, now.caller ≠ .returned result) : now.Stuck crc handler := by
  refine ⟨⟨sent, finished⟩, empty, hungry, opened, fun holder held => ?_⟩
  simp only [writeEnds, finished, List.nil_append] at held
  split at held
  · split at held
    · exact Or.inl (List.mem_singleton.mp held)
    · cases held
  · rename_i call
    -- Behind the ioctl the caller has joined, or it would go on.
    rcases blocking_waits (calling.blocking call) waits open_end with ⟨_, _, sending⟩ | ⟨joins, _⟩
    · cases finished.symm.trans sending
    · exact Or.inr ⟨List.mem_singleton.mp held, joins⟩

/-- The receiver can go on while it does not wait for what has yet to be written. -/
theorem Underway.receiver_moves (underway : now.Underway crc handler) (calling : now.Calling)
    (waits : now.callerStep = none) (open_end : ∀ result, now.caller ≠ .returned result)
    (going : now.receiver.result = none)
    (fed : ¬(now.pipe = [] ∧ (∃ rest result, now.sender = .sending rest result) ∧
      now.asks crc handler = true)) :
    ∃ next, now.receiverStep crc handler now.receiver.helper = some next := by
  have goes := @Receiving.Proper.goes σ crc handler now.receiver underway.proper going
  unfold receiverStep Consumer.pull
  simp only [receiveStream]
  cases turn : Receiving.step crc handler now.receiver.helper now.receiver with
  | moves next => exact ⟨_, rfl⟩
  | idle => exact absurd turn goes
  | hungry =>
    cases holds : now.pipe with
    | cons byte rest => exact ⟨_, rfl⟩
    | nil =>
      simp only
      by_cases closed : now.writeEnds.isEmpty = true
      · rw [if_pos closed]
        exact ⟨_, rfl⟩
      · -- Nothing is left to come, although the pipe is open still.
        have opened : now.writeEnds ≠ [] := fun none_left => closed (by rw [none_left]; rfl)
        have reader : now.receiver.helper = .main := by
          cases helping : now.receiver.helper with
          | main => rfl
          | thread =>
            rw [helping] at turn
            exact absurd turn (Receiving.thread_fed crc handler _)
        cases sender : now.sender with
        | sending rest result => exact absurd ⟨holds, ⟨rest, result, sender⟩, asks_iff.mpr turn⟩ fed
        | finished sent =>
          rw [reader] at turn
          have stuck := stuck_of_waits calling sender holds turn opened waits open_end
          exact absurd stuck (underway.ends.elim Supplied.not_stuck Fails.not_stuck)

/-- The one who has to move next can move, until the caller has returned. -/
theorem Underway.moves (underway : now.Underway crc handler) (calling : now.Calling)
    (open_end : ¬∃ result, now.caller = .returned result) :
    ∃ next, (system crc handler).step (now.helper crc handler) now = some next := by
  have not_yet : ∀ result, now.caller ≠ .returned result := fun result returned =>
    open_end ⟨result, returned⟩
  cases waits : now.callerStep with
  | some next =>
    simp only [helper, waits]
    exact ⟨next, waits⟩
  | none =>
    cases going : now.receiver.result with
    | some received =>
      -- The caller waits for the ioctl, which does not wait for the receiver any more.
      have sending : ∃ rest result, now.sender = .sending rest result := by
        cases call : now.call with
        | spawn =>
          refine (spawn_waits call waits not_yet).resolve_left fun none_yet => ?_
          cases going.symm.trans none_yet
        | blocking =>
          refine (blocking_waits (calling.blocking call) waits not_yet).resolve_right ?_
          exact fun ⟨_, none_yet⟩ => (by cases going.symm.trans none_yet)
      obtain ⟨rest, result, sending⟩ := sending
      simp only [helper, waits, going]
      exact senderStep_moves sending (Or.inl (by rw [going]; rfl))
    | none =>
      by_cases fed : now.pipe = [] ∧ (∃ rest result, now.sender = .sending rest result) ∧
          now.asks crc handler = true
      · obtain ⟨empty, ⟨rest, result, sending⟩, asks⟩ := fed
        simp only [helper, waits, going, empty, sending, asks]
        refine senderStep_moves sending (Or.inr ?_)
        rw [empty]
        exact underway.room
      · have party : now.helper crc handler = .receiver now.receiver.helper := by
          simp only [helper, waits, going]
          split
          · rename_i empty sending asks
            exact absurd ⟨empty, ⟨_, _, sending⟩, asks⟩ fed
          · rfl
        rw [party]
        exact underway.receiver_moves calling waits not_yet going fed

/-- The parties of a send help each other on until the caller has returned. -/
theorem system_helps (crc : Bytes → UInt32) (handler : HandleCmd σ) :
    (system crc handler).Helps (fun now => now.Underway crc handler ∧ now.Calling)
      (fun now => ∃ result, now.caller = .returned result) rank (helper crc handler) where
  keeps _ _ _ inv stepped := ⟨inv.1.step stepped, inv.2.step stepped⟩
  moves _ inv open_end := inv.1.moves inv.2 open_end
  lowers _ _ _ inv stepped := inv.1.lowers stepped

end Sending

/--
Under every fair schedule a send returns, whichever of the two functions it is and whatever its
handler does, as long as what the ioctl writes is enough for the receiver, or `blocking_send` is
told by the ioctl that it has failed.
-/
theorem fair_send_returns {σ : Type} (crc : Bytes → UInt32) (handler : HandleCmd σ)
    (builder : SendBuilder) (kernel : SendKernel) (call : SendCall) (state : σ) (first : Sending σ)
    (begun : builder.begins kernel call state = .ok first) (holds_some : 0 < first.room)
    (ends : builder.Ends crc handler kernel call state) (turns : Nat → Party)
    (fair : System.Fair turns) :
    ∃ count result,
      ((Sending.system crc handler).after turns count first).caller = .returned result := by
  -- A send that begins is under way, and each step of a party that is to help brings it closer.
  have calling := (@Sending.run_calling σ crc handler _ _ _ _ _ begun []).2
  obtain ⟨room, _, rfl⟩ := SendBuilder.begins_sending begun
  have starts : (builder.sending kernel call room state).Underway crc handler := by
    refine ⟨holds_some, ⟨[], rfl⟩, ?_⟩
    rcases ends with ⟨blocking, error, failed⟩ | enough
    · exact Or.inr ⟨blocking, ⟨error, Or.inl ⟨_, by rw [← failed]; rfl⟩⟩, nofun⟩
    · exact Or.inl (Or.inr (suffices_sated enough))
  exact (Sending.system_helps crc handler).reaches _ fair ⟨starts, calling⟩

/-- The parties of a send in turn. -/
def Sending.inTurn (count : Nat) : Party :=
  match count % 4 with
  | 0 => .sender
  | 1 => .caller
  | 2 => .receiver .main
  | _ => .receiver .thread

/-- Taking turns is fair to the parties of a send. -/
theorem Sending.inTurn_fair : System.Fair Sending.inTurn := by
  -- Every party has one turn in four.
  have turn : ∀ count place, place < 4 → (4 * count + place) % 4 = place := by omega
  intro party count
  cases party with
  | sender => exact ⟨4 * count + 0, by omega, by rw [inTurn, turn count 0 (by omega)]; rfl⟩
  | caller => exact ⟨4 * count + 1, by omega, by rw [inTurn, turn count 1 (by omega)]; rfl⟩
  | receiver actor =>
    cases actor with
    | main => exact ⟨4 * count + 2, by omega, by rw [inTurn, turn count 2 (by omega)]; rfl⟩
    | thread => exact ⟨4 * count + 3, by omega, by rw [inTurn, turn count 3 (by omega)]; rfl⟩

/-- A stream of the last command alone is enough for a receive with a handler thread. -/
theorem suffices_endFrame (handler : HandleCmd Unit) :
    Suffices (fun _ => 0) handler true (Buffered.plainStream [Buffered.endFrame]) () := by
  -- The header and the frame of the last command are all that is read.
  have header : takeHeader (Buffered.plainStream [Buffered.endFrame]) = _ :=
    takeHeader_bytes (by decide) _
  have frame := takeFrame_bytes (fun _ => 0) (show Buffered.endFrame.Fits by decide) []
  simp only [Suffices, header, List.flatMap_cons, List.flatMap_nil, if_true]
  rw [frames_ok frame]
  exact Or.inr (Or.inl rfl)

/-- A send whose handler panics at the last command returns as well. -/
theorem fair_send_returns_crashing :
    ∃ first, SendBuilder.begins ⟨true, 2, 0⟩
        (openKernel (Buffered.plainStream [Buffered.endFrame]) (.ok ())) .spawn () = .ok first ∧
      ∃ count result,
        ((Sending.system (fun _ => 0) Buffered.crashingHandler).after Sending.inTurn count
          first).caller = .returned result :=
  ⟨_, rfl, fair_send_returns (fun _ => 0) Buffered.crashingHandler ⟨true, 2, 0⟩
    (openKernel (Buffered.plainStream [Buffered.endFrame]) (.ok ())) .spawn () _ rfl
    (Nat.succ_pos _) (Or.inr (suffices_endFrame _)) Sending.inTurn Sending.inTurn_fair⟩

end Libbtrfs
