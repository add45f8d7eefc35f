import Libbtrfs.Core.Consumer
import Libbtrfs.SendStream.BufferedSteps

/-! The receive of a stream that arrives piece by piece, with or without a handler thread. -/

namespace Libbtrfs

/-- The end of the input in the middle of what is to be read. -/
def eof : Failure := .io (.kind .unexpectedEof)

/--
Where `receive_stream` stands.

The reader of its stream holds what was taken from the source and is not yet part of a read.
-/
inductive Receiving (σ : Type) where
  | opening (buffered : Bool) (stream : SendStream) (state : σ)
  | plain (stream : SendStream) (state : σ)
  | buffered (now : Buffered σ (clampBufs 2))
  | done (result : Outcome Unit)

namespace SendStream

/-- More of the input arrives. -/
def give (more : Bytes) (stream : SendStream) : SendStream :=
  { stream with reader := stream.reader ++ more }

@[simp] theorem give_reader (more : Bytes) (stream : SendStream) :
    (stream.give more).reader = stream.reader ++ more := rfl

@[simp] theorem give_buf (more : Bytes) (stream : SendStream) :
    (stream.give more).buf = stream.buf := rfl

@[simp] theorem give_data (more : Bytes) (stream : SendStream) :
    (stream.give more).data = stream.data := rfl

end SendStream

namespace Buffered

variable {σ : Type} {nbuf : Nat}

/-- More of the input arrives. -/
def give (more : Bytes) (now : Buffered σ nbuf) : Buffered σ nbuf :=
  { now with stream := now.stream.give more }

/-- The reader is about to read a command that has not arrived as a whole. -/
def starving (crc : Bytes → UInt32) (now : Buffered σ nbuf) : Bool :=
  match now.main with
  | .read =>
    if now.stream.command = SendCmd.key EndCmd then false
    else
      match readCmd crc now.stream with
      | .error failure _ => failure = eof
      | .ok () _ => false
  | _ => false

end Buffered

namespace Receiving

variable {σ : Type}

/-- `receive_stream` of a source of which nothing has been read. -/
def start (buffered : Bool) (state : σ) : Receiving σ := .opening buffered (.new [] none) state

/-- `read_header`, and the start of the handler thread in front of the loop if there is to be one. -/
def opens (ahead : Bool) (stream : SendStream) (state : σ) : Turn (Receiving σ) :=
  match readHeader stream with
  | .error failure _ => if failure = eof then .hungry else .moves (.done (.error failure))
  | .ok () read =>
    if ahead then
      match Buffered.start 2 stream state with
      | .error failure => .moves (.done (.error failure))
      | .ok now => .moves (.buffered now)
    else .moves (.plain read state)

/-- One round of the loop of `read_and_handle`. -/
def round (crc : Bytes → UInt32) (handler : HandleCmd σ) (stream : SendStream) (state : σ) :
    Turn (Receiving σ) :=
  match readCmd crc stream with
  | .error failure _ => if failure = eof then .hungry else .moves (.done (.error failure))
  | .ok () read =>
    match read.payload with
    | .error failure => .moves (.done (.error failure))
    | .ok data =>
      match handler read.command data read.version state with
      | (.error failure, _) => .moves (.done (.error failure))
      | (.ok none, _) => .moves (.done (.ok ()))
      | (.ok (some ()), state) => .moves (.plain read state)

/-- One step of the thread that reads, and of the handler thread if there is one. -/
def step (crc : Bytes → UInt32) (handler : HandleCmd σ) :
    Actor → Receiving σ → Turn (Receiving σ)
  | .main, .opening ahead stream state => opens ahead stream state
  | .main, .plain stream state => round crc handler stream state
  | .main, .buffered now =>
    if now.starving crc then .hungry
    else .ofOption ((Buffered.mainStep crc now).map .buffered)
  | .thread, .buffered now => .ofOption ((Buffered.threadStep handler now).map .buffered)
  | _, _ => .idle

/-- More of the stream arrives. -/
def give (more : Bytes) : Receiving σ → Receiving σ
  | .opening ahead stream state => .opening ahead (stream.give more) state
  | .plain stream state => .plain (stream.give more) state
  | .buffered now => .buffered (now.give more)
  | .done result => .done result

/-- The read that waits for more fails with the end of the input. -/
def starve (crc : Bytes → UInt32) : Receiving σ → Receiving σ
  | .buffered now => .buffered ((Buffered.mainStep crc now).getD now)
  | _ => .done (.error eof)

/-- The result of `receive_stream`, once it has returned or panicked. -/
def result : Receiving σ → Option (Outcome Unit)
  | .done result => some result
  | .buffered now => now.returned
  | _ => none

end Receiving

/-- `receive_stream` as the consumer of its source. -/
def receiveStream {σ : Type} (crc : Bytes → UInt32) (handler : HandleCmd σ) :
    Consumer UInt8 Actor (Receiving σ) where
  step := Receiving.step crc handler
  give := Receiving.give
  starve _ := Receiving.starve crc

/-- What is done with a part of the input is done the same way when more has arrived. -/
def SendStream.Lasts (more : Bytes) (part whole : EStateM.Result Failure SendStream Unit) : Prop :=
  match part with
  | .error failure after => failure ≠ eof → whole = .error failure (after.give more)
  | .ok () after => whole = .ok () (after.give more)

namespace SendStream

/-- What succeeds with a part of the input succeeds in the same way with more of it. -/
theorem Lasts.of_ok {more : Bytes} {part whole : EStateM.Result Failure SendStream Unit}
    {after : SendStream} (lasts : Lasts more part whole) (same : part = .ok () after) :
    whole = .ok () (after.give more) := by
  -- That is how the two compare where the part succeeds.
  rw [same] at lasts
  exact lasts

/-- What fails with a part of the input, and not for the lack of more, fails with more of it. -/
theorem Lasts.of_error {more : Bytes} {part whole : EStateM.Result Failure SendStream Unit}
    {failure : Failure} {after : SendStream} (lasts : Lasts more part whole)
    (same : part = .error failure after) (other : failure ≠ eof) :
    whole = .error failure (after.give more) := by
  -- That is how the two compare where the part fails for another reason.
  rw [same] at lasts
  exact lasts other

variable (more : Bytes) (stream : SendStream)

/-- A read that does not run out of input is the same when more arrives. -/
theorem readExact_lasts (start stop : Nat) :
    Lasts more (readExact start stop stream) (readExact start stop (stream.give more)) := by
  -- The range is that of the buffer, so only the length of the input is compared again.
  rw [readExact_eq, readExact_eq]
  by_cases inside : start ≤ stop ∧ stop ≤ stream.buf.length
  · rw [if_neg (not_not.mpr inside)]
    have same : ¬ ¬ (start ≤ stop ∧ stop ≤ (stream.give more).buf.length) := not_not.mpr inside
    rw [if_neg same]
    by_cases short : stream.reader.length < stop - start
    · rw [if_pos short]
      exact fun other => absurd rfl other
    · -- What is read now is still in front of what has arrived later.
      have enough : ¬ (stream.give more).reader.length < stop - start := by
        rw [give_reader, List.length_append]
        omega
      rw [if_neg short, if_neg enough]
      simp only [Lasts, give]
      rw [List.drop_append_of_le_length (by omega), List.take_append_of_le_length (by omega)]
  · rw [if_pos inside]
    have same : ¬ (start ≤ stop ∧ stop ≤ (stream.give more).buf.length) := inside
    rw [if_pos same]
    exact fun _ => rfl

/-- The header of a stream that does not run out of input is the same when more arrives. -/
theorem readHeader_lasts : Lasts more (readHeader stream) (readHeader (stream.give more)) := by
  rw [readHeader_eq, readHeader_eq]
  have first := readExact_lasts more stream 0 streamHeaderSize
  cases read : readExact 0 streamHeaderSize stream with
  | error failure after => exact fun other => by rw [first.of_error read other]
  | ok done filled =>
    rw [first.of_ok read]
    -- Both checks are of the buffer, which is the same.
    have same : (filled.give more).buf = filled.buf := rfl
    by_cases foreign : (List.splitAt magic.length (List.take streamHeaderSize filled.buf)).1 ≠ magic
    · have too := foreign
      rw [← same] at too
      simp only [if_pos foreign, if_pos too]
      exact fun _ => rfl
    · have too := foreign
      rw [← same] at too
      simp only [if_neg foreign, if_neg too]
      by_cases newer : UInt32.ofNat (leNat (List.splitAt magic.length
          (List.take streamHeaderSize filled.buf)).2) > supportedVersion
      · have too := newer
        rw [← same] at too
        simp only [if_pos newer, if_pos too]
        exact fun _ => rfl
      · have too := newer
        rw [← same] at too
        simp only [if_neg newer, if_neg too]
        rfl

/-- The position moves as it did when more arrives. -/
theorem advance_give : (stream.give more).advance = stream.advance.give more :=
  -- Neither the test of the position nor its store looks at the reader.
  (apply_ite (give more)
    (stream.streamPos &&& blockMask ≠ (stream.streamPos + stream.data.stop) &&& blockMask)
    (SendStream.storePos { stream with streamPos := stream.streamPos + stream.data.stop })
    { stream with streamPos := stream.streamPos + stream.data.stop }).symm

/-- A command that does not run out of input is the same when more arrives. -/
theorem readCmd_lasts (crc : Bytes → UInt32) :
    Lasts more (readCmd crc stream) (readCmd crc (stream.give more)) := by
  rw [readCmd_eq, readCmd_eq]
  have first := readExact_lasts more { stream with data := { stream.data with stop := 0 } } 0
    cmdHeaderSize
  have opening : ({ stream with data := { stream.data with stop := 0 } } : SendStream).give more =
      { stream.give more with data := { (stream.give more).data with stop := 0 } } := rfl
  rw [opening] at first
  cases read : readExact 0 cmdHeaderSize
      { stream with data := { stream.data with stop := 0 } } with
  | error failure after => exact fun other => by rw [first.of_error read other]
  | ok done opened =>
    rw [first.of_ok read]
    -- The header says how much more is read, whatever is behind it.
    have header : (opened.give more).takeHeader.1 = opened.takeHeader.1 := rfl
    have ready : (opened.give more).takeHeader.2.expect opened.takeHeader.1.length =
        (opened.takeHeader.2.expect opened.takeHeader.1.length).give more := rfl
    have second := readExact_lasts more (opened.takeHeader.2.expect opened.takeHeader.1.length)
      (opened.takeHeader.2.expect opened.takeHeader.1.length).data.start
      (opened.takeHeader.2.expect opened.takeHeader.1.length).data.stop
    simp only [header, ready, give_data]
    generalize opened.takeHeader.2.expect opened.takeHeader.1.length = expecting at second
    cases body : readExact expecting.data.start expecting.data.stop expecting with
    | error failure after => exact fun other => by rw [second.of_error body other]
    | ok done filled =>
      rw [second.of_ok body]
      have same : List.take (filled.give more).data.stop (filled.give more).buf =
        List.take filled.data.stop filled.buf := rfl
      by_cases wrong : opened.takeHeader.1.checksum ≠ crc (List.take filled.data.stop filled.buf)
      · have too := wrong
        rw [← same] at too
        simp only [if_pos wrong, if_pos too]
        exact fun _ => rfl
      · have too := wrong
        rw [← same] at too
        simp only [if_neg wrong, if_neg too, Lasts, advance_give]
        rfl

end SendStream

namespace Buffered

variable {σ : Type} {nbuf : Nat} {crc : Bytes → UInt32}

/-- A reader that is not starving has its next command, or one that is refused. -/
theorem not_starving {now : Buffered σ nbuf} (fed : now.starving crc = false)
    (stands : now.main = .read) (goes : now.stream.command ≠ SendCmd.key EndCmd)
    {failure : Failure} {after : SendStream}
    (failed : readCmd crc now.stream = .error failure after) : failure ≠ eof := by
  -- It is starving exactly where the read runs out of input.
  simp only [starving, stands, if_neg goes, failed, decide_eq_false_iff_not] at fed
  exact fed

/-- A reader that has what it reads next goes on in the same way when more arrives. -/
theorem MainStep.give {now after : Buffered σ nbuf} (step : MainStep crc now after)
    (fed : now.starving crc = false) (more : Bytes) :
    MainStep crc (now.give more) (after.give more) := by
  -- Only the two steps that read look at the input.
  cases step with
  | finish stands last => exact .finish stands last
  | refuse stands goes failed =>
    -- The reader has not run out of input, as it would starve then.
    have lasts := now.stream.readCmd_lasts more crc
    exact .refuse stands goes (lasts.of_error failed (not_starving fed stands goes failed))
  | read stands goes done =>
    have lasts := now.stream.readCmd_lasts more crc
    exact .read stands goes (lasts.of_ok done)
  | push stands pushed => exact .push stands pushed
  | full stands full => exact .full stands full
  | take stands popped => exact .take stands popped
  | fail stands popped => exact .fail stands popped
  | spin stands empty few => exact .spin stands empty few
  | doubt stands empty many => exact .doubt stands empty many
  | orphaned stands gone => exact .orphaned stands gone
  | wait stands there => exact .wait stands there
  | leave stands => exact .leave stands

/-- The handler thread does not notice what arrives. -/
theorem ThreadStep.give {handle : HandleCmd σ} {now after : Buffered σ nbuf}
    (step : ThreadStep handle now after) (more : Bytes) :
    ThreadStep handle (now.give more) (after.give more) := by
  -- Every step is one of the rings or the handler, which are the same.
  cases step with
  | take stands popped => exact .take stands popped
  | spin stands empty few => exact .spin stands empty few
  | doubt stands empty many => exact .doubt stands empty many
  | quit stands gone => exact .quit stands gone
  | wait stands there => exact .wait stands there
  | slice stands outside => exact .slice stands outside
  | panic stands inside answered => exact .panic stands inside answered
  | refuse stands inside answered => exact .refuse stands inside answered
  | accept stands inside answered => exact .accept stands inside answered
  | report stands pushed => exact .report stands pushed
  | giveBack stands pushed => exact .giveBack stands pushed
  | full stands full => exact .full stands full
  | leave stands => exact .leave stands

/-- A reader that has what it reads next still has it when more arrives. -/
theorem starving_give {now : Buffered σ nbuf} (fed : now.starving crc = false) (more : Bytes) :
    (now.give more).starving crc = false := by
  -- A reader starves only in front of a command of which a part is missing.
  cases stands : now.main with
  | read =>
    by_cases last : now.stream.command = SendCmd.key EndCmd
    · have same : (now.give more).stream.command = SendCmd.key EndCmd := last
      have too : (now.give more).main = .read := stands
      simp only [starving, too, if_pos same]
    · have same : ¬ (now.give more).stream.command = SendCmd.key EndCmd := last
      have too : (now.give more).main = .read := stands
      have lasts := now.stream.readCmd_lasts more crc
      simp only [starving, too, if_neg same]
      cases read : readCmd crc now.stream with
      | error failure after =>
        have other := not_starving fed stands last read
        have whole : readCmd crc (now.give more).stream = _ := lasts.of_error read other
        simp only [whole, other, decide_false]
      | ok done after =>
        have whole : readCmd crc (now.give more).stream = _ := lasts.of_ok read
        simp only [whole]
  | push | pop | test | leave | done =>
    have too : (now.give more).main = _ := stands
    simp only [starving, too]

/-- The two processes start in the same way when more has arrived. -/
theorem start_give {stream read : SendStream} (header : readHeader stream = .ok () read)
    (more : Bytes) (state : σ) :
    (start nbuf (stream.give more) state : Outcome (Buffered σ _)) =
      (start nbuf stream state).map (give more) := by
  have whole := (stream.readHeader_lasts more).of_ok header
  simp only [start, header, whole, SendStream.give_buf]
  -- The buffers that are primed are copies of the same one.
  cases prime read.buf (clampBufs nbuf - 1) Ring.empty with
  | error failure => rfl
  | ok free => rfl

end Buffered

/-- A step that is one of the two processes moves when they do. -/
theorem Turn.ofOption_moves {State : Type} {found : Option State} {next : State} :
    Turn.ofOption found = .moves next ↔ found = some next := by
  -- There is a next state, or there is none.
  cases found with
  | none => simp [Turn.ofOption]
  | some other => simp [Turn.ofOption]

namespace Receiving

variable {σ : Type} {crc : Bytes → UInt32} {handler : HandleCmd σ}

/-- The header that has arrived is refused, or the receive goes on in one of the two ways. -/
theorem opens_cases {ahead : Bool} {stream : SendStream} {state : σ} {next : Receiving σ}
    (moved : opens ahead stream state = .moves next) :
    (∃ failure after, readHeader stream = .error failure after ∧ failure ≠ eof ∧
        next = .done (.error failure)) ∨
      (ahead = true ∧ ∃ failure, Buffered.start 2 stream state = .error failure ∧
        next = .done (.error failure)) ∨
      (ahead = true ∧ ∃ first, Buffered.start 2 stream state = .ok first ∧
        next = .buffered first) ∨
      ahead = false ∧ ∃ read, readHeader stream = .ok () read ∧ next = .plain read state := by
  rw [opens] at moved
  -- The header comes first, and then the kind of receive that was asked for.
  cases header : readHeader stream with
  | error failure after =>
    rw [header] at moved
    simp only at moved
    split at moved
    · cases moved
    · rename_i other
      cases moved
      exact Or.inl ⟨failure, after, rfl, other, rfl⟩
  | ok done read =>
    rw [header] at moved
    cases ahead with
    | true =>
      simp only [if_true] at moved
      cases started : Buffered.start 2 stream state with
      | error failure =>
        rw [started] at moved
        cases moved
        exact Or.inr (Or.inl ⟨rfl, failure, rfl, rfl⟩)
      | ok first =>
        rw [started] at moved
        cases moved
        exact Or.inr (Or.inr (Or.inl ⟨rfl, first, rfl, rfl⟩))
    | false =>
      cases moved
      exact Or.inr (Or.inr (Or.inr ⟨rfl, read, rfl, rfl⟩))

/-- A buffered receive goes on with its two processes. -/
theorem opens_buffered {stream : SendStream} {state : σ} {first : Buffered σ (clampBufs 2)}
    (started : Buffered.start 2 stream state = .ok first) :
    opens true stream state = .moves (.buffered first) := by
  rw [opens]
  -- The processes are there only if the header was read.
  cases header : readHeader stream with
  | error failure after =>
    rw [Buffered.start, header] at started
    cases started
  | ok done opened => simp only [if_true, started]

/-- An unbuffered receive goes on with its loop. -/
theorem opens_plain {stream read : SendStream} (header : readHeader stream = .ok () read)
    (state : σ) : opens false stream state = .moves (.plain read state) := by
  -- Nothing is made behind the header.
  simp only [opens, header, Bool.false_eq_true, if_false]

/-- A header that has arrived is taken in the same way when more arrives. -/
theorem opens_give {ahead : Bool} {stream : SendStream} {state : σ} {next : Receiving σ}
    (moved : opens ahead stream state = .moves next) (more : Bytes) :
    opens ahead (stream.give more) state = .moves (next.give more) := by
  -- The header is all that is looked at, whichever way the receive goes on.
  have lasts := stream.readHeader_lasts more
  rw [opens] at moved ⊢
  cases header : readHeader stream with
  | error failure after =>
    rw [header] at moved
    simp only at moved
    split at moved
    · cases moved
    · rename_i other
      cases moved
      simp only [lasts.of_error header other, if_neg other]
      rfl
  | ok done read =>
    rw [header] at moved
    simp only [lasts.of_ok header] at moved ⊢
    cases ahead with
    | true =>
      simp only [if_true] at moved ⊢
      rw [Buffered.start_give header]
      cases started : Buffered.start 2 stream state with
      | error failure =>
        rw [started] at moved
        cases moved
        rfl
      | ok now =>
        rw [started] at moved
        cases moved
        rfl
    | false =>
      cases moved
      rfl

/-- A command that has arrived is handled in the same way when more arrives. -/
theorem round_give {stream : SendStream} {state : σ} {next : Receiving σ}
    (moved : round crc handler stream state = .moves next) (more : Bytes) :
    round crc handler (stream.give more) state = .moves (next.give more) := by
  have lasts := stream.readCmd_lasts more crc
  rw [round] at moved ⊢
  cases found : readCmd crc stream with
  | error failure after =>
    rw [found] at moved
    simp only at moved
    split at moved
    · cases moved
    · rename_i other
      cases moved
      simp only [lasts.of_error found other, if_neg other]
      rfl
  | ok done read =>
    rw [found] at moved
    have whole := lasts.of_ok found
    have payload : (read.give more).payload = read.payload := rfl
    have command : (read.give more).command = read.command := rfl
    have version : (read.give more).version = read.version := rfl
    simp only [whole, payload, command, version] at moved ⊢
    cases sliced : read.payload with
    | error failure =>
      rw [sliced] at moved
      cases moved
      rfl
    | ok data =>
      rw [sliced] at moved
      simp only at moved ⊢
      -- The handler sees the same command, and the loop goes on or ends.
      rcases answered : handler read.command data read.version state with ⟨_ | _ | _, after⟩
      · rw [answered] at moved
        cases moved
        rfl
      · rw [answered] at moved
        cases moved
        rfl
      · rw [answered] at moved
        cases moved
        rfl

/-- A step of the receive is the same when more of the stream arrives. -/
theorem step_give {actor : Actor} {now next : Receiving σ}
    (moved : step crc handler actor now = .moves next) (more : Bytes) :
    step crc handler actor (now.give more) = .moves (next.give more) := by
  -- Each kind of receive has its own lemma, and only the reader looks at the input.
  cases now with
  | opening ahead stream state =>
    cases actor with
    | thread => cases moved
    | main => exact opens_give moved more
  | plain stream state =>
    cases actor with
    | thread => cases moved
    | main => exact round_give moved more
  | buffered now =>
    cases actor with
    | main =>
      simp only [step, give] at moved ⊢
      split at moved
      · cases moved
      · rename_i fed
        rw [Bool.not_eq_true] at fed
        rw [if_neg (by rw [Buffered.starving_give fed]; exact nofun)]
        obtain ⟨after, stepped, rfl⟩ := Option.map_eq_some_iff.mp (Turn.ofOption_moves.mp moved)
        have goes := ((Buffered.mainStep_cases stepped).give fed more).taken
        rw [goes]
        rfl
    | thread =>
      simp only [step, give] at moved ⊢
      obtain ⟨after, stepped, rfl⟩ := Option.map_eq_some_iff.mp (Turn.ofOption_moves.mp moved)
      have goes := ((Buffered.threadStep_cases stepped).give more).taken
      rw [goes]
      rfl
  | done result =>
    cases actor with
    | main => cases moved
    | thread => cases moved

/-- What arrives in two parts is what arrives at once. -/
theorem give_give (items later : Bytes) (now : Receiving σ) :
    (now.give items).give later = now.give (items ++ later) := by
  -- In each of the states, what arrives is appended to the input.
  cases now with
  | opening ahead stream state => simp only [give, SendStream.give, List.append_assoc]
  | plain stream state => simp only [give, SendStream.give, List.append_assoc]
  | buffered now => simp only [give, Buffered.give, SendStream.give, List.append_assoc]
  | done result => rfl

/-- When nothing arrives nothing changes. -/
theorem give_nil (now : Receiving σ) : now.give [] = now := by
  -- In each of the states, nothing is appended to the input.
  cases now with
  | opening ahead stream state => simp only [give, SendStream.give, List.append_nil]
  | plain stream state => simp only [give, SendStream.give, List.append_nil]
  | buffered now => simp only [give, Buffered.give, SendStream.give, List.append_nil]
  | done result => rfl

end Receiving

/-- The receive takes no notice of what has arrived before it reads it. -/
theorem receiveStream_lawful {σ : Type} (crc : Bytes → UInt32) (handler : HandleCmd σ) :
    (receiveStream crc handler).Lawful where
  give_nil := Receiving.give_nil
  give_give := Receiving.give_give
  moves_give _ _ _ items moved := Receiving.step_give moved items

end Libbtrfs
