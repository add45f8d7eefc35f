import Libbtrfs.SendStream.BufferedSchedules
import Libbtrfs.SendStream.BufferedSufficing
import Libbtrfs.Subvol.Kernel

/-! A send with a handler: the ioctl, the pipe, the thread that receives and the caller. -/

namespace Libbtrfs

/-- `BTRFS_SEND_FLAG_NO_FILE_DATA`. -/
def sendFlagNoFileData : UInt64 := 1

/-- `BTRFS_SEND_FLAG_OMIT_STREAM_HEADER`. -/
def sendFlagOmitStreamHeader : UInt64 := 2

/-- `BTRFS_SEND_FLAG_OMIT_END_CMD`. -/
def sendFlagOmitEndCmd : UInt64 := 4

/-- `BTRFS_SEND_FLAG_VERSION`. -/
def sendFlagVersion : UInt64 := 8

/-- `BTRFS_SEND_FLAG_COMPRESSED`. -/
def sendFlagCompressed : UInt64 := 16

/-- `EPIPE`. -/
def epipe : Nat := 32

/-- What a `SendBuilder` with a handler has been told, apart from the source and the handler. -/
structure SendBuilder where
  buffered : Bool
  version : UInt32
  flags : UInt64

/-- What `btrfs_ioctl_send_args` says, apart from the descriptor that is written to. -/
structure SendArgs where
  flags : UInt64
  version : UInt32

/--
The system calls of a send.

The send ioctl is given by what it writes to a pipe that is read, and by how it ends then.
-/
structure SendKernel where
  pipe : Except IoError Unit
  /-- `F_SETPIPE_SZ`, which answers with the size that the pipe gets. -/
  setPipeSz : Nat → Except IoError Nat
  isBtrfs : Except IoError Bool
  send : SendArgs → Bytes × Except IoError Unit

/-- The two functions that send. -/
inductive SendCall where
  | spawn | blocking
  deriving DecidableEq

/-- How far the send ioctl has got. -/
inductive SenderPc where
  | sending (rest : Bytes) (result : Except IoError Unit)
  | finished (result : Except IoError Unit)

/-- Where the caller stands, which joins a thread once that has ended. -/
inductive CallerPc where
  | busy
  | joinReceiver
  | joinSender
  | returned (result : Outcome Unit)
  deriving DecidableEq

/-- Who holds a write end of the pipe. -/
inductive Holder where
  | ioctl | receiver | caller
  deriving DecidableEq

/-- Who takes a step. -/
inductive Party where
  | sender
  | caller
  | receiver (actor : Actor)

/-- A send that is under way. -/
structure Sending (σ : Type) where
  call : SendCall
  room : Nat
  pipe : Bytes
  sender : SenderPc
  caller : CallerPc
  receiver : Receiving σ

namespace SendBuilder

/-- `SendBuilder::new`, for the version that the system supports. -/
def new (supportedVersion : UInt32) : SendBuilder := ⟨false, supportedVersion, 0⟩

/-- `send_flag_to_builder_fn!`. -/
def setFlag (flag : UInt64) (builder : SendBuilder) (on : Bool) : SendBuilder :=
  { builder with
    flags := if on then builder.flags ||| flag else builder.flags &&& ~~~flag }

/-- `SendBuilder::no_file_data`. -/
def noFileData : SendBuilder → Bool → SendBuilder := setFlag sendFlagNoFileData

/-- `SendBuilder::omit_end_cmd`. -/
def omitEndCmd : SendBuilder → Bool → SendBuilder := setFlag sendFlagOmitEndCmd

/-- `SendBuilder::omit_stream_header`. -/
def omitStreamHeader : SendBuilder → Bool → SendBuilder := setFlag sendFlagOmitStreamHeader

/-- `SendBuilder::compressed`. -/
def compressed : SendBuilder → Bool → SendBuilder := setFlag sendFlagCompressed

/-- The size that is asked for, `BUFSZ_V1` or `BUFSZ_V2`. -/
def pipeSz (builder : SendBuilder) : Nat := if builder.version > 1 then 128000 else 64000

/-- The arguments of the send ioctl. -/
def args (builder : SendBuilder) : SendArgs where
  flags := if builder.version > 1 then builder.flags ||| sendFlagVersion else builder.flags
  version := builder.version

variable {σ : Type}

/-- The pipe is made, and its size set. -/
def openPipe (builder : SendBuilder) (kernel : SendKernel) : Except IoError Nat := do
  kernel.pipe
  kernel.setPipeSz builder.pipeSz

/-- The send ioctl and the thread that receives are about to begin. -/
def sending (builder : SendBuilder) (kernel : SendKernel) (call : SendCall) (room : Nat)
    (state : σ) : Sending σ where
  call := call
  room := room
  pipe := []
  sender := .sending (kernel.send builder.args).1 (kernel.send builder.args).2
  caller := .busy
  receiver := .start builder.buffered state

/-- `SendBuilder::spawn_send`, up to the start of its threads. -/
def spawnSend (builder : SendBuilder) (kernel : SendKernel) (state : σ) :
    Except IoError (Sending σ) := do
  let room ← builder.openPipe kernel
  if ← kernel.isBtrfs then return builder.sending kernel .spawn room state
  else throw (.kind .unsupported)

/-- `SendBuilder::blocking_send`, up to the ioctl. -/
def blockingSend (builder : SendBuilder) (kernel : SendKernel) (state : σ) :
    Except IoError (Sending σ) := do
  let room ← builder.openPipe kernel
  return builder.sending kernel .blocking room state

/-- Either of the two functions. -/
def begins (builder : SendBuilder) (kernel : SendKernel) (call : SendCall) (state : σ) :
    Except IoError (Sending σ) :=
  match call with
  | .spawn => builder.spawnSend kernel state
  | .blocking => builder.blockingSend kernel state

end SendBuilder

/-- `handle.join().unwrap()` of the thread that receives. -/
def joined : Outcome Unit → Outcome Unit
  | .error (.panic _) =>
    .error (.panic "called `Result::unwrap()` on an `Err` value: Any \x7b .. \x7d")
  | other => other

namespace Sending

variable {σ : Type}

/-- The write ends of the pipe that are still open. -/
def writeEnds (now : Sending σ) : List Holder :=
  (match now.sender with
    | .sending _ _ => [.ioctl]
    | .finished _ => []) ++
  match now.call with
  -- `let _w = writer` in the thread that receives.
  | .spawn => if now.receiver.result.isNone then [.receiver] else []
  -- The variable of the function itself.
  | .blocking =>
    match now.caller with
    | .returned _ => []
    | _ => [.caller]

/-- One step of the send ioctl. -/
def senderStep (now : Sending σ) : Option (Sending σ) :=
  match now.sender with
  | .sending (byte :: rest) result =>
    -- The read end is gone with the thread that receives.
    if now.receiver.result.isSome then
      some { now with sender := .finished (.error (.os epipe)) }
    else if now.pipe.length < now.room then
      some { now with pipe := now.pipe ++ [byte], sender := .sending rest result }
    else none
  | .sending [] result => some { now with sender := .finished (btrfsIoctl result) }
  | .finished _ => none

/-- One step of the caller: `SendHandle::join`, or the rest of `blocking_send`. -/
def callerStep (now : Sending σ) : Option (Sending σ) :=
  match now.call, now.caller with
  | .spawn, .busy => some { now with caller := .joinReceiver }
  | .spawn, .joinReceiver =>
    match now.receiver.result with
    | none => none
    | some result =>
      match joined result with
      | .error failure => some { now with caller := .returned (.error failure) }
      | .ok () => some { now with caller := .joinSender }
  | .spawn, .joinSender =>
    match now.sender with
    | .finished result => some { now with caller := .returned (result.mapError .io) }
    | .sending _ _ => none
  | .blocking, .busy =>
    match now.sender with
    | .sending _ _ => none
    -- A broken pipe is returned in the same way, only later.
    | .finished (.error error) => some { now with caller := .returned (.error (.io error)) }
    | .finished (.ok ()) => some { now with caller := .joinReceiver }
  | .blocking, .joinReceiver =>
    match now.receiver.result with
    | none => none
    | some result => some { now with caller := .returned (joined result) }
  | _, _ => none

variable (crc : Bytes → UInt32) (handler : HandleCmd σ)

/-- One step of the thread that receives, or of the handler thread that it has started. -/
def receiverStep (actor : Actor) (now : Sending σ) : Option (Sending σ) :=
  ((receiveStream crc handler).pull actor now.writeEnds.isEmpty now.pipe now.receiver).map
    fun (pipe, receiver) => { now with pipe := pipe, receiver := receiver }

/-- All parties of a send. -/
def system : System Party (Sending σ) where
  step
    | .sender => senderStep
    | .caller => callerStep
    | .receiver actor => receiverStep crc handler actor

/--
Nothing can happen any more that would let the receiver go on.

The sender is finished, the receiver waits for bytes, there are none, and each open write end is
held by the receiver itself or by the caller that waits for it.
-/
def Stuck (now : Sending σ) : Prop :=
  (∃ result, now.sender = .finished result) ∧ now.pipe = [] ∧
    (receiveStream crc handler).step .main now.receiver = .hungry ∧ now.writeEnds ≠ [] ∧
    ∀ holder ∈ now.writeEnds,
      holder = .receiver ∨ holder = .caller ∧ now.caller = .joinReceiver

/-- What the ioctl has yet to write. -/
def unwritten (now : Sending σ) : Bytes :=
  match now.sender with
  | .sending rest _ => rest
  | .finished _ => []

variable {crc : Bytes → UInt32} {handler : HandleCmd σ} {now after : Sending σ}

/-- While there is something to write the ioctl holds a write end. -/
theorem unwritten_closed (closed : now.writeEnds.isEmpty = true) : now.unwritten = [] := by
  -- An ioctl that has not finished is among the holders.
  unfold unwritten
  split
  · rename_i stands
    simp [writeEnds, stands] at closed
  · rfl

/-- The receiver has enough with what is under way to it, until it has returned. -/
def Supplied (crc : Bytes → UInt32) (handler : HandleCmd σ) (now : Sending σ) : Prop :=
  now.receiver.result.isSome ∨
    (receiveStream crc handler).Sated (now.receiver.give (now.pipe ++ now.unwritten))

/-- What the ioctl does keeps the receiver supplied. -/
theorem Supplied.senderStep (supplied : now.Supplied crc handler)
    (stepped : now.senderStep = some after) : after.Supplied crc handler := by
  -- A byte that is written moves from what is unwritten into the pipe.
  unfold Sending.senderStep at stepped
  split at stepped
  · rename_i byte rest result stands
    split at stepped
    · -- The pipe breaks only once the receiver has returned.
      rename_i returned
      cases stepped
      exact Or.inl returned
    · split at stepped
      · cases stepped
        refine supplied.imp id fun sated => ?_
        simp only [unwritten, stands] at sated
        simp only [unwritten, List.append_assoc, List.singleton_append]
        exact sated
      · cases stepped
  · rename_i result stands
    cases stepped
    refine supplied.imp id fun sated => ?_
    simp only [unwritten, stands] at sated
    simp only [unwritten]
    exact sated
  · cases stepped

/-- The caller touches neither the pipe nor what is connected by it. -/
theorem callerStep_frame (stepped : now.callerStep = some after) :
    after.call = now.call ∧ after.pipe = now.pipe ∧ after.sender = now.sender ∧
      after.receiver = now.receiver := by
  -- Each of its steps is an update of the caller alone.
  unfold callerStep at stepped
  split at stepped
  · cases stepped
    exact ⟨rfl, rfl, rfl, rfl⟩
  · split at stepped
    · cases stepped
    · split at stepped
      · cases stepped
        exact ⟨rfl, rfl, rfl, rfl⟩
      · cases stepped
        exact ⟨rfl, rfl, rfl, rfl⟩
  · split at stepped
    · cases stepped
      exact ⟨rfl, rfl, rfl, rfl⟩
    · cases stepped
  · split at stepped
    · cases stepped
    · cases stepped
      exact ⟨rfl, rfl, rfl, rfl⟩
    · cases stepped
      exact ⟨rfl, rfl, rfl, rfl⟩
  · split at stepped
    · cases stepped
    · cases stepped
      exact ⟨rfl, rfl, rfl, rfl⟩
  · cases stepped

/-- The receiver touches nothing but the pipe. -/
theorem receiverStep_frame {actor : Actor} (stepped : now.receiverStep crc handler actor = some after) :
    after.call = now.call ∧ after.sender = now.sender ∧ after.caller = now.caller := by
  -- A step of it writes the pipe and the receiver.
  obtain ⟨pair, _, rfl⟩ := Option.map_eq_some_iff.mp stepped
  exact ⟨rfl, rfl, rfl⟩

/-- What the receiver reads keeps it supplied. -/
theorem Supplied.receiverStep {actor : Actor} (supplied : now.Supplied crc handler)
    (stepped : now.receiverStep crc handler actor = some after) : after.Supplied crc handler := by
  -- Either it has returned, or its turn is one at the end of the pipe.
  obtain ⟨⟨pipe, receiver⟩, pulled, rfl⟩ := Option.map_eq_some_iff.mp stepped
  rcases supplied with returned | sated
  · -- A receiver that has returned takes no step at all.
    obtain ⟨result, returned⟩ := Option.isSome_iff_exists.mp returned
    have idle := Receiving.result_idle crc handler actor returned
    simp only [Consumer.pull, receiveStream, idle] at pulled
    cases pulled
  · have whole : now.writeEnds.isEmpty = true → now.unwritten = [] := unwritten_closed
    have still := Consumer.pull_sated (receiveStream_lawful crc handler) whole sated pulled
    exact Or.inr still

/-- Every step keeps the receiver supplied. -/
theorem Supplied.step {party : Party} (supplied : now.Supplied crc handler)
    (stepped : (system crc handler).step party now = some after) : after.Supplied crc handler := by
  -- The caller has no part in what the receiver is supplied with.
  cases party with
  | sender => exact supplied.senderStep stepped
  | caller =>
    obtain ⟨_, pipe, sender, receiver⟩ := callerStep_frame stepped
    unfold Supplied unwritten at supplied ⊢
    rw [pipe, sender, receiver]
    exact supplied
  | receiver actor => exact supplied.receiverStep stepped

/-- A receiver that is supplied is never stuck. -/
theorem Supplied.not_stuck (supplied : now.Supplied crc handler) : ¬ now.Stuck crc handler := by
  -- Stuck means that the receiver asks for more although nothing is left to come.
  rintro ⟨⟨result, finished⟩, empty, hungry, _⟩
  rcases supplied with returned | sated
  · obtain ⟨result, returned⟩ := Option.isSome_iff_exists.mp returned
    have idle := Receiving.result_idle crc handler .main returned
    cases hungry.symm.trans idle
  · -- Everything has been written and read.
    rw [empty, unwritten, finished, List.append_nil, Receiving.give_nil] at sated
    exact sated.not_hungry .main hungry

/-- A blocking send whose ioctl fails returns without waiting for the receiver. -/
structure Fails (now : Sending σ) : Prop where
  call : now.call = .blocking
  sender : ∃ error, (∃ rest, now.sender = .sending rest (.error error)) ∨
    now.sender = .finished (.error error)
  caller : now.caller ≠ .joinReceiver

/-- The ioctl keeps its failure, whatever its error is. -/
theorem Fails.senderStep (fails : now.Fails) (stepped : now.senderStep = some after) :
    after.Fails := by
  -- Its own error becomes that of a broken pipe, or what the wrapper makes of it.
  obtain ⟨call, ⟨error, ⟨rest, stands⟩ | stands⟩, caller⟩ := fails
  · simp only [Sending.senderStep, stands] at stepped
    split at stepped
    · rename_i same
      cases same
      split at stepped
      · cases stepped
        exact ⟨call, ⟨_, Or.inr rfl⟩, caller⟩
      · split at stepped
        · cases stepped
          exact ⟨call, ⟨_, Or.inl ⟨_, rfl⟩⟩, caller⟩
        · cases stepped
    · rename_i same
      cases same
      obtain ⟨other, failed⟩ := btrfsIoctl_error (α := Unit) error
      cases stepped
      exact ⟨call, ⟨other, Or.inr (by rw [failed])⟩, caller⟩
    · rename_i same
      cases same
  · simp only [Sending.senderStep, stands] at stepped
    cases stepped

/-- The caller of a blocking send whose ioctl fails returns as soon as that has ended. -/
theorem Fails.callerStep (fails : now.Fails) (stepped : now.callerStep = some after) :
    after.Fails := by
  obtain ⟨call, ⟨error, sender⟩, caller⟩ := fails
  obtain ⟨same_call, _, same_sender, _⟩ := callerStep_frame stepped
  refine ⟨same_call.trans call, ⟨error, by rw [same_sender]; exact sender⟩, ?_⟩
  -- It would join the receiver only behind an ioctl that has succeeded.
  cases stands : now.caller with
  | busy =>
    rcases sender with ⟨rest, sending⟩ | finished
    · simp only [Sending.callerStep, call, stands, sending] at stepped
      cases stepped
    · simp only [Sending.callerStep, call, stands, finished] at stepped
      cases stepped
      exact nofun
  | joinReceiver => exact absurd stands caller
  | joinSender | returned result =>
    simp only [Sending.callerStep, call, stands] at stepped
    cases stepped

/-- Every step keeps the failure of the ioctl. -/
theorem Fails.step {party : Party} (fails : now.Fails)
    (stepped : (system crc handler).step party now = some after) : after.Fails := by
  cases party with
  | sender => exact fails.senderStep stepped
  | caller => exact fails.callerStep stepped
  | receiver actor =>
    -- The receiver has no part in it.
    obtain ⟨same_call, same_sender, same_caller⟩ := receiverStep_frame stepped
    obtain ⟨call, ⟨error, sender⟩, caller⟩ := fails
    refine ⟨same_call.trans call, ⟨error, ?_⟩, ?_⟩
    · rw [same_sender]
      exact sender
    · rw [same_caller]
      exact caller

/-- A blocking send whose ioctl fails is never stuck. -/
theorem Fails.not_stuck (fails : now.Fails) : ¬ now.Stuck crc handler := by
  rintro ⟨⟨result, finished⟩, _, _, opened, held⟩
  obtain ⟨call, _, caller⟩ := fails
  -- The only write end that can be left is that of the function itself.
  simp only [writeEnds, finished, call, List.nil_append] at opened held
  split at held
  · rename_i returned
    rw [returned] at opened
    exact opened rfl
  · rcases held .caller (List.mem_singleton.mpr rfl) with other | ⟨_, waits⟩
    · cases other
    · exact caller waits

end Sending

/-- A send of which the receiver can come to its end, whichever of the two functions it is. -/
def SendBuilder.Ends {σ : Type} (crc : Bytes → UInt32) (handler : HandleCmd σ)
    (builder : SendBuilder) (kernel : SendKernel) (call : SendCall) (state : σ) : Prop :=
  (call = .blocking ∧ ∃ error, (kernel.send builder.args).2 = .error error) ∨
    Suffices crc handler builder.buffered (kernel.send builder.args).1 state

/-- A pipe that is made has the size that it was given. -/
theorem SendBuilder.openPipe_size {builder : SendBuilder} {kernel : SendKernel} {room : Nat}
    (opened : builder.openPipe kernel = .ok room) : kernel.setPipeSz builder.pipeSz = .ok room := by
  unfold openPipe at opened
  -- Without a pipe there is no size.
  cases made : kernel.pipe with
  | error error =>
    rw [made] at opened
    cases opened
  | ok done =>
    rw [made] at opened
    exact opened

/-- A send that has begun has its pipe, and everything is yet to be written. -/
theorem SendBuilder.begins_sending {σ : Type} {builder : SendBuilder} {kernel : SendKernel}
    {call : SendCall} {state : σ} {first : Sending σ}
    (begun : builder.begins kernel call state = .ok first) :
    ∃ room, kernel.setPipeSz builder.pipeSz = .ok room ∧
      first = builder.sending kernel call room state := by
  -- Every system call on the way has to succeed for a send to begin.
  cases call with
  | spawn =>
    unfold begins spawnSend at begun
    cases opened : builder.openPipe kernel with
    | error error =>
      rw [opened] at begun
      cases begun
    | ok room =>
      rw [opened] at begun
      cases supported : kernel.isBtrfs with
      | error error =>
        rw [supported] at begun
        cases begun
      | ok btrfs =>
        rw [supported] at begun
        cases btrfs with
        | false => cases begun
        | true =>
          cases begun
          exact ⟨room, openPipe_size opened, rfl⟩
  | blocking =>
    unfold begins blockingSend at begun
    cases opened : builder.openPipe kernel with
    | error error =>
      rw [opened] at begun
      cases begun
    | ok room =>
      rw [opened] at begun
      cases begun
      exact ⟨room, openPipe_size opened, rfl⟩

/--
No schedule brings a send to a state in which it is stuck, as long as what the ioctl writes is
enough for the receiver, or `blocking_send` is told by the ioctl that it has failed.
-/
theorem send_unstuck {σ : Type} (crc : Bytes → UInt32) (handler : HandleCmd σ)
    (builder : SendBuilder) (kernel : SendKernel) (call : SendCall) (state : σ) (first : Sending σ)
    (begun : builder.begins kernel call state = .ok first)
    (ends : builder.Ends crc handler kernel call state) (schedule : List Party) :
    ¬ ((Sending.system crc handler).run schedule first).Stuck crc handler := by
  obtain ⟨room, _, rfl⟩ := SendBuilder.begins_sending begun
  rcases ends with ⟨blocking, error, failed⟩ | enough
  · -- The caller never waits, so it lets go of its write end.
    have fails : (builder.sending kernel call room state).Fails :=
      ⟨blocking, ⟨error, Or.inl ⟨_, by rw [← failed]; rfl⟩⟩, nofun⟩
    exact ((Sending.system crc handler).run_invariant
      (fun _ _ _ fails stepped => fails.step stepped) schedule fails).not_stuck
  · have supplied : (builder.sending kernel call room state).Supplied crc handler :=
      Or.inr (suffices_sated enough)
    exact ((Sending.system crc handler).run_invariant
      (fun _ _ _ supplied stepped => supplied.step stepped) schedule supplied).not_stuck

/-- System calls that succeed, around the given send ioctl. -/
def openKernel (written : Bytes) (result : Except IoError Unit) : SendKernel where
  pipe := .ok ()
  setPipeSz size := .ok size
  isBtrfs := .ok true
  send _ := (written, result)

/-- A whole stream of the last command alone is enough for a buffered receive. -/
theorem send_unstuck_endFrame :
    ∃ first, SendBuilder.begins ⟨true, 2, 0⟩
        (openKernel (Buffered.plainStream [Buffered.endFrame]) (.ok ())) .spawn () = .ok first ∧
      ¬ ((Sending.system (fun _ => 0) Buffered.eagerHandler).run
        [.sender, .caller, .receiver .main] first).Stuck (fun _ => 0) Buffered.eagerHandler := by
  -- The header and the frame of the last command are all that is written.
  refine ⟨_, rfl, send_unstuck (fun _ => 0) Buffered.eagerHandler ⟨true, 2, 0⟩
    (openKernel (Buffered.plainStream [Buffered.endFrame]) (.ok ())) .spawn () _ rfl (Or.inr ?_) _⟩
  have header : takeHeader (Buffered.plainStream [Buffered.endFrame]) = _ :=
    takeHeader_bytes (by decide) _
  have frame := takeFrame_bytes (fun _ => 0) (show Buffered.endFrame.Fits by decide) []
  simp only [Suffices, openKernel, header, List.flatMap_cons, List.flatMap_nil, if_true]
  rw [frames_ok frame]
  exact Or.inr (Or.inl rfl)

/-- A receive waits for more as long as its header has not arrived. -/
theorem Receiving.opening_hungry {σ : Type} {crc : Bytes → UInt32} {handler : HandleCmd σ}
    {ahead : Bool} {stream after : SendStream} {state : σ}
    (refused : readHeader stream = .error eof after) :
    (receiveStream crc handler).step .main (.opening ahead stream state) = .hungry := by
  -- What is refused for the lack of more is asked for.
  simp only [receiveStream, Receiving.step, Receiving.opens, refused, if_true]

/-- A receive of which nothing has arrived waits for more. -/
theorem Receiving.start_hungry {σ : Type} (crc : Bytes → UInt32) (handler : HandleCmd σ)
    (buffered : Bool) (state : σ) :
    (receiveStream crc handler).step .main (.start buffered state) = .hungry := by
  -- Without a single byte the header cannot be read.
  have header := readHeader_takeHeader [] none
  have short : takeHeader [] = .error eof := rfl
  rw [short] at header
  obtain ⟨after, refused⟩ := header
  exact opening_hungry refused

/--
A spawned send gets stuck when the ioctl refuses to send at all, and a blocking one when there is
nothing to send and neither the header of the stream nor its last command are.
-/
theorem send_sticks_silent :
    (∃ first, (SendBuilder.new 1).begins (openKernel [] (.error (.os 1))) .spawn () = .ok first ∧
      ((Sending.system (fun _ => 0) Buffered.eagerHandler).run [.sender, .caller] first).Stuck
        (fun _ => 0) Buffered.eagerHandler) ∧
    ∃ first, (((SendBuilder.new 1).omitEndCmd true).omitStreamHeader true).begins
        (openKernel [] (.ok ())) .blocking () = .ok first ∧
      ((Sending.system (fun _ => 0) Buffered.eagerHandler).run [.sender, .caller] first).Stuck
        (fun _ => 0) Buffered.eagerHandler := by
  -- Two steps are enough: the ioctl finishes, and the caller joins the receiver.
  refine ⟨⟨_, rfl, ⟨_, rfl⟩, rfl, ?_, nofun, ?_⟩, ⟨_, rfl, ⟨_, rfl⟩, rfl, ?_, nofun, ?_⟩⟩
  · exact Receiving.start_hungry _ _ _ _
  · intro holder member
    exact Or.inl (List.mem_singleton.mp member)
  · exact Receiving.start_hungry _ _ _ _
  · intro holder member
    exact Or.inr ⟨List.mem_singleton.mp member, rfl⟩

end Libbtrfs
