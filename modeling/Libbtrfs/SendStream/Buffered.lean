import Libbtrfs.Core.Interleaving
import Libbtrfs.Core.Ring
import Libbtrfs.SendStream.Decoder

/-! The buffered receiver: a reader and a handler thread that pass buffers over two rings. -/

namespace Libbtrfs

/-- `buf_count_args.clamp(2, 4)`: the number of buffers, and the capacity of both rings. -/
def clampBufs (bufCountArgs : Nat) : Nat := max 2 (min bufCountArgs 4)

/-- `MAIN_MAX_SPINS`. -/
def mainMaxSpins : Nat := 40000

/-- `THREAD_MAX_SPINS`. -/
def threadMaxSpins : Nat := 40000

/-- What the reader sends to the handler thread: a command, and the buffer that holds its payload. -/
structure Packet where
  command : UInt16
  payload : Span
  buf : Bytes

/-- What the handler thread sends back: the buffer, or the error that ended it. -/
abbrev Reply := Except IoError Bytes

/-- Where the reader stands. The counters are those of its spin loop. -/
inductive MainPc where
  | read
  | push
  | pop (spins : Nat)
  | test (spins : Nat)
  | leave (result : Outcome Unit)
  | done (result : Outcome Unit)

/-- Where the handler thread stands, which ends with or without a panic. -/
inductive ThreadPc where
  | pop (spins : Nat)
  | test (spins : Nat)
  | call (packet : Packet)
  | push (reply : Reply)
  | leave (panicked : Bool)
  | done (panicked : Bool)

/-- The two processes. -/
inductive Actor where
  | main | thread
  deriving DecidableEq

/-- Both processes with their local variables, the two rings between them, and the calls made. -/
structure Buffered (σ : Type) (nbuf : Nat) where
  stream : SendStream
  main : MainPc
  version : UInt32
  handler : σ
  thread : ThreadPc
  data : Ring Packet nbuf
  free : Ring Reply nbuf
  calls : List (Call × Outcome (Option Unit))

namespace Buffered

variable {σ : Type} {nbuf : Nat}

/-- One step of the reader. -/
def mainStep (crc : Bytes → UInt32) (now : Buffered σ nbuf) : Option (Buffered σ nbuf) :=
  match now.main with
  | .read =>
    -- `while self.command != EndCmd::KEY`, and the store of the position behind the loop.
    if now.stream.command = SendCmd.key EndCmd then
      some { now with stream := now.stream.storePos, main := .leave (.ok ()) }
    else
      match readCmd crc now.stream with
      | .error failure stream => some { now with stream := stream, main := .leave (.error failure) }
      | .ok () stream => some { now with stream := stream, main := .push }
  | .push =>
    let packet := ⟨now.stream.command, now.stream.data, now.stream.buf⟩
    let stream := { now.stream with buf := [] }
    match now.data.push packet with
    | some data => some { now with stream := stream, data := data, main := .pop 0 }
    | none =>
      some { now with stream := stream, main := .leave (.error (.panic "Handler panicked: Full(_)")) }
  | .pop spins =>
    match now.free.pop with
    | some (.ok buf, free) =>
      some { now with stream := { now.stream with buf := buf }, free := free, main := .read }
    | some (.error error, free) =>
      some { now with free := free, main := .leave (.error (.io error)) }
    | none =>
      if spins ≥ mainMaxSpins then some { now with main := .test spins }
      else some { now with main := .pop (spins + 1) }
  | .test spins =>
    if now.free.abandoned then
      some { now with main := .leave (.error (.panic "Handler thread panicked")) }
    else some { now with main := .pop spins }
  -- The closure returns, or unwinds, and its ends of the two rings are dropped.
  | .leave result => some { now with data := now.data.abandon, main := .done result }
  | .done _ => none

/-- One step of the handler thread. -/
def threadStep (handle : HandleCmd σ) (now : Buffered σ nbuf) : Option (Buffered σ nbuf) :=
  match now.thread with
  | .pop spins =>
    match now.data.pop with
    | some (packet, data) => some { now with data := data, thread := .call packet }
    | none =>
      if spins ≥ threadMaxSpins then some { now with thread := .test spins }
      else some { now with thread := .pop (spins + 1) }
  | .test spins =>
    -- The reader is gone, which is taken to mean that it got the last command.
    if now.data.abandoned then some { now with thread := .leave false }
    else some { now with thread := .pop spins }
  | .call packet =>
    match getRange packet.buf packet.payload.start packet.payload.stop with
    | none => some { now with thread := .leave true }
    | some payload =>
      let answered := handle packet.command payload now.version now.handler
      let calls := now.calls ++ [(⟨packet.command, payload, now.version⟩, answered.1)]
      match answered.1 with
      | .error (.panic _) =>
        some { now with handler := answered.2, calls := calls, thread := .leave true }
      | .error (.io error) =>
        some { now with handler := answered.2, calls := calls, thread := .push (.error error) }
      | .ok _ =>
        some { now with handler := answered.2, calls := calls, thread := .push (.ok packet.buf) }
  | .push reply =>
    match reply, now.free.push reply with
    | .error _, some free => some { now with free := free, thread := .leave false }
    | .error _, none => some { now with thread := .leave false }
    | .ok _, some free => some { now with free := free, thread := .pop 0 }
    | .ok _, none => some { now with thread := .leave false }
  -- The closure ends, and its ends of the two rings are dropped.
  | .leave panicked => some { now with free := now.free.abandon, thread := .done panicked }
  | .done _ => none

/-- The two processes over their shared state. -/
def system (crc : Bytes → UInt32) (handle : HandleCmd σ) : System Actor (Buffered σ nbuf) where
  step
    | .main => mainStep crc
    | .thread => threadStep handle

@[simp] theorem system_main (crc : Bytes → UInt32) (handle : HandleCmd σ) :
    (system crc handle : System Actor (Buffered σ nbuf)).step .main = mainStep crc := rfl

@[simp] theorem system_thread (crc : Bytes → UInt32) (handle : HandleCmd σ) :
    (system crc handle : System Actor (Buffered σ nbuf)).step .thread = threadStep handle := rfl

/-- Further buffers for the ring of free ones, `s_free.push(Ok(self.buf.clone())).unwrap()` each. -/
def prime (buf : Bytes) : Nat → Ring Reply nbuf → Outcome (Ring Reply nbuf)
  | 0, free => .ok free
  | count + 1, free =>
    match free.push (.ok buf) with
    | some free => prime buf count free
    | none => .error (.panic "called `Result::unwrap()` on an `Err` value: Full(_)")

/-- The part of `SendStream::read_and_handle_buffered` in front of the two processes. -/
def start (bufCountArgs : Nat) (stream : SendStream) (state : σ) :
    Outcome (Buffered σ (clampBufs bufCountArgs)) :=
  match readHeader stream with
  | .error failure _ => .error failure
  | .ok () stream =>
    match prime stream.buf (clampBufs bufCountArgs - 1) Ring.empty with
    | .error failure => .error failure
    | .ok free =>
      .ok { stream := stream, main := .read, version := stream.version, handler := state,
            thread := .pop 0, data := Ring.empty, free := free, calls := [] }

/-- What `thread::scope` returns once both processes have ended. -/
def returned (now : Buffered σ nbuf) : Option (Outcome Unit) :=
  match now.main, now.thread with
  | .done (.error (.panic message)), .done _ => some (.error (.panic message))
  | .done _, .done true => some (.error (.panic "a scoped thread panicked"))
  | .done result, .done false => some result
  | _, _ => none

end Buffered

end Libbtrfs
