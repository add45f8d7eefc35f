import Libbtrfs.SendStream.Command

/-! The handler trait of a send stream, and the method that every command goes through. -/

namespace Libbtrfs

/-- The provided or overridden `handle_cmd` of a handler with the given state. -/
abbrev HandleCmd (σ : Type) := UInt16 → Bytes → UInt32 → σ → Outcome (Option Unit) × σ

/-- One call of a handler: the command, its payload and the version of the stream. -/
structure Call where
  command : UInt16
  payload : Bytes
  version : UInt32
  deriving DecidableEq

/-- A handler that also writes down the calls that reach it. -/
def HandleCmd.recording {σ : Type} (handler : HandleCmd σ) : HandleCmd (σ × List Call) :=
  fun command payload version (state, calls) =>
    let (answer, state) := handler command payload version state
    (answer, (state, calls ++ [⟨command, payload, version⟩]))

/--
The required methods of the `StreamHandler` trait, one for each kind of command.

A method answers with a result of its own and never panics.
-/
structure StreamHandler (σ : Type) where
  method : SendCommand → σ → Except IoError (Option Unit) × σ

/-- The part of `handle_cmd` in front of the method call: the dispatch on the key and the parser. -/
def parseStage (cmd : UInt16) (data : Bytes) (version : UInt32) : Outcome SendCommand :=
  match cmd with
  | 1 => .subvol <$> SendCmd.parseTlv data
  | 2 => .snapshot <$> SendCmd.parseTlv data
  | 3 => .mkfile <$> SendCmd.parseTlv data
  | 4 => .mkdir <$> SendCmd.parseTlv data
  | 5 => .mknod <$> SendCmd.parseTlv data
  | 6 => .mkfifo <$> SendCmd.parseTlv data
  | 7 => .mksock <$> SendCmd.parseTlv data
  | 8 => .symlink <$> SendCmd.parseTlv data
  | 9 => .rename <$> SendCmd.parseTlv data
  | 10 => .link <$> SendCmd.parseTlv data
  | 11 => .unlink <$> SendCmd.parseTlv data
  | 12 => .rmdir <$> SendCmd.parseTlv data
  | 13 => .setXattr <$> SendCmd.parseTlv data
  | 14 => .removeXattr <$> SendCmd.parseTlv data
  | 15 => .write <$> if version = 2 then WriteCmd.parseTlvV2 data else SendCmd.parseTlv data
  | 16 => .clone <$> SendCmd.parseTlv data
  | 17 => .truncate <$> SendCmd.parseTlv data
  | 18 => .chmod <$> SendCmd.parseTlv data
  | 19 => .chown <$> SendCmd.parseTlv data
  | 20 => .utimes <$> SendCmd.parseTlv data
  | 21 => .endCmd <$> SendCmd.parseTlv data
  | 22 => .updateExtent <$> SendCmd.parseTlv data
  -- Version 2
  | 23 => .fallocate <$> SendCmd.parseTlv data
  | 24 => .fileattr <$> SendCmd.parseTlv data
  | 25 => .encodedWrite <$>
    if version = 2 then EncodedWriteCmd.parseTlvV2 data else SendCmd.parseTlv data
  | _ => .error (receiveError "UNEXPECTED COMMAND")

namespace StreamHandler

variable {σ : Type}

/-- `StreamHandler::handle_cmd` as the trait provides it. -/
def handleCmd (handler : StreamHandler σ) : HandleCmd σ := fun cmd data version state =>
  match parseStage cmd data version with
  | .error failure => (.error failure, state)
  | .ok command =>
    let (answer, state) := handler.method command state
    (answer.mapError .io, state)

/-- A handler that also writes down the method calls that reach it. -/
def recording (handler : StreamHandler σ) : StreamHandler (σ × List SendCommand) where
  method command := fun (state, calls) =>
    let (answer, state) := handler.method command state
    (answer, (state, calls ++ [command]))

end StreamHandler

end Libbtrfs
