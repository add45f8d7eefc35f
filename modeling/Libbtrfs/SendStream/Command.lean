import Libbtrfs.SendStream.SchemaLaws

/-! The commands of a send stream, each with its number and the attributes it is parsed from. -/

namespace Libbtrfs

/-- Implemented by all send commands. -/
class SendCmd (α : Type) where
  key : UInt16
  parseTlv : Bytes → Outcome α

/--
What the `SEND_CMD!` macro is given for a command with attributes, and the struct it makes.

The attribute numbers of one command are distinct, and its struct holds exactly its attributes.
-/
class MacroCmd (α : Type) where
  key : UInt16
  schema : Schema
  ofValues : schema.Values → α
  values : α → schema.Values
  ofValues_values : ∀ cmd, ofValues (values cmd) = cmd
  distinct : schema.codes.Nodup

instance {α : Type} [MacroCmd α] : SendCmd α where
  key := MacroCmd.key α
  parseTlv payload := MacroCmd.ofValues <$> (MacroCmd.schema α).parseTlv payload

/-- The command behind `StreamHandler::subvol`. -/
structure SubvolCmd where
  path : Bytes
  ctransid : UInt64
  uuid : Uuid

instance : MacroCmd SubvolCmd where
  key := 1
  schema := [⟨.path, .string⟩, ⟨.ctransid, .u64⟩, ⟨.uuid, .uuid⟩]
  ofValues := fun (path, ctransid, uuid, ()) => { path, ctransid, uuid }
  values := fun cmd => (cmd.path, cmd.ctransid, cmd.uuid, ())
  ofValues_values _ := rfl
  distinct := by decide

/-- The command behind `StreamHandler::snapshot`. -/
structure SnapshotCmd where
  path : Bytes
  uuid : Uuid
  ctransid : UInt64
  cloneUuid : Uuid
  cloneCtransid : UInt64

instance : MacroCmd SnapshotCmd where
  key := 2
  schema := [⟨.path, .string⟩, ⟨.uuid, .uuid⟩, ⟨.ctransid, .u64⟩, ⟨.cloneUuid, .uuid⟩,
    ⟨.cloneCtransid, .u64⟩]
  ofValues := fun (path, uuid, ctransid, cloneUuid, cloneCtransid, ()) =>
    { path, uuid, ctransid, cloneUuid, cloneCtransid }
  values := fun cmd => (cmd.path, cmd.uuid, cmd.ctransid, cmd.cloneUuid, cmd.cloneCtransid, ())
  ofValues_values _ := rfl
  distinct := by decide

/-- The command behind `StreamHandler::mkfile`. -/
structure MkfileCmd where
  path : Bytes
  ino : UInt64

instance : MacroCmd MkfileCmd where
  key := 3
  schema := [⟨.path, .string⟩, ⟨.ino, .u64⟩]
  ofValues := fun (path, ino, ()) => { path, ino }
  values := fun cmd => (cmd.path, cmd.ino, ())
  ofValues_values _ := rfl
  distinct := by decide

/-- The command behind `StreamHandler::mkdir`. -/
structure MkdirCmd where
  path : Bytes
  ino : UInt64

instance : MacroCmd MkdirCmd where
  key := 4
  schema := [⟨.path, .string⟩, ⟨.ino, .u64⟩]
  ofValues := fun (path, ino, ()) => { path, ino }
  values := fun cmd => (cmd.path, cmd.ino, ())
  ofValues_values _ := rfl
  distinct := by decide

/-- The command behind `StreamHandler::mknod`. -/
structure MknodCmd where
  path : Bytes
  mode : UInt64
  rdev : UInt64

instance : MacroCmd MknodCmd where
  key := 5
  schema := [⟨.path, .string⟩, ⟨.mode, .u64⟩, ⟨.rdev, .u64⟩]
  ofValues := fun (path, mode, rdev, ()) => { path, mode, rdev }
  values := fun cmd => (cmd.path, cmd.mode, cmd.rdev, ())
  ofValues_values _ := rfl
  distinct := by decide

/-- The command behind `StreamHandler::mkfifo`. -/
structure MkfifoCmd where
  path : Bytes
  ino : UInt64

instance : MacroCmd MkfifoCmd where
  key := 6
  schema := [⟨.path, .string⟩, ⟨.ino, .u64⟩]
  ofValues := fun (path, ino, ()) => { path, ino }
  values := fun cmd => (cmd.path, cmd.ino, ())
  ofValues_values _ := rfl
  distinct := by decide

/-- The command behind `StreamHandler::mksock`. -/
structure MksockCmd where
  path : Bytes
  ino : UInt64

instance : MacroCmd MksockCmd where
  key := 7
  schema := [⟨.path, .string⟩, ⟨.ino, .u64⟩]
  ofValues := fun (path, ino, ()) => { path, ino }
  values := fun cmd => (cmd.path, cmd.ino, ())
  ofValues_values _ := rfl
  distinct := by decide

/-- The command behind `StreamHandler::symlink`. -/
structure SymlinkCmd where
  path : Bytes
  ino : UInt64
  pathLink : Bytes

instance : MacroCmd SymlinkCmd where
  key := 8
  schema := [⟨.path, .string⟩, ⟨.ino, .u64⟩, ⟨.pathLink, .string⟩]
  ofValues := fun (path, ino, pathLink, ()) => { path, ino, pathLink }
  values := fun cmd => (cmd.path, cmd.ino, cmd.pathLink, ())
  ofValues_values _ := rfl
  distinct := by decide

/-- The command behind `StreamHandler::rename`. -/
structure RenameCmd where
  path : Bytes
  pathTo : Bytes

instance : MacroCmd RenameCmd where
  key := 9
  schema := [⟨.path, .string⟩, ⟨.pathTo, .string⟩]
  ofValues := fun (path, pathTo, ()) => { path, pathTo }
  values := fun cmd => (cmd.path, cmd.pathTo, ())
  ofValues_values _ := rfl
  distinct := by decide

/-- The command behind `StreamHandler::link`. -/
structure LinkCmd where
  path : Bytes
  pathLink : Bytes

instance : MacroCmd LinkCmd where
  key := 10
  schema := [⟨.path, .string⟩, ⟨.pathLink, .string⟩]
  ofValues := fun (path, pathLink, ()) => { path, pathLink }
  values := fun cmd => (cmd.path, cmd.pathLink, ())
  ofValues_values _ := rfl
  distinct := by decide

/-- The command behind `StreamHandler::unlink`. -/
structure UnlinkCmd where
  path : Bytes

instance : MacroCmd UnlinkCmd where
  key := 11
  schema := [⟨.path, .string⟩]
  ofValues := fun (path, ()) => { path }
  values := fun cmd => (cmd.path, ())
  ofValues_values _ := rfl
  distinct := by decide

/-- The command behind `StreamHandler::rmdir`. -/
structure RmdirCmd where
  path : Bytes

instance : MacroCmd RmdirCmd where
  key := 12
  schema := [⟨.path, .string⟩]
  ofValues := fun (path, ()) => { path }
  values := fun cmd => (cmd.path, ())
  ofValues_values _ := rfl
  distinct := by decide

/-- The command behind `StreamHandler::set_xattr`. -/
structure SetXattrCmd where
  path : Bytes
  xattrName : Bytes
  xattrData : Bytes

instance : MacroCmd SetXattrCmd where
  key := 13
  schema := [⟨.path, .string⟩, ⟨.xattrName, .string⟩, ⟨.xattrData, .data⟩]
  ofValues := fun (path, xattrName, xattrData, ()) => { path, xattrName, xattrData }
  values := fun cmd => (cmd.path, cmd.xattrName, cmd.xattrData, ())
  ofValues_values _ := rfl
  distinct := by decide

/-- The command behind `StreamHandler::remove_xattr`. -/
structure RemoveXattrCmd where
  path : Bytes
  xattrName : Bytes

instance : MacroCmd RemoveXattrCmd where
  key := 14
  schema := [⟨.path, .string⟩, ⟨.xattrName, .string⟩]
  ofValues := fun (path, xattrName, ()) => { path, xattrName }
  values := fun cmd => (cmd.path, cmd.xattrName, ())
  ofValues_values _ := rfl
  distinct := by decide

/-- The command behind `StreamHandler::write`. -/
structure WriteCmd where
  path : Bytes
  fileOffset : UInt64
  data : Bytes

instance : MacroCmd WriteCmd where
  key := 15
  schema := [⟨.path, .string⟩, ⟨.fileOffset, .u64⟩, ⟨.data, .data⟩]
  ofValues := fun (path, fileOffset, data, ()) => { path, fileOffset, data }
  values := fun cmd => (cmd.path, cmd.fileOffset, cmd.data, ())
  ofValues_values _ := rfl
  distinct := by decide

/-- The command behind `StreamHandler::clone`. -/
structure CloneCmd where
  path : Bytes
  fileOffset : UInt64
  cloneLen : UInt64
  cloneUuid : Uuid
  cloneCtransid : UInt64
  clonePath : Bytes
  cloneOffset : UInt64

instance : MacroCmd CloneCmd where
  key := 16
  schema := [⟨.path, .string⟩, ⟨.fileOffset, .u64⟩, ⟨.cloneLen, .u64⟩, ⟨.cloneUuid, .uuid⟩,
    ⟨.cloneCtransid, .u64⟩, ⟨.clonePath, .string⟩, ⟨.cloneOffset, .u64⟩]
  ofValues := fun (path, fileOffset, cloneLen, cloneUuid, cloneCtransid, clonePath, cloneOffset,
      ()) =>
    { path, fileOffset, cloneLen, cloneUuid, cloneCtransid, clonePath, cloneOffset }
  values := fun cmd => (cmd.path, cmd.fileOffset, cmd.cloneLen, cmd.cloneUuid, cmd.cloneCtransid,
    cmd.clonePath, cmd.cloneOffset, ())
  ofValues_values _ := rfl
  distinct := by decide

/-- The command behind `StreamHandler::truncate`. -/
structure TruncateCmd where
  path : Bytes
  size : UInt64

instance : MacroCmd TruncateCmd where
  key := 17
  schema := [⟨.path, .string⟩, ⟨.size, .u64⟩]
  ofValues := fun (path, size, ()) => { path, size }
  values := fun cmd => (cmd.path, cmd.size, ())
  ofValues_values _ := rfl
  distinct := by decide

/-- The command behind `StreamHandler::chmod`. -/
structure ChmodCmd where
  path : Bytes
  mode : UInt64

instance : MacroCmd ChmodCmd where
  key := 18
  schema := [⟨.path, .string⟩, ⟨.mode, .u64⟩]
  ofValues := fun (path, mode, ()) => { path, mode }
  values := fun cmd => (cmd.path, cmd.mode, ())
  ofValues_values _ := rfl
  distinct := by decide

/-- The command behind `StreamHandler::chown`. -/
structure ChownCmd where
  path : Bytes
  uid : UInt64
  gid : UInt64

instance : MacroCmd ChownCmd where
  key := 19
  schema := [⟨.path, .string⟩, ⟨.uid, .u64⟩, ⟨.gid, .u64⟩]
  ofValues := fun (path, uid, gid, ()) => { path, uid, gid }
  values := fun cmd => (cmd.path, cmd.uid, cmd.gid, ())
  ofValues_values _ := rfl
  distinct := by decide

/-- The command behind `StreamHandler::utimes`. -/
structure UtimesCmd where
  path : Bytes
  atime : Timespec
  mtime : Timespec
  ctime : Timespec

instance : MacroCmd UtimesCmd where
  key := 20
  schema := [⟨.path, .string⟩, ⟨.atime, .timespec⟩, ⟨.mtime, .timespec⟩, ⟨.ctime, .timespec⟩]
  ofValues := fun (path, atime, mtime, ctime, ()) => { path, atime, mtime, ctime }
  values := fun cmd => (cmd.path, cmd.atime, cmd.mtime, cmd.ctime, ())
  ofValues_values _ := rfl
  distinct := by decide

/-- The command behind `StreamHandler::end`, which has no attributes. -/
structure EndCmd where

instance : SendCmd EndCmd where
  key := 21
  -- Without attributes the macro does not look at the payload at all.
  parseTlv _ := .ok {}

/-- The command behind `StreamHandler::update_extent`. -/
structure UpdateExtentCmd where
  path : Bytes
  fileOffset : UInt64
  size : UInt64

instance : MacroCmd UpdateExtentCmd where
  key := 22
  schema := [⟨.path, .string⟩, ⟨.fileOffset, .u64⟩, ⟨.size, .u64⟩]
  ofValues := fun (path, fileOffset, size, ()) => { path, fileOffset, size }
  values := fun cmd => (cmd.path, cmd.fileOffset, cmd.size, ())
  ofValues_values _ := rfl
  distinct := by decide

/-- The command behind `StreamHandler::fallocate`. -/
structure FallocateCmd where
  path : Bytes
  fallocateMode : UInt32
  fileOffset : UInt64
  size : UInt64

instance : MacroCmd FallocateCmd where
  key := 23
  schema := [⟨.path, .string⟩, ⟨.fallocateMode, .u32⟩, ⟨.fileOffset, .u64⟩, ⟨.size, .u64⟩]
  ofValues := fun (path, fallocateMode, fileOffset, size, ()) =>
    { path, fallocateMode, fileOffset, size }
  values := fun cmd => (cmd.path, cmd.fallocateMode, cmd.fileOffset, cmd.size, ())
  ofValues_values _ := rfl
  distinct := by decide

/-- The command behind `StreamHandler::fileattr`. -/
structure FileattrCmd where
  path : Bytes
  fileattr : UInt64

instance : MacroCmd FileattrCmd where
  key := 24
  schema := [⟨.path, .string⟩, ⟨.fileattr, .u64⟩]
  ofValues := fun (path, fileattr, ()) => { path, fileattr }
  values := fun cmd => (cmd.path, cmd.fileattr, ())
  ofValues_values _ := rfl
  distinct := by decide

/-- The attributes that `WriteCmd::parse_tlv_v2` looks for in front of the data. -/
def WriteCmd.dataSchema : Schema := [⟨.path, .string⟩, ⟨.fileOffset, .u64⟩]

/-- `WriteCmd::parse_tlv_v2`. -/
def WriteCmd.parseTlvV2 (payload : Bytes) : Outcome WriteCmd := do
  match ← dataLoop dataSchema payload 0 2 dataSchema.empty with
  | ((some path, some fileOffset, ()), some data) => .ok { path, fileOffset, data }
  | _ => .error (receiveError "tlv missing attributes")

/-- The command behind `StreamHandler::encoded_write`. -/
structure EncodedWriteCmd where
  path : Bytes
  fileOffset : UInt64
  unencodedFileLen : UInt64
  unencodedLen : UInt64
  unencodedOffset : UInt64
  compression : Option UInt32
  encryption : Option UInt32
  data : Bytes

instance : SendCmd EncodedWriteCmd where
  key := 25
  parseTlv _ :=
    .error (.panic "internal error: entered unreachable code: version 2 only data command")

/-- The attributes that `EncodedWriteCmd::parse_tlv_v2` looks for in front of the data. -/
def EncodedWriteCmd.dataSchema : Schema :=
  [⟨.path, .string⟩, ⟨.fileOffset, .u64⟩, ⟨.unencodedFileLen, .u64⟩, ⟨.unencodedLen, .u64⟩,
    ⟨.unencodedOffset, .u64⟩, ⟨.compression, .u32⟩, ⟨.encryption, .u32⟩]

/-- `EncodedWriteCmd::parse_tlv_v2`. -/
def EncodedWriteCmd.parseTlvV2 (payload : Bytes) : Outcome EncodedWriteCmd := do
  match ← dataLoop dataSchema payload 0 2 dataSchema.empty with
  | ((some path, some fileOffset, some unencodedFileLen, some unencodedLen,
      some unencodedOffset, compression, encryption, ()), some data) =>
    .ok { path, fileOffset, unencodedFileLen, unencodedLen, unencodedOffset, compression,
          encryption, data }
  | _ => .error (receiveError "tlv missing attributes")

/-- A typed command of a stream, tagged by the handler method that takes it. -/
inductive SendCommand where
  | subvol (cmd : SubvolCmd)
  | snapshot (cmd : SnapshotCmd)
  | mkfile (cmd : MkfileCmd)
  | mkdir (cmd : MkdirCmd)
  | mknod (cmd : MknodCmd)
  | mkfifo (cmd : MkfifoCmd)
  | mksock (cmd : MksockCmd)
  | symlink (cmd : SymlinkCmd)
  | rename (cmd : RenameCmd)
  | link (cmd : LinkCmd)
  | unlink (cmd : UnlinkCmd)
  | rmdir (cmd : RmdirCmd)
  | setXattr (cmd : SetXattrCmd)
  | removeXattr (cmd : RemoveXattrCmd)
  | write (cmd : WriteCmd)
  | clone (cmd : CloneCmd)
  | truncate (cmd : TruncateCmd)
  | chmod (cmd : ChmodCmd)
  | chown (cmd : ChownCmd)
  | utimes (cmd : UtimesCmd)
  | endCmd (cmd : EndCmd)
  | updateExtent (cmd : UpdateExtentCmd)
  | fallocate (cmd : FallocateCmd)
  | fileattr (cmd : FileattrCmd)
  | encodedWrite (cmd : EncodedWriteCmd)

/-- The number by which a frame announces the command. -/
def SendCommand.key : SendCommand → UInt16
  | .subvol _ => SendCmd.key SubvolCmd
  | .snapshot _ => SendCmd.key SnapshotCmd
  | .mkfile _ => SendCmd.key MkfileCmd
  | .mkdir _ => SendCmd.key MkdirCmd
  | .mknod _ => SendCmd.key MknodCmd
  | .mkfifo _ => SendCmd.key MkfifoCmd
  | .mksock _ => SendCmd.key MksockCmd
  | .symlink _ => SendCmd.key SymlinkCmd
  | .rename _ => SendCmd.key RenameCmd
  | .link _ => SendCmd.key LinkCmd
  | .unlink _ => SendCmd.key UnlinkCmd
  | .rmdir _ => SendCmd.key RmdirCmd
  | .setXattr _ => SendCmd.key SetXattrCmd
  | .removeXattr _ => SendCmd.key RemoveXattrCmd
  | .write _ => SendCmd.key WriteCmd
  | .clone _ => SendCmd.key CloneCmd
  | .truncate _ => SendCmd.key TruncateCmd
  | .chmod _ => SendCmd.key ChmodCmd
  | .chown _ => SendCmd.key ChownCmd
  | .utimes _ => SendCmd.key UtimesCmd
  | .endCmd _ => SendCmd.key EndCmd
  | .updateExtent _ => SendCmd.key UpdateExtentCmd
  | .fallocate _ => SendCmd.key FallocateCmd
  | .fileattr _ => SendCmd.key FileattrCmd
  | .encodedWrite _ => SendCmd.key EncodedWriteCmd

end Libbtrfs
