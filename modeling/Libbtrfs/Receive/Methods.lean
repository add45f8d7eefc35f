import Libbtrfs.Receive.HandleFull

/-! The methods of the handler, each for one command of a send stream. -/

namespace Libbtrfs.Receive.HandleFull

variable {World : Type} (os : Os World)

/-- `subvol::fd::create`. -/
def create (dir : Nat) (name : Bytes) : Method World Unit := do
  match setVolName name with
  | .error error => Program.fail (.io error)
  | .ok () => ioctl os (.subvolCreateV2 dir name)

/-- `HandleFull::subvol`. -/
def subvol (cmd : SubvolCmd) : Method World (Option Unit) := do
  let handler ← current
  if handler.currentSubvol ≠ [] then Program.fail (receiveError "Stream is invalid")
  else
    let subvol := withSeparator cmd.path
    if inside : 0 + subvol.length ≤ pathMax then
      update fun handler =>
        { handler with
          pathBuf := handler.pathBuf.copyAt 0 subvol inside
          pathBufSecondary := handler.pathBufSecondary.copyAt 0 subvol inside
          currentSubvol := subvol }
      let stime ← getBtrfsTimespecFromSystemTime os
      update fun handler =>
        { handler with
          receivedArgs :=
            { handler.receivedArgs with
              stransid := cmd.ctransid, uuid := .ofUuid cmd.uuid, stime := stime } }
      create os (← asRawFd) cmd.path
      pure (some ())
    else
      -- Both buffers are sliced without a check of the length.
      Program.fail (.panic "range end index out of range for slice")

/-- `HandleFull::snapshot`, without what its message prints of the command. -/
def snapshot (_cmd : SnapshotCmd) : Method World (Option Unit) :=
  Program.fail (.panic "not implemented:  - BTRFS_SEND_C_SNAPSHOT (2) - ")

/-- `HandleFull::mkfile`. -/
def mkfile (cmd : MkfileCmd) : Method World (Option Unit) := do
  let flags := oWronly ||| oCreat ||| oTrunc
  let _fd ← sysOpenat os cmd.path flags (some mode)
  pure (some ())

/-- A method that hands its path, below the directory, to one system call. -/
def atPath (path : Bytes) (call : Nat → Pointer → Syscall Pointer) :
    Method World (Option Unit) := do
  let pathname ← getCPath path
  let _answer ← syscall os (call (← asRawFd) pathname)
  pure (some ())

/-- `HandleFull::mkdir`. -/
def mkdir (cmd : MkdirCmd) : Method World (Option Unit) :=
  atPath os cmd.path fun fd pathname => .mkdirat fd pathname sIrwxu

/-- `HandleFull::mknod`. -/
def mknod (cmd : MknodCmd) : Method World (Option Unit) :=
  atPath os cmd.path fun fd pathname => .mknodat fd pathname (cmd.mode.toUInt32 &&& sIfmt) cmd.rdev

/-- `HandleFull::mkfifo`. -/
def mkfifo (cmd : MkfifoCmd) : Method World (Option Unit) :=
  atPath os cmd.path fun fd pathname => .mknodat fd pathname (mode ||| sIfifo) 0

/-- `HandleFull::mksock`. -/
def mksock (cmd : MksockCmd) : Method World (Option Unit) :=
  atPath os cmd.path fun fd pathname => .mknodat fd pathname (mode ||| sIfsock) 0

/-- A method that hands a path and a second operand to one system call. -/
def atPaths (path other : Bytes) (call : Nat → Pointer → Pointer → Syscall Pointer) :
    Method World (Option Unit) := do
  let first ← getCPath path
  let second ← getCPathSecondary other
  let _answer ← syscall os (call (← asRawFd) first second)
  pure (some ())

/-- `HandleFull::symlink`. -/
def symlink (cmd : SymlinkCmd) : Method World (Option Unit) :=
  atPaths os cmd.path cmd.pathLink fun fd linkpath target => .symlinkat target fd linkpath

/-- `HandleFull::rename`. -/
def rename (cmd : RenameCmd) : Method World (Option Unit) :=
  atPaths os cmd.path cmd.pathTo fun fd oldpath newpath => .renameat2 fd oldpath fd newpath 0

/-- `HandleFull::link`, whose first path is the one to be made. -/
def link (cmd : LinkCmd) : Method World (Option Unit) :=
  atPaths os cmd.path cmd.pathLink fun fd oldpath newpath => .linkat fd newpath fd oldpath 0

/-- `HandleFull::unlink`. -/
def unlink (cmd : UnlinkCmd) : Method World (Option Unit) :=
  atPath os cmd.path fun fd pathname => .unlinkat fd pathname 0

/-- `HandleFull::rmdir`. -/
def rmdir (cmd : RmdirCmd) : Method World (Option Unit) :=
  atPath os cmd.path fun fd pathname => .unlinkat fd pathname atRemovedir

/-- The buffer for the name of an attribute, with the zeros behind it. -/
def xattrNameBuf (name : Bytes) : Bytes := name ++ List.replicate (xattrNameMax + 1 - name.length) 0

/--
A method that makes a system call by its number, and another one in its place where there is none.

The one that takes its place is given the path behind that of the directory.
-/
def byNumber (path name : Bytes) (sysno : Nat) (args : Pointer → Pointer → List (RawArg Pointer))
    (fallback : Pointer → Pointer → Syscall Pointer) : Method World (Option Unit) := do
  if name.length > xattrNameMax then Program.fail (receiveError "xattr name too long")
  else
    let pathPtr ← getCPath path
    let namePtr := .temporary (xattrNameBuf name)
    match ← invoke os (.raw sysno (args pathPtr namePtr)) with
    | .ok _ => pure (some ())
    | .error code =>
      if code = enosys then
        update fun handler =>
          { handler with
            xattrFallback := handler.xattrFallback.extend handler.currentSubvol path }
        let _answer ← syscall os (fallback .xattrFallback namePtr)
        pure (some ())
      else Program.fail (.io (.os code))

/-- `HandleFull::set_xattr`. -/
def setXattr (cmd : SetXattrCmd) : Method World (Option Unit) :=
  byNumber os cmd.path cmd.xattrName 463
    (fun pathPtr namePtr =>
      [.pointer pathPtr, .int atSymlinkNofollow, .pointer namePtr,
        .xattrArgs (.temporary cmd.xattrData) (UInt32.ofNat cmd.xattrData.length) 0, .sizeT 16])
    fun path namePtr =>
      .lsetxattr path namePtr (.temporary cmd.xattrData) cmd.xattrData.length 0

/-- `HandleFull::remove_xattr`. -/
def removeXattr (cmd : RemoveXattrCmd) : Method World (Option Unit) :=
  byNumber os cmd.path cmd.xattrName 466
    (fun pathPtr namePtr => [.pointer pathPtr, .int atSymlinkNofollow, .pointer namePtr])
    fun path namePtr => .lremovexattr path namePtr

/-- The loop of `write`, whose position is moved by each answer: at least by one byte. -/
def writeLoop (fd : Nat) (data : Bytes) (fileOffset : UInt64) : Nat → Nat → Method World Unit
  | 0, _ => pure ()
  | fuel + 1, pos =>
    if pos < data.length then do
      let rbytes ← syscall os
        (.pwrite fd (.temporary (data.drop pos)) (data.length - pos) fileOffset.toInt64)
      writeLoop fd data fileOffset fuel (pos + rbytes.val)
    else pure ()

/-- `HandleFull::write`. -/
def write (cmd : WriteCmd) : Method World (Option Unit) := do
  let fd ← sysOpenat os cmd.path oWronly none
  writeLoop os fd cmd.data cmd.fileOffset cmd.data.length 0
  pure (some ())

/-- `HandleFull::clone`, without what its message prints of the command. -/
def clone (cmd : CloneCmd) : Method World (Option Unit) := do
  let destFd ← sysOpenat os cmd.path (oWronly ||| oCreat) (some mode)
  let handler ← current
  if !handler.uuidIsCurrent cmd.cloneUuid then
    Program.fail (.panic "not implemented: \n - CLONE COMMAND WITH INCREMENTAL SEND - \n")
  else
    let cloneFd ← sysOpenatSecondary os cmd.clonePath oRdonly none
    let args : CloneRangeArgs :=
      { srcFd := cloneFd, srcLength := cmd.cloneLen, srcOffset := cmd.cloneOffset,
        destOffset := cmd.fileOffset }
    ioctl os (.cloneRange destFd args)
    pure (some ())

/-- `HandleFull::truncate`. -/
def truncate (cmd : TruncateCmd) : Method World (Option Unit) := do
  if cmd.size = 0 then
    let _fd ← sysOpenat os cmd.path (oTrunc ||| oWronly) none
    pure (some ())
  else
    let fd ← sysOpenat os cmd.path oWronly none
    syscall os (.ftruncate fd cmd.size.toInt64)
    pure (some ())

/-- `HandleFull::chmod`. -/
def chmod (cmd : ChmodCmd) : Method World (Option Unit) :=
  atPath os cmd.path fun fd pathname => .fchmodat fd pathname cmd.mode.toUInt32 atSymlinkNofollow

/-- `HandleFull::chown`. -/
def chown (cmd : ChownCmd) : Method World (Option Unit) :=
  atPath os cmd.path fun fd pathname =>
    .fchownat fd pathname cmd.uid.toUInt32 cmd.gid.toUInt32 atSymlinkNofollow

/-- `HandleFull::utimes`. -/
def utimes (cmd : UtimesCmd) : Method World (Option Unit) :=
  atPath os cmd.path fun fd pathname =>
    .utimensat fd pathname cmd.atime cmd.mtime atSymlinkNofollow

/-- `HandleFull::end`. -/
def endCmd (_cmd : EndCmd) : Method World (Option Unit) := do
  let handler ← current
  if handler.currentSubvol = [] then Program.fail (receiveError "Invalid stream")
  else
    -- The subvolume is taken out of the handler before it is opened.
    update fun handler => { handler with currentSubvol := [] }
    let fd ← sysOpenat os handler.currentSubvol oRdonly none
    let receivedArgs ← ioctl os (.setReceivedSubvol fd handler.receivedArgs)
    update fun handler => { handler with receivedArgs }
    update fun handler => { handler with receivedArgs := .zeroed }
    pure none

/-- `HandleFull::update_extent`. -/
def updateExtent (_cmd : UpdateExtentCmd) : Method World (Option Unit) :=
  pure (some ())

/-- `HandleFull::fallocate`. -/
def fallocate (cmd : FallocateCmd) : Method World (Option Unit) := do
  let fd ← sysOpenat os cmd.path oWronly none
  syscall os (.fallocate fd cmd.fallocateMode.toInt32 cmd.fileOffset.toInt64 cmd.size.toInt64)
  pure (some ())

/-- `HandleFull::fileattr`, which only prints its command. -/
def fileattr (_cmd : FileattrCmd) : Method World (Option Unit) :=
  pure (some ())

/-- `HandleFull::encoded_write`. -/
def encodedWrite (cmd : EncodedWriteCmd) : Method World (Option Unit) := do
  let fd ← sysOpenat os cmd.path oWronly none
  let args : EncodedIoArgs Pointer :=
    { iovBase := .temporary cmd.data, iovLen := cmd.data.length
      offset := cmd.fileOffset.toInt64, len := cmd.unencodedFileLen
      unencodedLen := cmd.unencodedLen, unencodedOffset := cmd.unencodedOffset
      compression := cmd.compression.getD 0, encryption := cmd.encryption.getD 0 }
  ioctl os (.encodedWrite fd args)
  pure (some ())

/-- The method that a command goes to. -/
def method : SendCommand → Method World (Option Unit)
  | .subvol cmd => subvol os cmd
  | .snapshot cmd => snapshot cmd
  | .mkfile cmd => mkfile os cmd
  | .mkdir cmd => mkdir os cmd
  | .mknod cmd => mknod os cmd
  | .mkfifo cmd => mkfifo os cmd
  | .mksock cmd => mksock os cmd
  | .symlink cmd => symlink os cmd
  | .rename cmd => rename os cmd
  | .link cmd => link os cmd
  | .unlink cmd => unlink os cmd
  | .rmdir cmd => rmdir os cmd
  | .setXattr cmd => setXattr os cmd
  | .removeXattr cmd => removeXattr os cmd
  | .write cmd => write os cmd
  | .clone cmd => clone os cmd
  | .truncate cmd => truncate os cmd
  | .chmod cmd => chmod os cmd
  | .chown cmd => chown os cmd
  | .utimes cmd => utimes os cmd
  | .endCmd cmd => endCmd os cmd
  | .updateExtent cmd => updateExtent cmd
  | .fallocate cmd => fallocate os cmd
  | .fileattr cmd => fileattr cmd
  | .encodedWrite cmd => encodedWrite os cmd

end Libbtrfs.Receive.HandleFull
