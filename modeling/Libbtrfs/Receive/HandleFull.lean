import Libbtrfs.Receive.Syscall
import Libbtrfs.SendStream.Command

/-! The handler that applies a full send stream to a directory, one method for each command. -/

namespace Libbtrfs.Receive

/-- `[u8; libc::PATH_MAX]`. -/
structure PathBuf where
  bytes : Bytes
  full : bytes.length = pathMax

/-- A buffer as zeroed memory. -/
def PathBuf.zeroed : PathBuf := ⟨List.replicate pathMax 0, List.length_replicate⟩

/-- `copy_from_slice` into the place of the buffer that begins at a byte of it. -/
def PathBuf.copyAt (buf : PathBuf) (start : Nat) (bytes : Bytes)
    (inside : start + bytes.length ≤ pathMax) : PathBuf where
  bytes := buf.bytes.take start ++ bytes ++ buf.bytes.drop (start + bytes.length)
  full := by
    have full := buf.full
    rw [List.length_append, List.length_append, List.length_take, List.length_drop]
    omega

/-- `XattrFallback`: a path that ends with a separator, and what was last put behind it. -/
structure XattrFallback where
  buf : Bytes
  len : Nat

/-- A copy of a path, with a separator pushed behind it unless it ends with one. -/
def withSeparator (path : Bytes) : Bytes :=
  if path.getLast? ≠ some separator then path ++ [separator] else path

namespace XattrFallback

/-- The decimal digits of a number, as `write!` prints them. -/
def decimal (number : Nat) : Bytes := (Nat.toDigits 10 number).map fun digit => digit.val.toUInt8

/-- `From<RawFd>`, which names the descriptor in the proc filesystem. -/
def ofRawFd (dfd : Nat) : XattrFallback :=
  let buf := "/proc/self/fd/".toUTF8.toList ++ decimal dfd ++ [separator]
  { buf, len := buf.length }

/-- `From<&Path>`. -/
def ofPath (path : Bytes) : XattrFallback :=
  let buf := withSeparator path
  { buf, len := buf.length }

/-- The first lines of both functions `fallback`: the buffer with another path behind its base. -/
def extend (fallback : XattrFallback) (subvol path : Bytes) : XattrFallback :=
  { fallback with buf := fallback.buf.take fallback.len ++ subvol ++ path ++ [0] }

end XattrFallback

/-- `HandleFull`, with the number of its directory descriptor. -/
structure HandleFull where
  dirfd : Nat
  pathBuf : PathBuf
  pathBufSecondary : PathBuf
  currentSubvol : Bytes
  receivedArgs : ReceivedArgs
  xattrFallback : XattrFallback

/-- The handler and the system that it makes its calls to. -/
structure Session (World : Type) where
  handler : HandleFull
  world : World

/-- A method of the handler, which may also panic. -/
abbrev Method (World α : Type) : Type := Program (Session World) Failure α

namespace HandleFull

/-- `HandleFull::XATTR_NAME_MAX`. -/
def xattrNameMax : Nat := 255

/-- `HandleFull::MODE`. -/
def mode : UInt32 := sIrusr ||| sIwusr

/-- A handler that has received nothing yet. -/
def fresh (dirfd : Nat) (xattrFallback : XattrFallback) : HandleFull where
  dirfd := dirfd
  pathBuf := .zeroed
  pathBufSecondary := .zeroed
  currentSubvol := []
  receivedArgs := .zeroed
  xattrFallback := xattrFallback

/-- `HandleFull::from_path`, for what opening the path and asking for its kind came to. -/
def fromPath (path : Bytes) (opened : Except IoError Nat) (isDir : Except IoError Bool) :
    Except IoError HandleFull := do
  let dirfd ← opened
  if !(← isDir) then .error (.kind .notADirectory)
  else .ok (fresh dirfd (.ofPath path))

/-- `HandleFull::new`, for what asking for the kind of the descriptor came to. -/
def new (dirfd : Nat) (isDir : Except IoError Bool) : Except IoError HandleFull := do
  if !(← isDir) then .error (.kind .notADirectory)
  else .ok (fresh dirfd (.ofRawFd dirfd))

/-- The memory that a pointer leads to. -/
def memory (handler : HandleFull) : Pointer → Bytes
  | .pathBuf => handler.pathBuf.bytes
  | .pathBufSecondary => handler.pathBufSecondary.bytes
  | .xattrFallback => handler.xattrFallback.buf
  | .temporary memory => memory

/-- `uuid_is_current`. -/
def uuidIsCurrent (handler : HandleFull) (uuid : Uuid) : Bool :=
  (uuid.bytes.zip handler.receivedArgs.uuid.chars).all fun (b, current) => b = current.toUInt8

variable {World : Type}

/-- Changes the handler, and leaves the system alone. -/
def update (change : HandleFull → HandleFull) : Method World Unit :=
  Program.modify fun session => { session with handler := change session.handler }

/-- The handler as it is. -/
def current : Method World HandleFull := do
  let session ← Program.get
  pure session.handler

/-- `as_raw_fd`. -/
def asRawFd : Method World Nat := do
  let handler ← current
  pure handler.dirfd

/-- A system call: the pointers of its arguments are read at this time, and not before. -/
def invoke (os : Os World) (call : Syscall Pointer) : Method World (Except Nat call.Answer) :=
  fun session =>
    let (answer, world) := os.call session.handler.memory call session.world
    (.ok answer, { session with world })

/-- The `syscall!` macro. -/
def syscall (os : Os World) (call : Syscall Pointer) : Method World call.Answer := do
  match ← invoke os call with
  | .ok answer => pure answer
  | .error code => Program.fail (.io (.os code))

/-- `btrfs_ioctl`. -/
def ioctl (os : Os World) (call : Syscall Pointer) : Method World call.Answer := do
  match btrfsIoctl ((← invoke os call).mapError .os) with
  | .ok answer => pure answer
  | .error error => Program.fail (.io error)

/-- `get_btrfs_timespec_from_system_time`. -/
def getBtrfsTimespecFromSystemTime (os : Os World) : Method World IoctlTimespec := do
  let session ← Program.get
  match os.now session.world with
  | none => pure ⟨0, 0⟩
  -- The seconds are given as the nanoseconds too.
  | some now => pure ⟨now.asSecs, now.asSecs.toUInt32⟩

/-- `do_c_path`: the buffer with the path and a zero behind it, from a byte of the buffer on. -/
def doCPath (path : Bytes) (pathBuf : PathBuf) (start : Nat) : Except IoError PathBuf :=
  if inside : start + (toBytesWithNul path).length ≤ pathMax then
    .ok (pathBuf.copyAt start (toBytesWithNul path) inside)
  else .error (.os enametoolong)

/-- `get_c_path`. -/
def getCPath (path : Bytes) : Method World Pointer := do
  let handler ← current
  match doCPath path handler.pathBuf handler.currentSubvol.length with
  | .ok pathBuf =>
    update fun handler => { handler with pathBuf }
    pure .pathBuf
  | .error error => Program.fail (.io error)

/-- `get_c_path_secondary`. -/
def getCPathSecondary (path : Bytes) : Method World Pointer := do
  let handler ← current
  match doCPath path handler.pathBufSecondary handler.currentSubvol.length with
  | .ok pathBufSecondary =>
    update fun handler => { handler with pathBufSecondary }
    pure .pathBufSecondary
  | .error error => Program.fail (.io error)

/-- `sys_openat_secondary`. -/
def sysOpenatSecondary (os : Os World) (path : Bytes) (flags : Int32) (mode : Option UInt32) :
    Method World Nat := do
  let rawFd ← asRawFd
  let pathPtr ← getCPathSecondary path
  syscall os (.openat rawFd pathPtr flags mode)

/-- `sys_openat`. -/
def sysOpenat (os : Os World) (path : Bytes) (flags : Int32) (mode : Option UInt32) :
    Method World Nat := do
  let rawFd ← asRawFd
  let pathPtr ← getCPath path
  syscall os (.openat rawFd pathPtr flags mode)

end HandleFull

end Libbtrfs.Receive
