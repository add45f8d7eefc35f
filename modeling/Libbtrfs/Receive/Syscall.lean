import Libbtrfs.Core.Program
import Libbtrfs.SendStream.Attribute
import Libbtrfs.Subvol.Kernel

/-! The system calls that a received stream is turned into, and the system that answers them. -/

namespace Libbtrfs.Receive

/-- `ENOSYS`. -/
def enosys : Nat := 38

/-- `O_RDONLY`. -/
def oRdonly : Int32 := 0

/-- `O_WRONLY`. -/
def oWronly : Int32 := 1

/-- `O_CREAT`. -/
def oCreat : Int32 := 0o100

/-- `O_TRUNC`. -/
def oTrunc : Int32 := 0o1000

/-- `S_IRWXU`. -/
def sIrwxu : UInt32 := 0o700

/-- `S_IRUSR`. -/
def sIrusr : UInt32 := 0o400

/-- `S_IWUSR`. -/
def sIwusr : UInt32 := 0o200

/-- `S_IFMT`. -/
def sIfmt : UInt32 := 0o170000

/-- `S_IFIFO`. -/
def sIfifo : UInt32 := 0o010000

/-- `S_IFSOCK`. -/
def sIfsock : UInt32 := 0o140000

/-- `AT_SYMLINK_NOFOLLOW`. -/
def atSymlinkNofollow : Int32 := 0x100

/-- `AT_REMOVEDIR`. -/
def atRemovedir : Int32 := 0x200

/-- The bytes of a `Uuid` as the characters of C: sixteen of them. -/
structure CUuid where
  chars : List Int8
  width : chars.length = 16

/-- `uuid.as_bytes().map(|b| b as i8)`. -/
def CUuid.ofUuid (uuid : Uuid) : CUuid :=
  ⟨uuid.bytes.map UInt8.toInt8, by rw [List.length_map, uuid.width]⟩

/-- `btrfs_ioctl_received_subvol_args`. -/
structure ReceivedArgs where
  uuid : CUuid
  stransid : UInt64
  rtransid : UInt64
  stime : IoctlTimespec
  rtime : IoctlTimespec
  flags : UInt64

/-- The arguments as zeroed memory. -/
def ReceivedArgs.zeroed : ReceivedArgs where
  uuid := ⟨List.replicate 16 0, List.length_replicate⟩
  stransid := 0
  rtransid := 0
  stime := ⟨0, 0⟩
  rtime := ⟨0, 0⟩
  flags := 0

/-- `btrfs_ioctl_clone_range_args`. -/
structure CloneRangeArgs where
  srcFd : Nat
  srcOffset : UInt64
  srcLength : UInt64
  destOffset : UInt64

/-- `btrfs_ioctl_encoded_io_args`, with the one vector that it points to. -/
structure EncodedIoArgs (Ptr : Type) where
  iovBase : Ptr
  iovLen : Nat
  offset : Int64
  len : UInt64
  unencodedLen : UInt64
  unencodedOffset : UInt64
  compression : UInt32
  encryption : UInt32

/-- An argument of a system call that is made by its number. -/
inductive RawArg (Ptr : Type) where
  | pointer (ptr : Ptr)
  | int (value : Int32)
  -- A pointer to the `XattrArgs` of the source, and what it is given as their size.
  | xattrArgs (value : Ptr) (size flags : UInt32)
  | sizeT (bytes : Nat)

/-- The system calls and ioctls of `HandleFull`, over the pointers that they are given. -/
inductive Syscall (Ptr : Type) where
  | openat (dirfd : Nat) (pathname : Ptr) (flags : Int32) (mode : Option UInt32)
  | mkdirat (dirfd : Nat) (pathname : Ptr) (mode : UInt32)
  | mknodat (dirfd : Nat) (pathname : Ptr) (mode : UInt32) (dev : UInt64)
  | symlinkat (target : Ptr) (newdirfd : Nat) (linkpath : Ptr)
  | renameat2 (olddirfd : Nat) (oldpath : Ptr) (newdirfd : Nat) (newpath : Ptr) (flags : UInt32)
  | linkat (olddirfd : Nat) (oldpath : Ptr) (newdirfd : Nat) (newpath : Ptr) (flags : Int32)
  | unlinkat (dirfd : Nat) (pathname : Ptr) (flags : Int32)
  | raw (sysno : Nat) (args : List (RawArg Ptr))
  | lsetxattr (path name value : Ptr) (size : Nat) (flags : Int32)
  | lremovexattr (path name : Ptr)
  | pwrite (fd : Nat) (buf : Ptr) (count : Nat) (offset : Int64)
  | ftruncate (fd : Nat) (length : Int64)
  | fchmodat (dirfd : Nat) (pathname : Ptr) (mode : UInt32) (flags : Int32)
  | fchownat (dirfd : Nat) (pathname : Ptr) (owner group : UInt32) (flags : Int32)
  | utimensat (dirfd : Nat) (pathname : Ptr) (atime mtime : Timespec) (flags : Int32)
  | fallocate (fd : Nat) (mode : Int32) (offset len : Int64)
  | subvolCreateV2 (fd : Nat) (name : Bytes)
  | cloneRange (fd : Nat) (args : CloneRangeArgs)
  | setReceivedSubvol (fd : Nat) (args : ReceivedArgs)
  | encodedWrite (fd : Nat) (args : EncodedIoArgs Ptr)

/-- What a call that succeeds comes back with. -/
abbrev Syscall.Answer {Ptr : Type} : Syscall Ptr → Type
  | .openat _ _ _ _ => Nat
  -- As much of the data as the kernel chose to take, and never nothing.
  | .pwrite _ _ count _ => { taken : Nat // 1 ≤ taken ∧ taken ≤ count }
  -- The kernel writes into the arguments.
  | .setReceivedSubvol _ _ => ReceivedArgs
  | _ => Unit

/-- The argument, with something else in the place of its pointers. -/
def RawArg.map {Ptr Other : Type} (read : Ptr → Other) : RawArg Ptr → RawArg Other
  | .pointer ptr => .pointer (read ptr)
  | .int value => .int value
  | .xattrArgs value size flags => .xattrArgs (read value) size flags
  | .sizeT bytes => .sizeT bytes

/-- The call, with something else in the place of its pointers. -/
def Syscall.map {Ptr Other : Type} (read : Ptr → Other) : Syscall Ptr → Syscall Other
  | .openat dirfd pathname flags mode => .openat dirfd (read pathname) flags mode
  | .mkdirat dirfd pathname mode => .mkdirat dirfd (read pathname) mode
  | .mknodat dirfd pathname mode dev => .mknodat dirfd (read pathname) mode dev
  | .symlinkat target newdirfd linkpath => .symlinkat (read target) newdirfd (read linkpath)
  | .renameat2 olddirfd oldpath newdirfd newpath flags =>
    .renameat2 olddirfd (read oldpath) newdirfd (read newpath) flags
  | .linkat olddirfd oldpath newdirfd newpath flags =>
    .linkat olddirfd (read oldpath) newdirfd (read newpath) flags
  | .unlinkat dirfd pathname flags => .unlinkat dirfd (read pathname) flags
  | .raw sysno args => .raw sysno (args.map (RawArg.map read))
  | .lsetxattr path name value size flags =>
    .lsetxattr (read path) (read name) (read value) size flags
  | .lremovexattr path name => .lremovexattr (read path) (read name)
  | .pwrite fd buf count offset => .pwrite fd (read buf) count offset
  | .ftruncate fd length => .ftruncate fd length
  | .fchmodat dirfd pathname mode flags => .fchmodat dirfd (read pathname) mode flags
  | .fchownat dirfd pathname owner group flags =>
    .fchownat dirfd (read pathname) owner group flags
  | .utimensat dirfd pathname atime mtime flags =>
    .utimensat dirfd (read pathname) atime mtime flags
  | .fallocate fd mode offset len => .fallocate fd mode offset len
  | .subvolCreateV2 fd name => .subvolCreateV2 fd name
  | .cloneRange fd args => .cloneRange fd args
  | .setReceivedSubvol fd args => .setReceivedSubvol fd args
  | .encodedWrite fd args => .encodedWrite fd { args with iovBase := read args.iovBase }

/-- A pointer that the methods hand out: into a buffer of the handler, or to memory of their own. -/
inductive Pointer where
  | pathBuf
  | pathBufSecondary
  | xattrFallback
  | temporary (memory : Bytes)

/-- A `std::time::Duration`. -/
structure Duration where
  asSecs : UInt64
  subsecNanos : UInt32
  valid : subsecNanos < 1000000000

/--
The system under the handler, over all that it may be in.

A call is answered with a value or an error number, for the memory of the process as it is then.
-/
structure Os (World : Type) where
  call : (Pointer → Bytes) → (call : Syscall Pointer) → World → Except Nat call.Answer × World
  /-- The time since the epoch, unless the clock stands before it. -/
  now : World → Option Duration

/-- A system that also writes down the calls, with the memory that their pointers led to. -/
def Os.recording {World : Type} (os : Os World) : Os (World × List (Syscall Bytes)) where
  call memory call := fun (world, calls) =>
    let (answer, world) := os.call memory call world
    (answer, (world, calls ++ [call.map memory]))
  now := fun (world, _) => os.now world

end Libbtrfs.Receive
