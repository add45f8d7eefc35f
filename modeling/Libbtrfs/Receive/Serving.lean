import Libbtrfs.Receive.Methods

/-! What every method keeps of the handler, and where the paths of its system calls come from. -/

namespace Libbtrfs.Receive

/-- A path among the arguments of a system call, by the way in which the call takes it. -/
inductive PathArg where
  -- From a directory that the call is given with it.
  | below (dirfd : Nat) (memory : Bytes)
  -- Without a directory, as text or in a call by number.
  | bare (memory : Bytes)
  -- From the root of the filesystem or the current directory of the process.
  | whole (memory : Bytes)

/-- The paths among the arguments of a call. -/
def Syscall.paths : Syscall Bytes → List PathArg
  | .openat dirfd pathname _ _ => [.below dirfd pathname]
  | .mkdirat dirfd pathname _ => [.below dirfd pathname]
  | .mknodat dirfd pathname _ _ => [.below dirfd pathname]
  | .symlinkat target newdirfd linkpath => [.bare target, .below newdirfd linkpath]
  | .renameat2 olddirfd oldpath newdirfd newpath _ =>
    [.below olddirfd oldpath, .below newdirfd newpath]
  | .linkat olddirfd oldpath newdirfd newpath _ =>
    [.below olddirfd oldpath, .below newdirfd newpath]
  | .unlinkat dirfd pathname _ => [.below dirfd pathname]
  | .raw _ (.pointer path :: _) => [.bare path]
  | .lsetxattr path _ _ _ _ => [.whole path]
  | .lremovexattr path _ => [.whole path]
  | .fchmodat dirfd pathname _ _ => [.below dirfd pathname]
  | .fchownat dirfd pathname _ _ _ => [.below dirfd pathname]
  | .utimensat dirfd pathname _ _ _ => [.below dirfd pathname]
  | _ => []

/-- What an operand of a command stands for: a file of the subvolume, or the text of a link. -/
inductive Role where
  | file
  | content
  deriving DecidableEq

/-- An operand of a command that is written like a path. -/
structure Operand where
  role : Role
  bytes : Bytes

/-- The operands behind the paths of a system call that is made for a command. -/
def operandsOf (call : Syscall Bytes) : SendCommand → List Operand
  | .mkfile cmd => call.paths.map fun _ => ⟨.file, cmd.path⟩
  | .mkdir cmd => call.paths.map fun _ => ⟨.file, cmd.path⟩
  | .mknod cmd => call.paths.map fun _ => ⟨.file, cmd.path⟩
  | .mkfifo cmd => call.paths.map fun _ => ⟨.file, cmd.path⟩
  | .mksock cmd => call.paths.map fun _ => ⟨.file, cmd.path⟩
  | .symlink cmd => [⟨.content, cmd.pathLink⟩, ⟨.file, cmd.path⟩]
  | .rename cmd => [⟨.file, cmd.path⟩, ⟨.file, cmd.pathTo⟩]
  -- The link that is made goes by the first operand of the command.
  | .link cmd => [⟨.file, cmd.pathLink⟩, ⟨.file, cmd.path⟩]
  | .unlink cmd => call.paths.map fun _ => ⟨.file, cmd.path⟩
  | .rmdir cmd => call.paths.map fun _ => ⟨.file, cmd.path⟩
  | .setXattr cmd => call.paths.map fun _ => ⟨.file, cmd.path⟩
  | .removeXattr cmd => call.paths.map fun _ => ⟨.file, cmd.path⟩
  | .write cmd => call.paths.map fun _ => ⟨.file, cmd.path⟩
  | .clone cmd =>
    match call with
    -- The source of the clone is the one that is opened for reading.
    | .openat _ _ flags _ => [⟨.file, if flags = oRdonly then cmd.clonePath else cmd.path⟩]
    | _ => []
  | .truncate cmd => call.paths.map fun _ => ⟨.file, cmd.path⟩
  | .chmod cmd => call.paths.map fun _ => ⟨.file, cmd.path⟩
  | .chown cmd => call.paths.map fun _ => ⟨.file, cmd.path⟩
  | .utimes cmd => call.paths.map fun _ => ⟨.file, cmd.path⟩
  | .fallocate cmd => call.paths.map fun _ => ⟨.file, cmd.path⟩
  | .encodedWrite cmd => call.paths.map fun _ => ⟨.file, cmd.path⟩
  -- No operand of these is handed over as a path.
  | .subvol _ => []
  | .snapshot _ => []
  | .endCmd _ => []
  | .updateExtent _ => []
  | .fileattr _ => []

namespace HandleFull

/-- Both buffers begin with the path of the current subvolume. -/
structure Prefixed (handler : HandleFull) : Prop where
  first : handler.currentSubvol <+: handler.pathBuf.bytes
  second : handler.currentSubvol <+: handler.pathBufSecondary.bytes

/-- The buffer of the fallback begins with the path that it was built with. -/
structure Based (base : Bytes) (handler : HandleFull) : Prop where
  len : handler.xattrFallback.len = base.length
  buf : base <+: handler.xattrFallback.buf

/-- A path argument that leads to the operand, with the current subvolume in front of it. -/
def Leads (handler : HandleFull) (base : Bytes) (operand : Operand) : PathArg → Prop
  | .below dirfd memory =>
    dirfd = handler.dirfd ∧ handler.currentSubvol ++ toBytesWithNul operand.bytes <+: memory
  | .bare memory => handler.currentSubvol ++ toBytesWithNul operand.bytes <+: memory
  -- The buffer of the fallback holds nothing else.
  | .whole memory => memory = base ++ handler.currentSubvol ++ toBytesWithNul operand.bytes

/-- A system call whose paths all lead to operands of the command. -/
def Carries (handler : HandleFull) (base : Bytes) (cmd : SendCommand) (call : Syscall Bytes) :
    Prop :=
  List.Forall₂ (handler.Leads base) (operandsOf call cmd) call.paths

/-- The system keeps a property of its world through each of the calls that are allowed. -/
def OsKeeps {World : Type} (os : Os World) (allowed : Syscall Bytes → Prop)
    (inv : World → Prop) : Prop :=
  ∀ memory call world, allowed (call.map memory) → inv world → inv (os.call memory call world).2

/-- What holds of the session while the handler is busy with a command on files. -/
structure Serving {World : Type} (start : HandleFull) (base : Bytes) (inv : World → Prop)
    (session : Session World) : Prop where
  dirfd : session.handler.dirfd = start.dirfd
  subvol : session.handler.currentSubvol = start.currentSubvol
  args : session.handler.receivedArgs = start.receivedArgs
  buffers : session.handler.Prefixed
  fallback : session.handler.Based base
  world : inv session.world

end HandleFull

namespace HandleFull

variable {World : Type} {os : Os World} {start : HandleFull} {base : Bytes}
  {inv : World → Prop} {allowed : Syscall Bytes → Prop} {α : Type}

/-- A buffer holds the operand behind the path of the current subvolume. -/
def Holds (start : HandleFull) (pointer : Pointer) (operand : Bytes) (session : Session World) :
    Prop :=
  start.currentSubvol ++ toBytesWithNul operand <+: session.handler.memory pointer

/-- Copying behind the path of the subvolume leaves that path, and what is copied behind it. -/
theorem copyAt_begins {buf : PathBuf} {subvol bytes : Bytes} (begins : subvol <+: buf.bytes)
    (inside : subvol.length + bytes.length ≤ pathMax) :
    subvol ++ bytes <+: (buf.copyAt subvol.length bytes inside).bytes := by
  -- The bytes in front of the place are those of the subvolume.
  have front : buf.bytes.take subvol.length = subvol := (List.prefix_iff_eq_take.mp begins).symm
  simp only [PathBuf.copyAt, front]
  exact List.prefix_append _ _

/-- The path of a buffer that begins with the subvolume, or the error of one that is too long. -/
theorem doCPath_cases (path : Bytes) {buf : PathBuf} {subvol : Bytes} (begins : subvol <+: buf.bytes) :
    (subvol.length + path.length + 1 ≤ pathMax ∧
        ∃ after, doCPath path buf subvol.length = .ok after ∧
          subvol ++ toBytesWithNul path <+: after.bytes) ∨
      (pathMax < subvol.length + path.length + 1 ∧
        doCPath path buf subvol.length = .error (.os enametoolong)) := by
  -- The only check is that the path and its zero are inside the buffer.
  have width : (toBytesWithNul path).length = path.length + 1 := by simp [toBytesWithNul]
  by_cases fits : subvol.length + path.length + 1 ≤ pathMax
  · left
    have inside : subvol.length + (toBytesWithNul path).length ≤ pathMax := by omega
    refine ⟨fits, _, ?_, copyAt_begins begins inside⟩
    unfold doCPath
    rw [dif_pos inside]
  · right
    refine ⟨by omega, ?_⟩
    unfold doCPath
    rw [dif_neg (by omega)]

/-- The fallback's buffer is cut back to its base before another path is put behind that. -/
theorem extend_exact {handler : HandleFull} (based : handler.Based base) (subvol path : Bytes) :
    (handler.xattrFallback.extend subvol path).buf = base ++ subvol ++ toBytesWithNul path := by
  -- The length that is kept is that of the base, so cutting to it leaves the base.
  have front : handler.xattrFallback.buf.take handler.xattrFallback.len = base := by
    rw [based.len]
    exact (List.prefix_iff_eq_take.mp based.buf).symm
  simp only [XattrFallback.extend, front, toBytesWithNul, List.append_assoc]

/-- `get_c_path` writes behind the subvolume in its own buffer, or finds the path too long. -/
theorem getCPath_cases (path : Bytes) {session : Session World}
    (begins : session.handler.currentSubvol <+: session.handler.pathBuf.bytes) :
    (session.handler.currentSubvol.length + path.length + 1 ≤ pathMax ∧
        ∃ pathBuf, getCPath path session =
            (.ok .pathBuf, { session with handler := { session.handler with pathBuf } }) ∧
          session.handler.currentSubvol ++ toBytesWithNul path <+: pathBuf.bytes) ∨
      (pathMax < session.handler.currentSubvol.length + path.length + 1 ∧
        getCPath path session = (.error (.io (.os enametoolong)), session)) := by
  -- The answer is that of the shared function on the one buffer.
  rcases doCPath_cases path begins with ⟨fits, pathBuf, written, holds⟩ | ⟨long, refused⟩
  · refine Or.inl ⟨fits, pathBuf, ?_, holds⟩
    simp only [getCPath, current, update, bind, Program.get, pure, Program.modify, written]
  · refine Or.inr ⟨long, ?_⟩
    simp only [getCPath, current, bind, Program.get, pure, Program.fail, refused]

/-- `get_c_path_secondary` does the same in the other buffer. -/
theorem getCPathSecondary_cases (path : Bytes) {session : Session World}
    (begins : session.handler.currentSubvol <+: session.handler.pathBufSecondary.bytes) :
    (session.handler.currentSubvol.length + path.length + 1 ≤ pathMax ∧
        ∃ pathBufSecondary, getCPathSecondary path session =
            (.ok .pathBufSecondary,
              { session with handler := { session.handler with pathBufSecondary } }) ∧
          session.handler.currentSubvol ++ toBytesWithNul path <+: pathBufSecondary.bytes) ∨
      (pathMax < session.handler.currentSubvol.length + path.length + 1 ∧
        getCPathSecondary path session = (.error (.io (.os enametoolong)), session)) := by
  -- The answer is that of the shared function on the other buffer.
  rcases doCPath_cases path begins with ⟨fits, buffer, written, holds⟩ | ⟨long, refused⟩
  · refine Or.inl ⟨fits, buffer, ?_, holds⟩
    simp only [getCPathSecondary, current, update, bind, Program.get, pure, Program.modify, written]
  · refine Or.inr ⟨long, ?_⟩
    simp only [getCPathSecondary, current, bind, Program.get, pure, Program.fail, refused]

/-- A call comes to what the system answers, and leaves the world that the system leaves. -/
theorem invoke_answered {os : Os World} {call : Syscall Pointer} {session : Session World}
    {answer : Except Nat call.Answer} {world : World}
    (answered : os.call session.handler.memory call session.world = (answer, world)) :
    invoke os call session = (.ok answer, ⟨session.handler, world⟩) := by
  -- The answer of the system is all there is to it.
  simp only [invoke, answered]

/-- A system call comes back with its answer or an error, and the handler is as before. -/
theorem syscall_cases (os : Os World) (call : Syscall Pointer) (session : Session World) :
    (∃ answer world, syscall os call session = (.ok answer, ⟨session.handler, world⟩)) ∨
      ∃ code world, syscall os call session = (.error (.io (.os code)), ⟨session.handler, world⟩) := by
  -- The call changes the world alone, whatever its answer is.
  unfold syscall
  rcases answered : os.call session.handler.memory call session.world with ⟨answer, world⟩
  rw [Program.bind_ok (invoke_answered answered)]
  cases answer with
  | ok value => exact Or.inl ⟨value, world, rfl⟩
  | error code => exact Or.inr ⟨code, world, rfl⟩

/-- An ioctl does so as well. -/
theorem ioctl_cases (os : Os World) (call : Syscall Pointer) (session : Session World) :
    (∃ answer world, ioctl os call session = (.ok answer, ⟨session.handler, world⟩)) ∨
      ∃ error world, ioctl os call session = (.error (.io error), ⟨session.handler, world⟩) := by
  -- The wrapper turns one error into another, and leaves the handler as the call did.
  unfold ioctl
  rcases answered : os.call session.handler.memory call session.world with ⟨answer, world⟩
  rw [Program.bind_ok (invoke_answered answered)]
  cases btrfsIoctl (answer.mapError .os) with
  | ok value => exact Or.inl ⟨value, world, rfl⟩
  | error error => exact Or.inr ⟨error, world, rfl⟩

/-- A file is opened by its path behind the subvolume, unless that is too long. -/
theorem sysOpenat_cases (os : Os World) (path : Bytes) (flags : Int32)
    (mode : Option UInt32) {session : Session World}
    (begins : session.handler.currentSubvol <+: session.handler.pathBuf.bytes) :
    (session.handler.currentSubvol.length + path.length + 1 ≤ pathMax ∧
        ∃ pathBuf, sysOpenat os path flags mode session =
            syscall os (.openat session.handler.dirfd .pathBuf flags mode)
              { session with handler := { session.handler with pathBuf } } ∧
          session.handler.currentSubvol ++ toBytesWithNul path <+: pathBuf.bytes) ∨
      (pathMax < session.handler.currentSubvol.length + path.length + 1 ∧
        sysOpenat os path flags mode session =
          (.error (.io (.os enametoolong)), session)) := by
  -- Either the path fits and the call is made, or no call is made at all.
  have read : asRawFd session = (.ok session.handler.dirfd, session) := rfl
  unfold sysOpenat
  rw [Program.bind_ok read]
  rcases getCPath_cases path begins with ⟨fits, pathBuf, ends, holds⟩ | ⟨long, ends⟩
  · exact Or.inl ⟨fits, pathBuf, Program.bind_ok ends, holds⟩
  · exact Or.inr ⟨long, Program.bind_error ends⟩

/-- A path is put behind the subvolume in the first buffer. -/
theorem getCPath_serving (path : Bytes) :
    Program.Triple (@Serving World start base inv) (getCPath path)
      (fun pointer session => pointer = .pathBuf ∧ Serving start base inv session ∧
        Holds start .pathBuf path session)
      (fun _ => Serving start base inv) := by
  -- The buffer changes behind the subvolume, and everything else stays.
  intro session serving
  rcases getCPath_cases path serving.buffers.first with ⟨_, buffer, ends, holds⟩ | ⟨_, ends⟩
  · rw [ends]
    have begins := (List.prefix_append _ _).trans holds
    refine ⟨rfl, ⟨serving.dirfd, serving.subvol, serving.args, ⟨begins, serving.buffers.second⟩,
      ⟨serving.fallback.len, serving.fallback.buf⟩, serving.world⟩, ?_⟩
    rw [Holds, ← serving.subvol]
    exact holds
  · rw [ends]
    exact serving

/-- A path is put behind the subvolume in the second buffer, and the first buffer is left alone. -/
theorem getCPathSecondary_serving (path : Bytes) (first : Bytes → Prop) :
    Program.Triple
      (fun session : Session World => Serving start base inv session ∧
        first session.handler.pathBuf.bytes)
      (getCPathSecondary path)
      (fun pointer session => pointer = .pathBufSecondary ∧ Serving start base inv session ∧
        first session.handler.pathBuf.bytes ∧ Holds start .pathBufSecondary path session)
      (fun _ => Serving start base inv) := by
  -- Only the second buffer is written, so what is said of the first one stays true.
  rintro session ⟨serving, kept⟩
  rcases getCPathSecondary_cases path serving.buffers.second with
    ⟨_, buffer, ends, holds⟩ | ⟨_, ends⟩
  · rw [ends]
    have begins := (List.prefix_append _ _).trans holds
    refine ⟨rfl, ⟨serving.dirfd, serving.subvol, serving.args, ⟨serving.buffers.first, begins⟩,
      ⟨serving.fallback.len, serving.fallback.buf⟩, serving.world⟩, kept, ?_⟩
    rw [Holds, ← serving.subvol]
    exact holds
  · rw [ends]
    exact serving

/-- A system call that is allowed changes nothing but the world. -/
theorem invoke_serving (keeps : OsKeeps os allowed inv) {before : Session World → Prop}
    {call : Syscall Pointer}
    (made : ∀ session, before session → Serving start base inv session ∧
      allowed (call.map session.handler.memory)) :
    Program.Triple before (invoke os call) (fun _ => Serving start base inv)
      (fun _ => Serving start base inv) := by
  -- The handler is left as it is, and the world keeps its property for a call that is allowed.
  intro session inside
  obtain ⟨serving, fine⟩ := made session inside
  exact ⟨serving.dirfd, serving.subvol, serving.args, serving.buffers, serving.fallback,
    keeps _ _ _ fine serving.world⟩

/-- The `syscall!` macro only tells the error from the answer. -/
theorem syscall_serving (keeps : OsKeeps os allowed inv) {before : Session World → Prop}
    {call : Syscall Pointer}
    (made : ∀ session, before session → Serving start base inv session ∧
      allowed (call.map session.handler.memory)) :
    Program.Triple before (syscall os call) (fun _ => Serving start base inv)
      (fun _ => Serving start base inv) := by
  -- The answer is all that is looked at behind the call.
  refine (invoke_serving keeps made).bind fun answer => ?_
  cases answer with
  | ok value => exact .pure fun _ serving => serving
  | error code => exact .fail fun _ serving => serving

/-- The wrapper of an ioctl does so as well. -/
theorem ioctl_serving (keeps : OsKeeps os allowed inv) {before : Session World → Prop}
    {call : Syscall Pointer}
    (made : ∀ session, before session → Serving start base inv session ∧
      allowed (call.map session.handler.memory)) :
    Program.Triple before (ioctl os call) (fun _ => Serving start base inv)
      (fun _ => Serving start base inv) := by
  -- The answer is all that is looked at behind the call.
  refine (invoke_serving keeps made).bind fun answer => ?_
  cases btrfsIoctl (answer.mapError .os) with
  | ok value => exact .pure fun _ serving => serving
  | error error => exact .fail fun _ serving => serving

/-- Reading the handler changes nothing. -/
theorem current_serving {before after : Session World → Prop}
    (serving : ∀ session, before session → after session)
    {fails : Failure → Session World → Prop} :
    Program.Triple before current (fun _ => after) fails :=
  fun session inside => serving session inside

/-- The descriptor of the directory is the one that the handler was built with. -/
theorem asRawFd_serving {before : Session World → Prop}
    (serving : ∀ session, before session → Serving start base inv session)
    {fails : Failure → Session World → Prop} :
    Program.Triple before asRawFd (fun fd session => fd = start.dirfd ∧ before session) fails :=
  fun session inside => ⟨(serving session inside).dirfd, inside⟩

/-- One path below the directory is handed over behind the subvolume. -/
theorem atPath_serving (keeps : OsKeeps os allowed inv) {path : Bytes}
    {call : Nat → Pointer → Syscall Pointer}
    (carried : ∀ memory : Pointer → Bytes,
      start.currentSubvol ++ toBytesWithNul path <+: memory .pathBuf →
        allowed ((call start.dirfd .pathBuf).map memory)) :
    Program.Keeps (Serving start base inv) (atPath os path call) := by
  refine (getCPath_serving path).bind_known ?_
  refine (asRawFd_serving fun session inside => inside.1).bind_known ?_
  -- The buffer is read at the time of the call, right after the path was written to it.
  refine (syscall_serving keeps fun session inside => ?_).bind fun _ => ?_
  · exact ⟨inside.1, carried _ inside.2⟩
  · exact .pure fun _ serving => serving

/-- Two operands are handed over behind the subvolume, each in its own buffer. -/
theorem atPaths_serving (keeps : OsKeeps os allowed inv) {path other : Bytes}
    {call : Nat → Pointer → Pointer → Syscall Pointer}
    (carried : ∀ memory : Pointer → Bytes,
      start.currentSubvol ++ toBytesWithNul path <+: memory .pathBuf →
      start.currentSubvol ++ toBytesWithNul other <+: memory .pathBufSecondary →
        allowed ((call start.dirfd .pathBuf .pathBufSecondary).map memory)) :
    Program.Keeps (Serving start base inv) (atPaths os path other call) := by
  refine (getCPath_serving path).bind_known ?_
  refine (getCPathSecondary_serving other
    (start.currentSubvol ++ toBytesWithNul path <+: ·)).bind_known ?_
  refine (asRawFd_serving fun session inside => inside.1).bind_known ?_
  -- Writing the second operand has left the first one as it was.
  refine (syscall_serving keeps fun session inside => ?_).bind fun _ => ?_
  · exact ⟨inside.1, carried _ inside.2.1 inside.2.2⟩
  · exact .pure fun _ serving => serving

/-- A file below the directory is opened by its path behind the subvolume. -/
theorem sysOpenat_serving (keeps : OsKeeps os allowed inv) {path : Bytes} {flags : Int32}
    {mode : Option UInt32}
    (carried : ∀ memory : Bytes, start.currentSubvol ++ toBytesWithNul path <+: memory →
      allowed (.openat start.dirfd memory flags mode)) :
    Program.Keeps (Serving start base inv) (sysOpenat os path flags mode) := by
  -- The path is in the first buffer when the file is opened.
  refine (asRawFd_serving fun session inside => inside).bind_known ?_
  refine (getCPath_serving path).bind_known ?_
  exact syscall_serving keeps fun session inside => ⟨inside.1, carried _ inside.2⟩

/-- So is a file whose path goes through the second buffer. -/
theorem sysOpenatSecondary_serving (keeps : OsKeeps os allowed inv) {path : Bytes} {flags : Int32}
    {mode : Option UInt32}
    (carried : ∀ memory : Bytes, start.currentSubvol ++ toBytesWithNul path <+: memory →
      allowed (.openat start.dirfd memory flags mode)) :
    Program.Keeps (Serving start base inv) (sysOpenatSecondary os path flags mode) := by
  -- Nothing is asked of the first buffer here.
  refine (asRawFd_serving fun session inside => inside).bind_known ?_
  refine ((getCPathSecondary_serving path fun _ => True).weaken (fun _ serving => ⟨serving, trivial⟩)
    (fun _ _ holds => holds) fun _ _ serving => serving).bind_known ?_
  exact syscall_serving keeps fun session inside => ⟨inside.1, carried _ inside.2.2⟩

/-- A call without a path changes nothing but the world. -/
theorem syscall_keeps (keeps : OsKeeps os allowed inv) {call : Syscall Pointer}
    (carried : ∀ memory : Pointer → Bytes, allowed (call.map memory)) :
    Program.Keeps (Serving start base inv) (syscall os call) :=
  syscall_serving keeps fun _ serving => ⟨serving, carried _⟩

/-- Neither does an ioctl without one. -/
theorem ioctl_keeps (keeps : OsKeeps os allowed inv) {call : Syscall Pointer}
    (carried : ∀ memory : Pointer → Bytes, allowed (call.map memory)) :
    Program.Keeps (Serving start base inv) (ioctl os call) :=
  ioctl_serving keeps fun _ serving => ⟨serving, carried _⟩

/-- A file is opened, and a call without a path is made on it. -/
theorem onFile_serving (keeps : OsKeeps os allowed inv) {path : Bytes} {flags : Int32}
    {mode : Option UInt32} {next : Nat → Method World α}
    (carried : ∀ memory : Bytes, start.currentSubvol ++ toBytesWithNul path <+: memory →
      allowed (.openat start.dirfd memory flags mode))
    (goes_on : ∀ fd, Program.Keeps (Serving start base inv) (next fd)) :
    Program.Keeps (Serving start base inv) (sysOpenat os path flags mode >>= next) :=
  (sysOpenat_serving keeps carried).bind goes_on

/-- The loop of `write` makes no call with a path. -/
theorem writeLoop_serving (keeps : OsKeeps os allowed inv) {fd : Nat} {data : Bytes}
    {fileOffset : UInt64}
    (carried : ∀ count buf, allowed (.pwrite fd buf count fileOffset.toInt64)) (fuel pos : Nat) :
    Program.Keeps (Serving start base inv) (writeLoop os fd data fileOffset fuel pos) := by
  -- Each round makes one call, and goes on at another position.
  induction fuel generalizing pos with
  | zero => exact .pure fun _ serving => serving
  | succ fuel ih =>
    refine Program.Triple.ite (fun _ => ?_) (fun _ => .pure fun _ serving => serving)
    refine (syscall_keeps keeps ?_).bind fun _ => ih _
    exact fun _ => carried _ _

/-- A call by number, or the one in its place, leads to the file behind the subvolume. -/
theorem byNumber_serving (keeps : OsKeeps os allowed inv) {path name : Bytes} {sysno : Nat}
    {args : Pointer → Pointer → List (RawArg Pointer)} {fallback : Pointer → Pointer → Syscall Pointer}
    (carried : ∀ memory : Pointer → Bytes,
      start.currentSubvol ++ toBytesWithNul path <+: memory .pathBuf →
        allowed ((Syscall.raw sysno (args .pathBuf (.temporary (xattrNameBuf name)))).map memory))
    (falls_back : ∀ memory : Pointer → Bytes,
      memory .xattrFallback = base ++ start.currentSubvol ++ toBytesWithNul path →
        allowed ((fallback .xattrFallback (.temporary (xattrNameBuf name))).map memory)) :
    Program.Keeps (Serving start base inv) (byNumber os path name sysno args fallback) := by
  -- The name is too long, or the path is, or one call is made, or the fallback behind it.
  refine Program.Triple.ite (fun _ => .fail fun _ serving => serving) fun _ => ?_
  refine (getCPath_serving path).bind_known ?_
  refine (invoke_serving keeps fun session inside => ⟨inside.1, carried _ inside.2⟩).bind
    fun answer => ?_
  cases answer with
  | ok value => exact .pure fun _ serving => serving
  | error code =>
    refine Program.Triple.ite (fun _ => ?_) fun _ => .fail fun _ serving => serving
    have extended : Program.Triple (@Serving World start base inv)
        (update fun handler =>
          { handler with
            xattrFallback := handler.xattrFallback.extend handler.currentSubvol path })
        (fun _ session => Serving start base inv session ∧
          session.handler.xattrFallback.buf =
            base ++ start.currentSubvol ++ toBytesWithNul path)
        (fun _ => Serving start base inv) := by
      intro session serving
      have filled : (session.handler.xattrFallback.extend session.handler.currentSubvol path).buf =
          base ++ start.currentSubvol ++ toBytesWithNul path := by
        rw [extend_exact serving.fallback, serving.subvol]
      have buffers := serving.buffers
      refine ⟨⟨serving.dirfd, serving.subvol, serving.args, ⟨buffers.first, buffers.second⟩,
        ⟨serving.fallback.len, ?_⟩, serving.world⟩, filled⟩
      dsimp only
      rw [filled, List.append_assoc]
      exact List.prefix_append _ _
    refine extended.bind fun _ => ?_
    refine (syscall_serving keeps fun session inside => ?_).bind fun _ => ?_
    · exact ⟨inside.1, falls_back _ inside.2⟩
    · exact .pure fun _ serving => serving

end HandleFull

end Libbtrfs.Receive
