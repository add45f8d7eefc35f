import Libbtrfs.Receive.Serving

/-! Every command on files carries its operands into its system calls, below the subvolume. -/

namespace Libbtrfs.Receive

/-- Whether a command is about files of the subvolume, and not about which one is received. -/
def OnFiles : SendCommand → Prop
  | .subvol _ => False
  | .endCmd _ => False
  | _ => True

/-- Whether a call hands the identity of a received subvolume to the system. -/
def Syscall.Seals : Syscall Bytes → Prop
  | .setReceivedSubvol _ _ => True
  | _ => False

namespace HandleFull

variable {World : Type} {os : Os World} {start : HandleFull} {base : Bytes} {inv : World → Prop}

/-- A call that is made for a command on files: it carries the operands, and seals nothing. -/
def Calls (handler : HandleFull) (base : Bytes) (cmd : SendCommand) (call : Syscall Bytes) : Prop :=
  handler.Carries base cmd call ∧ ¬call.Seals

/-- A call with one path carries the one operand that the path leads to. -/
theorem calls_single {cmd : SendCommand} {call : Syscall Bytes} {operand : Operand}
    {arg : PathArg} (same : operandsOf call cmd = [operand]) (paths : call.paths = [arg])
    (leads : start.Leads base operand arg) (plain : ¬call.Seals) : start.Calls base cmd call := by
  -- The lists of the operands and of the paths have one element each.
  refine ⟨?_, plain⟩
  rw [Carries, same, paths]
  exact .cons leads .nil

/-- The file that a clone goes into is opened by the path of the command. -/
theorem operandsOf_clone_dest (cmd : CloneCmd) {dirfd : Nat} {memory : Bytes} {mode : Option UInt32} :
    operandsOf (.openat dirfd memory (oWronly ||| oCreat) mode) (.clone cmd) =
      [⟨.file, cmd.path⟩] := by
  -- The flags tell this call from the one that opens the source.
  have different : oWronly ||| oCreat ≠ oRdonly := by decide
  simp only [operandsOf, if_neg different]

/-- The file that a clone comes from is opened by the path that the command has for it. -/
theorem operandsOf_clone_source (cmd : CloneCmd) {dirfd : Nat} {memory : Bytes}
    {mode : Option UInt32} :
    operandsOf (.openat dirfd memory oRdonly mode) (.clone cmd) = [⟨.file, cmd.clonePath⟩] := by
  -- The flags tell this call from the one that opens the destination.
  simp only [operandsOf, if_pos]

/-- A command on files makes only calls that carry its operands, and none that seals a subvolume. -/
theorem method_serving_files {cmd : SendCommand} (files : OnFiles cmd)
    (keeps : OsKeeps os (start.Calls base cmd) inv) :
    Program.Keeps (Serving start base inv) (method os cmd) := by
  -- Each method is one of a few shapes, and each call has the operands of its command as paths.
  cases cmd with
  | subvol cmd => exact files.elim
  | endCmd cmd => exact files.elim
  | snapshot cmd => exact .fail fun _ serving => serving
  | updateExtent cmd => exact .pure fun _ serving => serving
  | fileattr cmd => exact .pure fun _ serving => serving
  | mkdir cmd => exact atPath_serving keeps fun _ held => calls_single rfl rfl ⟨rfl, held⟩ id
  | mknod cmd => exact atPath_serving keeps fun _ held => calls_single rfl rfl ⟨rfl, held⟩ id
  | mkfifo cmd => exact atPath_serving keeps fun _ held => calls_single rfl rfl ⟨rfl, held⟩ id
  | mksock cmd => exact atPath_serving keeps fun _ held => calls_single rfl rfl ⟨rfl, held⟩ id
  | unlink cmd => exact atPath_serving keeps fun _ held => calls_single rfl rfl ⟨rfl, held⟩ id
  | rmdir cmd => exact atPath_serving keeps fun _ held => calls_single rfl rfl ⟨rfl, held⟩ id
  | chmod cmd => exact atPath_serving keeps fun _ held => calls_single rfl rfl ⟨rfl, held⟩ id
  | chown cmd => exact atPath_serving keeps fun _ held => calls_single rfl rfl ⟨rfl, held⟩ id
  | utimes cmd => exact atPath_serving keeps fun _ held => calls_single rfl rfl ⟨rfl, held⟩ id
  | symlink cmd =>
    exact atPaths_serving keeps fun _ held other => ⟨.cons other (.cons ⟨rfl, held⟩ .nil), id⟩
  | rename cmd =>
    exact atPaths_serving keeps fun _ held other =>
      ⟨.cons ⟨rfl, held⟩ (.cons ⟨rfl, other⟩ .nil), id⟩
  | link cmd =>
    exact atPaths_serving keeps fun _ held other =>
      ⟨.cons ⟨rfl, other⟩ (.cons ⟨rfl, held⟩ .nil), id⟩
  | setXattr cmd =>
    show Program.Keeps _ (setXattr os cmd)
    unfold setXattr
    refine byNumber_serving keeps ?_ ?_
    · intro memory held
      exact calls_single rfl rfl held id
    · intro memory filled
      exact calls_single rfl rfl filled id
  | removeXattr cmd =>
    show Program.Keeps _ (removeXattr os cmd)
    unfold removeXattr
    refine byNumber_serving keeps ?_ ?_
    · intro memory held
      exact calls_single rfl rfl held id
    · intro memory filled
      exact calls_single rfl rfl filled id
  | mkfile cmd =>
    refine onFile_serving keeps (fun _ held => calls_single rfl rfl ⟨rfl, held⟩ id) fun fd => ?_
    exact .pure fun _ serving => serving
  | write cmd =>
    refine onFile_serving keeps (fun _ held => calls_single rfl rfl ⟨rfl, held⟩ id) fun fd => ?_
    refine (writeLoop_serving keeps (fun _ _ => ?_) _ _).bind fun _ => ?_
    · exact ⟨.nil, id⟩
    · exact .pure fun _ serving => serving
  | fallocate cmd =>
    refine onFile_serving keeps (fun _ held => calls_single rfl rfl ⟨rfl, held⟩ id) fun fd => ?_
    refine (syscall_keeps keeps fun _ => ?_).bind fun _ => ?_
    · exact ⟨.nil, id⟩
    · exact .pure fun _ serving => serving
  | encodedWrite cmd =>
    refine onFile_serving keeps (fun _ held => calls_single rfl rfl ⟨rfl, held⟩ id) fun fd => ?_
    refine (ioctl_keeps keeps fun _ => ?_).bind fun _ => ?_
    · exact ⟨.nil, id⟩
    · exact .pure fun _ serving => serving
  | truncate cmd =>
    refine Program.Triple.ite (fun _ => ?_) fun _ => ?_
    · refine onFile_serving keeps (fun _ held => calls_single rfl rfl ⟨rfl, held⟩ id) fun fd => ?_
      exact .pure fun _ serving => serving
    · refine onFile_serving keeps (fun _ held => calls_single rfl rfl ⟨rfl, held⟩ id) fun fd => ?_
      refine (syscall_keeps keeps fun _ => ?_).bind fun _ => ?_
      · exact ⟨.nil, id⟩
      · exact .pure fun _ serving => serving
  | clone cmd =>
    -- The two files are told apart by the flags with which they are opened.
    refine onFile_serving keeps
      (fun _ held => calls_single (operandsOf_clone_dest cmd) rfl ⟨rfl, held⟩ id) fun destFd => ?_
    refine (current_serving fun _ serving => serving).bind fun handler => ?_
    refine Program.Triple.ite (fun _ => .fail fun _ serving => serving) fun _ => ?_
    refine (sysOpenatSecondary_serving keeps fun _ held =>
      calls_single (operandsOf_clone_source cmd) rfl ⟨rfl, held⟩ id).bind fun cloneFd => ?_
    refine (ioctl_keeps keeps fun _ => ?_).bind fun _ => ?_
    · exact ⟨.nil, id⟩
    · exact .pure fun _ serving => serving

/-- A command on files leaves the subvolume as it is, and makes only calls that carry its operands. -/
theorem method_serving {cmd : SendCommand} (files : OnFiles cmd)
    (keeps : OsKeeps os (start.Carries base cmd) inv) :
    Program.Keeps (Serving start base inv) (method os cmd) :=
  -- What every call that carries the operands keeps is kept by those that are made.
  method_serving_files files fun memory call world made => keeps memory call world made.1

end HandleFull

end Libbtrfs.Receive
