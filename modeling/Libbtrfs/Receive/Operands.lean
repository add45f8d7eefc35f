import Libbtrfs.Receive.Buffers

/-! Which of its operands a command hands over as what they stand for. -/

namespace Libbtrfs.Receive.HandleFull

variable {World : Type} {os : Os World} {base : Bytes}

/-- The operands of a command that are written like paths. -/
def pathOperands : SendCommand → List Bytes
  | .subvol cmd => [cmd.path]
  | .snapshot cmd => [cmd.path]
  | .mkfile cmd => [cmd.path]
  | .mkdir cmd => [cmd.path]
  | .mknod cmd => [cmd.path]
  | .mkfifo cmd => [cmd.path]
  | .mksock cmd => [cmd.path]
  | .symlink cmd => [cmd.path, cmd.pathLink]
  | .rename cmd => [cmd.path, cmd.pathTo]
  | .link cmd => [cmd.path, cmd.pathLink]
  | .unlink cmd => [cmd.path]
  | .rmdir cmd => [cmd.path]
  | .setXattr cmd => [cmd.path]
  | .removeXattr cmd => [cmd.path]
  | .write cmd => [cmd.path]
  | .clone cmd => [cmd.path, cmd.clonePath]
  | .truncate cmd => [cmd.path]
  | .chmod cmd => [cmd.path]
  | .chown cmd => [cmd.path]
  | .utimes cmd => [cmd.path]
  | .endCmd _ => []
  | .updateExtent cmd => [cmd.path]
  | .fallocate cmd => [cmd.path]
  | .fileattr cmd => [cmd.path]
  | .encodedWrite cmd => [cmd.path]

/-- A path argument that is what its operand stands for. -/
def Plays (handler : HandleFull) (base : Bytes) (operand : Operand) (arg : PathArg) : Prop :=
  match operand.role with
  | .file => handler.Leads base operand arg
  -- The text of a link is the operand, and nothing else.
  | .content => ∃ memory, arg = .bare memory ∧ toBytesWithNul operand.bytes <+: memory

/-- A system call whose paths are what the operands of the command stand for. -/
def PlaysRoles (handler : HandleFull) (base : Bytes) (cmd : SendCommand) (call : Syscall Bytes) :
    Prop :=
  List.Forall₂ (handler.Plays base) (operandsOf call cmd) call.paths

/-- The target of a link, if the command is for one, is how it is read behind the subvolume. -/
def TargetKept (handler : HandleFull) (cmd : SendCommand) : Prop :=
  ∀ link, cmd = .symlink link →
    toBytesWithNul link.pathLink <+: handler.currentSubvol ++ toBytesWithNul link.pathLink

/-- Without zeros in the two there is no such target. -/
theorem not_targetKept {handler : HandleFull} {link : SymlinkCmd}
    (active : handler.currentSubvol ≠ []) (subvol_clean : 0 ∉ handler.currentSubvol)
    (link_clean : 0 ∉ link.pathLink) : ¬ handler.TargetKept (.symlink link) := by
  -- The zero behind the target would be a byte of the subvolume or of the target.
  intro kept
  have begins := kept link rfl
  rw [toBytesWithNul, ← List.append_assoc] at begins
  have some_byte := List.length_pos_iff.mpr active
  have inside := List.prefix_of_prefix_length_le begins (List.prefix_append _ _) (by
    rw [List.length_append, List.length_append, List.length_singleton]
    omega)
  have zero : (0 : UInt8) ∈ handler.currentSubvol ++ link.pathLink :=
    inside.subset (List.mem_append_right _ (List.mem_singleton.mpr rfl))
  rcases List.mem_append.mp zero with in_subvol | in_link
  · exact subvol_clean in_subvol
  · exact link_clean in_link

/-- Only a symbolic link has an operand that is not a file. -/
theorem operandsOf_files {cmd : SendCommand} (other : ∀ link, cmd ≠ .symlink link)
    (call : Syscall Bytes) : ∀ operand ∈ operandsOf call cmd, operand.role = .file := by
  -- One case for each command that has operands of its own.
  intro operand member
  cases cmd with
  | symlink link => exact absurd rfl (other link)
  | rename cmd =>
    simp only [operandsOf, List.mem_cons, List.not_mem_nil, or_false] at member
    rcases member with rfl | rfl <;> rfl
  | link cmd =>
    simp only [operandsOf, List.mem_cons, List.not_mem_nil, or_false] at member
    rcases member with rfl | rfl <;> rfl
  | clone cmd =>
    cases call <;> simp only [operandsOf, List.mem_singleton, List.not_mem_nil] at member
    rw [member]
  | subvol cmd => cases member
  | snapshot cmd => cases member
  | endCmd cmd => cases member
  | updateExtent cmd => cases member
  | fileattr cmd => cases member
  | _ =>
    obtain ⟨_, _, rfl⟩ := List.mem_map.mp member
    rfl

/-- A method with two operands that fit makes its call with both of them in their buffers. -/
theorem atPaths_recorded (os : Os World) (path other : Bytes)
    (call : Nat → Pointer → Pointer → Syscall Pointer) {session : Session World}
    (buffers : session.handler.Prefixed)
    (path_fits : session.handler.currentSubvol.length + path.length + 1 ≤ pathMax)
    (other_fits : session.handler.currentSubvol.length + other.length + 1 ≤ pathMax) :
    ∃ written : HandleFull,
      session.handler.currentSubvol ++ toBytesWithNul path <+: written.pathBuf.bytes ∧
      session.handler.currentSubvol ++ toBytesWithNul other <+: written.pathBufSecondary.bytes ∧
      (recorded (atPaths os.recording path other call) session).2.world.2 =
        [(call session.handler.dirfd .pathBuf .pathBufSecondary).map written.memory] := by
  -- Both buffers are filled before the call, which is the only one.
  let start : Session (World × List (Syscall Bytes)) := ⟨session.handler, (session.world, [])⟩
  have first : start.handler.currentSubvol <+: start.handler.pathBuf.bytes := buffers.first
  rcases getCPath_cases path first with ⟨_, pathBuf, ends, holds⟩ | ⟨long, _⟩
  · let half : Session (World × List (Syscall Bytes)) :=
      { start with handler := { start.handler with pathBuf } }
    have second : half.handler.currentSubvol <+: half.handler.pathBufSecondary.bytes :=
      buffers.second
    rcases getCPathSecondary_cases other second with
      ⟨_, pathBufSecondary, also_ends, also_holds⟩ | ⟨long, _⟩
    · refine ⟨{ half.handler with pathBufSecondary }, holds, also_holds, ?_⟩
      let ready : Session (World × List (Syscall Bytes)) :=
        { half with handler := { half.handler with pathBufSecondary } }
      have read : asRawFd ready = (.ok session.handler.dirfd, ready) := rfl
      obtain ⟨world, made⟩ := syscall_recorded os
        (call session.handler.dirfd .pathBuf .pathBufSecondary) ready
      show (atPaths os.recording path other call start).2.world.2 = _
      unfold atPaths
      rw [Program.bind_ok ends, Program.bind_ok also_ends, Program.bind_ok read,
        Program.bind_pure_state, made]
      rfl
    · exact absurd other_fits (Nat.not_le.mpr long)
  · exact absurd path_fits (Nat.not_le.mpr long)

/-- A command without link text hands every operand over as what it stands for. -/
theorem files_play {cmd : SendCommand} (files : OnFiles cmd) (other : ∀ link, cmd ≠ .symlink link)
    {session : Session World} {dirfd : Nat} (sound : Sound dirfd base session.handler) :
    ∀ call ∈ callsOf os cmd session, session.handler.PlaysRoles base cmd call := by
  -- A file plays its role exactly when the call leads to it.
  intro call made
  have all_files := operandsOf_files other call
  have carries := callsOf_carries files sound call made
  refine ((List.forall₂_and_left _ _).mpr ⟨all_files, carries⟩).imp ?_
  rintro operand arg ⟨file, leads⟩
  rw [Plays, file]
  exact leads

/-- A symbolic link is made with the right text exactly when that is read behind the subvolume. -/
theorem symlink_plays_iff {link : SymlinkCmd} {session : Session World} {dirfd : Nat}
    (sound : Sound dirfd base session.handler)
    (path_fits : session.handler.currentSubvol.length + link.path.length + 1 ≤ pathMax)
    (link_fits : session.handler.currentSubvol.length + link.pathLink.length + 1 ≤ pathMax) :
    (∀ call ∈ callsOf os (.symlink link) session,
        session.handler.PlaysRoles base (.symlink link) call) ↔
      session.handler.TargetKept (.symlink link) := by
  obtain ⟨written, path_held, link_held, calls⟩ := atPaths_recorded os link.path link.pathLink
    (fun fd linkpath target => .symlinkat target fd linkpath) sound.buffers path_fits link_fits
  have only : callsOf os (.symlink link) session =
      [.symlinkat written.pathBufSecondary.bytes session.handler.dirfd written.pathBuf.bytes] :=
    calls
  rw [only, List.forall_mem_singleton]
  constructor
  · -- The memory begins with the text itself and with the text behind the subvolume.
    intro plays other same
    cases same
    obtain ⟨⟨memory, same, begins⟩, _⟩ := List.forall₂_cons.mp plays
    cases same
    refine List.prefix_of_prefix_length_le begins link_held ?_
    rw [List.length_append]
    exact Nat.le_add_left _ _
  · intro kept
    refine .cons ⟨_, rfl, (kept link rfl).trans link_held⟩ (.cons ?_ .nil)
    exact ⟨rfl, path_held⟩

/-- A second subvolume is refused without a call. -/
theorem subvol_callless {cmd : SubvolCmd} {session : Session World}
    (active : session.handler.currentSubvol ≠ []) : callsOf os (.subvol cmd) session = [] := by
  -- The check of the handler comes in front of everything else.
  show (subvol os.recording cmd ⟨session.handler, (session.world, [])⟩).2.world.2 = []
  rcases subvol_cases os.recording cmd ⟨session.handler, (session.world, [])⟩ with
    ⟨_, ends⟩ | ⟨idle, _⟩ | ⟨idle, _⟩
  · rw [ends]
  · exact absurd idle active
  · exact absurd idle active

/--
Inside a subvolume, the operands of a command are handed over as what they stand for.

The one exception is the text of a symbolic link, which gets the subvolume in front of it too.
-/
theorem operands_play_iff (os : Os World) {built : HandleFull} (new_one : Built built)
    {cmds : List SendCommand} {session : Session World}
    (received : Received os built cmds session) (active : session.handler.currentSubvol ≠ [])
    {cmd : SendCommand} (with_paths : pathOperands cmd ≠ [])
    (fit : ∀ operand ∈ pathOperands cmd,
      session.handler.currentSubvol.length + operand.length + 1 ≤ pathMax) :
    (∀ call ∈ callsOf os cmd session,
        session.handler.PlaysRoles built.xattrFallback.buf cmd call) ↔
      session.handler.TargetKept cmd := by
  -- Only the symbolic link has to be looked at by itself.
  obtain ⟨sound, _⟩ := received_sound new_one received
  have kept_elsewhere : (∀ link, cmd ≠ .symlink link) → session.handler.TargetKept cmd :=
    fun other link same => absurd same (other link)
  have others : OnFiles cmd → (∀ link, cmd ≠ .symlink link) →
      ((∀ call ∈ callsOf os cmd session,
          session.handler.PlaysRoles built.xattrFallback.buf cmd call) ↔
        session.handler.TargetKept cmd) := fun files other =>
    ⟨fun _ => kept_elsewhere other, fun _ => files_play files other sound⟩
  cases cmd with
  | symlink link =>
    have both := List.forall_mem_cons.mp fit
    exact symlink_plays_iff sound both.1 (both.2 _ List.mem_cons_self)
  | subvol cmd =>
    rw [subvol_callless active]
    exact ⟨fun _ => kept_elsewhere nofun, fun _ _ made => nomatch made⟩
  | endCmd cmd => exact absurd rfl with_paths
  | _ => exact others trivial nofun

/-- A link `l` to `t`, received in the subvolume `s`. -/
def linkToT : SymlinkCmd := ⟨[108], 257, [116]⟩

/-- Its two operands fit, and its text is not kept. -/
theorem operands_play_iff_linkToT :
    (∀ call ∈ callsOf oldSystem (.symlink linkToT) receivingS,
        receivingS.handler.PlaysRoles handlerOfThree.xattrFallback.buf (.symlink linkToT) call) ↔
      receivingS.handler.TargetKept (.symlink linkToT) :=
  operands_play_iff oldSystem handlerOfThree_built receivingS_received (by decide) (by decide)
    (by decide)

/-- The link is made with the text `s/t`, where the sender had `t`. -/
theorem operands_misplay_linkToT :
    ¬ ∀ call ∈ callsOf oldSystem (.symlink linkToT) receivingS,
        receivingS.handler.PlaysRoles handlerOfThree.xattrFallback.buf (.symlink linkToT) call := by
  -- The target is not kept, as `t` is not where `s/t` begins.
  obtain ⟨sound, _⟩ := received_sound handlerOfThree_built receivingS_received
  rw [symlink_plays_iff sound (by decide) (by decide)]
  exact not_targetKept (by decide) (by decide) (by decide)

end Libbtrfs.Receive.HandleFull
