import Libbtrfs.Receive.Stream
import Libbtrfs.SendStream.RoundTrip

/-! A stream is received as the methods of its commands run, and its subvolume is sealed then. -/

namespace Libbtrfs.Receive.HandleFull

variable {World : Type} {os : Os World} {α β : Type}

/-- A program of the handler that ends with the given value or not at all. -/
def Yields (value : α) (program : Method World α) : Prop :=
  Program.Triple (fun _ => True) program (fun other _ => other = value) fun _ _ => True

/-- What a sequence ends with is what its last part ends with. -/
theorem Yields.behind {value : β} {program : Method World α} {next : α → Method World β}
    (ends : ∀ between, Yields value (next between)) : Yields value (program >>= next) := by
  -- Whatever the first part comes to, the condition on the end is about the other one.
  have first : Program.Triple (fun _ => True) program (fun _ _ => True) fun _ _ => True := by
    intro session _
    rcases program session with ⟨_ | _, after⟩
    · trivial
    · trivial
  exact first.bind ends

/-- A value is what it is. -/
theorem yields_pure (value : α) : Yields value (pure value : Method World α) :=
  .pure fun _ _ => rfl

/-- A failure ends with nothing. -/
theorem yields_fail (value : α) (failure : Failure) :
    Yields value (Program.fail failure : Method World α) :=
  .fail fun _ _ => trivial

/-- Every command but the last one asks for the next command when it succeeds. -/
theorem method_yields {cmd : SendCommand} (inside : ∀ stop, cmd ≠ .endCmd stop) :
    Yields (some ()) (method os cmd) := by
  have ended : Yields (some ()) (pure (some ()) : Method World (Option Unit)) := yields_pure _
  -- The value stands behind whatever a method does.
  cases cmd with
  | endCmd stop => exact absurd rfl (inside stop)
  | snapshot cmd => exact yields_fail _ _
  | updateExtent cmd | fileattr cmd => exact ended
  | subvol cmd =>
    refine .behind fun handler => .ite (fun _ => yields_fail _ _) fun _ => ?_
    by_cases fits : 0 + (withSeparator cmd.path).length ≤ pathMax
    · simp only [dif_pos fits]
      exact Yields.behind fun _ => .behind fun _ => .behind fun _ => .behind fun _ =>
        .behind fun _ => ended
    · simp only [dif_neg fits]
      exact yields_fail _ _
  | mkdir cmd | mknod cmd | mkfifo cmd | mksock cmd | unlink cmd | rmdir cmd | chmod cmd | chown cmd
  | utimes cmd => exact Yields.behind fun _ => .behind fun _ => .behind fun _ => ended
  | symlink cmd | rename cmd | link cmd =>
    exact Yields.behind fun _ => .behind fun _ => .behind fun _ => .behind fun _ => ended
  | setXattr cmd | removeXattr cmd =>
    refine .ite (fun _ => yields_fail _ _) fun _ => Yields.behind fun _ =>
      Yields.behind fun answer => ?_
    cases answer with
    | ok value => exact ended
    | error code =>
      refine .ite (fun _ => ?_) fun _ => yields_fail _ _
      exact Yields.behind fun _ => .behind fun _ => ended
  | mkfile cmd => exact Yields.behind fun _ => ended
  | write cmd | fallocate cmd | encodedWrite cmd =>
    exact Yields.behind fun _ => .behind fun _ => ended
  | truncate cmd =>
    refine .ite (fun _ => ?_) fun _ => ?_
    · exact Yields.behind fun _ => ended
    · exact Yields.behind fun _ => .behind fun _ => ended
  | clone cmd =>
    refine Yields.behind fun _ => Yields.behind fun handler =>
      .ite (fun _ => yields_fail _ _) fun _ => ?_
    exact Yields.behind fun _ => .behind fun _ => ended

/-- The last command of a stream stops the receive when it succeeds. -/
theorem endCmd_yields (stop : EndCmd) : Yields none (endCmd os stop) := by
  -- A subvolume is open, or the command fails.
  refine .behind fun handler => .ite (fun _ => yields_fail _ _) fun _ => ?_
  exact Yields.behind fun _ => .behind fun _ => .behind fun _ => .behind fun _ => .behind fun _ =>
    yields_pure _

/-- What a method that succeeds ends with. -/
theorem Yields.value {value answer : α} {program : Method World α} (ends : Yields value program)
    {session after : Session World} (succeeds : program session = (.ok answer, after)) :
    answer = value := by
  -- The end of the program is the one that is known.
  have result := ends session trivial
  rw [succeeds] at result
  exact result

/-- A frame that carries a command comes to the method of that command. -/
theorem handleCmd_inFrame {version : UInt32} {command : SendCommand} {frame : Frame}
    (carried : command.InFrame version frame) (session : Session World) :
    handleCmd os frame.command frame.payload version session = method os command session := by
  -- The frame is parsed to just this command.
  rw [handleCmd, parseStage_inFrame carried]

/--
The frames of some commands are read as their methods run, up to the first one that fails.

The reading stops at the first end, whatever frames are behind it.
-/
theorem decodeFrames_runs (crc : Bytes → UInt32) (os : Os World) {version : UInt32}
    {commands behind : List SendCommand} {frames : List Frame}
    (carried : List.Forall₂ (SendCommand.InFrame version) (commands ++ .endCmd {} :: behind) frames)
    (inside : ∀ command ∈ commands, ∀ stop, command ≠ .endCmd stop) (session : Session World) :
    let receipt := decodeFrames crc (handleCmd os) version (frames.flatMap (Frame.bytes crc))
      session
    (receipt.result, receipt.state) = handleAll os (commands ++ [.endCmd {}]) session := by
  -- The induction peels off one command and its frame at a time, up to the end of the stream.
  induction commands generalizing frames session with
  | nil =>
    cases carried with
    | cons carries rest =>
      rename_i frame frames
      have taken := takeFrame_bytes crc carries.2.1 (frames.flatMap (Frame.bytes crc))
      simp only [List.flatMap_cons]
      rw [decodeFrames_ok taken, handleCmd_inFrame carries, List.nil_append, handleAll]
      rcases ended : method os (.endCmd {}) session with ⟨failure | answer, after⟩
      · rw [Program.bind_error ended]
      · cases (endCmd_yields {}).value ended
        rw [Program.bind_ok ended]
        rfl
  | cons command commands ih =>
    cases carried with
    | cons carries rest =>
      rename_i frame frames
      have taken := takeFrame_bytes crc carries.2.1 (frames.flatMap (Frame.bytes crc))
      simp only [List.flatMap_cons]
      rw [decodeFrames_ok taken, handleCmd_inFrame carries, List.cons_append, handleAll]
      rcases ended : method os command session with ⟨failure | answer, after⟩
      · rw [Program.bind_error ended]
      · cases (method_yields (inside command List.mem_cons_self)).value ended
        rw [Program.bind_ok ended]
        exact ih rest (fun other member => inside other (List.mem_cons_of_mem _ member)) after

/-- The receive of what a sequence of commands was written as runs their methods. -/
theorem readAndHandle_runs (crc : Bytes → UInt32) (os : Os World) {version : UInt32}
    (known : version = 1 ∨ version = 2) {commands behind : List SendCommand}
    (inside : ∀ command ∈ commands, ∀ stop, command ≠ .endCmd stop) {input : Bytes}
    (written : IsStream crc version (commands ++ .endCmd {} :: behind) input)
    (atomicPos : Option Nat) (session : Session World) :
    (readAndHandle crc (handleCmd os) (.new input atomicPos) session).1 =
        (handleAll os (commands ++ [.endCmd {}]) session).1 ∧
      (readAndHandle crc (handleCmd os) (.new input atomicPos) session).2.2 =
        (handleAll os (commands ++ [.endCmd {}]) session).2 := by
  obtain ⟨frames, carried, rfl⟩ := written
  have supported : version ≤ supportedVersion := by
    rcases known with rfl | rfl
    · decide
    · decide
  -- The reference reading takes the header off and then sees the frames one by one.
  obtain ⟨result, state⟩ := readAndHandle_decodeWith crc (handleCmd os)
    (streamHeader version ++ frames.flatMap (Frame.bytes crc)) atomicPos session
  have runs := decodeFrames_runs crc os carried inside session
  rw [result, state, decode, takeHeader_bytes supported]
  exact Prod.mk.inj runs

/--
The receive of what a sequence of commands was written as runs their methods one after the other up
to the first one that fails or the first end, whatever the system answers. If none fails, and the
first command begins a subvolume, then that is sealed at the end, once and with the identity that it
was sent with.
-/
theorem receive_runs (crc : Bytes → UInt32) (os : Os World) {built : HandleFull}
    (new_one : Built built) (world : World) (version : UInt32) (known : version = 1 ∨ version = 2)
    (cmds behind : List SendCommand) (inside : ∀ cmd ∈ cmds, ∀ stop, cmd ≠ .endCmd stop)
    (input : Bytes) (written : IsStream crc version (cmds ++ .endCmd {} :: behind) input)
    (atomicPos : Option Nat) :
    let received := readAndHandle crc (handleCmd os.recording) (.new input atomicPos)
      ⟨built, (world, [])⟩
    let run := handleAll os.recording (cmds ++ [.endCmd {}]) ⟨built, (world, [])⟩
    received.1 = run.1 ∧ received.2.2 = run.2 ∧
      ∀ begins later, cmds = .subvol begins :: later → received.1 = .ok () →
        SealedRun os built.dirfd begins (stime os world) received.2.2 := by
  obtain ⟨result, state⟩ := readAndHandle_runs crc os.recording known inside written atomicPos
    ⟨built, (world, [])⟩
  refine ⟨result, state, ?_⟩
  rintro begins later rfl succeeds
  -- The run of the methods is one that seals its subvolume.
  have success : (recorded (handleAll os.recording (.subvol begins :: later ++ [.endCmd {}]))
      ⟨built, world⟩).1 = .ok () := result.symm.trans succeeds
  have unended : ∀ cmd ∈ later, ∀ stop, cmd ≠ .endCmd stop := fun cmd member =>
    inside cmd (.tail _ member)
  have sealed_run := run_seals new_one (.start world) unended success
  rw [state]
  exact sealed_run

/-- The stream of one subvolume without anything in it is received as its two methods run. -/
theorem receive_runs_subvol :
    let begins : SubvolCmd := ⟨[115], 257, sentUuid⟩
    let received := readAndHandle (fun _ => 0) (handleCmd oldSystem.recording)
      (.new (Buffered.plainStream [subvolFrame, Buffered.endFrame]) none)
      ⟨handlerOfThree, ((), [])⟩
    let run := handleAll oldSystem.recording ([.subvol begins] ++ [.endCmd {}])
      ⟨handlerOfThree, ((), [])⟩
    received.1 = run.1 ∧ received.2.2 = run.2 ∧
      ∀ cmd later, [SendCommand.subvol begins] = .subvol cmd :: later → received.1 = .ok () →
        SealedRun oldSystem handlerOfThree.dirfd cmd (stime oldSystem ()) received.2.2 := by
  -- The frames are those of the two commands, with the attributes in the order of the stream.
  let path : Tlv := ⟨15, [115], by decide⟩
  let uuid : Tlv := ⟨1, sentUuid.bytes, by decide⟩
  let ctransid : Tlv := ⟨2, leBytes 8 257, by decide⟩
  have encodes : (Wire.ofMacro (⟨[115], 257, sentUuid⟩ : SubvolCmd)).Encodes
      subvolFrame.payload := by
    refine ⟨⟨fun _ _ => trivial, fun _ _ => trivial, fun _ _ => trivial, trivial⟩,
      [path, uuid, ctransid], ?_, ?_⟩
    · exact (List.Perm.swap _ _ _).cons _
    · show subvolFrame.payload = tlvBytes [path, uuid, ctransid]
      decide
  have first : (SendCommand.subvol ⟨[115], 257, sentUuid⟩).InFrame 2 subvolFrame :=
    ⟨rfl, by decide, _, rfl, encodes⟩
  have last : (SendCommand.endCmd {}).InFrame 2 Buffered.endFrame :=
    ⟨rfl, by decide, _, rfl, trivial, [], List.Perm.refl _, rfl⟩
  have written : IsStream (fun _ => 0) 2 ([.subvol ⟨[115], 257, sentUuid⟩] ++ [.endCmd {}])
      (Buffered.plainStream [subvolFrame, Buffered.endFrame]) :=
    ⟨[subvolFrame, Buffered.endFrame], .cons first (.cons last .nil), rfl⟩
  have unended : ∀ cmd ∈ [SendCommand.subvol ⟨[115], 257, sentUuid⟩], ∀ stop,
      cmd ≠ .endCmd stop := by
    intro cmd member stop
    rw [List.mem_singleton.mp member]
    exact SendCommand.noConfusion
  exact receive_runs (fun _ => 0) oldSystem handlerOfThree_built () 2 (Or.inr rfl)
    [.subvol ⟨[115], 257, sentUuid⟩] [] unended _ written none

end Libbtrfs.Receive.HandleFull
