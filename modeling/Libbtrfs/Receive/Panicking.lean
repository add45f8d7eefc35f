import Libbtrfs.Receive.Stream
import Libbtrfs.SendStream.NoPanic

/-! At which commands of a stream the handler panics, and that it panics nowhere else. -/

namespace Libbtrfs

section Passing

variable {σ : Type} {crc : Bytes → UInt32} {handler : HandleCmd σ} {version : UInt32}

/-- The frames are handed over one by one, and the handler asks for the next one behind each. -/
inductive Passes (handler : HandleCmd σ) (version : UInt32) : List Frame → σ → σ → Prop
  | none (state : σ) : Passes handler version [] state state
  | next {frame : Frame} {rest : List Frame} {state between last : σ}
      (wanted : handler frame.command frame.payload version state = (.ok (some ()), between))
      (later : Passes handler version rest between last) :
      Passes handler version (frame :: rest) state last

/-- The receive of a stream gets to a frame of it, and its handler into a state, in front of it. -/
def GetsTo (crc : Bytes → UInt32) (handler : HandleCmd σ) (input : Bytes) (start : σ)
    (version : UInt32) (frame : Frame) (state : σ) : Prop :=
  ∃ rest before after, takeHeader input = .ok (version, rest) ∧
    frames crc rest = before ++ frame :: after ∧ Passes handler version before start state

/-- The frames of an input make the receive panic if it gets to one that the handler panics at. -/
theorem decodeFrames_panics_at (crc : Bytes → UInt32) (handler : HandleCmd σ) (version : UInt32)
    (input : Bytes) (start : σ) :
    (decodeFrames crc handler version input start).result.Panics ↔
      ∃ before frame after state, frames crc input = before ++ frame :: after ∧
        Passes handler version before start state ∧
        (handler frame.command frame.payload version state).1.Panics := by
  -- The induction is on the frames of the input, up to the one that is refused.
  induction input using frames.induct crc generalizing start with
  | case1 input failure taken =>
    rw [decodeFrames_error taken, frames_error taken]
    refine ⟨fun panics => ?_, fun found => ?_⟩
    · obtain ⟨error, rfl⟩ := takeFrame_io taken
      exact absurd panics (Outcome.not_panics_io _)
    · obtain ⟨before, frame, after, state, split, _⟩ := found
      exact absurd split (by simp)
  | case2 input first rest taken ih =>
    rw [decodeFrames_ok taken, frames_ok taken]
    rcases answered : handler first.command first.payload version start with ⟨answer, between⟩
    constructor
    · intro panics
      cases answer with
      | error failure =>
        refine ⟨[], first, frames crc rest, start, rfl, .none start, ?_⟩
        rw [answered]
        exact Outcome.panics_error.mp panics
      | ok goes =>
        cases goes with
        | none => exact absurd panics (Outcome.not_panics_ok _)
        | some _ =>
          obtain ⟨before, frame, after, state, split, passes, at_frame⟩ := (ih between).mp panics
          exact ⟨first :: before, frame, after, state, by rw [split]; rfl, .next answered passes,
            at_frame⟩
    · rintro ⟨before, frame, after, state, split, passes, panics⟩
      -- The frame in question is the first one, or one behind it.
      cases passes with
      | none =>
        cases split
        rw [answered] at panics
        cases answer with
        | error failure => exact Outcome.panics_error.mp panics
        | ok goes => exact absurd panics (Outcome.not_panics_ok _)
      | next wanted later =>
        obtain ⟨rfl, behind⟩ := List.cons.inj split
        cases answered.symm.trans wanted
        exact (ih _).mpr ⟨_, frame, after, state, behind, later, panics⟩

/-- The receive of a stream panics if it gets to a frame that the handler panics at. -/
theorem readAndHandle_panics_at (crc : Bytes → UInt32) (handler : HandleCmd σ) (input : Bytes)
    (atomicPos : Option Nat) (start : σ) :
    (readAndHandle crc handler (.new input atomicPos) start).1.Panics ↔
      ∃ version frame state, GetsTo crc handler input start version frame state ∧
        (handler frame.command frame.payload version state).1.Panics := by
  rw [(readAndHandle_decodeWith crc handler input atomicPos start).1, decode]
  cases taken : takeHeader input with
  | error failure =>
    -- A refused header ends the receive before there is a frame.
    refine ⟨fun panics => ?_, fun found => ?_⟩
    · obtain ⟨error, rfl⟩ := takeHeader_io taken
      exact absurd panics (Outcome.not_panics_io _)
    · obtain ⟨version, frame, state, ⟨rest, before, after, header, _⟩, _⟩ := found
      cases taken.symm.trans header
  | ok pair =>
    refine (decodeFrames_panics_at crc handler pair.1 pair.2 start).trans ⟨?_, ?_⟩
    · rintro ⟨before, frame, after, state, split, passes, panics⟩
      exact ⟨pair.1, frame, state, ⟨pair.2, before, after, taken, split, passes⟩, panics⟩
    · rintro ⟨version, frame, state, ⟨rest, before, after, header, split, passes⟩, panics⟩
      cases taken.symm.trans header
      exact ⟨before, frame, after, state, split, passes, panics⟩

end Passing

namespace Receive.HandleFull

variable {World : Type} {os : Os World} {α β : Type}

/-- The commands that the handler is not written for, in the states in which it is not. -/
def PanicsAt (os : Os World) (session : Session World) : SendCommand → Prop
  | .snapshot _ => True
  | .subvol cmd =>
    session.handler.currentSubvol = [] ∧ pathMax < (withSeparator cmd.path).length
  | .clone cmd =>
    session.handler.uuidIsCurrent cmd.cloneUuid = false ∧ ∃ fd after,
      sysOpenat os cmd.path (oWronly ||| oCreat) (some mode) session = (.ok fd, after)
  | _ => False

/-- A program of the handler that does not panic in any session. -/
def Calm (program : Method World α) : Prop :=
  Program.Triple (fun _ => True) program (fun _ _ => True)
    fun failure _ => ∃ error, failure = .io error

/-- What it ends with is not a panic. -/
theorem Calm.not_panics {program : Method World α} (calm : Calm program) (session : Session World) :
    ¬Outcome.Panics (program session).1 := by
  -- A program that is calm ends with a value or with an error of a system call.
  rintro ⟨message, panics⟩
  have result := calm session trivial
  rcases ended : program session with ⟨_ | value, after⟩ <;> rw [ended] at result panics
  · obtain ⟨error, rfl⟩ := result
    cases panics
  · cases panics

/-- A sequence of such programs is one. -/
theorem Calm.bind {program : Method World α} {next : α → Method World β} (first : Calm program)
    (second : ∀ value, Calm (next value)) : Calm (program >>= next) :=
  Program.Triple.bind first second

/-- A value is no panic. -/
theorem calm_pure (value : α) : Calm (pure value : Method World α) :=
  .pure fun _ _ => trivial

/-- An error is no panic. -/
theorem calm_fail (error : IoError) : Calm (Program.fail (.io error) : Method World α) :=
  .fail fun _ _ => ⟨error, rfl⟩

/-- Reading the handler comes to no panic. -/
theorem calm_current : Calm (current : Method World HandleFull) := fun _ _ => trivial

/-- Nor does changing it. -/
theorem calm_update (change : HandleFull → HandleFull) :
    Calm (update change : Method World Unit) := fun _ _ => trivial

/-- Nor does taking its descriptor. -/
theorem calm_asRawFd : Calm (asRawFd : Method World Nat) := fun _ _ => trivial

/-- A call comes back with its answer, whatever that is. -/
theorem calm_invoke (call : Syscall Pointer) : Calm (invoke os call) := fun _ _ => trivial

/-- A system call comes back with its answer or an error. -/
theorem calm_syscall (call : Syscall Pointer) : Calm (syscall os call) := by
  -- Its answer is returned or is the error that it fails with.
  refine (calm_invoke call).bind fun answer => ?_
  cases answer with
  | ok value => exact calm_pure value
  | error code => exact calm_fail _

/-- An ioctl does so too. -/
theorem calm_ioctl (call : Syscall Pointer) : Calm (ioctl os call) := by
  -- Its answer is returned or is the error that it fails with.
  refine (calm_invoke call).bind fun answer => ?_
  cases btrfsIoctl (answer.mapError .os) with
  | ok value => exact calm_pure value
  | error error => exact calm_fail error

/-- A path that does not fit is an error. -/
theorem calm_getCPath (path : Bytes) : Calm (getCPath path : Method World Pointer) := by
  -- The buffer is written to, or the path does not fit.
  refine calm_current.bind fun handler => ?_
  cases doCPath path handler.pathBuf handler.currentSubvol.length with
  | ok buf => exact (calm_update _).bind fun _ => calm_pure _
  | error error => exact calm_fail error

/-- Nor does the other buffer panic. -/
theorem calm_getCPathSecondary (path : Bytes) :
    Calm (getCPathSecondary path : Method World Pointer) := by
  -- The other buffer is written to, or the path does not fit.
  refine calm_current.bind fun handler => ?_
  cases doCPath path handler.pathBufSecondary handler.currentSubvol.length with
  | ok buf => exact (calm_update _).bind fun _ => calm_pure _
  | error error => exact calm_fail error

/-- Opening a file by a path in the first buffer comes to no panic. -/
theorem calm_sysOpenat (path : Bytes) (flags : Int32) (mode : Option UInt32) :
    Calm (sysOpenat os path flags mode) :=
  calm_asRawFd.bind fun _ => (calm_getCPath path).bind fun _ => calm_syscall _

/-- Nor does opening one by a path in the other buffer. -/
theorem calm_sysOpenatSecondary (path : Bytes) (flags : Int32) (mode : Option UInt32) :
    Calm (sysOpenatSecondary os path flags mode) :=
  calm_asRawFd.bind fun _ => (calm_getCPathSecondary path).bind fun _ => calm_syscall _

/-- A method with one path has one call behind it. -/
theorem calm_atPath (path : Bytes) (call : Nat → Pointer → Syscall Pointer) :
    Calm (atPath os path call) :=
  (calm_getCPath path).bind fun _ => calm_asRawFd.bind fun _ =>
    (calm_syscall _).bind fun _ => calm_pure _

/-- So has a method with two operands. -/
theorem calm_atPaths (path other : Bytes) (call : Nat → Pointer → Pointer → Syscall Pointer) :
    Calm (atPaths os path other call) :=
  (calm_getCPath path).bind fun _ => (calm_getCPathSecondary other).bind fun _ =>
    calm_asRawFd.bind fun _ => (calm_syscall _).bind fun _ => calm_pure _

/-- A call by number that the system does not have is made in the other way. -/
theorem calm_byNumber (path name : Bytes) (sysno : Nat)
    (args : Pointer → Pointer → List (RawArg Pointer))
    (fallback : Pointer → Pointer → Syscall Pointer) :
    Calm (byNumber os path name sysno args fallback) := by
  -- The path is put into its buffer, and only one error number leads to the other call.
  refine .ite (fun _ => calm_fail _) fun _ => ?_
  refine (calm_getCPath path).bind fun _ => (calm_invoke _).bind fun answer => ?_
  cases answer with
  | ok value => exact calm_pure _
  | error code =>
    refine .ite (fun _ => ?_) fun _ => calm_fail _
    exact (calm_update _).bind fun _ => (calm_syscall _).bind fun _ => calm_pure _

/-- Nor does a round of the loop of `write` come to a panic, and so not the loop. -/
theorem calm_writeLoop (fd : Nat) (data : Bytes) (fileOffset : UInt64) (fuel pos : Nat) :
    Calm (writeLoop os fd data fileOffset fuel pos) := by
  -- The induction is on the fuel, a unit of which is for one write.
  induction fuel generalizing pos with
  | zero => exact calm_pure _
  | succ fuel ih =>
    unfold writeLoop
    refine .ite (fun _ => ?_) fun _ => calm_pure _
    exact (calm_syscall _).bind fun _ => ih _

/-- Putting a path into its buffer changes nothing that the handler knows of its subvolume. -/
theorem getCPath_args (path : Bytes) (session : Session World) :
    (getCPath path session).2.handler.receivedArgs = session.handler.receivedArgs := by
  -- Only the buffer is written, if the path fits.
  simp only [getCPath, current, update, bind, Program.get, pure, Program.modify]
  cases doCPath path session.handler.pathBuf session.handler.currentSubvol.length with
  | ok buf => rfl
  | error error => rfl

/-- Nor does opening a file. -/
theorem sysOpenat_args {path : Bytes} {flags : Int32} {mode : Option UInt32}
    {session after : Session World} {fd : Nat}
    (opened : sysOpenat os path flags mode session = (.ok fd, after)) :
    after.handler.receivedArgs = session.handler.receivedArgs := by
  have read : asRawFd session = (.ok session.handler.dirfd, session) := rfl
  have named := getCPath_args path session
  rw [sysOpenat, Program.bind_ok read] at opened
  rcases ended : getCPath path session with ⟨_ | pointer, between⟩
  · rw [Program.bind_error ended] at opened
    cases opened
  · rw [Program.bind_ok ended] at opened
    rw [ended] at named
    -- The call behind it changes the world alone.
    rcases syscall_cases os (.openat session.handler.dirfd pointer flags mode) between with
      ⟨answer, world, made⟩ | ⟨code, world, failed⟩
    · cases made.symm.trans opened
      exact named
    · cases failed.symm.trans opened

/-- `clone` panics behind its destination, if the clone comes from another subvolume. -/
theorem clone_panics_iff (cmd : CloneCmd) (session : Session World) :
    Outcome.Panics (clone os cmd session).1 ↔ PanicsAt os session (.clone cmd) := by
  unfold clone PanicsAt
  rcases opened : sysOpenat os cmd.path (oWronly ||| oCreat) (some mode) session with
    ⟨failure | fd, after⟩
  · -- A destination that cannot be opened is an error.
    rw [Program.bind_error opened]
    have calm := (@calm_sysOpenat _ os cmd.path (oWronly ||| oCreat) (some mode)).not_panics session
    rw [opened] at calm
    refine ⟨fun panics => absurd (Outcome.panics_error.mp panics) calm, ?_⟩
    rintro ⟨_, fd, other, impossible⟩
    cases opened.symm.trans impossible
  · have read : (current : Method World HandleFull) after = (.ok after.handler, after) := rfl
    have same : after.handler.uuidIsCurrent cmd.cloneUuid =
        session.handler.uuidIsCurrent cmd.cloneUuid := by
      rw [uuidIsCurrent, uuidIsCurrent, sysOpenat_args opened]
    rw [Program.bind_ok opened, Program.bind_ok read, same]
    cases own : session.handler.uuidIsCurrent cmd.cloneUuid with
    | false => exact ⟨fun _ => ⟨own, fd, after, opened⟩, fun _ => ⟨_, rfl⟩⟩
    | true =>
      have rest : Calm (sysOpenatSecondary os cmd.clonePath oRdonly none >>= fun cloneFd =>
          ioctl os (.cloneRange fd
            { srcFd := cloneFd, srcLength := cmd.cloneLen, srcOffset := cmd.cloneOffset,
              destOffset := cmd.fileOffset }) >>= fun _ => pure (some ())) :=
        (calm_sysOpenatSecondary _ _ _).bind fun _ => (calm_ioctl _).bind fun _ => calm_pure _
      refine ⟨fun panics => absurd panics (rest.not_panics after), ?_⟩
      exact fun both => absurd (own.symm.trans both.1) (by decide)

/-- A method panics at the commands that it is not written for, and at no others. -/
theorem method_panics_iff (cmd : SendCommand) (session : Session World) :
    Outcome.Panics (method os cmd session).1 ↔ PanicsAt os session cmd := by
  have calmly : Calm (method os cmd) → ¬PanicsAt os session cmd →
      (Outcome.Panics (method os cmd session).1 ↔ PanicsAt os session cmd) := fun calm fine =>
    ⟨fun panics => absurd panics (calm.not_panics session), fun panics => absurd panics fine⟩
  -- One case for each method; three of them may panic.
  cases cmd with
  | snapshot cmd => exact ⟨fun _ => trivial, fun _ => ⟨_, rfl⟩⟩
  | subvol cmd => exact subvol_panics_iff cmd session
  | clone cmd => exact clone_panics_iff cmd session
  | endCmd cmd =>
    exact ⟨fun panics => absurd panics (endCmd_handler cmd session).1,
      fun impossible => impossible.elim⟩
  | updateExtent cmd | fileattr cmd => exact calmly (calm_pure _) id
  | mkdir cmd | mknod cmd | mkfifo cmd | mksock cmd | unlink cmd | rmdir cmd | chmod cmd | chown cmd
  | utimes cmd => exact calmly (calm_atPath _ _) id
  | symlink cmd | rename cmd | link cmd => exact calmly (calm_atPaths _ _ _) id
  | setXattr cmd =>
    exact calmly (show Calm (setXattr os cmd) from calm_byNumber _ _ _ _ _) id
  | removeXattr cmd =>
    exact calmly (show Calm (removeXattr os cmd) from calm_byNumber _ _ _ _ _) id
  | mkfile cmd => exact calmly ((calm_sysOpenat _ _ _).bind fun _ => calm_pure _) id
  | write cmd =>
    exact calmly ((calm_sysOpenat _ _ _).bind fun _ => (calm_writeLoop _ _ _ _ _).bind fun _ =>
      calm_pure _) id
  | fallocate cmd =>
    exact calmly ((calm_sysOpenat _ _ _).bind fun _ => (calm_syscall _).bind fun _ =>
      calm_pure _) id
  | encodedWrite cmd =>
    exact calmly ((calm_sysOpenat _ _ _).bind fun _ => (calm_ioctl _).bind fun _ =>
      calm_pure _) id
  | truncate cmd =>
    refine calmly (.ite (fun _ => ?_) fun _ => ?_) id
    · exact (calm_sysOpenat _ _ _).bind fun _ => calm_pure _
    · exact (calm_sysOpenat _ _ _).bind fun _ => (calm_syscall _).bind fun _ => calm_pure _

/-- A call of the handler panics at a frame that cannot be parsed, or at such a command. -/
theorem handleCmd_panics_iff (frame : Frame) (version : UInt32) (session : Session World) :
    Outcome.Panics (handleCmd os frame.command frame.payload version session).1 ↔
      Unparsable version frame ∨ ∃ cmd, parseStage frame.command frame.payload version = .ok cmd ∧
        PanicsAt os session cmd := by
  -- A frame is parsed first, and its method runs only if that succeeds.
  have stage := parseStage_panics_iff frame.command frame.payload version
  unfold handleCmd
  cases parsed : parseStage frame.command frame.payload version with
  | error failure =>
    rw [parsed] at stage
    simp only [reduceCtorEq, false_and, exists_false, or_false]
    exact Outcome.panics_error.trans stage
  | ok cmd =>
    have parsable : ¬Unparsable version frame := by
      rw [parsed] at stage
      exact fun unparsable => Outcome.not_panics_ok _ (stage.mpr unparsable)
    simp only [parsable, false_or, Except.ok.injEq, exists_eq_left']
    exact method_panics_iff cmd session

/--
The receive of a stream panics exactly if it gets to a frame that cannot be parsed, to a snapshot,
to a subvolume whose path is longer than the buffers, or to a clone from another subvolume into a
file that can be opened.
-/
theorem receive_panics_iff (crc : Bytes → UInt32) (os : Os World) (session : Session World)
    (input : Bytes) (atomicPos : Option Nat) :
    (readAndHandle crc (handleCmd os) (.new input atomicPos) session).1.Panics ↔
      ∃ version frame between, GetsTo crc (handleCmd os) input session version frame between ∧
        (Unparsable version frame ∨
          ∃ cmd, parseStage frame.command frame.payload version = .ok cmd ∧
            PanicsAt os between cmd) := by
  -- The receive panics exactly in a call of the handler that it gets to.
  rw [readAndHandle_panics_at]
  simp only [handleCmd_panics_iff]

end Receive.HandleFull

end Libbtrfs
