import Libbtrfs.Receive.Carrying

/-! What the path buffers hold in every state that a handler reaches. -/

namespace Libbtrfs.Receive

namespace HandleFull

variable {World : Type} {os : Os World} {base : Bytes}

/-- A handler as one of the two constructors returns it. -/
def Built (built : HandleFull) : Prop :=
  (∃ path opened isDir, fromPath path opened isDir = .ok built) ∨
    ∃ dirfd isDir, new dirfd isDir = .ok built

/-- The commands that a handler has been given so far, none of which made it panic. -/
inductive Received (os : Os World) (built : HandleFull) : List SendCommand → Session World → Prop
  | start (world : World) : Received os built [] ⟨built, world⟩
  | call {cmds : List SendCommand} {session : Session World} (cmd : SendCommand)
      (earlier : Received os built cmds session)
      (returns : ¬ Outcome.Panics (method os cmd session).1) :
      Received os built (cmds ++ [cmd]) (method os cmd session).2

/-- What holds of the handler at any time. -/
structure Sound (dirfd : Nat) (base : Bytes) (handler : HandleFull) : Prop where
  dirfd : handler.dirfd = dirfd
  buffers : handler.Prefixed
  fallback : handler.Based base

/-- A handler is built as a fresh one, whose fallback holds its base and nothing else. -/
theorem Built.fresh {built : HandleFull} (new_one : Built built) :
    built.currentSubvol = [] ∧ built.receivedArgs = .zeroed ∧
      built.xattrFallback.len = built.xattrFallback.buf.length := by
  rcases new_one with ⟨path, opened, isDir, made⟩ | ⟨dirfd, isDir, made⟩
  · -- Both answers were values, and the second one was that it is a directory.
    rcases opened with _ | fd
    · cases made
    · rcases isDir with _ | _ | _ <;> cases made
      exact ⟨rfl, rfl, rfl⟩
  · rcases isDir with _ | _ | _ <;> cases made
    exact ⟨rfl, rfl, rfl⟩

/-- A fresh handler is sound: nothing is to be in front of its buffers yet. -/
theorem Built.sound {built : HandleFull} (new_one : Built built) :
    Sound built.dirfd built.xattrFallback.buf built := by
  -- Nothing is a prefix of everything, and the base is a prefix of itself.
  obtain ⟨empty, _, len⟩ := new_one.fresh
  refine ⟨rfl, ⟨?_, ?_⟩, ⟨len, List.prefix_refl _⟩⟩
  · rw [empty]
    exact List.nil_prefix
  · rw [empty]
    exact List.nil_prefix

/-- What the clock gives for the time of a subvolume. -/
def stime (os : Os World) (world : World) : IoctlTimespec :=
  match os.now world with
  | none => ⟨0, 0⟩
  | some now => ⟨now.asSecs, now.asSecs.toUInt32⟩

/-- The handler that `subvol` leaves behind when it has written its path to the buffers. -/
def opened (handler : HandleFull) (cmd : SubvolCmd) (stime : IoctlTimespec)
    (inside : 0 + (withSeparator cmd.path).length ≤ pathMax) : HandleFull where
  dirfd := handler.dirfd
  pathBuf := handler.pathBuf.copyAt 0 (withSeparator cmd.path) inside
  pathBufSecondary := handler.pathBufSecondary.copyAt 0 (withSeparator cmd.path) inside
  currentSubvol := withSeparator cmd.path
  receivedArgs :=
    { handler.receivedArgs with
      stransid := cmd.ctransid, uuid := .ofUuid cmd.uuid, stime := stime }
  xattrFallback := handler.xattrFallback

/-- `subvol` refuses, panics, or opens the handler before it makes its only call. -/
theorem subvol_cases (os : Os World) (cmd : SubvolCmd) (session : Session World) :
    (session.handler.currentSubvol ≠ [] ∧
        subvol os cmd session = (.error (receiveError "Stream is invalid"), session)) ∨
      (session.handler.currentSubvol = [] ∧ pathMax < (withSeparator cmd.path).length ∧
        Outcome.Panics (subvol os cmd session).1) ∨
      (session.handler.currentSubvol = [] ∧ ∃ inside,
        subvol os cmd session = (create os session.handler.dirfd cmd.path >>= fun _ =>
            pure (some ()))
          ⟨session.handler.opened cmd (stime os session.world) inside, session.world⟩) := by
  -- The checks come first, then both buffers are written, then the subvolume is created.
  have read : (current : Method World HandleFull) session = (.ok session.handler, session) := rfl
  unfold subvol
  rw [Program.bind_ok read]
  by_cases active : session.handler.currentSubvol = []
  · rw [if_neg (not_not_intro active)]
    by_cases inside : 0 + (withSeparator cmd.path).length ≤ pathMax
    · refine Or.inr (Or.inr ⟨active, inside, ?_⟩)
      simp only [dif_pos inside]
      have clock : ∀ now : Session World,
          getBtrfsTimespecFromSystemTime os now = (.ok (stime os now.world), now) := by
        intro now
        unfold getBtrfsTimespecFromSystemTime stime
        simp only [bind, Program.get]
        cases os.now now.world <;> rfl
      simp only [bind, update, Program.modify, clock, asRawFd, current, Program.get, pure]
      rfl
    · refine Or.inr (Or.inl ⟨active, by omega, ?_⟩)
      simp only [dif_neg inside]
      exact ⟨_, rfl⟩
  · rw [if_pos active]
    exact Or.inl ⟨active, rfl⟩

/-- Creating a subvolume leaves the handler alone, and comes back with an error if it fails. -/
theorem create_cases (os : Os World) (dir : Nat) (name : Bytes) (session : Session World) :
    (∃ world, create os dir name session = (.ok (), ⟨session.handler, world⟩)) ∨
      ∃ error world, create os dir name session = (.error (.io error), ⟨session.handler, world⟩) := by
  -- The name is checked before the ioctl, which is the only call.
  unfold create
  cases setVolName name with
  | error error => exact Or.inr ⟨error, session.world, rfl⟩
  | ok value =>
    rcases ioctl_cases os (.subvolCreateV2 dir name) session with ⟨_, world, ends⟩ | failed
    · exact Or.inl ⟨world, ends⟩
    · exact Or.inr failed

/-- `subvol` panics exactly when it is to begin with a path that is longer than the buffers. -/
theorem subvol_panics_iff (cmd : SubvolCmd) (session : Session World) :
    Outcome.Panics (subvol os cmd session).1 ↔
      session.handler.currentSubvol = [] ∧ pathMax < (withSeparator cmd.path).length := by
  rcases subvol_cases os cmd session with ⟨active, ends⟩ | ⟨idle, long, panics⟩ | ⟨idle, inside, ends⟩
  · rw [ends]
    exact ⟨fun panics => absurd panics (Outcome.not_panics_receiveError _),
      fun both => absurd both.1 active⟩
  · exact ⟨fun _ => ⟨idle, long⟩, fun _ => panics⟩
  · rw [ends]
    refine ⟨fun panics => ?_, fun both => by omega⟩
    -- Only creating the subvolume is left to do, and that comes back with an error if it fails.
    rcases create_cases os session.handler.dirfd cmd.path
      ⟨session.handler.opened cmd (stime os session.world) inside, session.world⟩ with
      ⟨world, created⟩ | ⟨error, world, failed⟩
    · rw [Program.bind_ok created] at panics
      exact absurd panics (Outcome.not_panics_ok _)
    · rw [Program.bind_error failed] at panics
      exact absurd panics (Outcome.not_panics_io _)

/-- Unless it panics, `subvol` has opened the handler if no subvolume was being received. -/
theorem subvol_handler (cmd : SubvolCmd) (session : Session World)
    (returns : ¬ Outcome.Panics (subvol os cmd session).1) :
    (session.handler.currentSubvol ≠ [] ∧
        (subvol os cmd session).2.handler = session.handler) ∨
      (session.handler.currentSubvol = [] ∧ ∃ inside, (subvol os cmd session).2.handler =
        session.handler.opened cmd (stime os session.world) inside) := by
  rcases subvol_cases os cmd session with ⟨active, ends⟩ | ⟨_, _, panics⟩ | ⟨idle, inside, ends⟩
  · exact Or.inl ⟨active, by rw [ends]⟩
  · exact absurd panics returns
  · refine Or.inr ⟨idle, inside, ?_⟩
    rw [ends]
    -- Creating the subvolume comes last, and does not touch the handler.
    rcases create_cases os session.handler.dirfd cmd.path
      ⟨session.handler.opened cmd (stime os session.world) inside, session.world⟩ with
      ⟨world, created⟩ | ⟨error, world, failed⟩
    · rw [Program.bind_ok created]
      rfl
    · rw [Program.bind_error failed]

/-- `end` refuses, or takes the subvolume out of the handler whatever becomes of its calls. -/
theorem endCmd_handler (cmd : EndCmd) (session : Session World) :
    ¬ Outcome.Panics (endCmd os cmd session).1 ∧
      ((session.handler.currentSubvol = [] ∧ (endCmd os cmd session).2.handler = session.handler) ∨
        (session.handler.currentSubvol ≠ [] ∧ ∃ pathBuf args,
          (endCmd os cmd session).2.handler =
            { session.handler with pathBuf, currentSubvol := [], receivedArgs := args })) := by
  have read : (current : Method World HandleFull) session = (.ok session.handler, session) := rfl
  unfold endCmd
  rw [Program.bind_ok read]
  by_cases active : session.handler.currentSubvol = []
  · rw [if_pos active]
    exact ⟨Outcome.not_panics_receiveError _, Or.inl ⟨active, rfl⟩⟩
  · rw [if_neg active]
    -- The file is opened by the path alone, as no subvolume is in front of it any more.
    let taken : Session World := ⟨{ session.handler with currentSubvol := [] }, session.world⟩
    have takes : (update fun handler => { handler with currentSubvol := [] }) session =
        (.ok (), taken) := rfl
    have empty : taken.handler.currentSubvol <+: taken.handler.pathBuf.bytes := List.nil_prefix
    rw [Program.bind_ok takes]
    rcases sysOpenat_cases os session.handler.currentSubvol oRdonly none empty with
      ⟨_, pathBuf, opening, _⟩ | ⟨_, refused⟩
    · rcases syscall_cases os (.openat taken.handler.dirfd .pathBuf oRdonly none)
        { taken with handler := { taken.handler with pathBuf } } with
        ⟨fd, world, made⟩ | ⟨code, world, failed⟩
      · rw [Program.bind_ok (opening.trans made)]
        rcases ioctl_cases os (.setReceivedSubvol fd session.handler.receivedArgs)
          ⟨{ taken.handler with pathBuf }, world⟩ with
          ⟨args, after, sealed⟩ | ⟨error, after, failed⟩
        · rw [Program.bind_ok sealed]
          exact ⟨Outcome.not_panics_ok _, Or.inr ⟨active, pathBuf, .zeroed, rfl⟩⟩
        · rw [Program.bind_error failed]
          exact ⟨Outcome.not_panics_io _,
            Or.inr ⟨active, pathBuf, session.handler.receivedArgs, rfl⟩⟩
      · rw [Program.bind_error (opening.trans failed)]
        exact ⟨Outcome.not_panics_io _,
          Or.inr ⟨active, pathBuf, session.handler.receivedArgs, rfl⟩⟩
    · rw [Program.bind_error refused]
      exact ⟨Outcome.not_panics_io _,
        Or.inr ⟨active, session.handler.pathBuf, session.handler.receivedArgs, rfl⟩⟩

/-- The path of the subvolume that is received behind a command, from that in front of it. -/
def activeAfter (active : Bytes) : SendCommand → Bytes
  | .subvol cmd => if active = [] then withSeparator cmd.path else active
  | .endCmd _ => []
  | _ => active

/-- The path of the subvolume that is received behind the commands, or nothing outside of any. -/
def activeSubvol (cmds : List SendCommand) : Bytes := cmds.foldl activeAfter []

/-- A command on files is received inside the subvolume that is received already. -/
theorem activeAfter_files {cmd : SendCommand} (files : OnFiles cmd) (active : Bytes) :
    activeAfter active cmd = active := by
  -- Only the commands that are not on files change it.
  cases cmd <;> first | rfl | exact files.elim

/-- Every system keeps what holds of every world. -/
theorem osKeeps_true (allowed : Syscall Bytes → Prop) : OsKeeps os allowed fun _ => True :=
  fun _ _ _ _ _ => trivial

/-- A method that does not panic leaves a sound handler, and changes the subvolume as it should. -/
theorem method_sound {cmd : SendCommand} {session : Session World} {dirfd : Nat}
    (sound : Sound dirfd base session.handler)
    (returns : ¬ Outcome.Panics (method os cmd session).1) :
    Sound dirfd base (method os cmd session).2.handler ∧
      (method os cmd session).2.handler.currentSubvol =
        activeAfter session.handler.currentSubvol cmd := by
  have on_files : OnFiles cmd → Sound dirfd base (method os cmd session).2.handler ∧
      (method os cmd session).2.handler.currentSubvol =
        activeAfter session.handler.currentSubvol cmd := by
    intro files
    have serving : Serving session.handler base (fun _ => True) session :=
      ⟨rfl, rfl, rfl, sound.buffers, sound.fallback, trivial⟩
    have keeps : OsKeeps os (session.handler.Carries base cmd) fun _ => True := osKeeps_true _
    have after := (method_serving files keeps).after serving
    rw [activeAfter_files files]
    exact ⟨⟨after.dirfd.trans sound.dirfd, after.buffers, after.fallback⟩, after.subvol⟩
  cases cmd with
  | subvol cmd =>
    rcases subvol_handler cmd session returns with ⟨active, same⟩ | ⟨idle, inside, same⟩
    · -- A second subvolume is refused.
      show Sound dirfd base (subvol os cmd session).2.handler ∧
        (subvol os cmd session).2.handler.currentSubvol = _
      rw [same, activeAfter, if_neg active]
      exact ⟨sound, rfl⟩
    · show Sound dirfd base (subvol os cmd session).2.handler ∧
        (subvol os cmd session).2.handler.currentSubvol = _
      rw [same, activeAfter, if_pos idle]
      refine ⟨⟨sound.dirfd, ⟨?_, ?_⟩, ⟨sound.fallback.len, sound.fallback.buf⟩⟩, rfl⟩
      · exact copyAt_begins List.nil_prefix inside
      · exact copyAt_begins List.nil_prefix inside
  | endCmd cmd =>
    show Sound dirfd base (endCmd os cmd session).2.handler ∧
      (endCmd os cmd session).2.handler.currentSubvol = []
    rcases (endCmd_handler cmd session).2 with ⟨idle, same⟩ | ⟨_, pathBuf, args, same⟩
    · rw [same]
      exact ⟨sound, idle⟩
    · rw [same]
      exact ⟨⟨sound.dirfd, ⟨List.nil_prefix, List.nil_prefix⟩,
        ⟨sound.fallback.len, sound.fallback.buf⟩⟩, rfl⟩
  | _ => exact on_files trivial

/-- In every state that a handler reaches it is sound, and receives the subvolume that it should. -/
theorem received_sound {built : HandleFull} (new_one : Built built) {cmds : List SendCommand}
    {session : Session World} (received : Received os built cmds session) :
    Sound built.dirfd built.xattrFallback.buf session.handler ∧
      session.handler.currentSubvol = activeSubvol cmds := by
  -- By induction on the commands: each method keeps what the earlier ones have left.
  induction received with
  | start world => exact ⟨new_one.sound, new_one.fresh.1⟩
  | call cmd earlier returns ih =>
    obtain ⟨sound, active⟩ := ih
    obtain ⟨after, changed⟩ := method_sound sound returns
    refine ⟨after, ?_⟩
    rw [changed, active, activeSubvol, activeSubvol, List.foldl_append, List.foldl_cons,
      List.foldl_nil]

/-- What a method comes to when the system also writes down its calls. -/
def recorded {α : Type} (program : Method (World × List (Syscall Bytes)) α)
    (session : Session World) : Except Failure α × Session (World × List (Syscall Bytes)) :=
  program ⟨session.handler, (session.world, [])⟩

/-- The calls that the method of a command makes, in their order. -/
def callsOf (os : Os World) (cmd : SendCommand) (session : Session World) : List (Syscall Bytes) :=
  (recorded (method os.recording cmd) session).2.world.2

/-- What is written down is what is allowed, as long as every call is. -/
theorem recording_keeps (os : Os World) (allowed : Syscall Bytes → Prop) :
    OsKeeps os.recording allowed fun world => ∀ call ∈ world.2, allowed call := by
  -- A call is written down only when it is made.
  intro memory call world fine before other member
  rcases List.mem_append.mp member with old | new
  · exact before other old
  · rw [List.mem_singleton.mp new]
    exact fine

/-- A sound handler makes only calls that carry the operands of the command it is given. -/
theorem callsOf_carries {cmd : SendCommand} (files : OnFiles cmd) {session : Session World}
    {dirfd : Nat} (sound : Sound dirfd base session.handler) :
    ∀ call ∈ callsOf os cmd session, session.handler.Carries base cmd call := by
  -- What is written down is a property of the world that the method keeps.
  have keeps := recording_keeps os (session.handler.Carries base cmd)
  have serving : Serving session.handler base
      (fun world : World × List (Syscall Bytes) => ∀ call ∈ world.2,
        session.handler.Carries base cmd call) ⟨session.handler, (session.world, [])⟩ :=
    ⟨rfl, rfl, rfl, sound.buffers, sound.fallback, fun _ member => nomatch member⟩
  exact ((method_serving files keeps).after serving).world

/-- A call that is written down comes to the same answer, and is the last of the calls. -/
theorem invoke_recorded {os : Os World} {call : Syscall Pointer}
    {session : Session (World × List (Syscall Bytes))} {answer : Except Nat call.Answer}
    {world : World}
    (answered : os.call session.handler.memory call session.world.1 = (answer, world)) :
    invoke os.recording call session =
      (.ok answer,
        ⟨session.handler, (world, session.world.2 ++ [call.map session.handler.memory])⟩) := by
  -- Recording asks the system for the answer.
  refine invoke_answered ?_
  simp only [Os.recording, answered]

/-- A system call is written down behind the earlier ones, and the handler is as before. -/
theorem syscall_recorded (os : Os World) (call : Syscall Pointer)
    (session : Session (World × List (Syscall Bytes))) :
    ∃ world, (syscall os.recording call session).2 =
      ⟨session.handler, (world, session.world.2 ++ [call.map session.handler.memory])⟩ := by
  -- The call is written down with the bytes that its pointers lead to at that time.
  unfold syscall
  rcases answered : os.call session.handler.memory call session.world.1 with ⟨answer, world⟩
  rw [Program.bind_ok (invoke_recorded answered)]
  cases answer with
  | ok value => exact ⟨world, rfl⟩
  | error code => exact ⟨world, rfl⟩

/-- A method by number makes no call, or that call, or that call and the one in its place. -/
theorem byNumber_recorded (os : Os World) (path name : Bytes) (sysno : Nat)
    (args : Pointer → Pointer → List (RawArg Pointer)) (fallback : Pointer → Pointer → Syscall Pointer)
    {session : Session World}
    (begins : session.handler.currentSubvol <+: session.handler.pathBuf.bytes) :
    let namePtr := Pointer.temporary (xattrNameBuf name)
    let result := (recorded (byNumber os.recording path name sysno args fallback) session).2
    (result.world.2 = [] ∧ result.handler = session.handler ∧
        (xattrNameMax < name.length ∨
          pathMax < session.handler.currentSubvol.length + path.length + 1)) ∨
      (name.length ≤ xattrNameMax ∧
        session.handler.currentSubvol.length + path.length + 1 ≤ pathMax ∧
        ∃ pathBuf, session.handler.currentSubvol ++ toBytesWithNul path <+: pathBuf.bytes ∧
          let named := { session.handler with pathBuf }
          let extended :=
            { named with
              xattrFallback := named.xattrFallback.extend named.currentSubvol path }
          let raw := (Syscall.raw sysno (args .pathBuf namePtr)).map named.memory
          (result.world.2 = [raw] ∧ result.handler = named) ∨
            (result.world.2 = [raw, (fallback .xattrFallback namePtr).map extended.memory] ∧
              result.handler = extended)) := by
  intro namePtr result
  let start : Session (World × List (Syscall Bytes)) := ⟨session.handler, (session.world, [])⟩
  have runs : result = (byNumber os.recording path name sysno args fallback start).2 := rfl
  rw [runs]
  unfold byNumber
  by_cases named : name.length > xattrNameMax
  · rw [if_pos named]
    exact Or.inl ⟨rfl, rfl, Or.inl named⟩
  rw [if_neg named]
  have begins_start : start.handler.currentSubvol <+: start.handler.pathBuf.bytes := begins
  rcases getCPath_cases path begins_start with
    ⟨fits, pathBuf, written, holds⟩ | ⟨long, refused⟩
  · refine Or.inr ⟨by omega, fits, pathBuf, holds, ?_⟩
    rw [Program.bind_ok written]
    -- The call by number is written down whatever its answer is.
    let ready : HandleFull := { session.handler with pathBuf }
    let raw := Syscall.raw sysno (args .pathBuf namePtr)
    rcases answered : os.call ready.memory raw session.world with ⟨answer, world⟩
    let called : Session (World × List (Syscall Bytes)) := ⟨ready, (world, [raw.map ready.memory])⟩
    have made : invoke os.recording raw { start with handler := ready } = (.ok answer, called) :=
      invoke_recorded answered
    rw [Program.bind_ok made]
    cases answer with
    | ok value => exact Or.inl ⟨rfl, rfl⟩
    | error code =>
      by_cases missing : code = enosys
      · -- The fallback is called with its own buffer, which gets the path now.
        right
        let extended : HandleFull :=
          { ready with xattrFallback := ready.xattrFallback.extend ready.currentSubvol path }
        simp only [if_pos missing]
        have extends_it : (update fun handler =>
            { handler with
              xattrFallback := handler.xattrFallback.extend handler.currentSubvol path }) called =
            (.ok (), { called with handler := extended }) := rfl
        rw [Program.bind_ok extends_it, Program.bind_pure_state]
        obtain ⟨after, ends⟩ := syscall_recorded os (fallback .xattrFallback namePtr)
          { called with handler := extended }
        rw [ends]
        exact ⟨rfl, rfl⟩
      · simp only [if_neg missing]
        exact Or.inl ⟨rfl, rfl⟩
  · rw [Program.bind_error refused]
    exact Or.inl ⟨rfl, rfl, Or.inr long⟩

/-- The path of a command that may use the fallback. -/
def xattrPath : SendCommand → Option Bytes
  | .setXattr cmd => some cmd.path
  | .removeXattr cmd => some cmd.path
  | _ => none

/-- A use of the fallback leaves exactly the base, the subvolume and the path in its buffer. -/
theorem byNumber_exact {path name : Bytes} {sysno : Nat}
    {args : Pointer → Pointer → List (RawArg Pointer)} {fallback : Pointer → Pointer → Syscall Pointer}
    {session : Session World} {dirfd : Nat} (sound : Sound dirfd base session.handler)
    (raw_paths : ∀ namePtr memory whole,
      ((Syscall.raw sysno (args .pathBuf namePtr)).map memory).paths ≠ [.whole whole])
    (fallback_paths : ∀ namePtr memory,
      ((fallback .xattrFallback namePtr).map memory).paths = [.whole (memory .xattrFallback)]) :
    let result := (recorded (byNumber os.recording path name sysno args fallback) session).2
    ∀ call ∈ result.world.2, ∀ memory, call.paths = [.whole memory] →
      memory = base ++ session.handler.currentSubvol ++ toBytesWithNul path ∧
        result.handler.xattrFallback.buf = memory := by
  intro result call made memory used
  rcases byNumber_recorded os path name sysno args fallback sound.buffers.first with
    ⟨none_made, _⟩ | ⟨_, _, pathBuf, _, ⟨one_made, _⟩ | ⟨both_made, left_behind⟩⟩
  · rw [none_made] at made
    exact nomatch made
  · rw [one_made] at made
    rw [List.mem_singleton.mp made] at used
    exact absurd used (raw_paths _ _ _)
  · rw [both_made] at made
    rcases List.mem_cons.mp made with first | second
    · rw [first] at used
      exact absurd used (raw_paths _ _ _)
    · -- Only this one goes through the buffer of the fallback.
      rw [List.mem_singleton.mp second, fallback_paths] at used
      have whole := PathArg.whole.inj (List.cons.inj used).1
      have buffer : result.handler.xattrFallback.buf = memory := by rw [left_behind, ← whole]; rfl
      rw [← whole]
      exact ⟨extend_exact sound.fallback _ _, buffer.trans whole.symm⟩

/-- So it is for both commands that may use the fallback. -/
theorem fallback_exact {cmd : SendCommand} {path : Bytes} (about : xattrPath cmd = some path)
    {session : Session World} {dirfd : Nat} (sound : Sound dirfd base session.handler)
    {call : Syscall Bytes} (made : call ∈ callsOf os cmd session) {memory : Bytes}
    (used : call.paths = [.whole memory]) :
    memory = base ++ session.handler.currentSubvol ++ toBytesWithNul path ∧
      (recorded (method os.recording cmd) session).2.handler.xattrFallback.buf = memory := by
  -- Of the calls that carry the path, only the fallback has it in a buffer of its own.
  cases cmd with
  | setXattr cmd =>
    cases about
    refine byNumber_exact sound ?_ ?_ call made memory used
    · intro namePtr memory whole same
      cases (List.cons.inj same).1
    · intro namePtr memory
      rfl
  | removeXattr cmd =>
    cases about
    refine byNumber_exact sound ?_ ?_ call made memory used
    · intro namePtr memory whole same
      cases (List.cons.inj same).1
    · intro namePtr memory
      rfl
  | _ => cases about

/-- Every path buffer holds in every state what the methods rely on. -/
theorem buffers_hold (os : Os World) {built : HandleFull} (new_one : Built built)
    {cmds : List SendCommand} {session : Session World}
    (received : Received os built cmds session) :
    let handler := session.handler
    let subvol := handler.currentSubvol
    -- Both buffers begin with the path of the subvolume.
    (handler.pathBuf.bytes.take subvol.length = subvol ∧
        handler.pathBufSecondary.bytes.take subvol.length = subvol) ∧
      -- A path that fits is put behind it in the one buffer, and the other one is left alone.
      (∀ path : Bytes,
        (subvol.length + path.length + 1 ≤ pathMax → ∃ pathBuf : PathBuf,
            getCPath path session =
              (.ok .pathBuf, { session with handler := { handler with pathBuf } }) ∧
            subvol ++ path ++ [0] <+: pathBuf.bytes) ∧
          (¬ subvol.length + path.length + 1 ≤ pathMax →
            getCPath path session = (.error (.io (.os enametoolong)), session))) ∧
      (∀ path : Bytes,
        (subvol.length + path.length + 1 ≤ pathMax → ∃ pathBufSecondary : PathBuf,
            getCPathSecondary path session =
              (.ok .pathBufSecondary,
                { session with handler := { handler with pathBufSecondary } }) ∧
            subvol ++ path ++ [0] <+: pathBufSecondary.bytes) ∧
          (¬ subvol.length + path.length + 1 ≤ pathMax →
            getCPathSecondary path session = (.error (.io (.os enametoolong)), session))) ∧
      -- All operands of a call are intact when it is made.
      (∀ cmd, OnFiles cmd → ∀ call ∈ callsOf os cmd session,
        handler.Carries built.xattrFallback.buf cmd call) ∧
      -- The buffer of the fallback has nothing of earlier paths in it.
      ∀ cmd path, xattrPath cmd = some path → ∀ call ∈ callsOf os cmd session, ∀ memory,
        call.paths = [.whole memory] →
          memory = built.xattrFallback.buf ++ subvol ++ path ++ [0] ∧
            (recorded (method os.recording cmd) session).2.handler.xattrFallback.buf = memory := by
  -- What is sound in every state that is reached says all of it, part by part.
  obtain ⟨sound, _⟩ := received_sound new_one received
  refine ⟨⟨?_, ?_⟩, fun path => ?_, fun path => ?_, ?_, ?_⟩
  · exact (List.prefix_iff_eq_take.mp sound.buffers.first).symm
  · exact (List.prefix_iff_eq_take.mp sound.buffers.second).symm
  · rcases getCPath_cases path sound.buffers.first with ⟨fits, pathBuf, ends, holds⟩ | ⟨long, ends⟩
    · refine ⟨fun _ => ⟨pathBuf, ends, ?_⟩, fun long => absurd fits long⟩
      rw [List.append_assoc]
      exact holds
    · exact ⟨fun fits => by omega, fun _ => ends⟩
  · rcases getCPathSecondary_cases path sound.buffers.second with
      ⟨fits, buffer, ends, holds⟩ | ⟨long, ends⟩
    · refine ⟨fun _ => ⟨buffer, ends, ?_⟩, fun long => absurd fits long⟩
      rw [List.append_assoc]
      exact holds
    · exact ⟨fun fits => by omega, fun _ => ends⟩
  · exact fun cmd files => callsOf_carries files sound
  · intro cmd path about call made memory used
    rw [List.append_assoc _ path]
    exact fallback_exact about sound made used

/-- A system that grants every call it knows, and knows none of the calls by number. -/
def oldSystem : Os Unit where
  call _ call _ :=
    (match call with
    | .openat _ _ _ _ => .ok 4
    | .mkdirat _ _ _ => .ok ()
    | .mknodat _ _ _ _ => .ok ()
    | .symlinkat _ _ _ => .ok ()
    | .renameat2 _ _ _ _ _ => .ok ()
    | .linkat _ _ _ _ _ => .ok ()
    | .unlinkat _ _ _ => .ok ()
    | .raw _ _ => .error enosys
    | .lsetxattr _ _ _ _ _ => .ok ()
    | .lremovexattr _ _ => .ok ()
    | .pwrite _ _ count _ =>
      if some_bytes : 1 ≤ count then .ok ⟨count, some_bytes, Nat.le_refl _⟩ else .error einval
    | .ftruncate _ _ => .ok ()
    | .fchmodat _ _ _ _ => .ok ()
    | .fchownat _ _ _ _ _ => .ok ()
    | .utimensat _ _ _ _ _ => .ok ()
    | .fallocate _ _ _ _ => .ok ()
    | .subvolCreateV2 _ _ => .ok ()
    | .cloneRange _ _ => .ok ()
    | .setReceivedSubvol _ args => .ok args
    | .encodedWrite _ _ => .ok (), ())
  now _ := none

/-- A handler for the descriptor 3. -/
def handlerOfThree : HandleFull := fresh 3 (.ofRawFd 3)

/-- The handler is made for the descriptor of a directory of btrfs. -/
theorem handlerOfThree_built : Built handlerOfThree := Or.inr ⟨3, .ok true, rfl⟩

/-- The identity that a subvolume is sent with. -/
def sentUuid : Uuid := ⟨List.replicate 16 7, rfl⟩

/-- The session in which the subvolume `s` is received. -/
def receivingS : Session Unit :=
  (method oldSystem (.subvol ⟨[115], 1, sentUuid⟩) ⟨handlerOfThree, ()⟩).2

/-- The command that begins it does not panic, as its path is short. -/
theorem receivingS_received :
    Received oldSystem handlerOfThree [.subvol ⟨[115], 1, sentUuid⟩] receivingS := by
  -- Only a path that does not fit lets the method panic.
  refine .call (.subvol ⟨[115], 1, sentUuid⟩) (.start ()) fun panics => ?_
  have long := ((subvol_panics_iff _ _).mp panics).2
  exact absurd long (by decide)

/-- The first buffer begins with `s` and a separator then, by the rule for all states. -/
theorem buffers_hold_receivingS :
    receivingS.handler.pathBuf.bytes.take 2 = [115, 47] :=
  (buffers_hold oldSystem handlerOfThree_built receivingS_received).1.1

end HandleFull

end Libbtrfs.Receive
