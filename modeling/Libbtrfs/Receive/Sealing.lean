import Libbtrfs.Receive.Failing

/-! With which identity a subvolume is sealed at the end of its commands. -/

namespace Libbtrfs.Receive.HandleFull

variable {World : Type} {os : Os World} {base : Bytes}

/-- The methods of some commands one after the other, up to the first one that fails. -/
def handleAll (os : Os World) : List SendCommand → Method World Unit
  | [] => pure ()
  | cmd :: cmds => do
    let _answer ← method os cmd
    handleAll os cmds

/-- The last two calls open the subvolume and seal it as the command says, and no other one seals. -/
def SealsOnce (os : Os World) (dirfd : Nat) (cmd : SubvolCmd) (stime : IoctlTimespec)
    (calls : List (Syscall Bytes)) : Prop :=
  ∃ earlier memory fd args world after,
    calls =
      earlier ++ [.openat dirfd (memory .pathBuf) oRdonly none, .setReceivedSubvol fd args] ∧
    (∀ call ∈ earlier, ¬call.Seals) ∧
    toBytesWithNul (withSeparator cmd.path) <+: memory .pathBuf ∧
    os.call memory (.openat dirfd .pathBuf oRdonly none) world = (.ok fd, after) ∧
    args.uuid.chars.map Int8.toUInt8 = cmd.uuid.bytes ∧ args.stransid = cmd.ctransid ∧
    args.stime = stime

/-- A run has sealed its subvolume, and nothing of that is left in the handler. -/
structure SealedRun (os : Os World) (dirfd : Nat) (cmd : SubvolCmd) (stime : IoctlTimespec)
    (ended : Session (World × List (Syscall Bytes))) : Prop where
  once : SealsOnce os dirfd cmd stime ended.world.2
  args : ended.handler.receivedArgs = .zeroed
  subvol : ended.handler.currentSubvol = []

/-- A run that comes to its end goes on behind each of its commands. -/
theorem handleAll_cons {cmd : SendCommand} {cmds : List SendCommand} {session : Session World}
    (success : (handleAll os (cmd :: cmds) session).1 = .ok ()) :
    ∃ answer between, method os cmd session = (.ok answer, between) ∧
      handleAll os (cmd :: cmds) session = handleAll os cmds between := by
  -- A command that fails ends the run.
  rw [handleAll] at success ⊢
  rcases called : method os cmd session with ⟨_ | answer, between⟩
  · rw [Program.bind_error called] at success
    exact nomatch success
  · exact ⟨answer, between, rfl, Program.bind_ok called⟩

/-- While a subvolume is active, a command that succeeds and does not end it is about its files. -/
theorem onFiles_of_ok {cmd : SendCommand} {session : Session World}
    (active : session.handler.currentSubvol ≠ []) (unended : ∀ stop, cmd ≠ .endCmd stop)
    {answer : Option Unit} {between : Session World}
    (called : method os cmd session = (.ok answer, between)) : OnFiles cmd := by
  -- Another subvolume is refused while one is active.
  cases cmd with
  | subvol cmd =>
    rcases subvol_cases os cmd session with ⟨_, refused⟩ | ⟨idle, _⟩ | ⟨idle, _⟩
    · exact nomatch refused.symm.trans called
    · exact absurd idle active
    · exact absurd idle active
  | endCmd stop => exact absurd rfl (unended stop)
  | _ => exact trivial

/-- Commands inside of a subvolume leave its identity as it is until it is ended. -/
theorem handleAll_serving {start : HandleFull} {inv : World → Prop} {rest cmds : List SendCommand}
    (active : start.currentSubvol ≠ []) (unended : ∀ cmd ∈ cmds, ∀ stop, cmd ≠ .endCmd stop)
    (keeps : ∀ cmd, OsKeeps os (start.Calls base cmd) inv) {session : Session World}
    (serving : Serving start base inv session)
    (success : (handleAll os (cmds ++ rest) session).1 = .ok ()) :
    ∃ later, Serving start base inv later ∧
      handleAll os (cmds ++ rest) session = handleAll os rest later := by
  -- The induction is on the commands, each of which serves the files of the subvolume.
  induction cmds generalizing session with
  | nil => exact ⟨session, serving, rfl⟩
  | cons cmd cmds ih =>
    rw [List.cons_append] at success ⊢
    obtain ⟨answer, between, called, goes_on⟩ := handleAll_cons success
    have files : OnFiles cmd :=
      onFiles_of_ok (serving.subvol ▸ active) (unended cmd List.mem_cons_self) called
    have served := (method_serving_files files (keeps cmd)).after serving
    rw [called] at served
    rw [goes_on] at success ⊢
    exact ih (fun cmd inside => unended cmd (.tail _ inside)) served success

/-- A call that is answered while it is written down is answered by the system itself. -/
theorem recording_call {memory : Pointer → Bytes} {call : Syscall Pointer}
    {world after : World × List (Syscall Bytes)} {answer : Except Nat call.Answer}
    (answered : os.recording.call memory call world = (answer, after)) :
    os.call memory call world.1 = (answer, after.1) ∧ after.2 = world.2 ++ [call.map memory] := by
  -- The recording adds the call and takes nothing away.
  obtain ⟨world, calls⟩ := world
  simp only [Os.recording, Prod.mk.injEq] at answered
  obtain ⟨same, rfl⟩ := answered
  exact ⟨Prod.ext same rfl, rfl⟩

/-- The end of a run seals the subvolume with the identity that the handler has for it. -/
theorem endCmd_seals {cmd : SubvolCmd} {stop : EndCmd} {stime : IoctlTimespec}
    {session : Session (World × List (Syscall Bytes))}
    (subvol : session.handler.currentSubvol = withSeparator cmd.path)
    (uuid : session.handler.receivedArgs.uuid = .ofUuid cmd.uuid)
    (stransid : session.handler.receivedArgs.stransid = cmd.ctransid)
    (timed : session.handler.receivedArgs.stime = stime)
    (unsealed : ∀ call ∈ session.world.2, ¬call.Seals)
    (success : (handleAll os.recording [.endCmd stop] session).1 = .ok ()) :
    SealedRun os session.handler.dirfd cmd stime
      (handleAll os.recording [.endCmd stop] session).2 := by
  have active : session.handler.currentSubvol ≠ [] := subvol ▸ withSeparator_ne_nil cmd.path
  obtain ⟨answer, between, called, goes_on⟩ := handleAll_cons success
  have ends : endCmd os.recording stop session = (.ok answer, between) := called
  -- The method has succeeded, so both of its calls have.
  have sealing : Sealed os.recording session := by
    by_contra unsealed
    obtain ⟨error, failed⟩ := endCmd_fails stop active unsealed
    rw [ends] at failed
    exact nomatch failed
  obtain ⟨inside, fd, world, args, after, opens, seals⟩ := sealing
  rw [endCmd_ok stop active opens seals] at ends
  cases ends
  obtain ⟨opened, first⟩ := recording_call opens
  obtain ⟨_, second⟩ := recording_call seals
  rw [goes_on]
  refine ⟨⟨session.world.2, (session.handler.closing inside).memory, fd,
    session.handler.receivedArgs, session.world.1, world.1, ?_, unsealed, ?_, opened, ?_,
    stransid, timed⟩, rfl, rfl⟩
  · show after.2 = _
    rw [second, first, List.append_assoc]
    rfl
  · -- The path is written to the front of the buffer, as no subvolume is active any more.
    show toBytesWithNul (withSeparator cmd.path) <+:
      (session.handler.pathBuf.copyAt 0 (toBytesWithNul session.handler.currentSubvol)
        inside).bytes
    rw [← subvol]
    exact copyAt_begins List.nil_prefix inside
  · -- A byte is the same again when it has been a character.
    rw [uuid]
    show (cmd.uuid.bytes.map UInt8.toInt8).map Int8.toUInt8 = cmd.uuid.bytes
    rw [List.map_map]
    exact List.map_id'' (fun byte => UInt8.toUInt8_toInt8 byte) cmd.uuid.bytes

/-- Every run that succeeds seals its subvolume, with the seconds of the clock as its nanoseconds. -/
theorem run_seals {built : HandleFull} (new_one : Built built) {earlier : List SendCommand}
    {session : Session World} (received : Received os built earlier session) {cmd : SubvolCmd}
    {cmds : List SendCommand} {stop : EndCmd}
    (unended : ∀ other ∈ cmds, ∀ stop, other ≠ .endCmd stop)
    (success : (recorded (handleAll os.recording (.subvol cmd :: cmds ++ [.endCmd stop]))
      session).1 = .ok ()) :
    SealedRun os built.dirfd cmd (stime os session.world)
      (recorded (handleAll os.recording (.subvol cmd :: cmds ++ [.endCmd stop])) session).2 := by
  obtain ⟨sound, _⟩ := received_sound new_one received
  rw [recorded, List.cons_append] at success ⊢
  obtain ⟨answer, between, called, goes_on⟩ := handleAll_cons success
  obtain ⟨inside, world, created, rfl⟩ := subvol_succeeds called
  obtain ⟨_, written⟩ := recording_call created
  rw [goes_on] at success ⊢
  let start := session.handler.opened cmd (stime os session.world) inside
  show SealedRun os built.dirfd cmd (stime os session.world)
    (handleAll os.recording (cmds ++ [.endCmd stop]) ⟨start, world⟩).2
  have unsealed : ∀ call ∈ world.2, ¬call.Seals := by
    rw [written]
    intro call inside
    rw [List.mem_singleton.mp inside]
    exact id
  -- The commands on files are all between the two, and keep what `subvol` has written down.
  have serving : Serving start built.xattrFallback.buf
      (fun world : World × List (Syscall Bytes) => ∀ call ∈ world.2, ¬call.Seals)
      ⟨start, world⟩ :=
    ⟨rfl, rfl, rfl, ⟨copyAt_begins List.nil_prefix inside, copyAt_begins List.nil_prefix inside⟩,
      ⟨sound.fallback.len, sound.fallback.buf⟩, unsealed⟩
  have keeps : ∀ cmd, OsKeeps os.recording (start.Calls built.xattrFallback.buf cmd)
      fun world => ∀ call ∈ world.2, ¬call.Seals := fun _ memory call world made =>
    recording_keeps os (fun call => ¬call.Seals) memory call world made.2
  obtain ⟨later, served, ends⟩ := handleAll_serving (withSeparator_ne_nil cmd.path) unended keeps
    serving success
  have finished : (handleAll os.recording [.endCmd stop] later).1 = .ok () := ends ▸ success
  have same : later.handler.dirfd = built.dirfd := served.dirfd.trans sound.dirfd
  rw [ends, ← same]
  refine endCmd_seals served.subvol ?_ ?_ ?_ served.world finished
  · rw [served.args]
    rfl
  · rw [served.args]
    rfl
  · rw [served.args]
    rfl

/-- The calls of a run say with which time it has sealed its subvolume. -/
theorem SealedRun.unique {dirfd : Nat} {cmd : SubvolCmd} {one other : IoctlTimespec}
    {ended : Session (World × List (Syscall Bytes))} (first : SealedRun os dirfd cmd one ended)
    (second : SealedRun os dirfd cmd other ended) : one = other := by
  obtain ⟨front, memory, fd, args, _, _, calls, _, _, _, _, _, timed⟩ := first.once
  obtain ⟨otherFront, otherMemory, otherFd, otherArgs, _, _, otherCalls, _, _, _, _, _,
    otherTimed⟩ := second.once
  -- The last call is the same one, whichever way the calls are taken apart.
  have last : ended.world.2.getLast? = some (.setReceivedSubvol fd args) := by
    rw [calls]
    simp
  have otherLast : ended.world.2.getLast? = some (.setReceivedSubvol otherFd otherArgs) := by
    rw [otherCalls]
    simp
  have same := last.symm.trans otherLast
  simp only [Option.some.injEq, Syscall.setReceivedSubvol.injEq] at same
  rw [← timed, ← otherTimed, same.2]

/--
A run that succeeds seals its subvolume once, in its directory and with the identity of the command
that began it, and it does so with the time of that command exactly when the nanoseconds of that are
the low half of its seconds.
-/
theorem run_seals_iff {built : HandleFull} (new_one : Built built) {earlier : List SendCommand}
    {session : Session World} (received : Received os built earlier session) {cmd : SubvolCmd}
    {cmds : List SendCommand} {stop : EndCmd} {now : Duration}
    (clock : os.now session.world = some now)
    (unended : ∀ other ∈ cmds, ∀ stop, other ≠ .endCmd stop)
    (success : (recorded (handleAll os.recording (.subvol cmd :: cmds ++ [.endCmd stop]))
      session).1 = .ok ()) :
    let ended := (recorded (handleAll os.recording (.subvol cmd :: cmds ++ [.endCmd stop]))
      session).2
    SealedRun os built.dirfd cmd ⟨now.asSecs, now.asSecs.toUInt32⟩ ended ∧
      (SealedRun os built.dirfd cmd ⟨now.asSecs, now.subsecNanos⟩ ended ↔
        now.asSecs.toUInt32 = now.subsecNanos) := by
  -- A run seals its subvolume with one time only, and that has the seconds twice.
  have sealed_run := run_seals new_one received unended success
  have timed : stime os session.world = ⟨now.asSecs, now.asSecs.toUInt32⟩ := by
    rw [stime, clock]
  rw [timed] at sealed_run
  refine ⟨sealed_run, fun exactly => ?_, fun same => same ▸ sealed_run⟩
  exact (IoctlTimespec.mk.inj (sealed_run.unique exactly)).2

/-- The system that knows every call, with a clock. -/
def clockedSystem (now : Duration) : Os Unit := { oldSystem with now := fun _ => some now }

/-- A time five nanoseconds behind a second. -/
def someTime : Duration := ⟨1700000000, 5, by decide⟩

/-- A subvolume with one directory in it, from its beginning to its end. -/
def shortRun : List SendCommand :=
  .subvol ⟨[115], 1, sentUuid⟩ :: [.mkdir ⟨[97], 257⟩] ++ [.endCmd {}]

/-- The run succeeds on that system. -/
theorem shortRun_succeeds (now : Duration) :
    (recorded (handleAll (clockedSystem now).recording shortRun) ⟨handlerOfThree, ()⟩).1 =
      .ok () := rfl

/-- The run seals its subvolume with the seconds as the nanoseconds, which are others. -/
theorem run_seals_iff_shortRun :
    SealedRun (clockedSystem someTime) 3 ⟨[115], 1, sentUuid⟩
        ⟨someTime.asSecs, someTime.asSecs.toUInt32⟩
        (recorded (handleAll (clockedSystem someTime).recording shortRun)
          ⟨handlerOfThree, ()⟩).2 ∧
      (SealedRun (clockedSystem someTime) 3 ⟨[115], 1, sentUuid⟩
        ⟨someTime.asSecs, someTime.subsecNanos⟩
        (recorded (handleAll (clockedSystem someTime).recording shortRun)
          ⟨handlerOfThree, ()⟩).2 ↔ someTime.asSecs.toUInt32 = someTime.subsecNanos) := by
  -- The only other command is no end.
  have clock : (clockedSystem someTime).now () = some someTime := rfl
  refine run_seals_iff handlerOfThree_built (.start ()) clock ?_ (shortRun_succeeds someTime)
  intro other inside stop same
  cases List.mem_singleton.mp inside
  exact nomatch same

/-- The run does not seal its subvolume with the time at which that was begun. -/
theorem run_misdates_shortRun :
    ¬SealedRun (clockedSystem someTime) 3 ⟨[115], 1, sentUuid⟩
      ⟨someTime.asSecs, someTime.subsecNanos⟩
      (recorded (handleAll (clockedSystem someTime).recording shortRun) ⟨handlerOfThree, ()⟩).2 := by
  -- A run has one sealing, and the two times of it differ.
  intro timely
  have unended : ∀ other ∈ [SendCommand.mkdir ⟨[97], 257⟩], ∀ stop, other ≠ .endCmd stop := by
    intro other inside stop same
    cases List.mem_singleton.mp inside
    exact nomatch same
  have dated := run_seals handlerOfThree_built (.start ()) unended (shortRun_succeeds someTime)
  exact absurd (dated.unique timely) (by decide)

end Libbtrfs.Receive.HandleFull
