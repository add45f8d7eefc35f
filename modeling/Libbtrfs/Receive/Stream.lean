import Libbtrfs.Receive.Sealing
import Libbtrfs.SendStream.Conversation

/-! The system calls that a stream leads to, in whatever way it is received. -/

namespace Libbtrfs.Receive.HandleFull

variable {World : Type} {os : Os World} {built : HandleFull}

/-- `StreamHandler::handle_cmd`, which the handler has from the trait. -/
def handleCmd (os : Os World) : HandleCmd (Session World) := fun cmd data version session =>
  match parseStage cmd data version with
  | .error failure => (.error failure, session)
  | .ok command => method os command session

/-- The commands that some calls are parsed to, up to the first call that is refused. -/
def commandsOf : List Call → List SendCommand
  | [] => []
  | call :: calls =>
    match parseStage call.command call.payload call.version with
    | .error _ => []
    | .ok cmd => cmd :: commandsOf calls

/-- The command that began the subvolume which is received behind another command. -/
def begunAfter (begun : Option SubvolCmd) : SendCommand → Option SubvolCmd
  | .subvol cmd => some (begun.getD cmd)
  | .endCmd _ => none
  | _ => begun

/-- The command that began the subvolume which is received behind the commands, if one is. -/
def begunBy (cmds : List SendCommand) : Option SubvolCmd := cmds.foldl begunAfter none

/-- The path in front of every operand while the subvolume is received. -/
def subvolPath (begun : Option SubvolCmd) : Bytes :=
  (begun.map fun cmd => withSeparator cmd.path).getD []

/-- The identity of a subvolume is the one that it was sent with. -/
def Identifies (cmd : SubvolCmd) (args : ReceivedArgs) : Prop :=
  args.uuid = .ofUuid cmd.uuid ∧ args.stransid = cmd.ctransid

/--
The system calls that are made for a command, while the given subvolume is received.

What begins or ends a subvolume has made all of its calls if it succeeds.
-/
def Makes (built : HandleFull) (begun : Option SubvolCmd) (succeeds : Bool)
    (calls : List (Syscall Bytes)) : SendCommand → Prop
  | .subvol cmd =>
    (succeeds = false ∧ calls = []) ∨
      begun = none ∧ calls = [.subvolCreateV2 built.dirfd cmd.path]
  | .endCmd _ =>
    (succeeds = false ∧ calls = []) ∨ ∃ cmd memory, begun = some cmd ∧
      toBytesWithNul (withSeparator cmd.path) <+: memory ∧
      ((succeeds = false ∧ calls = [.openat built.dirfd memory oRdonly none]) ∨
        ∃ fd args, Identifies cmd args ∧
          calls = [.openat built.dirfd memory oRdonly none, .setReceivedSubvol fd args])
  | cmd => ∀ call ∈ calls,
    { built with currentSubvol := subvolPath begun }.Calls built.xattrFallback.buf cmd call

/-- The system calls that were made for some commands, all of which have succeeded. -/
inductive MadeFor (built : HandleFull) : List SendCommand → List (Syscall Bytes) → Prop
  | none : MadeFor built [] []
  | next {cmds : List SendCommand} {calls more : List (Syscall Bytes)} (cmd : SendCommand)
      (earlier : MadeFor built cmds calls) (makes : Makes built (begunBy cmds) true more cmd) :
      MadeFor built (cmds ++ [cmd]) (calls ++ more)

/-- What holds of the handler while a subvolume is received, or none is. -/
structure Receives (built : HandleFull) (begun : Option SubvolCmd) (handler : HandleFull) :
    Prop where
  sound : Sound built.dirfd built.xattrFallback.buf handler
  subvol : handler.currentSubvol = subvolPath begun
  args : ∀ cmd, begun = some cmd → Identifies cmd handler.receivedArgs

/-- A subvolume is received exactly while its path is in front of every operand. -/
theorem subvolPath_nil {begun : Option SubvolCmd} : subvolPath begun = [] ↔ begun = none := by
  -- A path that was begun ends with a separator, so it is not empty.
  cases begun with
  | none => exact ⟨fun _ => rfl, fun _ => rfl⟩
  | some cmd => exact ⟨fun empty => absurd empty (withSeparator_ne_nil cmd.path), nofun⟩

/-- Which calls are made for a command depends on the directory and on the subvolume alone. -/
theorem Calls.of_same {one other : HandleFull} {base : Bytes} {cmd : SendCommand}
    {call : Syscall Bytes} (made : one.Calls base cmd call) (dirfd : other.dirfd = one.dirfd)
    (subvol : other.currentSubvol = one.currentSubvol) : other.Calls base cmd call := by
  -- Each operand leads to where it did, as its prefix and its descriptor are the same.
  refine ⟨made.1.imp fun operand arg leads => ?_, made.2⟩
  cases arg with
  | below fd memory => exact ⟨leads.1.trans dirfd.symm, subvol ▸ leads.2⟩
  | bare memory =>
    show other.currentSubvol ++ toBytesWithNul operand.bytes <+: memory
    rw [subvol]
    exact leads
  | whole memory =>
    show memory = base ++ other.currentSubvol ++ toBytesWithNul operand.bytes
    rw [subvol]
    exact leads

section Logged

variable {session : Session (World × List (Syscall Bytes))}

/-- A system call is written down, whether it succeeds or not. -/
theorem syscall_logged (os : Os World) (call : Syscall Pointer)
    (session : Session (World × List (Syscall Bytes))) :
    ∃ world, let after := ⟨session.handler, (world,
        session.world.2 ++ [call.map session.handler.memory])⟩
      (∃ answer, syscall os.recording call session = (.ok answer, after)) ∨
        ∃ code, syscall os.recording call session = (.error (.io (.os code)), after) := by
  -- The recording answers as the system does, and adds the call in either case.
  rcases answered : os.call session.handler.memory call session.world.1 with ⟨answer, world⟩
  refine ⟨world, ?_⟩
  rw [syscall, Program.bind_ok (invoke_recorded answered)]
  cases answer with
  | ok value => exact Or.inl ⟨value, rfl⟩
  | error code => exact Or.inr ⟨code, rfl⟩

/-- An ioctl is written down as well. -/
theorem ioctl_logged (os : Os World) (call : Syscall Pointer)
    (session : Session (World × List (Syscall Bytes))) :
    ∃ world, let after := ⟨session.handler, (world,
        session.world.2 ++ [call.map session.handler.memory])⟩
      (∃ answer, ioctl os.recording call session = (.ok answer, after)) ∨
        ∃ error, ioctl os.recording call session = (.error (.io error), after) := by
  rcases answered : os.call session.handler.memory call session.world.1 with ⟨answer, world⟩
  refine ⟨world, ?_⟩
  rw [ioctl, Program.bind_ok (invoke_recorded answered)]
  -- The wrapper looks at the answer behind the call.
  cases btrfsIoctl (answer.mapError .os) with
  | ok value => exact Or.inl ⟨value, rfl⟩
  | error error => exact Or.inr ⟨error, rfl⟩

/-- What is written down only grows, by calls that are allowed. -/
theorem recording_grows (os : Os World) (allowed : Syscall Bytes → Prop)
    (log : List (Syscall Bytes)) :
    OsKeeps os.recording allowed fun world =>
      ∃ more, world.2 = log ++ more ∧ ∀ call ∈ more, allowed call := by
  -- The call that is made is the last one, and it is allowed.
  rintro memory call world fine ⟨more, same, before⟩
  refine ⟨more ++ [call.map memory], ?_, fun other member => ?_⟩
  · show world.2 ++ [call.map memory] = _
    rw [same, List.append_assoc]
  · rcases List.mem_append.mp member with old | new
    · exact before other old
    · rw [List.mem_singleton.mp new]
      exact fine

/-- The calls of a command on files are behind what was written down in front of it. -/
theorem files_makes {cmd : SendCommand} (files : OnFiles cmd) {begun : Option SubvolCmd}
    (receives : Receives built begun session.handler) :
    (∃ more, (method os.recording cmd session).2.world.2 = session.world.2 ++ more ∧
        ∀ call ∈ more, { built with currentSubvol := subvolPath begun }.Calls
          built.xattrFallback.buf cmd call) ∧
      Receives built begun (method os.recording cmd session).2.handler := by
  -- The world keeps the log of the earlier calls in front, which is what a serving method keeps.
  let allowed := session.handler.Calls built.xattrFallback.buf cmd
  have serving : Serving session.handler built.xattrFallback.buf
      (fun world : World × List (Syscall Bytes) =>
        ∃ more, world.2 = session.world.2 ++ more ∧ ∀ call ∈ more, allowed call) session :=
    ⟨rfl, rfl, rfl, receives.sound.buffers, receives.sound.fallback, [],
      (List.append_nil _).symm, fun _ impossible => by cases impossible⟩
  have after := (method_serving_files files (recording_grows os allowed session.world.2)).after
    serving
  obtain ⟨more, same, made⟩ := after.world
  refine ⟨⟨more, same, fun call member => ?_⟩, ?_⟩
  · exact (made call member).of_same receives.sound.dirfd.symm receives.subvol.symm
  · refine ⟨⟨after.dirfd.trans receives.sound.dirfd, after.buffers, after.fallback⟩,
      after.subvol.trans receives.subvol, fun cmd begins => ?_⟩
    rw [after.args]
    exact receives.args cmd begins

/-- A path that is longer than the buffers ends the method before its call. -/
theorem subvol_long {cmd : SubvolCmd} {session : Session World}
    (idle : session.handler.currentSubvol = []) (long : pathMax < (withSeparator cmd.path).length) :
    ∃ message, subvol os cmd session = (.error (.panic message), session) := by
  -- The slice of the buffer would end behind its last byte.
  have read : (current : Method World HandleFull) session = (.ok session.handler, session) := rfl
  have outside : ¬ 0 + (withSeparator cmd.path).length ≤ pathMax := by omega
  rw [subvol, Program.bind_ok read, if_neg (not_not_intro idle)]
  simp only [dif_neg outside]
  exact ⟨_, rfl⟩

/-- A subvolume is begun with at most one call, which creates it. -/
theorem subvol_makes (cmd : SubvolCmd) {begun : Option SubvolCmd}
    (receives : Receives built begun session.handler) :
    let ended := subvol os.recording cmd session
    (∃ more, ended.2.world.2 = session.world.2 ++ more ∧
        Makes built begun ended.1.isOk more (.subvol cmd)) ∧
      (ended.1.isOk = true → Receives built (some (begun.getD cmd)) ended.2.handler) := by
  intro ended
  have refuses : ∀ failure handler, ended = (.error failure, ⟨handler, session.world⟩) →
      (∃ more, ended.2.world.2 = session.world.2 ++ more ∧
          Makes built begun ended.1.isOk more (.subvol cmd)) ∧
        (ended.1.isOk = true → Receives built (some (begun.getD cmd)) ended.2.handler) := by
    intro failure handler same
    rw [same]
    exact ⟨⟨[], (List.append_nil _).symm, Or.inl ⟨rfl, rfl⟩⟩, fun impossible => by cases impossible⟩
  rcases subvol_cases os.recording cmd session with
    ⟨_, ends⟩ | ⟨idle, long, _⟩ | ⟨idle, inside, ends⟩
  · exact refuses _ _ ends
  · obtain ⟨message, ends⟩ := @subvol_long _ os.recording cmd session idle long
    exact refuses _ _ ends
  · have none_begun : begun = none := subvolPath_nil.mp (receives.subvol.symm.trans idle)
    let opening := session.handler.opened cmd (stime os.recording session.world) inside
    -- The handler is opened before the name is looked at.
    cases named : setVolName cmd.path with
    | error error =>
      have refused : create os.recording session.handler.dirfd cmd.path ⟨opening, session.world⟩ =
          (.error (.io error), ⟨opening, session.world⟩) := by
        rw [create, named]
        rfl
      exact refuses _ _ (ends.trans (Program.bind_error refused))
    | ok done =>
      have creates : create os.recording session.handler.dirfd cmd.path =
          ioctl os.recording (.subvolCreateV2 session.handler.dirfd cmd.path) := by
        rw [create, named]
      have dirfd := receives.sound.dirfd
      obtain ⟨world, ⟨answer, made⟩ | ⟨error, made⟩⟩ := ioctl_logged os
        (.subvolCreateV2 session.handler.dirfd cmd.path) ⟨opening, session.world⟩
      · have whole : ended = _ := ends.trans (Program.bind_ok ((congrFun creates _).trans made))
        rw [whole, none_begun]
        refine ⟨⟨_, rfl, Or.inr ⟨rfl, ?_⟩⟩, fun _ => ⟨⟨dirfd, ⟨?_, ?_⟩, ?_⟩, rfl, ?_⟩⟩
        · rw [dirfd]
          rfl
        · exact copyAt_begins List.nil_prefix inside
        · exact copyAt_begins List.nil_prefix inside
        · exact ⟨receives.sound.fallback.len, receives.sound.fallback.buf⟩
        · intro other same
          cases same
          exact ⟨rfl, rfl⟩
      · have whole : ended = _ := ends.trans (Program.bind_error ((congrFun creates _).trans made))
        rw [whole]
        refine ⟨⟨_, rfl, Or.inr ⟨none_begun, ?_⟩⟩, fun impossible => by cases impossible⟩
        rw [dirfd]
        rfl

/-- A subvolume is ended with the call that opens it, and then the one that identifies it. -/
theorem endCmd_makes (cmd : EndCmd) {begun : Option SubvolCmd}
    (receives : Receives built begun session.handler) :
    let ended := endCmd os.recording cmd session
    (∃ more, ended.2.world.2 = session.world.2 ++ more ∧
        Makes built begun ended.1.isOk more (.endCmd cmd)) ∧
      (ended.1.isOk = true → Receives built none ended.2.handler) := by
  intro ended
  have refuses : ∀ failure handler, ended = (.error failure, ⟨handler, session.world⟩) →
      (∃ more, ended.2.world.2 = session.world.2 ++ more ∧
          Makes built begun ended.1.isOk more (.endCmd cmd)) ∧
        (ended.1.isOk = true → Receives built none ended.2.handler) := by
    intro failure handler same
    rw [same]
    exact ⟨⟨[], (List.append_nil _).symm, Or.inl ⟨rfl, rfl⟩⟩, fun impossible => by cases impossible⟩
  have read : (current : Method _ HandleFull) session = (.ok session.handler, session) := rfl
  have dirfd := receives.sound.dirfd
  cases begun with
  | none =>
    have idle : session.handler.currentSubvol = [] := receives.subvol
    refine refuses (receiveError "Invalid stream") session.handler ?_
    simp only [ended]
    rw [endCmd, Program.bind_ok read, if_pos idle]
    rfl
  | some begins =>
    have path : session.handler.currentSubvol = withSeparator begins.path := receives.subvol
    have active : session.handler.currentSubvol ≠ [] := path ▸ withSeparator_ne_nil begins.path
    by_cases inside : 0 + (toBytesWithNul session.handler.currentSubvol).length ≤ pathMax
    · have begin_memory : toBytesWithNul (withSeparator begins.path) <+:
          (session.handler.closing inside).memory .pathBuf := by
        rw [← path]
        exact copyAt_begins List.nil_prefix inside
      have opening := @endCmd_opening _ os.recording session cmd active inside
      obtain ⟨world, ⟨fd, opened⟩ | ⟨code, refused⟩⟩ := syscall_logged os
        (.openat session.handler.dirfd .pathBuf oRdonly none)
        ⟨session.handler.closing inside, session.world⟩
      · -- The directory of the subvolume is open, and is to be identified.
        let logged := session.world.2 ++
          [Syscall.map (session.handler.closing inside).memory
            (.openat session.handler.dirfd .pathBuf oRdonly none)]
        obtain ⟨later, ⟨answer, sealing⟩ | ⟨error, failed⟩⟩ := ioctl_logged os
          (.setReceivedSubvol fd session.handler.receivedArgs)
          ⟨session.handler.closing inside, (world, logged)⟩
        · have whole : ended = _ := opening.trans ((Program.bind_ok opened).trans
            (Program.bind_ok sealing))
          rw [whole]
          refine ⟨⟨_, List.append_assoc _ _ _, Or.inr ⟨begins, _, rfl, begin_memory, Or.inr
            ⟨fd, _, receives.args begins rfl, ?_⟩⟩⟩, fun _ => ⟨⟨dirfd, ⟨?_, ?_⟩, ?_⟩, rfl, ?_⟩⟩
          · rw [← dirfd]
            rfl
          · exact List.nil_prefix
          · exact List.nil_prefix
          · exact ⟨receives.sound.fallback.len, receives.sound.fallback.buf⟩
          · exact fun other impossible => by cases impossible
        · have whole : ended = _ := opening.trans ((Program.bind_ok opened).trans
            (Program.bind_error failed))
          rw [whole]
          refine ⟨⟨_, List.append_assoc _ _ _, Or.inr ⟨begins, _, rfl, begin_memory, Or.inr
            ⟨fd, _, receives.args begins rfl, ?_⟩⟩⟩, fun impossible => by cases impossible⟩
          rw [← dirfd]
          rfl
      · have whole : ended = _ := opening.trans (Program.bind_error refused)
        rw [whole]
        refine ⟨⟨_, rfl, Or.inr ⟨begins, _, rfl, begin_memory, Or.inl ⟨rfl, ?_⟩⟩⟩,
          fun impossible => by cases impossible⟩
        rw [← dirfd]
        rfl
    · -- The path leaves no room for the zero behind it.
      have refused : doCPath session.handler.currentSubvol session.handler.pathBuf 0 =
          .error (.os enametoolong) := by
        rw [doCPath, dif_neg inside]
      refine refuses (.io (.os enametoolong)) { session.handler with currentSubvol := [] } ?_
      simp only [ended]
      rw [endCmd, Program.bind_ok read, if_neg active]
      simp only [sysOpenat, getCPath, asRawFd, current, update, bind, Program.get, Program.modify,
        Program.fail, pure, List.length_nil, refused]

/-- Every method makes the calls of its command, and what succeeds begins or ends its subvolume. -/
theorem method_makes (cmd : SendCommand) {begun : Option SubvolCmd}
    (receives : Receives built begun session.handler) :
    let ended := method os.recording cmd session
    (∃ more, ended.2.world.2 = session.world.2 ++ more ∧
        Makes built begun ended.1.isOk more cmd) ∧
      (ended.1.isOk = true → Receives built (begunAfter begun cmd) ended.2.handler) := by
  -- Two of the commands begin and end a subvolume, and all others are on files.
  have on_files := fun files : OnFiles cmd =>
    @files_makes World os built session cmd files begun receives
  cases cmd with
  | subvol cmd => exact subvol_makes cmd receives
  | endCmd cmd => exact endCmd_makes cmd receives
  | _ => exact ⟨(on_files trivial).1, fun _ => (on_files trivial).2⟩

end Logged

/-- A handler that has received nothing does not receive a subvolume. -/
theorem Built.receives (new_one : Built built) : Receives built none built :=
  ⟨new_one.sound, new_one.fresh.1, fun _ impossible => by cases impossible⟩

/-- The commands that all of the calls are parsed to. -/
def Parsed (calls : List Call) (cmds : List SendCommand) : Prop :=
  List.Forall₂ (fun call cmd => parseStage call.command call.payload call.version = .ok cmd) calls
    cmds

/-- Calls that are all parsed are not refused in front of others. -/
theorem Parsed.append {calls : List Call} {cmds : List SendCommand} (parsed : Parsed calls cmds)
    (rest : List Call) : commandsOf (calls ++ rest) = cmds ++ commandsOf rest := by
  -- The induction is on the commands that were parsed.
  induction parsed with
  | nil => rfl
  | cons one _ ih => simp only [List.cons_append, commandsOf, one, ih]

/--
What was written down for the calls of a conversation: that of the commands that have succeeded, and
behind it that of one that has failed.
-/
theorem conversation_makes (new_one : Built built) {world : World}
    {entries : List (Call × Outcome (Option Unit))}
    {session : Session (World × List (Syscall Bytes))}
    (talks : Conversation (handleCmd os.recording) ⟨built, (world, [])⟩ entries session) :
    ∃ cmds made left, session.world.2 = made ++ left ∧ MadeFor built cmds made ∧
      ((left = [] ∧ (∀ rest, cmds <+: commandsOf (entries.map Prod.fst ++ rest)) ∧
          (NoErrors entries → Parsed (entries.map Prod.fst) cmds ∧
            Receives built (begunBy cmds) session.handler)) ∨
        ¬NoErrors entries ∧ ∃ cmd,
          (∀ rest, cmds ++ [cmd] <+: commandsOf (entries.map Prod.fst ++ rest)) ∧
          Makes built (begunBy cmds) false left cmd) := by
  -- By induction on the calls, of which only the last one can have failed.
  induction talks with
  | opens =>
    exact ⟨[], [], [], rfl, .none, Or.inl ⟨rfl, fun _ => List.nil_prefix,
      fun _ => ⟨.nil, new_one.receives⟩⟩⟩
  | @call entries state call earlier fine ih =>
    obtain ⟨cmds, made, left, log, madeFor, ⟨rfl, front, clean⟩ | ⟨failed, _⟩⟩ := ih
    · obtain ⟨parsed, ready⟩ := clean fine
      rw [List.append_nil] at log
      have failing : ∀ answer : Outcome (Option Unit), answer.isOk = false →
          ¬NoErrors (entries ++ [(call, answer)]) := by
        intro answer failed clean
        obtain ⟨goes, succeeds⟩ := clean _ (List.mem_append_right _ (List.mem_singleton.mpr rfl))
        rw [show answer = .ok goes from succeeds] at failed
        cases failed
      simp only [List.map_append, List.map_cons, List.map_nil]
      cases one : parseStage call.command call.payload call.version with
      | error failure =>
        -- A call that is refused does not come to a method.
        have refused : handleCmd os.recording call.command call.payload call.version state =
            (.error failure, state) := by
          simp only [handleCmd, one]
        rw [refused]
        refine ⟨cmds, made, [], by rw [log, List.append_nil], madeFor, Or.inl ⟨rfl, ?_, ?_⟩⟩
        · intro rest
          rw [List.append_assoc]
          exact front _
        · exact fun clean => absurd clean (failing _ rfl)
      | ok cmd =>
        have called : handleCmd os.recording call.command call.payload call.version state =
            method os.recording cmd state := by
          simp only [handleCmd, one]
        rw [called]
        have further : Parsed (entries.map Prod.fst ++ [call]) (cmds ++ [cmd]) :=
          List.rel_append parsed (.cons one .nil)
        have ahead : ∀ rest, cmds ++ [cmd] <+:
            commandsOf (entries.map Prod.fst ++ [call] ++ rest) := by
          intro rest
          rw [further.append]
          exact List.prefix_append _ _
        obtain ⟨⟨more, grown, makes⟩, later⟩ := @method_makes World os built state cmd _ ready
        cases succeeds : (method os.recording cmd state).1.isOk with
        | true =>
          rw [succeeds] at makes
          refine ⟨cmds ++ [cmd], made ++ more, [], ?_, madeFor.next cmd makes,
            Or.inl ⟨rfl, ahead, fun _ => ⟨further, ?_⟩⟩⟩
          · rw [grown, log, List.append_nil]
          · rw [begunBy, List.foldl_append]
            exact later succeeds
        | false =>
          rw [succeeds] at makes
          exact ⟨cmds, made, more, by rw [grown, log], madeFor,
            Or.inr ⟨failing _ succeeds, cmd, ahead, makes⟩⟩
    · exact absurd fine failed

/-- The sessions that a receive of a stream comes to: on one thread, on two, or behind a pipe. -/
inductive Comes (crc : Bytes → UInt32) (os : Os World) (built : HandleFull) (world : World)
    (input : Bytes) : Session World → Prop
  | plain (atomicPos : Option Nat) :
      Comes crc os built world input
        (readAndHandle crc (handleCmd os) (.new input atomicPos) ⟨built, world⟩).2.2
  | buffered {bufCountArgs : Nat} {atomicPos : Option Nat}
      {first : Buffered (Session World) (clampBufs bufCountArgs)}
      (started : Buffered.start bufCountArgs (.new input atomicPos) ⟨built, world⟩ = .ok first)
      (schedule : List Actor) :
      Comes crc os built world input
        ((Buffered.system crc (handleCmd os)).run schedule first).handler
  | sent {builder : SendBuilder} {kernel : SendKernel} {call : SendCall}
      {first : Sending (Session World)} {session : Session World}
      (begun : builder.begins kernel call ⟨built, world⟩ = .ok first)
      (writes : (kernel.send builder.args).1 = input) (schedule : List Party)
      (there : ((Sending.system crc (handleCmd os)).run schedule first).receiver.handlerState =
        some session) :
      Comes crc os built world input session

/-- In each of these the handler is behind a front part of the calls of the stream. -/
theorem Comes.converses {crc : Bytes → UInt32} {world : World} {input : Bytes}
    {session : Session World} (comes : Comes crc os built world input session) :
    Converses (handleCmd os) ⟨built, world⟩ (Buffered.streamCalls crc input) session := by
  -- Each of the three ways has its own account of what was handled.
  cases comes with
  | plain atomicPos => exact readAndHandle_converses crc (handleCmd os) input atomicPos _
  | buffered started schedule =>
    have talks := (Buffered.system crc (handleCmd os)).run_invariant
      (fun _ _ _ held stepped => Buffered.Talks.step held stepped) schedule
      (Buffered.start_talks crc (handleCmd os) started)
    exact talks.converses
  | sent begun writes schedule there =>
    rw [← writes]
    exact Sending.run_converses begun schedule there

/--
However a stream is received, the system calls that were made are those for its commands, in their
order and below the subvolume that was begun in front of them. All commands but the last of them
have succeeded, and none is behind one that was refused.
-/
theorem stream_makes (crc : Bytes → UInt32) (os : Os World) {built : HandleFull}
    (new_one : Built built) (world : World) (input : Bytes)
    {session : Session (World × List (Syscall Bytes))}
    (comes : Comes crc os.recording built (world, []) input session) :
    let commands := commandsOf (Buffered.streamCalls crc input)
    ∃ cmds made left, session.world.2 = made ++ left ∧ MadeFor built cmds made ∧
      (left = [] ∧ cmds <+: commands ∨
        ∃ cmd, cmds ++ [cmd] <+: commands ∧ Makes built (begunBy cmds) false left cmd) := by
  -- What is known of the conversation with the handler is turned into its calls.
  intro commands
  obtain ⟨entries, talks, rest, whole⟩ := comes.converses
  have all : commands = commandsOf (entries.map Prod.fst ++ rest) := by rw [whole]
  rw [all]
  obtain ⟨cmds, made, left, log, madeFor, ⟨none_left, front, _⟩ | ⟨_, cmd, front, makes⟩⟩ :=
    conversation_makes new_one talks
  · exact ⟨cmds, made, left, log, madeFor, Or.inl ⟨none_left, front rest⟩⟩
  · exact ⟨cmds, made, left, log, madeFor, Or.inr ⟨cmd, front rest, makes⟩⟩

/-- A frame that begins the subvolume `s`. -/
def subvolFrame : Frame :=
  ⟨1, [15, 0, 1, 0, 115] ++ [1, 0, 16, 0] ++ sentUuid.bytes ++ [2, 0, 8, 0] ++ leBytes 8 257⟩

/-- What is written down when that subvolume is begun and ended. -/
theorem stream_makes_subvol :
    let input := Buffered.plainStream [subvolFrame, Buffered.endFrame]
    let ended := (readAndHandle (fun _ => 0) (handleCmd oldSystem.recording) (.new input none)
      ⟨handlerOfThree, ((), [])⟩).2.2
    let commands := commandsOf (Buffered.streamCalls (fun _ => 0) input)
    ∃ cmds made left, ended.world.2 = made ++ left ∧ MadeFor handlerOfThree cmds made ∧
      (left = [] ∧ cmds <+: commands ∨
        ∃ cmd, cmds ++ [cmd] <+: commands ∧ Makes handlerOfThree (begunBy cmds) false left cmd) :=
  stream_makes (fun _ => 0) oldSystem handlerOfThree_built () _ (.plain none)

end Libbtrfs.Receive.HandleFull
