import Libbtrfs.Receive.Buffers

/-! What is left of the handler when a subvolume cannot be begun or cannot be ended. -/

namespace Libbtrfs.Receive.HandleFull

variable {World : Type} {os : Os World}

/-- The handler as `end` opens the subvolume that it has just taken out of it. -/
def closing (handler : HandleFull)
    (inside : 0 + (toBytesWithNul handler.currentSubvol).length ≤ pathMax) : HandleFull :=
  { handler with
    pathBuf := handler.pathBuf.copyAt 0 (toBytesWithNul handler.currentSubvol) inside
    currentSubvol := [] }

/-- The name can be handed to the system, and the system creates the subvolume. -/
def Created (os : Os World) (cmd : SubvolCmd) (session : Session World) : Prop :=
  setVolName cmd.path = .ok () ∧ ∃ inside,
    let ready := session.handler.opened cmd (stime os session.world) inside
    ∃ world, os.call ready.memory (.subvolCreateV2 ready.dirfd cmd.path) session.world =
      (.ok (), world)

/-- The path can be handed to the system, which opens the subvolume and takes its identity. -/
def Sealed (os : Os World) (session : Session World) : Prop :=
  ∃ inside, let ready := session.handler.closing inside
    ∃ fd world answer after,
      os.call ready.memory (.openat ready.dirfd .pathBuf oRdonly none) session.world =
        (.ok fd, world) ∧
      os.call ready.memory (.setReceivedSubvol fd ready.receivedArgs) world = (.ok answer, after)

/-- What a failed command is to leave alone. -/
structure Unchanged (before after : HandleFull) : Prop where
  subvol : after.currentSubvol = before.currentSubvol
  args : after.receivedArgs = before.receivedArgs
  first : after.pathBuf.bytes.take before.currentSubvol.length =
    before.pathBuf.bytes.take before.currentSubvol.length
  second : after.pathBufSecondary.bytes.take before.currentSubvol.length =
    before.pathBufSecondary.bytes.take before.currentSubvol.length

/-- A method does not panic, and where it fails it leaves the handler as it was. -/
def FailsCleanly {α : Type} (program : Method World α) (session : Session World) : Prop :=
  ¬Outcome.Panics (program session).1 ∧
    ∀ failure, (program session).1 = .error failure →
      Unchanged session.handler (program session).2.handler

/-- A system call that is answered with a value returns it. -/
theorem syscall_ok {call : Syscall Pointer} {session : Session World} {answer : call.Answer}
    {world : World}
    (answered : os.call session.handler.memory call session.world = (.ok answer, world)) :
    syscall os call session = (.ok answer, ⟨session.handler, world⟩) := by
  -- The call is invoked, and its answer is looked at.
  rw [syscall, Program.bind_ok (invoke_answered answered)]
  rfl

/-- A system call that is answered with an error number fails with it. -/
theorem syscall_error {call : Syscall Pointer} {session : Session World} {code : Nat}
    {world : World}
    (answered : os.call session.handler.memory call session.world = (.error code, world)) :
    syscall os call session = (.error (.io (.os code)), ⟨session.handler, world⟩) := by
  -- The call is invoked, and its answer is looked at.
  rw [syscall, Program.bind_ok (invoke_answered answered)]
  rfl

/-- An ioctl that is answered with a value returns it. -/
theorem ioctl_ok {call : Syscall Pointer} {session : Session World} {answer : call.Answer}
    {world : World}
    (answered : os.call session.handler.memory call session.world = (.ok answer, world)) :
    ioctl os call session = (.ok answer, ⟨session.handler, world⟩) := by
  -- The call is invoked, and its answer is passed on.
  rw [ioctl, Program.bind_ok (invoke_answered answered)]
  rfl

/-- An ioctl that is answered with an error number fails. -/
theorem ioctl_error {call : Syscall Pointer} {session : Session World} {code : Nat}
    {world : World}
    (answered : os.call session.handler.memory call session.world = (.error code, world)) :
    ∃ error, ioctl os call session = (.error (.io error), ⟨session.handler, world⟩) := by
  rw [ioctl, Program.bind_ok (invoke_answered answered)]
  -- The wrapper turns one error number into another error.
  by_cases elsewhere : code = enotty
  · refine ⟨.kind .unsupported, ?_⟩
    simp only [Except.mapError, btrfsIoctl, if_pos elsewhere]
    rfl
  · refine ⟨.os code, ?_⟩
    simp only [Except.mapError, btrfsIoctl, if_neg elsewhere]
    rfl

/-- A command that leaves the handler as it is has changed nothing of it. -/
theorem Unchanged.refl (handler : HandleFull) : Unchanged handler handler :=
  ⟨rfl, rfl, rfl, rfl⟩

/-- The path of a subvolume is never empty, as it ends with a separator. -/
theorem withSeparator_ne_nil (path : Bytes) : withSeparator path ≠ [] := by
  -- It ends with a separator already, or gets one.
  rw [withSeparator]
  split
  · exact List.append_ne_nil_of_right_ne_nil path (List.cons_ne_nil separator [])
  · rename_i ends
    intro empty
    rw [empty] at ends
    exact ends (fun impossible => nomatch impossible)

/-- A path that fits is opened, and the subvolume is created where the system does so. -/
theorem subvol_ok {cmd : SubvolCmd} {session : Session World}
    (idle : session.handler.currentSubvol = [])
    {inside : 0 + (withSeparator cmd.path).length ≤ pathMax} {world : World}
    (named : setVolName cmd.path = .ok ())
    (answered : os.call (session.handler.opened cmd (stime os session.world) inside).memory
      (.subvolCreateV2 session.handler.dirfd cmd.path) session.world = (.ok (), world)) :
    subvol os cmd session =
      (.ok (some ()), ⟨session.handler.opened cmd (stime os session.world) inside, world⟩) := by
  -- The handler is opened first, and the one call behind that is answered.
  rcases subvol_cases os cmd session with ⟨active, _⟩ | ⟨_, long, _⟩ | ⟨_, _, ends⟩
  · exact absurd idle active
  · omega
  · have created : create os session.handler.dirfd cmd.path
        ⟨session.handler.opened cmd (stime os session.world) inside, session.world⟩ =
        (.ok (), ⟨session.handler.opened cmd (stime os session.world) inside, world⟩) := by
      rw [create, named]
      exact ioctl_ok answered
    rw [ends, Program.bind_ok created]
    rfl

/-- A path that fits is opened, even where the subvolume cannot be created. -/
theorem subvol_fails {cmd : SubvolCmd} {session : Session World}
    (idle : session.handler.currentSubvol = [])
    (inside : 0 + (withSeparator cmd.path).length ≤ pathMax)
    (refused : ¬Created os cmd session) :
    ∃ error world, subvol os cmd session = (.error (.io error),
      ⟨session.handler.opened cmd (stime os session.world) inside, world⟩) := by
  rcases subvol_cases os cmd session with ⟨active, _⟩ | ⟨_, long, _⟩ | ⟨_, _, ends⟩
  · exact absurd idle active
  · omega
  · let ready := session.handler.opened cmd (stime os session.world) inside
    -- Either the name is refused before the call, or the call is.
    have failed : ∃ error world, create os session.handler.dirfd cmd.path ⟨ready, session.world⟩ =
        (.error (.io error), ⟨ready, world⟩) := by
      rw [create]
      cases named : setVolName cmd.path with
      | error error => exact ⟨error, session.world, rfl⟩
      | ok done =>
        cases answered : os.call ready.memory (.subvolCreateV2 session.handler.dirfd cmd.path)
            session.world with
        | mk result world =>
          cases result with
          | ok answer => exact absurd ⟨named, inside, world, answered⟩ refused
          | error code =>
            obtain ⟨error, fails⟩ := @ioctl_error _ os _ ⟨ready, session.world⟩ _ _ answered
            exact ⟨error, world, fails⟩
    obtain ⟨error, world, created⟩ := failed
    exact ⟨error, world, by rw [ends, Program.bind_error created]⟩

/-- Where `subvol` has succeeded, the handler is opened and the system has created the subvolume. -/
theorem subvol_succeeds {cmd : SubvolCmd} {session between : Session World} {answer : Option Unit}
    (called : subvol os cmd session = (.ok answer, between)) :
    ∃ inside world,
      os.call (session.handler.opened cmd (stime os session.world) inside).memory
        (.subvolCreateV2 session.handler.dirfd cmd.path) session.world = (.ok (), world) ∧
      between = ⟨session.handler.opened cmd (stime os session.world) inside, world⟩ := by
  -- The subvolume was created, as the call would have failed otherwise.
  rcases subvol_cases os cmd session with ⟨_, refused⟩ | ⟨_, _, panics⟩ | ⟨idle, inside, _⟩
  · exact nomatch refused.symm.trans called
  · rw [called] at panics
    exact absurd panics (Outcome.not_panics_ok _)
  · by_cases created : Created os cmd session
    · obtain ⟨named, inside, world, answered⟩ := created
      rw [subvol_ok idle named answered] at called
      cases called
      exact ⟨inside, world, answered, rfl⟩
    · obtain ⟨error, world, failed⟩ := subvol_fails idle inside created
      exact nomatch failed.symm.trans called

/-- `subvol` fails cleanly when one is active, or when it comes to an end. -/
theorem subvol_clean_iff (cmd : SubvolCmd) (session : Session World) :
    FailsCleanly (subvol os cmd) session ↔
      session.handler.currentSubvol ≠ [] ∨ Created os cmd session := by
  by_cases active : session.handler.currentSubvol = []
  · rw [or_iff_right (not_not_intro active)]
    by_cases inside : 0 + (withSeparator cmd.path).length ≤ pathMax
    · by_cases created : Created os cmd session
      · refine ⟨fun _ => created, fun _ => ?_⟩
        obtain ⟨named, _, world, answered⟩ := created
        rw [FailsCleanly, subvol_ok active named answered]
        exact ⟨Outcome.not_panics_ok _, fun failure impossible => nomatch impossible⟩
      · refine ⟨fun clean => ?_, fun made => absurd made created⟩
        -- The handler has the subvolume already, though that was not created.
        obtain ⟨error, world, fails⟩ := subvol_fails active inside created
        have kept := (clean.2 (.io error) (by rw [fails])).subvol
        rw [fails, active] at kept
        exact absurd kept (withSeparator_ne_nil cmd.path)
    · have long : pathMax < (withSeparator cmd.path).length := by omega
      have panics := (@subvol_panics_iff _ os cmd session).mpr ⟨active, long⟩
      exact ⟨fun clean => absurd panics clean.1, fun ⟨_, fits, _⟩ => absurd fits inside⟩
  · refine ⟨fun _ => Or.inl active, fun _ => ?_⟩
    rcases subvol_cases os cmd session with ⟨_, ends⟩ | ⟨idle, _⟩ | ⟨idle, _⟩
    · rw [FailsCleanly, ends]
      exact ⟨Outcome.not_panics_receiveError _, fun _ _ => .refl session.handler⟩
    · exact absurd idle active
    · exact absurd idle active

/-- Where the path fits, `end` opens the subvolume by what it has written to its buffer. -/
theorem endCmd_opening {session : Session World} {cmd : EndCmd}
    (active : session.handler.currentSubvol ≠ [])
    (inside : 0 + (toBytesWithNul session.handler.currentSubvol).length ≤ pathMax) :
    endCmd os cmd session = (syscall os (.openat session.handler.dirfd .pathBuf oRdonly none) >>=
        fun fd => ioctl os (.setReceivedSubvol fd session.handler.receivedArgs) >>=
        fun receivedArgs => update (fun handler => { handler with receivedArgs }) >>=
        fun _ => update (fun handler => { handler with receivedArgs := .zeroed }) >>=
        fun _ => pure none) ⟨session.handler.closing inside, session.world⟩ := by
  -- The path is copied to the front of the buffer, where it fits.
  have read : (current : Method World HandleFull) session = (.ok session.handler, session) := rfl
  have written : doCPath session.handler.currentSubvol session.handler.pathBuf 0 =
      .ok (session.handler.pathBuf.copyAt 0 (toBytesWithNul session.handler.currentSubvol)
        inside) := by
    rw [doCPath, dif_pos inside]
  rw [endCmd, Program.bind_ok read, if_neg active]
  simp only [sysOpenat, getCPath, asRawFd, current, update, bind, Program.get, Program.modify,
    pure, List.length_nil, written]
  rfl

/-- `end` takes the subvolume and its identity out of the handler once the system has both. -/
theorem endCmd_ok {session : Session World} (cmd : EndCmd)
    (active : session.handler.currentSubvol ≠ [])
    {inside : 0 + (toBytesWithNul session.handler.currentSubvol).length ≤ pathMax} {fd : Nat}
    {world after : World} {answer : ReceivedArgs}
    (opens : os.call (session.handler.closing inside).memory
      (.openat session.handler.dirfd .pathBuf oRdonly none) session.world = (.ok fd, world))
    (seals : os.call (session.handler.closing inside).memory
      (.setReceivedSubvol fd session.handler.receivedArgs) world = (.ok answer, after)) :
    endCmd os cmd session =
      (.ok none, ⟨{ session.handler.closing inside with receivedArgs := .zeroed }, after⟩) := by
  -- Both calls are answered, and the identity is taken out of the handler behind them.
  have opened : syscall os (.openat session.handler.dirfd .pathBuf oRdonly none)
      ⟨session.handler.closing inside, session.world⟩ =
      (.ok fd, ⟨session.handler.closing inside, world⟩) := syscall_ok opens
  have sealing : ioctl os (.setReceivedSubvol fd session.handler.receivedArgs)
      ⟨session.handler.closing inside, world⟩ =
      (.ok answer, ⟨session.handler.closing inside, after⟩) := ioctl_ok seals
  rw [endCmd_opening active inside, Program.bind_ok opened, Program.bind_ok sealing]
  rfl

/-- Without both, `end` fails. -/
theorem endCmd_fails {session : Session World} (cmd : EndCmd)
    (active : session.handler.currentSubvol ≠ []) (unsealed : ¬Sealed os session) :
    ∃ error, (endCmd os cmd session).1 = .error (.io error) := by
  by_cases inside : 0 + (toBytesWithNul session.handler.currentSubvol).length ≤ pathMax
  · rw [endCmd_opening active inside]
    let ready := session.handler.closing inside
    let opening : Syscall Pointer := .openat session.handler.dirfd .pathBuf oRdonly none
    cases opens : os.call ready.memory opening session.world with
    | mk result world =>
      cases result with
      | error code =>
        have refused : syscall os opening ⟨ready, session.world⟩ =
            (.error (.io (.os code)), ⟨ready, world⟩) := syscall_error opens
        exact ⟨.os code, by rw [Program.bind_error refused]⟩
      | ok fd =>
        have opened : syscall os opening ⟨ready, session.world⟩ =
            (.ok fd, ⟨ready, world⟩) := syscall_ok opens
        let sealing : Syscall Pointer := .setReceivedSubvol fd session.handler.receivedArgs
        cases seals : os.call ready.memory sealing world with
        | mk result after =>
          cases result with
          | ok answer => exact absurd ⟨inside, fd, world, answer, after, opens, seals⟩ unsealed
          | error code =>
            obtain ⟨error, refused⟩ := @ioctl_error _ os sealing ⟨ready, world⟩ _ _ seals
            exact ⟨error, by rw [Program.bind_ok opened, Program.bind_error refused]⟩
  · -- The path and its zero are longer than the buffer.
    have refused : doCPath session.handler.currentSubvol session.handler.pathBuf 0 =
        .error (.os enametoolong) := by
      rw [doCPath, dif_neg inside]
    have read : (current : Method World HandleFull) session = (.ok session.handler, session) := rfl
    refine ⟨.os enametoolong, ?_⟩
    rw [endCmd, Program.bind_ok read, if_neg active]
    simp only [sysOpenat, getCPath, asRawFd, current, update, bind, Program.get, Program.modify,
      Program.fail, pure, List.length_nil, refused]

/-- `end` fails cleanly when none is active, or when it comes to an end. -/
theorem endCmd_clean_iff (cmd : EndCmd) (session : Session World) :
    FailsCleanly (endCmd os cmd) session ↔
      session.handler.currentSubvol = [] ∨ Sealed os session := by
  obtain ⟨calm, idle_or_taken⟩ := @endCmd_handler _ os cmd session
  rcases idle_or_taken with ⟨idle, same⟩ | ⟨active, pathBuf, args, taken⟩
  · refine ⟨fun _ => Or.inl idle, fun _ => ⟨calm, fun _ _ => ?_⟩⟩
    rw [same]
    exact .refl session.handler
  · rw [or_iff_right active]
    by_cases sealing : Sealed os session
    · refine ⟨fun _ => sealing, fun _ => ⟨calm, fun failure failed => ?_⟩⟩
      obtain ⟨inside, fd, world, answer, after, opens, seals⟩ := sealing
      rw [endCmd_ok cmd active opens seals] at failed
      exact nomatch failed
    · refine ⟨fun clean => ?_, fun sealing_done => absurd sealing_done sealing⟩
      -- The subvolume is gone from the handler, though it was not ended.
      obtain ⟨error, failed⟩ := endCmd_fails cmd active sealing
      have kept := (clean.2 (.io error) failed).subvol
      rw [taken] at kept
      exact absurd kept.symm active

/--
`subvol` and `end` fail cleanly exactly when they refuse at once, or when everything that they ask
of the system is granted.
-/
theorem failsCleanly_iff (begins : SubvolCmd) (ends : EndCmd) (session : Session World) :
    (FailsCleanly (subvol os begins) session ↔
      session.handler.currentSubvol ≠ [] ∨ Created os begins session) ∧
    (FailsCleanly (endCmd os ends) session ↔
      session.handler.currentSubvol = [] ∨ Sealed os session) :=
  -- Neither of the two looks at more of the state than at the subvolume that is active.
  ⟨subvol_clean_iff begins session, endCmd_clean_iff ends session⟩

/-- A first subvolume with a path of 4096 bytes makes the handler panic. -/
theorem failsCleanly_not_longPath :
    Received oldSystem handlerOfThree [] ⟨handlerOfThree, ()⟩ ∧
      ¬FailsCleanly (subvol oldSystem ⟨List.replicate 4096 115, 1, sentUuid⟩)
        ⟨handlerOfThree, ()⟩ := by
  refine ⟨.start (), fun clean => clean.1 ?_⟩
  rw [subvol_panics_iff]
  refine ⟨rfl, ?_⟩
  -- The path does not end with a separator, so one more byte is put behind it.
  have unended : (List.replicate 4096 (115 : UInt8)).getLast? ≠ some separator := by
    rw [List.getLast?_replicate]
    decide
  have long : (withSeparator (List.replicate 4096 115)).length = 4097 := by
    rw [withSeparator, if_pos unended, List.length_append, List.length_replicate]
    rfl
  show pathMax < (withSeparator (List.replicate 4096 115)).length
  rw [long]
  decide

end Libbtrfs.Receive.HandleFull
