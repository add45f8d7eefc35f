import Libbtrfs.Receive.Buffers

/-! What the calls for extended attributes are about, as the kernel takes their arguments. -/

namespace Libbtrfs.Receive

/-- The object of a call, the attribute and, where one is set, its value. -/
structure XattrTarget where
  dir : Int
  path : Bytes
  name : Bytes
  value : Option Bytes
  deriving DecidableEq

/--
What the arguments of `setxattrat` denote, in the order in which the kernel takes them.

The address of a path is no descriptor, and a flag is no address.
-/
def setxattrat : List (RawArg Bytes) → Option XattrTarget
  | [.int dfd, .pointer path, .int _atFlags, .pointer name, .xattrArgs value size _, .sizeT _] =>
    some ⟨dfd.toInt, fromPtr path, fromPtr name, some (value.take size.toNat)⟩
  | _ => none

/-- What the arguments of `removexattrat` denote. -/
def removexattrat : List (RawArg Bytes) → Option XattrTarget
  | [.int dfd, .pointer path, .int _atFlags, .pointer name] =>
    some ⟨dfd.toInt, fromPtr path, fromPtr name, none⟩
  | _ => none

namespace HandleFull

/-- The target of a path that goes through the base of the fallback, which is the directory. -/
def belowBase (handler : HandleFull) (base path name : Bytes) (value : Option Bytes) :
    Option XattrTarget :=
  if base <+: path then
    some ⟨handler.dirfd, fromPtr (path.drop base.length), fromPtr name, value⟩
  else none

/-- What a call for an extended attribute is about. -/
def xattrTarget (handler : HandleFull) (base : Bytes) : Syscall Bytes → Option XattrTarget
  | .raw sysno args =>
    if sysno = 463 then setxattrat args else if sysno = 466 then removexattrat args else none
  | .lsetxattr path name value size _ =>
    handler.belowBase base path name (some (value.take size))
  | .lremovexattr path name => handler.belowBase base path name none
  | _ => none

/-- A call that is made by its number. -/
def ByNumber : Syscall Bytes → Prop
  | .raw _ _ => True
  | _ => False

/-- A request for an extended attribute, as a command has it. -/
structure XattrRequest where
  path : Bytes
  name : Bytes
  value : Option Bytes

/-- The request of a command, if it is about extended attributes. -/
def xattrRequest : SendCommand → Option XattrRequest
  | .setXattr cmd => some ⟨cmd.path, cmd.xattrName, some cmd.xattrData⟩
  | .removeXattr cmd => some ⟨cmd.path, cmd.xattrName, none⟩
  | _ => none

/-- The target that a request is meant for: the path behind the subvolume, in the directory. -/
def XattrRequest.target (request : XattrRequest) (handler : HandleFull) : XattrTarget where
  dir := handler.dirfd
  path := fromPtr (handler.currentSubvol ++ toBytesWithNul request.path)
  name := fromPtr request.name
  value := request.value

variable {World : Type} {os : Os World} {base : Bytes}

/-- The name is read from its buffer as it is given, up to its first zero. -/
theorem fromPtr_xattrNameBuf {name : Bytes} (short : name.length ≤ xattrNameMax) :
    fromPtr (xattrNameBuf name) = fromPtr name := by
  -- The buffer is one byte longer than any name, so a zero is behind this one.
  have begins : toBytesWithNul name <+: xattrNameBuf name := by
    obtain ⟨more, room⟩ := Nat.exists_eq_add_of_lt (Nat.lt_succ_of_le short)
    refine ⟨List.replicate more 0, ?_⟩
    have zeros : xattrNameMax + 1 - name.length = more + 1 := by omega
    rw [toBytesWithNul, xattrNameBuf, zeros, List.replicate_succ, List.append_assoc,
      List.singleton_append]
  have zero : (0 : UInt8) ∈ toBytesWithNul name := by simp [toBytesWithNul]
  rw [fromPtr_front zero begins, fromPtr_withNul]

/-- A path through the base leads where the same path in the directory does. -/
theorem belowBase_path (handler : HandleFull) (rest name : Bytes) (value : Option Bytes) :
    handler.belowBase base (base ++ rest) name value =
      some ⟨handler.dirfd, fromPtr rest, fromPtr name, value⟩ := by
  -- The base is cut off in front of the rest.
  unfold belowBase
  rw [if_pos (List.prefix_append _ _), List.drop_left]

/-- The call by number is astray whenever it is made, and the one in its place is not. -/
theorem byNumber_target {path name : Bytes} {sysno : Nat}
    {args : Pointer → Pointer → List (RawArg Pointer)} {fallback : Pointer → Pointer → Syscall Pointer}
    {session : Session World} {dirfd : Nat} (sound : Sound dirfd base session.handler)
    (short : name.length ≤ xattrNameMax) {target : XattrTarget}
    (astray : ∀ namePtr memory, session.handler.xattrTarget base
      ((Syscall.raw sysno (args .pathBuf namePtr)).map memory) = none)
    (meant : ∀ handler : HandleFull,
      handler.xattrFallback.buf = base ++ session.handler.currentSubvol ++ toBytesWithNul path →
        session.handler.xattrTarget base
          ((fallback .xattrFallback (.temporary (xattrNameBuf name))).map handler.memory) =
            some target) :
    let calls := (recorded (byNumber os.recording path name sysno args fallback) session).2.world.2
    (∀ call ∈ calls, ¬ ByNumber call → session.handler.xattrTarget base call = some target) ∧
      ((∀ call ∈ calls, session.handler.xattrTarget base call = some target) ↔
        pathMax < session.handler.currentSubvol.length + path.length + 1) := by
  -- The call by number comes first whenever there is one, so all is well only without any call.
  intro calls
  rcases byNumber_recorded os path name sysno args fallback sound.buffers.first with
    ⟨none_made, _, long | long⟩ | ⟨_, fits, pathBuf, _, ⟨one_made, _⟩ | ⟨both_made, _⟩⟩
  · omega
  · have no_calls : calls = [] := none_made
    rw [no_calls]
    exact ⟨(fun _ made => nomatch made), fun _ => long, fun _ _ made => nomatch made⟩
  · have one : calls = _ := one_made
    rw [one]
    refine ⟨fun call made numbered => ?_, fun all => ?_, fun long => by omega⟩
    · rw [List.mem_singleton.mp made] at numbered
      exact absurd trivial numbered
    · have first := all _ (List.mem_singleton.mpr rfl)
      rw [astray] at first
      cases first
  · have both : calls = _ := both_made
    rw [both]
    refine ⟨fun call made numbered => ?_, fun all => ?_, fun long => by omega⟩
    · rcases List.mem_cons.mp made with first | second
      · rw [first] at numbered
        exact absurd trivial numbered
      · rw [List.mem_singleton.mp second]
        exact meant _ (extend_exact sound.fallback _ _)
    · have first := all _ List.mem_cons_self
      rw [astray] at first
      cases first

/--
The call in the place of the one by number is about the object, the name and the value that are meant.

The one by number is not, as its arguments have no descriptor: all is well only if none is made.
-/
theorem xattr_targets_iff (os : Os World) {built : HandleFull} (new_one : Built built)
    {cmds : List SendCommand} {session : Session World}
    (received : Received os built cmds session) {cmd : SendCommand} {request : XattrRequest}
    (about : xattrRequest cmd = some request) (short : request.name.length ≤ xattrNameMax) :
    let handler := session.handler
    let base := built.xattrFallback.buf
    (∀ call ∈ callsOf os cmd session, ¬ ByNumber call →
        handler.xattrTarget base call = some (request.target handler)) ∧
      ((∀ call ∈ callsOf os cmd session,
          handler.xattrTarget base call = some (request.target handler)) ↔
        pathMax < handler.currentSubvol.length + request.path.length + 1) := by
  -- Both commands are the same program with other arguments.
  obtain ⟨sound, _⟩ := received_sound new_one received
  cases cmd with
  | setXattr cmd =>
    cases about
    refine byNumber_target sound short (fun _ _ => rfl) fun handler filled => ?_
    show session.handler.belowBase built.xattrFallback.buf handler.xattrFallback.buf
      (xattrNameBuf cmd.xattrName) (some (cmd.xattrData.take cmd.xattrData.length)) = _
    rw [filled, List.append_assoc, belowBase_path, fromPtr_xattrNameBuf short, List.take_length]
    rfl
  | removeXattr cmd =>
    cases about
    refine byNumber_target sound short (fun _ _ => rfl) fun handler filled => ?_
    show session.handler.belowBase built.xattrFallback.buf handler.xattrFallback.buf
      (xattrNameBuf cmd.xattrName) none = _
    rw [filled, List.append_assoc, belowBase_path, fromPtr_xattrNameBuf short]
    rfl
  | _ => cases about

/-- The attribute `user.a` of the file `f`, to be set to one byte. -/
def setUserA : SetXattrCmd := ⟨[102], [117, 115, 101, 114, 46, 97], [1]⟩

/-- The rule at the command that sets it. -/
theorem xattr_targets_iff_setUserA :
    (∀ call ∈ callsOf oldSystem (.setXattr setUserA) receivingS, ¬ ByNumber call →
        receivingS.handler.xattrTarget handlerOfThree.xattrFallback.buf call =
          some ⟨3, [115, 47, 102], [117, 115, 101, 114, 46, 97], some [1]⟩) ∧
      ((∀ call ∈ callsOf oldSystem (.setXattr setUserA) receivingS,
          receivingS.handler.xattrTarget handlerOfThree.xattrFallback.buf call =
            some ⟨3, [115, 47, 102], [117, 115, 101, 114, 46, 97], some [1]⟩) ↔
        pathMax < 2 + 1 + 1) :=
  have about : xattrRequest (.setXattr setUserA) =
      some ⟨[102], [117, 115, 101, 114, 46, 97], some [1]⟩ := rfl
  xattr_targets_iff oldSystem handlerOfThree_built receivingS_received about (by decide)

/-- The call by number that is made for it is about nothing at all. -/
theorem xattr_astray_setUserA :
    ¬ ∀ call ∈ callsOf oldSystem (.setXattr setUserA) receivingS,
        receivingS.handler.xattrTarget handlerOfThree.xattrFallback.buf call =
          some ⟨3, [115, 47, 102], [117, 115, 101, 114, 46, 97], some [1]⟩ := by
  -- The call is computed, and its arguments lead to no extended attribute.
  decide

end HandleFull

end Libbtrfs.Receive
