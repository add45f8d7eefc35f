import Libbtrfs.Receive.Buffers

/-! What is in a file behind a write, for every way in which the kernel may cut it into parts. -/

namespace Libbtrfs.Receive

/-- `EIO`. -/
def eio : Nat := 5

/-- The file with the bytes at an offset, and zeros in the gap if it ends before that. -/
def store (file : Bytes) (offset : Nat) (bytes : Bytes) : Bytes :=
  file.take offset ++ List.replicate (offset - file.length) 0 ++ bytes ++
    file.drop (offset + bytes.length)

/-- A byte of the file, as zeros are read behind its end. -/
def byteAt (file : Bytes) (position : Nat) : UInt8 := file.getD position 0

/-- The bytes are in the file from the offset on, and all others are as they were. -/
def Stored (before after : Bytes) (offset : Nat) (bytes : Bytes) : Prop :=
  (∀ i, i < bytes.length → after[offset + i]? = bytes[i]?) ∧
    ∀ i, i < offset ∨ offset + bytes.length ≤ i → byteAt after i = byteAt before i

/-- A file that is being written, and what the kernel is going to do about each `pwrite`. -/
structure FileWorld where
  file : Bytes
  answers : List (Except Nat Nat)

/-- How many bytes are taken, out of some, by a kernel that would like to take a number of them. -/
def taken (count wish : Nat) : Nat := min (max wish 1) count

/-- A system in which one file is opened and written. -/
def fileSystem (opened : Except Nat Nat) : Os FileWorld where
  call memory call world :=
    match call with
    | .openat _ _ _ _ => (opened, world)
    | .pwrite _ buf count offset =>
      match world.answers with
      | [] => (.error eio, world)
      | .error code :: answers => (.error code, { world with answers })
      | .ok wish :: answers =>
        if possible : 1 ≤ count ∧ 0 ≤ offset.toInt then
          let part := (memory buf).take (taken count wish)
          (.ok ⟨taken count wish, by unfold taken; omega⟩,
            { file := store world.file offset.toInt.toNat part, answers })
        else (.error einval, { world with answers })
    | _ => (.error enosys, world)
  now _ := none

/-- Whether the kernel takes all of that many bytes before it refuses a call. -/
def Completes : List (Except Nat Nat) → Nat → Prop
  | _, 0 => True
  | [], _ + 1 => False
  | .error _ :: _, _ + 1 => False
  | .ok wish :: answers, count + 1 => Completes answers (count + 1 - taken (count + 1) wish)

/-- Whether the kernel takes all of that many bytes at once. -/
def TakesAll (answers : List (Except Nat Nat)) (count : Nat) : Prop :=
  ∃ wish rest, answers = .ok wish :: rest ∧ taken count wish = count

/-- The bytes of a file behind one call. -/
theorem store_getElem (file bytes : Bytes) (offset i : Nat) :
    (store file offset bytes)[i]? =
      if i < offset then (if i < file.length then file[i]? else some 0)
      else if i < offset + bytes.length then bytes[i - offset]? else file[i]? := by
  -- The file is cut, or padded with zeroes, in front of the offset.
  unfold store
  have front : (file.take offset ++ List.replicate (offset - file.length) 0).length = offset := by
    rw [List.length_append, List.length_take, List.length_replicate]
    omega
  rw [List.append_assoc _ bytes, List.getElem?_append, front]
  split
  · rename_i before
    rw [List.getElem?_append, List.length_take]
    split
    · rw [if_pos (by omega), List.getElem?_take_of_lt before]
    · rw [if_neg (by omega), List.getElem?_replicate, if_pos (by omega)]
  · rename_i behind
    rw [List.getElem?_append]
    split
    · rw [if_pos (by omega)]
    · rw [if_neg (by omega), List.getElem?_drop]
      congr 1
      omega

/-- What one call stores is stored. -/
theorem store_stored (file bytes : Bytes) (offset : Nat) :
    Stored file (store file offset bytes) offset bytes := by
  -- Padding does not count as a change, as bytes behind the end read as zero.
  refine ⟨fun i inside => ?_, fun i outside => ?_⟩
  · rw [store_getElem, if_neg (by omega), if_pos (by omega), Nat.add_sub_cancel_left]
  · unfold byteAt
    rw [List.getD_eq_getElem?_getD, List.getD_eq_getElem?_getD, store_getElem]
    split
    · split
      · rfl
      · rename_i past
        rw [List.getElem?_eq_none (Nat.not_lt.mp past)]
        rfl
    · rw [if_neg (by omega)]

namespace HandleFull

variable {opened : Except Nat Nat} {fd : Nat} {data : Bytes} {fileOffset : UInt64}
  {handler : HandleFull} {file : Bytes} {answers : List (Except Nat Nat)}

/-- An offset that is not negative as an `off_t` is the same number. -/
theorem offset_toNat (small : fileOffset.toNat < 2 ^ 63) :
    0 ≤ fileOffset.toInt64.toInt ∧ fileOffset.toInt64.toInt.toNat = fileOffset.toNat := by
  -- The cast keeps numbers of the lower half.
  have signed : fileOffset.toInt64.toInt = if 2 * fileOffset.toNat < 2 ^ 64
      then (fileOffset.toNat : Int) else (fileOffset.toNat : Int) - (2 ^ 64 : Nat) :=
    BitVec.toInt_eq_toNat_cond _
  rw [signed, if_pos (by omega)]
  omega

/-- An offset of the upper half is negative as an `off_t`. -/
theorem offset_negative (large : ¬ fileOffset.toNat < 2 ^ 63) :
    ¬ 0 ≤ fileOffset.toInt64.toInt := by
  -- The cast takes 2^64 off numbers of the upper half.
  have signed : fileOffset.toInt64.toInt = if 2 * fileOffset.toNat < 2 ^ 64
      then (fileOffset.toNat : Int) else (fileOffset.toNat : Int) - (2 ^ 64 : Nat) :=
    BitVec.toInt_eq_toNat_cond _
  have bounded := fileOffset.toNat_lt
  rw [signed, if_neg (by omega)]
  omega

/-- The loop is over when the position has passed the data. -/
theorem writeLoop_over {World : Type} {os : Os World} {session : Session World} {fuel pos : Nat}
    (past : data.length ≤ pos) :
    writeLoop os fd data fileOffset fuel pos session = (.ok (), session) := by
  -- The comparison is the first thing in each round.
  cases fuel with
  | zero => rfl
  | succ fuel =>
    unfold writeLoop
    rw [if_neg (Nat.not_lt.mpr past)]
    rfl

/-- A call that the kernel refuses ends the loop with its error. -/
theorem writeLoop_refused {World : Type} {os : Os World} {session : Session World} {fuel pos : Nat}
    (inside : pos < data.length) {code : Nat} {world : World}
    (refused : os.call session.handler.memory
      (.pwrite fd (.temporary (data.drop pos)) (data.length - pos) fileOffset.toInt64)
      session.world = (.error code, world)) :
    writeLoop os fd data fileOffset (fuel + 1) pos session =
      (.error (.io (.os code)), ⟨session.handler, world⟩) := by
  -- The error of the call is the first thing that the round comes to.
  unfold writeLoop
  rw [if_pos inside]
  refine Program.bind_error ?_
  unfold syscall
  rw [Program.bind_ok (invoke_answered refused)]
  rfl

/-- A call that the kernel answers stores what it takes, at the same offset each time. -/
theorem writeLoop_taken {fuel pos wish : Nat} (inside : pos < data.length)
    (small : fileOffset.toNat < 2 ^ 63) :
    writeLoop (fileSystem opened) fd data fileOffset (fuel + 1) pos
        ⟨handler, ⟨file, .ok wish :: answers⟩⟩ =
      writeLoop (fileSystem opened) fd data fileOffset fuel
        (pos + taken (data.length - pos) wish)
        ⟨handler, ⟨store file fileOffset.toNat
          ((data.drop pos).take (taken (data.length - pos) wish)), answers⟩⟩ := by
  -- The part begins at the position in the data, but at the offset of the command in the file.
  obtain ⟨positive, same⟩ := offset_toNat small
  have possible : 1 ≤ data.length - pos ∧ 0 ≤ fileOffset.toInt64.toInt := ⟨by omega, positive⟩
  have answered : invoke (fileSystem opened)
      (.pwrite fd (.temporary (data.drop pos)) (data.length - pos) fileOffset.toInt64)
      ⟨handler, ⟨file, .ok wish :: answers⟩⟩ =
      (.ok (.ok ⟨taken (data.length - pos) wish, by unfold taken; omega⟩),
        ⟨handler, ⟨store file fileOffset.toNat
          ((data.drop pos).take (taken (data.length - pos) wish)), answers⟩⟩) := by
    simp only [invoke, fileSystem]
    rw [dif_pos possible, same]
    rfl
  have stepped : syscall (fileSystem opened)
      (.pwrite fd (.temporary (data.drop pos)) (data.length - pos) fileOffset.toInt64)
      ⟨handler, ⟨file, .ok wish :: answers⟩⟩ =
      (.ok ⟨taken (data.length - pos) wish, by unfold taken; omega⟩,
        ⟨handler, ⟨store file fileOffset.toNat
          ((data.drop pos).take (taken (data.length - pos) wish)), answers⟩⟩) := by
    unfold syscall
    rw [Program.bind_ok answered]
    rfl
  conv => lhs; unfold writeLoop
  rw [if_pos inside, Program.bind_ok stepped]

/-- A negative offset is refused, whatever the kernel would have taken. -/
theorem fileSystem_negative {memory : Pointer → Bytes} {buf : Pointer} {count : Nat}
    (large : ¬ fileOffset.toNat < 2 ^ 63) (world : FileWorld) :
    ∃ code after, (fileSystem opened).call memory (.pwrite fd buf count fileOffset.toInt64) world =
      (.error code, after) := by
  -- It refuses with the error that it had in mind, or with that of the offset.
  rcases world with ⟨file, _ | ⟨_ | wish, answers⟩⟩
  · exact ⟨_, _, rfl⟩
  · exact ⟨_, _, rfl⟩
  · simp only [fileSystem]
    rw [dif_neg fun possible => offset_negative large possible.2]
    exact ⟨_, _, rfl⟩

/-- With enough rounds the loop ends well exactly when the kernel takes all that is left. -/
theorem writeLoop_ok_iff (small : fileOffset.toNat < 2 ^ 63) {fuel pos : Nat}
    (enough : data.length - pos ≤ fuel) :
    (writeLoop (fileSystem opened) fd data fileOffset fuel pos ⟨handler, ⟨file, answers⟩⟩).1 =
        .ok () ↔ Completes answers (data.length - pos) := by
  -- Each round takes at least one byte, so the rounds are enough for the rest as well.
  induction fuel generalizing pos file answers with
  | zero =>
    rw [Nat.le_zero.mp enough]
    exact ⟨fun _ => by unfold Completes; trivial, fun _ => rfl⟩
  | succ fuel ih =>
    by_cases inside : pos < data.length
    · obtain ⟨left, more⟩ : ∃ left, data.length - pos = left + 1 := ⟨data.length - pos - 1, by omega⟩
      rcases answers with _ | ⟨code | wish, answers⟩
      · rw [writeLoop_refused inside rfl, more]
        exact ⟨nofun, fun never => never.elim⟩
      · rw [writeLoop_refused inside rfl, more]
        exact ⟨nofun, fun never => never.elim⟩
      · have some_taken : 1 ≤ taken (data.length - pos) wish := by unfold taken; omega
        have rest : data.length - (pos + taken (data.length - pos) wish) =
            data.length - pos - taken (data.length - pos) wish := by omega
        rw [writeLoop_taken inside small, ih (by omega), rest, more]
        rfl
    · rw [writeLoop_over (Nat.not_lt.mp inside), Nat.sub_eq_zero_of_le (Nat.not_lt.mp inside)]
      exact ⟨fun _ => by unfold Completes; trivial, fun _ => rfl⟩

/-- The bytes that are further behind the offset than what is left are not touched. -/
theorem writeLoop_untouched (small : fileOffset.toNat < 2 ^ 63) {fuel pos i : Nat}
    (outside : fileOffset.toNat + (data.length - pos) ≤ i) :
    byteAt (writeLoop (fileSystem opened) fd data fileOffset fuel pos
      ⟨handler, ⟨file, answers⟩⟩).2.world.file i = byteAt file i := by
  -- Every part begins at the offset, and is no longer than what is left.
  induction fuel generalizing pos file answers with
  | zero => rfl
  | succ fuel ih =>
    by_cases inside : pos < data.length
    · rcases answers with _ | ⟨code | wish, answers⟩
      · rw [writeLoop_refused inside rfl]
      · rw [writeLoop_refused inside rfl]
      · rw [writeLoop_taken inside small, ih (by omega)]
        refine (store_stored _ _ _).2 i (Or.inr ?_)
        rw [List.length_take, List.length_drop]
        omega
    · rw [writeLoop_over (Nat.not_lt.mp inside)]

/-- A first part that is not all of the data leaves the last byte to none of the others. -/
theorem writeLoop_short (small : fileOffset.toNat < 2 ^ 63) {fuel wish i : Nat}
    (short : taken data.length wish < data.length)
    (last : fileOffset.toNat + (data.length - 1) ≤ i) :
    byteAt (writeLoop (fileSystem opened) fd data fileOffset fuel 0
      ⟨handler, ⟨file, .ok wish :: answers⟩⟩).2.world.file i = byteAt file i := by
  cases fuel with
  | zero => rfl
  | succ fuel =>
    have inside : 0 < data.length := by omega
    have some_taken : 1 ≤ taken data.length wish := by unfold taken; omega
    -- What is left is shorter than the data, and so is the part that was taken.
    rw [writeLoop_taken inside small, writeLoop_untouched small (by rw [Nat.sub_zero]; omega)]
    refine (store_stored _ _ _).2 i (Or.inr ?_)
    rw [List.length_take, List.length_drop, Nat.sub_zero]
    omega

/-- A first part that is all of the data is stored, and nothing else is. -/
theorem writeLoop_whole (small : fileOffset.toNat < 2 ^ 63) {fuel wish : Nat}
    (some_data : 0 < data.length) (all : taken data.length wish = data.length) :
    (writeLoop (fileSystem opened) fd data fileOffset (fuel + 1) 0
      ⟨handler, ⟨file, .ok wish :: answers⟩⟩).2.world.file =
        store file fileOffset.toNat data := by
  -- One round takes all of the data, and the next one finds none left.
  rw [writeLoop_taken some_data small, Nat.sub_zero, all,
    writeLoop_over (Nat.le_of_eq (Nat.zero_add _).symm), List.drop_zero, List.take_length]

/-- The path of a file can be opened: it fits, and the system has the file. -/
def Opens (handler : HandleFull) (path : Bytes) (opened : Except Nat Nat) : Prop :=
  handler.currentSubvol.length + path.length + 1 ≤ pathMax ∧ ∃ fd, opened = .ok fd

/-- Whether a write comes to its end, for what the system is going to answer. -/
def Finishes (handler : HandleFull) (cmd : WriteCmd) (opened : Except Nat Nat)
    (answers : List (Except Nat Nat)) : Prop :=
  handler.Opens cmd.path opened ∧
    (cmd.data ≠ [] → cmd.fileOffset.toNat < 2 ^ 63 ∧ Completes answers cmd.data.length)

/-- A file is opened by its path, or not. -/
theorem sysOpenat_fileSystem (path : Bytes) (flags : Int32) (mode : Option UInt32)
    (session : Session FileWorld) :
    (∃ fd pathBuf, opened = .ok fd ∧ session.handler.Opens path opened ∧
        sysOpenat (fileSystem opened) path flags mode session =
          (.ok fd, { session with handler := { session.handler with pathBuf } })) ∨
      (¬ session.handler.Opens path opened ∧ ∃ failure after,
        sysOpenat (fileSystem opened) path flags mode session = (.error failure, after)) := by
  -- The path is put behind the subvolume first, and the open is answered only then.
  have read : asRawFd session = (.ok session.handler.dirfd, session) := rfl
  have width : (toBytesWithNul path).length = path.length + 1 := by simp [toBytesWithNul]
  unfold sysOpenat
  rw [Program.bind_ok read]
  by_cases fits : session.handler.currentSubvol.length + path.length + 1 ≤ pathMax
  · have inside : session.handler.currentSubvol.length + (toBytesWithNul path).length ≤ pathMax := by
      omega
    have written : getCPath path session = (.ok .pathBuf,
        { session with
          handler :=
            { session.handler with pathBuf := session.handler.pathBuf.copyAt _ _ inside } }) := by
      simp only [getCPath, current, update, bind, Program.get, pure, Program.modify, doCPath,
        dif_pos inside]
    rw [Program.bind_ok written]
    cases opened with
    | ok fd => exact Or.inl ⟨fd, _, rfl, ⟨fits, fd, rfl⟩, rfl⟩
    | error code =>
      refine Or.inr ⟨fun opens => ?_, _, _, rfl⟩
      obtain ⟨_, fd, impossible⟩ := opens
      cases impossible
  · have refused : getCPath path session = (.error (.io (.os enametoolong)), session) := by
      have outside :
          ¬ session.handler.currentSubvol.length + (toBytesWithNul path).length ≤ pathMax := by
        omega
      simp only [getCPath, current, bind, Program.get, pure, Program.fail, doCPath,
        dif_neg outside]
    exact Or.inr ⟨fun opens => fits opens.1, _, _, Program.bind_error refused⟩

/-- A write whose file is opened is its loop, with another handler. -/
theorem write_opened {cmd : WriteCmd} (opens : handler.Opens cmd.path opened) (file : Bytes)
    (answers : List (Except Nat Nat)) :
    ∃ fd other, write (fileSystem opened) cmd ⟨handler, ⟨file, answers⟩⟩ =
      (writeLoop (fileSystem opened) fd cmd.data cmd.fileOffset cmd.data.length 0 >>= fun _ =>
        pure (some ())) ⟨other, ⟨file, answers⟩⟩ := by
  -- The buffer of the path is all that has changed in front of the loop.
  rcases sysOpenat_fileSystem cmd.path oWronly none ⟨handler, ⟨file, answers⟩⟩ with
    ⟨fd, pathBuf, _, _, ends⟩ | ⟨shut, _⟩
  · exact ⟨fd, _, Program.bind_ok ends⟩
  · exact absurd opens shut

/-- A write ends well exactly when its file is opened and the kernel takes all of the data. -/
theorem write_ok_iff (cmd : WriteCmd) :
    (write (fileSystem opened) cmd ⟨handler, ⟨file, answers⟩⟩).1 = .ok (some ()) ↔
      handler.Finishes cmd opened answers := by
  by_cases opens : handler.Opens cmd.path opened
  · obtain ⟨fd, other, runs⟩ := write_opened opens file answers
    rw [runs]
    have looped : ((writeLoop (fileSystem opened) fd cmd.data cmd.fileOffset cmd.data.length 0 >>=
          fun _ => pure (some ())) ⟨other, ⟨file, answers⟩⟩).1 = .ok (some ()) ↔
        (writeLoop (fileSystem opened) fd cmd.data cmd.fileOffset cmd.data.length 0
          ⟨other, ⟨file, answers⟩⟩).1 = .ok () := by
      rcases ended : writeLoop (fileSystem opened) fd cmd.data cmd.fileOffset cmd.data.length 0
        ⟨other, ⟨file, answers⟩⟩ with ⟨_ | _, after⟩
      · rw [Program.bind_error ended]
        exact ⟨nofun, nofun⟩
      · rw [Program.bind_ok ended]
        exact ⟨fun _ => rfl, fun _ => rfl⟩
    rw [looped]
    by_cases empty : cmd.data = []
    · rw [writeLoop_over (by rw [empty]; exact Nat.le_refl _)]
      exact ⟨fun _ => ⟨opens, fun some_data => absurd empty some_data⟩, fun _ => rfl⟩
    · by_cases small : cmd.fileOffset.toNat < 2 ^ 63
      · have loop_ok : (writeLoop (fileSystem opened) fd cmd.data cmd.fileOffset cmd.data.length 0
            ⟨other, ⟨file, answers⟩⟩).1 = .ok () ↔ Completes answers (cmd.data.length - 0) :=
          writeLoop_ok_iff small (Nat.sub_le _ _)
        rw [loop_ok, Nat.sub_zero]
        exact ⟨fun completes => ⟨opens, fun _ => ⟨small, completes⟩⟩,
          fun finishes => (finishes.2 empty).2⟩
      · -- The kernel refuses a negative offset at once.
        refine ⟨fun ended => ?_, fun finishes => absurd (finishes.2 empty).1 small⟩
        have inside : 0 < cmd.data.length := List.length_pos_iff.mpr empty
        obtain ⟨code, after, refused⟩ : ∃ code after, (fileSystem opened).call other.memory
            (.pwrite fd (.temporary (cmd.data.drop 0)) (cmd.data.length - 0)
              cmd.fileOffset.toInt64) ⟨file, answers⟩ = (.error code, after) :=
          fileSystem_negative small _
        obtain ⟨left, more⟩ : ∃ left, cmd.data.length = left + 1 := ⟨cmd.data.length - 1, by omega⟩
        rw [more] at ended
        rw [writeLoop_refused inside refused] at ended
        cases ended
  · rcases sysOpenat_fileSystem cmd.path oWronly none ⟨handler, ⟨file, answers⟩⟩ with
      ⟨_, _, _, opens_it, _⟩ | ⟨_, failure, after, ends⟩
    · exact absurd opens_it opens
    · unfold write
      rw [Program.bind_error ends]
      exact ⟨nofun, fun finishes => absurd finishes.1 opens⟩

/--
A write that ends well has stored its data, for every file, exactly when the first call takes all.

The others are those that are left without data to write, and those that do not end well.
-/
theorem write_stores_iff (handler : HandleFull) (cmd : WriteCmd) (opened : Except Nat Nat)
    (answers : List (Except Nat Nat)) :
    (∀ file,
        (write (fileSystem opened) cmd ⟨handler, ⟨file, answers⟩⟩).1 = .ok (some ()) →
          Stored file (write (fileSystem opened) cmd ⟨handler, ⟨file, answers⟩⟩).2.world.file
            cmd.fileOffset.toNat cmd.data) ↔
      (handler.Finishes cmd opened answers →
        cmd.data = [] ∨ TakesAll answers cmd.data.length) := by
  constructor
  · intro stores finishes
    by_cases empty : cmd.data = []
    · exact Or.inl empty
    right
    have some_data : 0 < cmd.data.length := List.length_pos_iff.mpr empty
    obtain ⟨small, completes⟩ := finishes.2 empty
    obtain ⟨left, more⟩ : ∃ left, cmd.data.length = left + 1 := ⟨cmd.data.length - 1, by omega⟩
    rw [more] at completes
    rcases answers with _ | ⟨code | wish, rest⟩
    · exact completes.elim
    · exact completes.elim
    refine ⟨wish, rest, rfl, ?_⟩
    by_contra partly
    have short : taken cmd.data.length wish < cmd.data.length := by
      unfold taken at partly ⊢
      omega
    -- In a file that differs in the last byte, that byte is never written.
    obtain ⟨old, differs⟩ : ∃ old : UInt8, some old ≠ cmd.data[left]? := by
      by_cases zero : some (0 : UInt8) = cmd.data[left]?
      · exact ⟨1, by rw [← zero]; decide⟩
      · exact ⟨0, zero⟩
    let file := List.replicate (cmd.fileOffset.toNat + cmd.data.length) old
    have stored := (stores file ((write_ok_iff cmd).mpr finishes)).1 left (by omega)
    obtain ⟨fd, other, runs⟩ := write_opened finishes.1 file (.ok wish :: rest)
    rw [runs, Program.bind_pure_state] at stored
    have untouched : byteAt (writeLoop (fileSystem opened) fd cmd.data cmd.fileOffset
        cmd.data.length 0 ⟨other, ⟨file, .ok wish :: rest⟩⟩).2.world.file
        (cmd.fileOffset.toNat + left) = byteAt file (cmd.fileOffset.toNat + left) :=
      writeLoop_short small short (by omega)
    have before : byteAt file (cmd.fileOffset.toNat + left) = old := by
      rw [byteAt, List.getD_eq_getElem?_getD, List.getElem?_replicate, if_pos (by omega)]
      rfl
    rw [byteAt, List.getD_eq_getElem?_getD, stored, before] at untouched
    rcases found : cmd.data[left]? with _ | byte
    · rw [List.getElem?_eq_none_iff] at found
      omega
    · rw [found] at untouched differs
      exact differs (congrArg some untouched.symm)
  · intro condition file ended
    have finishes := (write_ok_iff cmd).mp ended
    obtain ⟨fd, other, runs⟩ := write_opened finishes.1 file answers
    rw [runs, Program.bind_pure_state]
    by_cases empty : cmd.data = []
    · rw [writeLoop_over (by rw [empty]; exact Nat.le_refl _), empty]
      exact ⟨fun i inside => by simp at inside, fun i _ => rfl⟩
    · obtain ⟨wish, rest, rfl, all⟩ := (condition finishes).resolve_left empty
      have some_data : 0 < cmd.data.length := List.length_pos_iff.mpr empty
      obtain ⟨left, more⟩ : ∃ left, cmd.data.length = left + 1 := ⟨cmd.data.length - 1, by omega⟩
      have whole : (writeLoop (fileSystem opened) fd cmd.data cmd.fileOffset cmd.data.length 0
          ⟨other, ⟨file, .ok wish :: rest⟩⟩).2.world.file =
          store file cmd.fileOffset.toNat cmd.data := by
        conv => lhs; rw [more]
        exact writeLoop_whole (finishes.2 empty).1 some_data all
      rw [whole]
      exact store_stored _ _ _

/-- Two bytes at the start of the file `f`. -/
def twoBytes : WriteCmd := ⟨[102], 0, [1, 2]⟩

/-- A kernel that takes one byte at a time is given the second one for the place of the first. -/
theorem write_misplaces_twoBytes :
    ¬ ∀ file,
      (write (fileSystem (.ok 4)) twoBytes ⟨receivingS.handler, ⟨file, [.ok 1, .ok 1]⟩⟩).1 =
          .ok (some ()) →
        Stored file (write (fileSystem (.ok 4)) twoBytes
          ⟨receivingS.handler, ⟨file, [.ok 1, .ok 1]⟩⟩).2.world.file 0 [1, 2] := by
  intro all
  -- The file ends up with the second byte alone.
  have second := (all [] rfl).1 1 (by decide)
  exact absurd second (by decide)

end HandleFull

end Libbtrfs.Receive
