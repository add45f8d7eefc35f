import Libbtrfs.Receive.Buffers
import Mathlib.Data.List.Induction

/-! Where in the directory a received stream can reach, by the components of its paths. -/

namespace Libbtrfs.Receive

/-- The components of a path, as it is followed from a directory. -/
def components (path : Bytes) : List Bytes :=
  (path.splitOn separator).filter fun component => component ≠ [] ∧ component ≠ curDir

/-- No component leads above where the first one starts from. -/
def NeverClimbs (names : List Bytes) : Prop :=
  ∀ front, front <+: names →
    front.count parentDir ≤ (front.filter (· ≠ parentDir)).length

/-- A path that leads through the subvolume, and does not climb out of it any more. -/
def Confined (subvol path : Bytes) : Prop :=
  ∃ rest, components path = components subvol ++ rest ∧ NeverClimbs rest

/--
A call that is given a path takes it from the directory of the handler.

Where it names no directory it has the path as it is, or behind the base of the fallback.
-/
def PathArg.Takes (dirfd : Nat) (base path : Bytes) : PathArg → Prop
  | .below fd memory => fd = dirfd ∧ fromPtr memory = path
  | .bare memory => fromPtr memory = path
  | .whole memory => ∃ text, memory = base ++ text ∧ fromPtr text = path

/-- The directory that a call is given with a path. -/
def PathArg.directory : PathArg → Option Nat
  | .below dirfd _ => some dirfd
  | .bare _ => none
  | .whole _ => none

/-- The memory that a path is read from. -/
def PathArg.memory : PathArg → Bytes
  | .below _ memory => memory
  | .bare memory => memory
  | .whole memory => memory

/-- What a call is given leads through the subvolume from the directory, or the base, and stays. -/
def PathArg.Stays (dirfd : Nat) (base subvol : Bytes) : PathArg → Prop
  | .below fd memory => fd = dirfd ∧ ¬ Absolute (fromPtr memory) ∧ Confined subvol (fromPtr memory)
  -- Where no directory is named, it is the components that are to stay.
  | .bare memory => Confined subvol (fromPtr memory)
  | .whole memory => ∃ text, memory = base ++ text ∧ Confined subvol (fromPtr text)

@[simp] theorem components_nil : components [] = [] := rfl

/-- The components on both sides of a separator follow each other. -/
theorem components_append (front back : Bytes) :
    components (front ++ separator :: back) = components front ++ components back := by
  -- The path is split at the separator, and what is empty is dropped on both sides.
  unfold components
  rw [List.splitOn_append_cons_self, List.filter_append]

/-- A path with a separator behind it has components of its own in front of what follows. -/
theorem components_withSeparator (path back : Bytes) :
    components (withSeparator path ++ back) = components path ++ components back := by
  unfold withSeparator
  split
  · rw [List.append_assoc, List.singleton_append, components_append]
  · rename_i ended
    -- The separator is already there, and nothing is between it and the end.
    obtain ⟨front, rfl⟩ := List.getLast?_eq_some_iff.mp (not_not.mp ended)
    rw [List.append_assoc, List.singleton_append, components_append, components_append,
      components_nil, List.append_nil]

namespace HandleFull

variable {World : Type} {os : Os World} {base : Bytes}

/-- An argument that leads to an operand takes the subvolume with the operand behind it. -/
theorem Leads.takes {handler : HandleFull} {operand : Operand} {arg : PathArg}
    (leads : handler.Leads base operand arg) :
    arg.Takes handler.dirfd base
      (fromPtr (handler.currentSubvol ++ toBytesWithNul operand.bytes)) := by
  -- The zero that ends the operand is in the memory, so what is behind it is not read.
  have zero : (0 : UInt8) ∈ handler.currentSubvol ++ toBytesWithNul operand.bytes := by
    simp [toBytesWithNul]
  cases arg with
  | below dirfd memory => exact ⟨leads.1, fromPtr_front zero leads.2⟩
  | bare memory => exact fromPtr_front zero leads
  | whole memory =>
    have same : memory = base ++ handler.currentSubvol ++ toBytesWithNul operand.bytes := leads
    exact ⟨_, same.trans (List.append_assoc _ _ _), rfl⟩

/-- Whether what is taken stays is a question of its path, and of whether that starts at the root. -/
theorem stays_iff {dirfd : Nat} {path subvol : Bytes} {arg : PathArg}
    (takes : arg.Takes dirfd base path) :
    arg.Stays dirfd base subvol ↔ (arg.directory ≠ none → ¬ Absolute path) ∧ Confined subvol path := by
  -- A path is taken from the directory, from nowhere in particular, or behind the base.
  cases arg with
  | below fd memory =>
    obtain ⟨same, rfl⟩ := takes
    exact ⟨fun ⟨_, relative, stays⟩ => ⟨fun _ => relative, stays⟩,
      fun ⟨relative, stays⟩ => ⟨same, relative (Option.some_ne_none _), stays⟩⟩
  | bare memory =>
    cases takes
    exact ⟨fun stays => ⟨fun named => absurd rfl named, stays⟩, And.right⟩
  | whole memory =>
    obtain ⟨text, rfl, rfl⟩ := takes
    constructor
    · rintro ⟨other, same, stays⟩
      rw [List.append_cancel_left same]
      exact ⟨fun named => absurd rfl named, stays⟩
    · exact fun stays => ⟨text, rfl, stays.2⟩

/-- A subvolume that is received was begun by a command for it, and not ended since. -/
theorem activeSubvol_opened {cmds : List SendCommand} (active : activeSubvol cmds ≠ []) :
    ∃ earlier cmd later, cmds = earlier ++ .subvol cmd :: later ∧ activeSubvol earlier = [] ∧
      (∀ ended, .endCmd ended ∉ later) ∧ activeSubvol cmds = withSeparator cmd.path := by
  -- By induction from the last command.
  induction cmds using List.reverseRecOn with
  | nil => exact absurd rfl active
  | append_singleton cmds cmd ih =>
    have stepped : activeSubvol (cmds ++ [cmd]) = activeAfter (activeSubvol cmds) cmd := by
      rw [activeSubvol, List.foldl_append]
      rfl
    rw [stepped] at active ⊢
    by_cases before : activeSubvol cmds = []
    · -- Nothing was received before it, so it is the one that began the subvolume.
      cases cmd with
      | subvol cmd =>
        refine ⟨cmds, cmd, [], rfl, before, fun _ => List.not_mem_nil, ?_⟩
        rw [activeAfter, if_pos before]
      | endCmd cmd => exact absurd rfl active
      | _ => exact absurd before active
    · obtain ⟨earlier, first, later, whole, idle, unended, same⟩ := ih before
      have kept : (∀ ended, .endCmd ended ≠ cmd) ∧
          activeAfter (activeSubvol cmds) cmd = activeSubvol cmds := by
        cases cmd with
        | subvol cmd => exact ⟨fun _ => SendCommand.noConfusion, if_neg before⟩
        | endCmd cmd => exact absurd rfl active
        | _ => exact ⟨fun _ => SendCommand.noConfusion, rfl⟩
      refine ⟨earlier, first, later ++ [cmd], ?_, idle, fun ended member => ?_, ?_⟩
      · rw [whole, List.append_assoc, List.cons_append]
      · rcases List.mem_append.mp member with old | new
        · exact unended ended old
        · exact kept.1 ended (List.mem_singleton.mp new)
      · rw [kept.2, same]

/-- The components of the subvolume that is received come first, and then those of the operand. -/
theorem components_inside {cmds : List SendCommand} (active : activeSubvol cmds ≠ [])
    (operand : Bytes) :
    components (fromPtr (activeSubvol cmds ++ toBytesWithNul operand)) =
      components (fromPtr (activeSubvol cmds)) ++
        if 0 ∈ activeSubvol cmds then [] else components (fromPtr operand) := by
  -- The subvolume ends in a separator, so its components and the operand's do not run together.
  by_cases zero : 0 ∈ activeSubvol cmds
  · rw [if_pos zero, List.append_nil, fromPtr_front zero (List.prefix_append _ _)]
  · obtain ⟨_, cmd, _, _, _, _, same⟩ := activeSubvol_opened active
    have whole : fromPtr (activeSubvol cmds) = activeSubvol cmds := by
      rw [← fromPtr_withNul, fromPtr_toBytesWithNul zero]
    rw [if_neg zero, fromPtr_append zero, fromPtr_withNul, whole, same,
      components_withSeparator]
    have alone := components_withSeparator cmd.path []
    rw [List.append_nil, components_nil, List.append_nil] at alone
    rw [alone]

/-- A path with given components behind those of the subvolume is confined if these do not climb. -/
theorem confined_iff {subvol path : Bytes} {rest : List Bytes}
    (whole : components path = components subvol ++ rest) :
    Confined subvol path ↔ NeverClimbs rest := by
  -- The components behind those of the subvolume are the given ones.
  constructor
  · rintro ⟨other, same, stays⟩
    rw [List.append_cancel_left (whole.symm.trans same)]
    exact stays
  · exact fun stays => ⟨rest, whole, stays⟩

/-- Without components there is nothing to climb by. -/
theorem neverClimbs_nil : NeverClimbs [] := by
  -- Only the empty list is in front of it.
  intro front empty
  rw [List.prefix_nil.mp empty]
  exact Nat.le_refl _

/-- A path behind a subvolume starts at the root exactly when that of the subvolume does. -/
theorem absolute_behind {subvol : Bytes} (active : subvol ≠ []) (operand : Bytes) :
    Absolute (fromPtr (subvol ++ toBytesWithNul operand)) ↔ Absolute subvol := by
  -- Both are decided by the first byte, which a zero is not.
  obtain ⟨byte, rest, rfl⟩ := List.exists_cons_of_ne_nil active
  by_cases zero : byte = 0
  · subst zero
    exact ⟨fun starts => (by cases starts), fun starts => (by cases starts)⟩
  · have first : fromPtr (byte :: (rest ++ toBytesWithNul operand)) =
        byte :: fromPtr (rest ++ toBytesWithNul operand) :=
      List.takeWhile_cons_of_pos (decide_eq_true zero)
    rw [List.cons_append, first]
    exact Iff.rfl

/--
A path operand that denotes a file is taken from the directory, through the subvolume that is
received.

It is passed on as it is, so it leads out of the subvolume exactly when its own components climb. A
path of the subvolume that starts at the root leaves out the directory that a call names.
-/
theorem paths_confined_iff (os : Os World) {built : HandleFull} (new_one : Built built)
    {cmds : List SendCommand} {session : Session World}
    (received : Received os built cmds session) (active : activeSubvol cmds ≠ [])
    {cmd : SendCommand} (files : OnFiles cmd) :
    ∀ call ∈ callsOf os cmd session, List.Forall₂
      (fun operand arg => operand.role = .file →
        let subvol := activeSubvol cmds
        let path := fromPtr (subvol ++ toBytesWithNul operand.bytes)
        arg.Takes built.dirfd built.xattrFallback.buf path ∧
          components (fromPtr subvol) <+: components path ∧
          (arg.Stays built.dirfd built.xattrFallback.buf (fromPtr subvol) ↔
            (arg.directory ≠ none → ¬ Absolute subvol) ∧
              (0 ∈ subvol ∨ NeverClimbs (components (fromPtr operand.bytes)))))
      (operandsOf call cmd) call.paths := by
  -- Every call carries the operand, so the path that is read is known byte by byte.
  intro call made
  obtain ⟨sound, same⟩ := received_sound new_one received
  refine (callsOf_carries files sound call made).imp ?_
  intro operand arg leads _ subvol path
  have takes : arg.Takes built.dirfd built.xattrFallback.buf path := by
    have taken := leads.takes
    rw [sound.dirfd, same] at taken
    exact taken
  have inside := components_inside active operand.bytes
  refine ⟨takes, ?_, ?_⟩
  · rw [inside]
    exact List.prefix_append _ _
  · rw [stays_iff takes, absolute_behind active, confined_iff inside]
    refine and_congr_right fun _ => ?_
    -- A zero in the subvolume ends the path there.
    split
    · rename_i zero
      exact ⟨fun _ => Or.inl zero, fun _ => neverClimbs_nil⟩
    · rename_i clean
      exact ⟨Or.inr, fun either => either.resolve_left clean⟩

/-- A directory that is to be made above the subvolume. -/
def mkdirAbove : MkdirCmd := ⟨[46, 46, 47, 120], 257⟩

/-- The one call that makes it is given the descriptor 3 and reads `s/../x`. -/
theorem mkdirAbove_call :
    ∃ call ∈ callsOf oldSystem (.mkdir mkdirAbove) receivingS, ∃ memory,
      call.paths = [.below 3 memory] ∧ fromPtr memory = [115, 47, 46, 46, 47, 120] := by
  -- The calls are computed, and there is one with one path.
  have reads : (callsOf oldSystem (.mkdir mkdirAbove) receivingS).map
      (fun call => call.paths.map fun arg => (arg.directory, fromPtr arg.memory)) =
      [[(some 3, [115, 47, 46, 46, 47, 120])]] := by decide
  obtain ⟨call, made, one⟩ := List.map_eq_singleton_iff.mp reads
  obtain ⟨arg, only, read⟩ := List.map_eq_singleton_iff.mp one
  have listed : call ∈ callsOf oldSystem (.mkdir mkdirAbove) receivingS := by
    rw [made]
    exact List.mem_singleton.mpr rfl
  refine ⟨call, listed, arg.memory, ?_, congrArg Prod.snd read⟩
  cases arg with
  | below dirfd memory =>
    cases congrArg Prod.fst read
    exact only
  | bare | whole => cases congrArg Prod.fst read

/-- That path is confined to `s` just if `../x` does not climb, as `s` does not start at the root. -/
theorem paths_confined_iff_mkdirAbove :
    ∃ memory, fromPtr memory = [115, 47, 46, 46, 47, 120] ∧
      ((PathArg.below 3 memory).Stays 3 handlerOfThree.xattrFallback.buf [115, 47] ↔
        ¬ Absolute [115, 47] ∧ (0 ∈ ([115, 47] : Bytes) ∨ NeverClimbs [parentDir, [120]])) := by
  -- Its only operand is that path.
  obtain ⟨call, made, memory, only, read⟩ := mkdirAbove_call
  have files : OnFiles (.mkdir mkdirAbove) := trivial
  have rule := paths_confined_iff oldSystem handlerOfThree_built receivingS_received (by decide)
    files call made
  simp only [operandsOf, only, List.map_cons, List.map_nil, List.forall₂_cons] at rule
  have named : (some 3 ≠ none → ¬ Absolute [115, 47]) ↔ ¬ Absolute [115, 47] :=
    forall_prop_of_true (Option.some_ne_none 3)
  exact ⟨memory, read, (rule.1 trivial).2.2.trans (and_congr_left' named)⟩

/-- The path climbs out of the subvolume, and the call is made with it all the same. -/
theorem paths_climb_mkdirAbove :
    ¬ ∀ call ∈ callsOf oldSystem (.mkdir mkdirAbove) receivingS, List.Forall₂
      (fun operand arg => operand.role = .file →
        arg.Stays handlerOfThree.dirfd handlerOfThree.xattrFallback.buf
          (fromPtr (activeSubvol [.subvol ⟨[115], 1, sentUuid⟩])))
      (operandsOf call (.mkdir mkdirAbove)) call.paths := by
  -- The first component behind the subvolume is the parent directory.
  intro all
  obtain ⟨call, made, memory, only, read⟩ := mkdirAbove_call
  have stays := all call made
  simp only [operandsOf, only, List.map_cons, List.map_nil, List.forall₂_cons] at stays
  obtain ⟨_, _, confined⟩ := stays.1 trivial
  rw [read] at confined
  have whole : components [115, 47, 46, 46, 47, 120] =
      components (fromPtr (activeSubvol [.subvol ⟨[115], 1, sentUuid⟩])) ++ [parentDir, [120]] := by
    decide
  have climbs := (confined_iff whole).mp confined [parentDir] (by decide)
  exact absurd climbs (by decide)

end HandleFull

end Libbtrfs.Receive
