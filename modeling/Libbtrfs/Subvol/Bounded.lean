import Libbtrfs.Core.Worklist
import Libbtrfs.Subvol.Traversal

/-! Whatever fails, the iterator ends, returns nothing twice, and in post order no child too late. -/

namespace Libbtrfs

variable {Fd : Type}

/--
What the kernel answers about the direct children of a subvolume is true, if it answers.

A listing names some of them, none more than once, and what is opened by the path that was looked up
for a child is that child. Every one of the calls may fail.
-/
structure Tells (kernel : Kernel Fd) (owner : Fd → UInt64) (f : Fd) (children : List UInt64) :
    Prop where
  refs : ∀ slots count, kernel.getSubvolRootref f 0 = .ok (slots, count) →
    ((slots.take count.toNat).map Rootref.treeid).Subperm children
  opens : ∀ dirid, ∀ treeid ∈ children, ∀ path name g,
    kernel.inoLookupUser f dirid treeid = .ok (path, name) →
      kernel.openat f (fromPtr path ++ fromPtr name) = .ok g → owner g = treeid

/-- The kernel answers so about every subvolume of a forest, through any file that is open on it. -/
def Forest.Told (kernel : Kernel Fd) (owner : Fd → UInt64) : Forest UInt64 → Prop
  | nil => True
  | cons root children rest =>
    (∀ f, owner f = root → Tells kernel owner f children.roots) ∧ children.Told kernel owner ∧
      rest.Told kernel owner

/-- A number of calls of `next`, each with a kernel of its own: what they return, in their order. -/
def Iter.calls (kernels : Nat → Kernel Fd) (fuel : Nat) :
    Nat → Iter Fd → Option (List (Option (Except IoError (SubvolItem Fd))) × Iter Fd)
  | 0, iter => some ([], iter)
  | count + 1, iter =>
    match calls kernels fuel count iter with
    | none => none
    | some (results, iter) =>
      match iter.next (kernels count) fuel with
      | none => none
      | some (result, iter) => some (results ++ [result], iter)

/-- The subvolumes among what was returned. -/
def yielded (results : List (Option (Except IoError (SubvolItem Fd)))) : List (SubvolItem Fd) :=
  results.filterMap fun result =>
    match result with
    | some (.ok item) => some item
    | _ => none

/-- What is told of a forest is told of each of its trees. -/
theorem Forest.Told.tree {kernel : Kernel Fd} {owner : Fd → UInt64} {forest below : Forest UInt64}
    {root : UInt64} (told : forest.Told kernel owner) (inside : (root, below) ∈ forest.trees) :
    (Forest.cons root below .nil).Told kernel owner := by
  -- The induction is on the trees, among which the one that is meant is found.
  induction forest with
  | nil => exact nomatch inside
  | cons first children rest _ ih =>
    obtain ⟨own, under, behind⟩ := told
    rcases List.mem_cons.mp inside with same | later
    · cases same
      exact ⟨own, under, trivial⟩
    · exact ih behind later

section Pushing

variable {kernel : Kernel Fd} {owner : Fd → UInt64} {f : Fd} {children : List UInt64}

/-- A child that was opened: its id, the file that is open on it, and its path in the entry. -/
structure Opened (Fd : Type) where
  treeid : UInt64
  f : Fd
  path : Option Bytes

/-- The entry of the stack for a child that was opened. -/
def Opened.ent (parentId : UInt64) (color : Color) (child : Opened Fd) : Ent Fd :=
  .vol child.treeid parentId child.f color child.path

/-- What is read of a C string has no zero in it. -/
theorem fromPtr_clean (memory : Bytes) : 0 ∉ fromPtr memory := by
  -- It is what comes in front of the first zero.
  intro zero
  have other := List.mem_takeWhile_imp zero
  simp at other

/-- Some of the listed children, each with a file that is open on it, were put on the stack. -/
def Pushes (owner : Fd → UInt64) (parentId : UInt64) (color : Color) (listed : List UInt64)
    (iter later : Iter Fd) : Prop :=
  later.flags = iter.flags ∧ ∃ opened : List (Opened Fd),
    (opened.map Opened.treeid).Sublist listed ∧
    (∀ child ∈ opened, owner child.f = child.treeid) ∧
    later.stack = (opened.map (Opened.ent parentId color)).reverse ++ iter.stack

/-- Nothing was put on the stack. -/
theorem Pushes.nothing {parentId : UInt64} {color : Color} {listed : List UInt64}
    {iter later : Iter Fd} (flags : later.flags = iter.flags) (stack : later.stack = iter.stack) :
    Pushes owner parentId color listed iter later :=
  ⟨flags, [], List.nil_sublist _, (fun _ none => nomatch none), stack⟩

/-- What is put on the stack first lies below what is put there later. -/
theorem Pushes.trans {parentId : UInt64} {color : Color} {front back : List UInt64}
    {iter middle later : Iter Fd} (first : Pushes owner parentId color front iter middle)
    (second : Pushes owner parentId color back middle later) :
    Pushes owner parentId color (front ++ back) iter later := by
  -- The children of the second part were put on top of those of the first one.
  obtain ⟨flags, opened, sublist, owns, stack⟩ := first
  obtain ⟨flags', opened', sublist', owns', stack'⟩ := second
  refine ⟨flags'.trans flags, opened ++ opened', ?_, fun child member => ?_, ?_⟩
  · rw [List.map_append]
    exact sublist.append sublist'
  · rcases List.mem_append.mp member with before | behind
    · exact owns child before
    · exact owns' child behind
  · rw [stack', stack, List.map_append, List.reverse_append, List.append_assoc]

/-- A child that was looked up goes on the stack when its path can be opened. -/
theorem pushEnt_opened (tells : Tells kernel owner f children) {dirid treeid : UInt64}
    (listed : treeid ∈ children) {lookup name : Bytes}
    (looked : kernel.inoLookupUser f dirid treeid = .ok (lookup, name)) {cPath : Bytes}
    (path : fromPtr cPath = fromPtr lookup ++ fromPtr name) (parentId : UInt64) (color : Color)
    (entPath : Option Bytes) {iter before : Iter Fd} (stack : iter.stack = before.stack)
    (flags : iter.flags = before.flags) :
    Pushes owner parentId color [treeid] before
      (Iter.pushEnt kernel treeid parentId f color cPath entPath iter).2 := by
  -- A path that cannot be opened leaves the stack as it was.
  rw [Iter.pushEnt, path]
  cases opened : kernel.openat f (fromPtr lookup ++ fromPtr name) with
  | error error => exact .nothing flags stack
  | ok g =>
    have own := tells.opens dirid treeid listed lookup name g looked opened
    refine ⟨flags, [⟨treeid, g, entPath⟩], List.Sublist.refl _, fun child member => ?_,
      congrArg (_ :: ·) stack⟩
    cases List.mem_singleton.mp member
    exact own

/-- A listed child is opened and put on the stack, or it is left out. -/
theorem pushRef_opened (tells : Tells kernel owner f children) {rref : Rootref}
    (listed : rref.treeid ∈ children) (parentId : UInt64) (isRoot : Bool) (color : Color)
    (path : Option (Option Bytes)) (iter : Iter Fd) :
    Pushes owner parentId color [rref.treeid] iter
      (Iter.pushRef kernel parentId f isRoot color path rref iter).2 := by
  unfold Iter.pushRef pathStr
  cases looked : kernel.inoLookupUser f rref.dirid rref.treeid with
  | error error =>
    obtain ⟨other, fails⟩ := @btrfsIoctl_error (Bytes × Bytes) error
    simp only [fails]
    split
    · exact .nothing rfl rfl
    · exact .nothing rfl rfl
  | ok found =>
    obtain ⟨lookup, name⟩ := found
    -- With or without the path of the parent in front, the same path is opened.
    have read := fromPtr_joined (fromPtr_clean lookup) (fromPtr_clean name)
    cases path with
    | none => exact pushEnt_opened tells listed looked read parentId color none rfl rfl
    | some unixPath =>
      have dropped := Iter.entPath_drop ((unixPath.map toBytesWithNul).getD []) (fromPtr lookup)
        (toBytesWithNul (fromPtr name))
      rw [← dropped] at read
      exact pushEnt_opened tells listed looked read parentId color _ rfl rfl

/-- Of the listed children, some go on the stack, whether the loop gets to its end or not. -/
theorem pushLoop_opened (tells : Tells kernel owner f children) (parentId : UInt64)
    (isRoot : Bool) (color : Color) (path : Option (Option Bytes)) {refs : List Rootref}
    (listed : ∀ rref ∈ refs, rref.treeid ∈ children) (iter : Iter Fd) :
    Pushes owner parentId color (refs.map Rootref.treeid) iter
      (Iter.pushLoop kernel parentId f isRoot color path refs iter).2 := by
  -- The induction is on the children, any of which may end the loop.
  induction refs generalizing iter with
  | nil => exact .nothing rfl rfl
  | cons rref refs ih =>
    have pushed := pushRef_opened tells (listed rref List.mem_cons_self) parentId isRoot color path
      iter
    rw [Iter.pushLoop]
    cases first : Iter.pushRef kernel parentId f isRoot color path rref iter with
    | mk outcome middle =>
      rw [first] at pushed
      cases outcome with
      | error error =>
        have rest : Pushes owner parentId color (refs.map Rootref.treeid) middle middle :=
          .nothing rfl rfl
        exact pushed.trans rest
      | ok done => exact pushed.trans (ih (fun other member => listed other (.tail _ member)) middle)

/-- Some children of a subvolume go on the stack, whether `push_refs` succeeds or not. -/
theorem pushRefs_opened (tells : Tells kernel owner f children) (parentId : UInt64)
    (isRoot : Bool) (color : Color) (path : Option (Option Bytes)) (iter : Iter Fd) :
    ∃ listed : List UInt64, listed.Subperm children ∧ Pushes owner parentId color listed iter
      (Iter.pushRefs kernel parentId f isRoot color path iter).2 := by
  unfold Iter.pushRefs
  cases asked : kernel.getSubvolRootref f 0 with
  | error error =>
    obtain ⟨other, fails⟩ := @btrfsIoctl_error (List Rootref × UInt8) error
    simp only [fails]
    exact ⟨[], List.nil_subperm, .nothing rfl rfl⟩
  | ok answer =>
    obtain ⟨slots, count⟩ := answer
    have true_of := tells.refs slots count asked
    -- In either order the same children are listed.
    let refs := if iter.flags.contains .descending then slots.take count.toNat
      else (slots.take count.toNat).reverse
    have same : (refs.map Rootref.treeid).Perm ((slots.take count.toNat).map Rootref.treeid) := by
      show ((if _ then _ else _ : List Rootref).map _).Perm _
      split
      · exact List.Perm.refl _
      · exact (List.reverse_perm _).map _
    have inside := same.subperm.trans true_of
    refine ⟨refs.map Rootref.treeid, inside, ?_⟩
    exact pushLoop_opened tells parentId isRoot color path
      (fun rref member => inside.subset (List.mem_map_of_mem member)) iter

end Pushing

section Simulation

variable {kernels : Nat → Kernel Fd} {owner : Fd → UInt64} {flags : Flags}

/-- What an entry of the stack stands for, as long as every kernel tells nothing false about it. -/
def Stands (kernels : Nat → Kernel Fd) (owner : Fd → UInt64) (color : Color) (ent : Ent Fd) :
    Task UInt64 → Prop
  | .whole id below => ∃ f, ent = .rootVol id f ∧ owner f = id ∧
      ∀ call, (Forest.cons id below .nil).Told (kernels call) owner
  | .fresh id parent below => ∃ f path, ent = .vol id parent f color path ∧ owner f = id ∧
      ∀ call, (Forest.cons id below .nil).Told (kernels call) owner
  | .spent id parent => ∃ f path, ent = .vol id parent f .black path

/-- The stack of an iterator with some flags stands for a worklist. -/
def StandsFor (kernels : Nat → Kernel Fd) (owner : Fd → UInt64) (flags : Flags) (iter : Iter Fd)
    (tasks : List (Task UInt64)) : Prop :=
  iter.flags = flags ∧ List.Forall₂ (Stands kernels owner flags.color) iter.stack tasks

/-- The entries for opened children stand for the trees of those. -/
theorem stands_opened {opened : List (Opened Fd)} {chosen : List (UInt64 × Forest UInt64)}
    {parentId : UInt64} {color : Color} {stack : List (Ent Fd)} {tasks : List (Task UInt64)}
    (ids : chosen.map Prod.fst = opened.map Opened.treeid)
    (owns : ∀ child ∈ opened, owner child.f = child.treeid)
    (told : ∀ tree ∈ chosen, ∀ call, (Forest.cons tree.1 tree.2 .nil).Told (kernels call) owner)
    (rest : List.Forall₂ (Stands kernels owner color) stack tasks) :
    List.Forall₂ (Stands kernels owner color) (opened.map (Opened.ent parentId color) ++ stack)
      (Task.opened parentId chosen ++ tasks) := by
  -- The induction is on the children, each of which has its tree in the same place.
  induction opened generalizing chosen with
  | nil =>
    cases List.map_eq_nil_iff.mp ids
    exact rest
  | cons child opened ih =>
    cases chosen with
    | nil => exact nomatch ids
    | cons tree chosen =>
      obtain ⟨same, others⟩ := List.cons.inj ids
      refine .cons ⟨child.f, child.path, ?_, ?_, told tree List.mem_cons_self⟩ (ih others
        (fun other member => owns other (.tail _ member))
        fun other member => told other (.tail _ member))
      · rw [same]
        rfl
      · rw [same]
        exact owns child List.mem_cons_self

/-- The children that were put on the stack stand for some of the trees below their parent. -/
theorem Pushes.stands {id : UInt64} {below : Forest UInt64} {listed : List UInt64}
    {iter later : Iter Fd} {tasks : List (Task UInt64)}
    (pushes : Pushes owner id flags.color listed iter later)
    (inside : listed.Subperm below.roots)
    (told : ∀ call, (Forest.cons id below .nil).Told (kernels call) owner)
    (stands : StandsFor kernels owner flags iter tasks) :
    ∃ chosen, chosen.Subperm below.trees ∧
      StandsFor kernels owner flags later (Task.opened id chosen ++ tasks) := by
  -- The children that were opened are the roots of some trees below the parent.
  obtain ⟨same_flags, opened, sublist, owns, stack⟩ := pushes
  have selected : (opened.reverse.map Opened.treeid).Subperm (below.trees.map Prod.fst) := by
    rw [Forest.trees_roots, List.map_reverse]
    exact (List.reverse_perm _).subperm.trans (sublist.subperm.trans inside)
  obtain ⟨chosen, within, ids⟩ := subperm_map selected
  refine ⟨chosen, within, same_flags.trans stands.1, ?_⟩
  rw [stack, ← List.map_reverse]
  exact stands_opened ids (fun child member => owns child (List.mem_reverse.mp member))
    (fun tree picked call => (told call).2.1.tree (within.subset picked)) stands.2

/-- What `next` returns hands out a subvolume, or nothing. -/
def handed (result : Except IoError (SubvolItem Fd)) : Option (UInt64 × UInt64) :=
  match result with
  | .error _ => none
  | .ok item => some (item.treeid, item.parentId)

/-- A round of `next` is a step on the worklist that the stack stands for. -/
def RoundSteps (kernels : Nat → Kernel Fd) (owner : Fd → UInt64) (flags : Flags)
    (tasks : List (Task UInt64)) : Iter.Round Fd → Prop
  | .finished => tasks = []
  | .again later => ∃ after, Task.Step (flags.contains .postOrder) tasks none after ∧
      StandsFor kernels owner flags later after
  | .returns result later => ∃ after,
      Task.Step (flags.contains .postOrder) tasks (handed result) after ∧
        StandsFor kernels owner flags later after

/-- Every round of `next` is a step, whatever the kernel answers. -/
theorem round_steps {iter : Iter Fd} {tasks : List (Task UInt64)}
    (stands : StandsFor kernels owner flags iter tasks) (call : Nat) :
    RoundSteps kernels owner flags tasks (Iter.round (kernels call) iter) := by
  obtain ⟨stack, iter_flags, buffer⟩ := iter
  obtain ⟨same, entries⟩ := stands
  simp only at same entries
  subst same
  cases entries with
  | nil => exact rfl
  | @cons ent task stack tasks own rest =>
    cases task with
    | whole id below =>
      obtain ⟨f, rfl, owned, told⟩ := own
      obtain ⟨listed, inside, pushes⟩ := pushRefs_opened ((told call).1 f owned) id true
        iter_flags.color (if iter_flags.contains .getPath then some none else none)
        ⟨stack, iter_flags, buffer⟩
      obtain ⟨chosen, selected, stands⟩ := pushes.stands inside told ⟨rfl, rest⟩
      rw [Flags.color] at stands
      exact Iter.round_pushed _ .again (fun _ => ⟨_, .whole selected, stands⟩)
        ⟨_, .whole selected, stands⟩
    | fresh id parent below =>
      obtain ⟨f, path, rfl, owned, told⟩ := own
      have pushed := fun iter => pushRefs_opened ((told call).1 f owned) id false iter_flags.color
        (path.map fun pathBuf => some (fromPtr pathBuf)) iter
      cases order : iter_flags.contains .postOrder with
      | true =>
        -- The entry goes back on the stack before its children do.
        have grey : iter_flags.color = .grey := by rw [Flags.color, if_pos order]
        have black : Stands kernels owner iter_flags.color (.vol id parent f .black path)
          (.spent id parent) := ⟨f, path, rfl⟩
        obtain ⟨listed, inside, pushes⟩ := pushed
          ⟨.vol id parent f .black path :: stack, iter_flags, buffer⟩
        obtain ⟨chosen, selected, stands⟩ := pushes.stands inside told ⟨rfl, .cons black rest⟩
        have step := @Task.Step.behind _ _ id parent below chosen tasks order selected
        rw [grey] at stands ⊢
        exact Iter.round_pushed _ .again (fun _ => ⟨_, step, stands⟩) ⟨_, step, stands⟩
      | false =>
        have preOrd : iter_flags.color = .preOrd := by
          rw [Flags.color, order]
          rfl
        obtain ⟨listed, inside, pushes⟩ := pushed ⟨stack, iter_flags, buffer⟩
        obtain ⟨chosen, selected, stands⟩ := pushes.stands inside told ⟨rfl, rest⟩
        have step := fun out => @Task.Step.before _ _ id parent below chosen tasks out order selected
        rw [preOrd] at stands ⊢
        have nothing : ∀ pair ∈ (none : Option (UInt64 × UInt64)), pair = (id, parent) :=
          fun pair impossible => absurd impossible (Option.not_mem_none pair)
        exact Iter.round_pushed _ (.returns (.ok _)) (fun _ => ⟨_, step none nothing, stands⟩)
          ⟨_, step _ fun pair same => (Option.some.inj same).symm, stands⟩
    | spent id parent =>
      obtain ⟨f, path, rfl⟩ := own
      exact ⟨tasks, .spent, rfl, rest⟩

variable {all done : List (UInt64 × UInt64)}

/-- Every call of `next` returns, with something that took a step or with the end of the worklist. -/
theorem next_steps (unique : (all.map Prod.fst).Nodup) {fuel : Nat} {iter : Iter Fd}
    {tasks : List (Task UInt64)} (stands : StandsFor kernels owner flags iter tasks)
    (kept : Task.Kept (flags.contains .postOrder) all done tasks) (enough : Task.total tasks < fuel)
    (call : Nat) :
    ∃ result later after, iter.next (kernels call) fuel = some (result, later) ∧
      StandsFor kernels owner flags later after ∧
      Task.Kept (flags.contains .postOrder) all (done ++ (result.bind handed).toList) after ∧
      ((result = none ∧ after = []) ∨ (result ≠ none ∧ Task.total after < Task.total tasks)) := by
  -- The induction is on the rounds, each of which makes the worklist lighter.
  induction fuel generalizing iter tasks with
  | zero => exact absurd enough (Nat.not_lt_zero _)
  | succ fuel ih =>
    have steps := round_steps stands call
    rw [Iter.next]
    cases rounded : Iter.round (kernels call) iter with
    | finished =>
      rw [rounded] at steps
      have empty : tasks = [] := steps
      refine ⟨none, iter, tasks, rfl, stands, ?_, Or.inl ⟨rfl, empty⟩⟩
      rw [Option.bind_none, Option.toList_none, List.append_nil]
      exact kept
    | again later =>
      rw [rounded] at steps
      obtain ⟨middle, step, stands⟩ := steps
      have lower := step.lowers
      have kept := step.kept unique kept
      rw [Option.toList_none, List.append_nil] at kept
      obtain ⟨result, last, after, returned, stands, kept, ends⟩ :=
        ih stands kept (by omega)
      refine ⟨result, last, after, returned, stands, kept, ends.imp id fun goes => ?_⟩
      exact ⟨goes.1, goes.2.trans lower⟩
    | returns result later =>
      rw [rounded] at steps
      obtain ⟨after, step, stands⟩ := steps
      exact ⟨some result, later, after, rfl, stands, step.kept unique kept,
        Or.inr ⟨Option.some_ne_none _, step.lowers⟩⟩

/-- Calls of `next` one after the other return, and from some call on they return nothing more. -/
theorem calls_steps (unique : (all.map Prod.fst).Nodup) {fuel : Nat} {iter : Iter Fd}
    {tasks : List (Task UInt64)} (stands : StandsFor kernels owner flags iter tasks)
    (kept : Task.Kept (flags.contains .postOrder) all [] tasks) (enough : Task.total tasks < fuel)
    (count : Nat) :
    ∃ results later after, iter.calls kernels fuel count = some (results, later) ∧
      StandsFor kernels owner flags later after ∧
      Task.Kept (flags.contains .postOrder) all (results.filterMap (Option.bind · handed)) after ∧
      results.length = count ∧
      Task.total after ≤ Task.total tasks - count ∧
      ∀ index < count, Task.total tasks ≤ index → results[index]? = some none := by
  -- The induction is on the calls, with the last one taken off.
  induction count with
  | zero =>
    exact ⟨[], iter, tasks, rfl, stands, kept, rfl, Nat.le_refl _, fun index none => nomatch none⟩
  | succ count ih =>
    obtain ⟨results, middle, now, called, stands, kept, length, light, nothing⟩ := ih
    have lighter : Task.total now < fuel := by omega
    obtain ⟨result, later, after, returned, stands, kept, ends⟩ :=
      next_steps unique stands kept lighter count
    refine ⟨results ++ [result], later, after, ?_, stands, ?_, ?_, ?_, fun index within beyond => ?_⟩
    · rw [Iter.calls, called]
      simp only [returned]
    · rw [List.filterMap_append]
      cases result with
      | none => exact kept
      | some result =>
        cases result with
        | error error => exact kept
        | ok item => exact kept
    · rw [List.length_append, length]
      rfl
    · rcases ends with ⟨_, rfl⟩ | ⟨_, lower⟩
      · exact Nat.zero_le _
      · omega
    · rcases Nat.lt_succ_iff_lt_or_eq.mp within with before | rfl
      · rw [List.getElem?_append_left (by omega)]
        exact nothing index before beyond
      · -- The worklist has no weight left, so the call cannot have taken a step.
        rw [← length, List.getElem?_concat_length]
        rcases ends with ⟨rfl, _⟩ | ⟨_, lower⟩
        · rfl
        · omega

/-- The subvolumes among what was returned are those that were handed out. -/
theorem yielded_handed (results : List (Option (Except IoError (SubvolItem Fd)))) :
    (yielded results).map (fun item => (item.treeid, item.parentId)) =
      results.filterMap (Option.bind · handed) := by
  rw [yielded, List.map_filterMap]
  -- Both leave out the calls that returned an error or nothing.
  refine List.filterMap_congr fun result _ => ?_
  cases result with
  | none => rfl
  | some result =>
    cases result with
    | error error => rfl
    | ok item => rfl

/--
Whatever fails, the iterator over a tree with some descendants returns `None` after at most twice as
many calls and two more, returns no subvolume twice, and in post order none behind its parent.
-/
theorem iter_bounded {opening : Kernel Fd} {f : Fd} (flags : Flags)
    (named : lookupTreeid opening f = .ok (owner f)) {below : Forest UInt64}
    (distinct : (owner f :: below.visit false).Nodup)
    (told : ∀ call, (Forest.cons (owner f) below .nil).Told (kernels call) owner) {fuel : Nat}
    (enough : 2 * (below.visit false).length + 1 < fuel) (count : Nat) :
    ∃ iter results last, Iter.new opening f flags = .ok iter ∧
      iter.calls kernels fuel count = some (results, last) ∧
      (∀ index < count, 2 * (below.visit false).length + 1 ≤ index →
        results[index]? = some none) ∧
      ((yielded results).map SubvolItem.treeid).Nodup ∧
      (∀ item ∈ yielded results, (item.treeid, item.parentId) ∈ below.families (owner f)) ∧
      (flags.contains .postOrder = true → (yielded results).Pairwise fun earlier later =>
        later.parentId ≠ earlier.treeid) := by
  -- The stack of a new iterator stands for the whole tree, and every call keeps the worklist.
  have ids := below.families_visit (owner f)
  have unique : ((below.families (owner f)).map Prod.fst).Nodup := by
    rw [ids]
    exact (List.nodup_cons.mp distinct).2
  have weight : Task.total [Task.whole (owner f) below] = 2 * (below.visit false).length + 1 := by
    rw [← ids, List.length_map]
    rfl
  have stands : StandsFor kernels owner flags ⟨[.rootVol (owner f) f], flags, []⟩
      [.whole (owner f) below] := ⟨rfl, .cons ⟨f, rfl, rfl, told⟩ .nil⟩
  obtain ⟨results, last, after, called, _, kept, _, _, nothing⟩ :=
    calls_steps unique stands (Task.Kept.start distinct) (weight ▸ enough) count
  rw [← yielded_handed] at kept
  rw [weight] at nothing
  refine ⟨_, results, last, by rw [Iter.new, named], called, nothing, ?_, fun item member => ?_,
    fun order => ?_⟩
  · have handed_once := nodup_map_of_subperm kept.selected unique
    rw [List.map_map] at handed_once
    exact handed_once
  · exact kept.selected.subset (List.mem_map_of_mem member)
  · have pairs := kept.children_first order
    rw [List.pairwise_map] at pairs
    exact pairs

end Simulation

/-- A kernel that lists the child of the top-level subvolume, and nothing below any other one. -/
def oneLevel : Kernel Nat where
  getSubvolRootref f _ := if f = 0 then .ok ([⟨256, 256⟩], 1) else .error (.os eacces)
  inoLookupUser _ _ _ := .ok ([0], [97, 0])
  inoLookup _ _ := .ok 5
  openat f _ := .ok (f + 1)

/-- The subvolume that a file of this kernel is open on. -/
def oneLevelOwner (f : Nat) : UInt64 :=
  if f = 0 then 5 else if f = 1 then 256 else 257

/-- The kernel tells nothing false about a tree of three subvolumes. -/
theorem oneLevel_told :
    (Forest.cons 5 (.cons 256 (.cons 257 .nil .nil) .nil) .nil).Told oneLevel oneLevelOwner := by
  -- Only the first file can be listed, and a file opened below another one is the next one.
  have top : ∀ f, oneLevelOwner f = 5 → f = 0 := by
    intro f own
    unfold oneLevelOwner at own
    split at own
    · assumption
    · split at own <;> exact absurd own (by decide)
  have refused : ∀ f slots count, f ≠ 0 → oneLevel.getSubvolRootref f 0 ≠ .ok (slots, count) := by
    intro f slots count other listed
    cases (if_neg other : oneLevel.getSubvolRootref f 0 = .error (.os eacces)).symm.trans listed
  have second : ∀ f, oneLevelOwner f = 256 → f = 1 := by
    intro f own
    unfold oneLevelOwner at own
    split at own
    · exact absurd own (by decide)
    · split at own
      · assumption
      · exact absurd own (by decide)
  refine ⟨fun f own => ?_, ⟨fun f own => ?_, ⟨fun f own => ?_, trivial, trivial⟩, trivial⟩, trivial⟩
  · cases top f own
    refine ⟨fun slots count listed => ?_, fun dirid treeid child path name g _ opened => ?_⟩
    · cases listed
      exact List.Subperm.refl _
    · cases opened
      cases List.mem_singleton.mp child
      rfl
  · cases second f own
    refine ⟨fun slots count listed => absurd listed (refused 1 slots count Nat.one_ne_zero),
      fun dirid treeid child path name g _ opened => ?_⟩
    cases opened
    cases List.mem_singleton.mp child
    rfl
  · have below : f ≠ 0 := by
      rintro rfl
      exact absurd own (by decide)
    exact ⟨fun slots count listed => absurd listed (refused f slots count below),
      fun dirid treeid child => nomatch child⟩

/-- Two descendants, one of which cannot be listed: the sixth call of `next` returns `None`. -/
theorem iter_bounded_oneLevel :
    ∃ iter results last, Iter.new oneLevel 0 .postOrder = .ok iter ∧
      iter.calls (fun _ => oneLevel) 6 6 = some (results, last) ∧
      results[5]? = some none ∧ ((yielded results).map SubvolItem.treeid).Nodup := by
  -- Six is twice their number and two.
  obtain ⟨iter, results, last, made, called, nothing, once, _⟩ :=
    @iter_bounded Nat (fun _ => oneLevel) oneLevelOwner oneLevel 0 .postOrder rfl
      (.cons 256 (.cons 257 .nil .nil) .nil) (by decide) (fun _ => oneLevel_told) 6 (by decide) 6
  exact ⟨iter, results, last, made, called, nothing 5 (by decide) (by decide), once⟩

end Libbtrfs
