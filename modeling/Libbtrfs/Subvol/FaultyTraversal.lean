import Libbtrfs.Subvol.Faults

/-! The iterator over subvolumes some of which fail, and exactly when nothing is lost by that. -/

namespace Libbtrfs

section Answers

variable {Fd : Type} (kernel : Kernel Fd)

/-- The kernel finds a child and opens it, or fails with the child's own error. -/
def FaultyNode.Answered (f : Fd) (child : FaultyNode Fd) : Prop :=
  let path := child.node.lookup.bytes ++ child.node.name.bytes
  match child.fault with
  | some (.lookup error) => pathStr kernel f child.node.dirid child.node.treeid = .error error
  | some (.opening error) => child.node.Found kernel f ∧ kernel.openat f path = .error error
  | _ => child.node.Found kernel f ∧ kernel.openat f path = .ok child.node.f

/--
What the kernel answers about the direct children of a subvolume, or the error for all of them.

The children stand in the order in which they are to be returned.
-/
def AnswersOrFails (flags : Flags) (f : Fd) (fault : Option IoError)
    (children : List (FaultyNode Fd)) : Prop :=
  match fault with
  | some error => btrfsIoctl (kernel.getSubvolRootref f 0) = .error error
  | none =>
    (∃ slots count, kernel.getSubvolRootref f 0 = .ok (slots, count) ∧
      slots.take count.toNat =
        (Iter.returned flags (children.map FaultyNode.node)).map SubvolNode.rootref) ∧
      ∀ child ∈ children, child.Answered kernel f

/-- The kernel answers so about every subvolume of a forest that can be opened. -/
def Forest.FaultyShown (flags : Flags) : Forest (FaultyNode Fd) → Prop
  | nil => True
  | cons entry children rest =>
    (entry.Reached → AnswersOrFails kernel flags entry.node.f entry.listing children.roots) ∧
      (entry.fault = none → children.FaultyShown flags) ∧ rest.FaultyShown flags

end Answers

namespace Iter

variable {Fd : Type}

/-- Pushing the children of a subvolume ends with their first failure, if there is one. -/
def pushResult : Option IoError → Except IoError Unit
  | none => .ok ()
  | some error => .error error

/-- The loop of `push_refs` over more children goes on behind the others, if these do not fail. -/
theorem pushLoop_append {kernel : Kernel Fd} (parentId : UInt64) (f : Fd) (isRoot : Bool)
    (color : Color) (path : Option (Option Bytes)) (front back : List Rootref) (iter : Iter Fd) :
    pushLoop kernel parentId f isRoot color path (front ++ back) iter =
      match pushLoop kernel parentId f isRoot color path front iter with
      | (.error error, iter) => (.error error, iter)
      | (.ok (), iter) => pushLoop kernel parentId f isRoot color path back iter := by
  -- The loop runs through the first ones from the front.
  induction front generalizing iter with
  | nil => rfl
  | cons rref rest ih =>
    rw [List.cons_append, pushLoop, pushLoop]
    rcases pushRef kernel parentId f isRoot color path rref iter with ⟨_ | _, later⟩
    · rfl
    · exact ih later

/-- A child goes on the stack if it is reached, and its failure is that of the push. -/
theorem pushRef_faulty {kernel : Kernel Fd} {f : Fd} {child : FaultyNode Fd}
    (answered : child.Answered kernel f) (parentId : UInt64) (isRoot : Bool) (color : Color)
    (withPath : Bool) (chain : Option UnixPath) (iter : Iter Fd) :
    ∃ buffer, pushRef kernel parentId f isRoot color
        (if withPath then some (chain.map UnixPath.bytes) else none) child.node.rootref iter =
      (pushResult (child.failure isRoot),
        ⟨if child.Reached then
            SubvolNode.ent color (child.node.item withPath parentId chain) :: iter.stack
          else iter.stack, iter.flags, buffer⟩) := by
  rcases fault : child.fault with _ | (error | error | error)
  · simp only [FaultyNode.Answered, fault] at answered
    obtain ⟨buffer, pushed⟩ := pushRef_found answered.1 parentId isRoot color withPath chain iter
    refine ⟨buffer, ?_⟩
    rw [pushed, answered.2]
    simp only [FaultyNode.failure, FaultyNode.Reached, fault, if_true]
    rfl
  · -- Nothing is opened, and below the root it may be that nothing is wrong.
    simp only [FaultyNode.Answered, fault] at answered
    refine ⟨iter.pathBuffer, ?_⟩
    simp only [pushRef, SubvolNode.rootref, answered, FaultyNode.failure, FaultyNode.Reached, fault,
      if_false]
    split
    · rfl
    · rfl
  · simp only [FaultyNode.Answered, fault] at answered
    obtain ⟨buffer, pushed⟩ := pushRef_found answered.1 parentId isRoot color withPath chain iter
    refine ⟨buffer, ?_⟩
    rw [pushed, answered.2]
    simp only [FaultyNode.failure, FaultyNode.Reached, fault, if_false]
    rfl
  · simp only [FaultyNode.Answered, fault] at answered
    obtain ⟨buffer, pushed⟩ := pushRef_found answered.1 parentId isRoot color withPath chain iter
    refine ⟨buffer, ?_⟩
    rw [pushed, answered.2]
    simp only [FaultyNode.failure, FaultyNode.Reached, fault, if_true]
    rfl

/-- The children go on the stack from the last one on, until one of them fails. -/
theorem pushLoop_faulty {kernel : Kernel Fd} {f : Fd} {siblings : List (FaultyNode Fd)}
    (answered : ∀ child ∈ siblings, child.Answered kernel f) (parentId : UInt64) (isRoot : Bool)
    (color : Color) (withPath : Bool) (chain : Option UnixPath) (iter : Iter Fd) :
    ∃ buffer, pushLoop kernel parentId f isRoot color
        (if withPath then some (chain.map UnixPath.bytes) else none)
        (siblings.map fun child => child.node.rootref).reverse iter =
      (pushResult (FaultyNode.failedOf isRoot siblings),
        ⟨(pushedOf isRoot siblings).map (fun child =>
            SubvolNode.ent color (child.node.item withPath parentId chain)) ++ iter.stack,
          iter.flags, buffer⟩) := by
  -- The first sibling is the last to be pushed, behind all that is said about the others.
  induction siblings generalizing iter with
  | nil => exact ⟨iter.pathBuffer, rfl⟩
  | cons child rest ih =>
    obtain ⟨buffer, others⟩ := ih (fun other member => answered other (List.mem_cons_of_mem _ member))
      iter
    rw [List.map_cons, List.reverse_cons, pushLoop_append, others]
    rcases failed : FaultyNode.failedOf isRoot rest with _ | error
    · obtain ⟨later, last⟩ := pushRef_faulty (answered child List.mem_cons_self) parentId isRoot
        color withPath chain ⟨(pushedOf isRoot rest).map (fun child =>
          SubvolNode.ent color (child.node.item withPath parentId chain)) ++ iter.stack, iter.flags,
          buffer⟩
      refine ⟨later, ?_⟩
      simp only [pushResult, pushLoop, last, FaultyNode.failedOf, failed, pushedOf, true_and]
      -- The loop ends behind this child, with or without an error.
      by_cases reached : child.Reached
      · simp only [if_pos reached]
        cases child.failure isRoot with
        | none => rfl
        | some error => rfl
      · simp only [if_neg reached]
        cases child.failure isRoot with
        | none => rfl
        | some error => rfl
    · refine ⟨buffer, ?_⟩
      simp only [pushResult, FaultyNode.failedOf, failed, pushedOf, reduceCtorEq, false_and,
        if_false]

/-- What `push_refs` comes to for a subvolume with children that may fail. -/
theorem pushRefs_faulty {kernel : Kernel Fd} {flags : Flags} {f : Fd}
    {siblings : List (FaultyNode Fd)} (answers : AnswersOrFails kernel flags f none siblings)
    (parentId : UInt64) (isRoot : Bool) (color : Color) (chain : Option UnixPath)
    (stack : List (Ent Fd)) (buffer : Bytes) :
    ∃ later, pushRefs kernel parentId f isRoot color
        (if flags.contains .getPath then some (chain.map UnixPath.bytes) else none)
        ⟨stack, flags, buffer⟩ =
      (pushResult (FaultyNode.failedOf isRoot siblings),
        ⟨(pushedOf isRoot siblings).map (fun child =>
            SubvolNode.ent color (child.node.item (flags.contains .getPath) parentId chain)) ++ stack,
          flags, later⟩) := by
  obtain ⟨⟨slots, count, listed, filled⟩, answered⟩ := answers
  -- In either order the child that is returned first is the last to be pushed.
  have order : (if flags.contains .descending then slots.take count.toNat
      else (slots.take count.toNat).reverse) =
      (siblings.map fun child => child.node.rootref).reverse := by
    rw [filled, returned]
    split
    · rw [← List.map_reverse, List.map_map, List.map_reverse]
      rfl
    · rw [List.map_map]
      rfl
  rw [pushRefs, listed]
  simp only [btrfsIoctl, order]
  exact pushLoop_faulty answered parentId isRoot color _ chain ⟨stack, flags, buffer⟩

end Iter

section Loop

variable {Fd World : Type} {kernel : Kernel Fd}
  {body : World → Except IoError (SubvolItem Fd) → World}

/-- The stack of siblings that are on it, each with the colour that subvolumes start with. -/
def stackOf (flags : Flags) (isRoot : Bool) (parentId : UInt64) (chain : Option UnixPath)
    (siblings : List (FaultyNode Fd)) : List (Ent Fd) :=
  (pushedOf isRoot siblings).map fun child =>
    SubvolNode.ent flags.color (child.node.item (flags.contains .getPath) parentId chain)

/-- The turn of a subvolume runs the body for what it reports, and goes on with the later iterator. -/
theorem drains_round {flags : Flags} {item : SubvolItem Fd} {failed : Option IoError}
    {iter later : Iter Fd} {world after : World}
    (goes : Iter.round kernel iter = roundEnd flags item (Iter.pushResult failed, later))
    (rest : Drains (fun _ => kernel) body
      ((FaultyNode.reported (flags.contains .postOrder) item failed).foldl body world) later after) :
    Drains (fun _ => kernel) body world iter after := by
  cases failed with
  | some error => exact .returns goes rest
  | none =>
    -- Only in pre-order the subvolume is returned now.
    simp only [Iter.pushResult, roundEnd] at goes
    by_cases post : flags.contains .postOrder = true
    · rw [if_pos post] at goes
      simp only [FaultyNode.reported, if_pos post, List.foldl_nil] at rest
      exact .again goes rest
    · rw [if_neg post] at goes
      simp only [FaultyNode.reported, if_neg post, List.foldl_cons, List.foldl_nil] at rest
      exact .returns goes rest

/-- What is back on the stack for a subvolume runs the body for it once more. -/
theorem drains_again {flags : Flags} {item : SubvolItem Fd} {world after : World}
    {stack : List (Ent Fd)} (root : item.dirid = 100)
    (further : ∀ buffer, Drains (fun _ => kernel) body
      ((FaultyNode.returnedLast (flags.contains .postOrder) item).foldl body world)
      ⟨stack, flags, buffer⟩ after) (buffer : Bytes) :
    Drains (fun _ => kernel) body world ⟨again flags item ++ stack, flags, buffer⟩ after := by
  -- Only in post-order there is something back on the stack.
  by_cases post : flags.contains .postOrder = true
  · simp only [FaultyNode.returnedLast, if_pos post, List.foldl_cons, List.foldl_nil] at further
    rw [again, if_pos post]
    exact .returns (round_black item root stack buffer) (further buffer)
  · simp only [FaultyNode.returnedLast, if_neg post, List.foldl_nil] at further
    rw [again, if_neg post]
    exact further buffer

/-- What is returned for a subvolume on top of the stack comes in front of what is below it there. -/
theorem drains_entry {flags : Flags} {entry : FaultyNode Fd} {children : List (FaultyNode Fd)}
    {parentId : UInt64} {chain : Option UnixPath} {world after : World} {stack : List (Ent Fd)}
    {below : Returns Fd} (reached : entry.Reached)
    (answers : AnswersOrFails kernel flags entry.node.f entry.listing children)
    (inner : entry.fault = none → ∀ (world : World) (stack : List (Ent Fd)),
      (∀ buffer, Drains (fun _ => kernel) body (below.foldl body world) ⟨stack, flags, buffer⟩
        after) →
      ∀ buffer, Drains (fun _ => kernel) body world
        ⟨stackOf flags false entry.node.treeid (some (entry.node.path chain)) children ++ stack,
          flags, buffer⟩ after)
    (further : ∀ buffer, Drains (fun _ => kernel) body
      ((entry.yields (flags.contains .postOrder)
        (entry.node.item (flags.contains .getPath) parentId chain)
        (FaultyNode.failedOf false children) below).foldl body world) ⟨stack, flags, buffer⟩ after)
    (buffer : Bytes) :
    Drains (fun _ => kernel) body world
      ⟨SubvolNode.ent flags.color (entry.node.item (flags.contains .getPath) parentId chain) ::
        stack, flags, buffer⟩ after := by
  have goes := @round_ent _ kernel flags entry.node parentId chain stack buffer
  dsimp only at goes
  rcases fault : entry.fault with _ | (error | error | error)
  · -- What is below it comes between its own turn and the one behind its children.
    simp only [FaultyNode.listing, fault] at answers
    obtain ⟨later, pushed⟩ := Iter.pushRefs_faulty answers entry.node.treeid false flags.color
      (some (entry.node.path chain))
      (again flags (entry.node.item (flags.contains .getPath) parentId chain) ++ stack) buffer
    rw [pushed] at goes
    simp only [FaultyNode.yields_reported fault, List.foldl_append] at further
    exact drains_round goes (inner fault _ _ (drains_again rfl further) later)
  · exact absurd reached (by simp [FaultyNode.Reached, fault])
  · exact absurd reached (by simp [FaultyNode.Reached, fault])
  · -- Its children are not known, so its two turns come one after the other.
    simp only [FaultyNode.listing, fault, AnswersOrFails] at answers
    simp only [Iter.pushRefs, answers] at goes
    simp only [FaultyNode.yields_listing fault, List.foldl_append] at further
    exact @drains_round _ _ _ _ _ _ (some error) _ _ _ _ goes (drains_again rfl further buffer)

/-- A loop over a forest on the stack returns what is said of it, and comes to what is below. -/
theorem drains_faulty {flags : Flags} {isRoot : Bool} {forest : Forest (FaultyNode Fd)}
    {parentId : UInt64} {chain : Option UnixPath} {world after : World} {stack : List (Ent Fd)}
    (shown : forest.FaultyShown kernel flags)
    (further : ∀ buffer, Drains (fun _ => kernel) body
      ((forest.yields flags isRoot parentId chain).foldl body world) ⟨stack, flags, buffer⟩ after)
    (buffer : Bytes) :
    Drains (fun _ => kernel) body world
      ⟨stackOf flags isRoot parentId chain forest.roots ++ stack, flags, buffer⟩ after := by
  -- The induction is on the trees, with whatever is below them on the stack.
  induction forest generalizing isRoot parentId chain world stack buffer with
  | nil => exact further buffer
  | cons entry children rest inner outer =>
    obtain ⟨answers, below, behind⟩ := shown
    simp only [Forest.yields, List.foldl_append] at further
    have beyond := outer behind further
    simp only [stackOf, Forest.roots, pushedOf]
    by_cases turn : FaultyNode.failedOf isRoot rest.roots = none ∧ entry.Reached
    · rw [if_pos turn]
      rw [if_pos turn.1] at beyond
      exact drains_entry turn.2 (answers turn.2)
        (fun sound world stack further => inner (below sound) further) beyond buffer
    · -- The subvolume has never come on the stack, and nothing is returned for it.
      rw [if_neg turn]
      by_cases first : FaultyNode.failedOf isRoot rest.roots = none
      · rw [if_pos first, FaultyNode.yields_outside fun reached => turn ⟨first, reached⟩] at beyond
        exact beyond buffer
      · rw [if_neg first] at beyond
        exact beyond buffer

/-- All that a loop over a new iterator returns, where the root itself may fail to be listed. -/
def Forest.found (flags : Flags) (treeid : UInt64) (fault : Option IoError)
    (forest : Forest (FaultyNode Fd)) : Returns Fd :=
  match fault with
  | some error => [.error error]
  | none => forest.outcome flags true treeid none

/-- A loop over a new iterator runs the body for all that is found. -/
theorem drains_found {flags : Flags} {forest : Forest (FaultyNode Fd)} {root : Fd}
    {treeid : UInt64} {fault : Option IoError} {world : World}
    (answers : AnswersOrFails kernel flags root fault forest.roots)
    (shown : fault = none → forest.FaultyShown kernel flags) :
    Drains (fun _ => kernel) body world ⟨[.rootVol treeid root], flags, []⟩
      ((forest.found flags treeid fault).foldl body world) := by
  cases fault with
  | some error =>
    simp only [AnswersOrFails] at answers
    have goes : Iter.round kernel ⟨[.rootVol treeid root], flags, []⟩ =
        .returns (.error error) ⟨[], flags, []⟩ := by
      simp only [Iter.round, Iter.pushRefs, answers]
    exact .returns goes (.finished rfl)
  | none =>
    obtain ⟨later, pushed⟩ := Iter.pushRefs_faulty answers treeid true flags.color none [] []
    simp only [Flags.color, Option.map_none] at pushed
    -- A failure among the children of the root is the first that is returned.
    simp only [Forest.found, Forest.outcome, List.foldl_append]
    rcases failed : FaultyNode.failedOf true forest.roots with _ | error
    · rw [failed] at pushed
      have goes : Iter.round kernel ⟨[.rootVol treeid root], flags, []⟩ =
          .again ⟨stackOf flags true treeid none forest.roots ++ [], flags, later⟩ := by
        simp only [Iter.round, pushed, Iter.pushResult]
        rfl
      exact .again goes (drains_faulty (shown rfl) (fun buffer => .finished rfl) later)
    · rw [failed] at pushed
      have goes : Iter.round kernel ⟨[.rootVol treeid root], flags, []⟩ =
          .returns (.error error)
            ⟨stackOf flags true treeid none forest.roots ++ [], flags, later⟩ := by
        simp only [Iter.round, pushed, Iter.pushResult]
        rfl
      exact .returns goes (drains_faulty (shown rfl) (fun buffer => .finished rfl) later)

end Loop

/-- All that is to be returned below a root, which may itself fail to be listed. -/
def Forest.wantedBelow {Fd : Type} (flags : Flags) (treeid : UInt64) (fault : Option IoError)
    (forest : Forest (FaultyNode Fd)) : Returns Fd :=
  match fault with
  | some error => [.error error]
  | none => forest.wanted (flags.contains .getPath) true treeid none

/--
An iterator reports every failure and returns every subvolume that can be reached, each of them
once, if and only if the failures spare the others.

The subvolumes below the root stand in the order in which the flags return siblings.
-/
theorem iter_spares_iff {Fd : Type} (kernel : Kernel Fd) (root : Fd) (treeid : UInt64)
    (opened : kernel.inoLookup root firstFreeObjectid = .ok treeid) (flags : Flags)
    (fault : Option IoError) (forest : Forest (FaultyNode Fd))
    (answers : AnswersOrFails kernel flags root fault forest.roots)
    (shown : fault = none → forest.FaultyShown kernel flags) :
    ∃ iter results, Iter.new kernel root flags = .ok iter ∧
      (∃ enough, ∀ fuel, enough ≤ fuel → collect kernel fuel iter = some results) ∧
      (results.Perm (forest.wantedBelow flags treeid fault) ↔
        (fault = none → forest.Spared flags true)) := by
  refine ⟨⟨[.rootVol treeid root], flags, []⟩, forest.found flags treeid fault, ?_, ?_, ?_⟩
  · simp only [Iter.new, lookupTreeid, opened, btrfsIoctl]
  · have drains : Drains (fun _ => kernel) (fun items item => items ++ [item]) []
        ⟨[.rootVol treeid root], flags, []⟩
        ((forest.found flags treeid fault).foldl (fun items item => items ++ [item]) []) :=
      drains_found answers shown
    obtain ⟨enough, done⟩ := drains.forEach
    refine ⟨enough, fun fuel more => ?_⟩
    rw [collect, done fuel more, foldl_snoc, List.nil_append]
  · cases fault with
    | some error =>
      refine ⟨fun _ impossible => ?_, fun _ => List.Perm.refl _⟩
      cases impossible
    | none =>
      -- What is lost to a failure is what is missing.
      refine (Forest.outcome_perm_iff flags true treeid none forest).trans ?_
      exact ⟨fun spared _ => spared, fun spared => spared rfl⟩

/-- A kernel with two subvolumes below the root, of which only the first may be opened. -/
def maskedKernel : Kernel Nat where
  getSubvolRootref f _ := if f = 0 then .ok ([⟨257, 256⟩, ⟨258, 256⟩], 2) else .ok ([], 0)
  inoLookupUser _ _ treeid := .ok ([0], if treeid = 257 then [97, 0] else [98, 0])
  inoLookup _ _ := .ok 5
  openat _ path := if path = [97] then .ok 1 else .error (.os eacces)

/-- The names of the two subvolumes are texts. -/
theorem maskedNames_clean : 0 ∉ ([97] : Bytes) ∧ 0 ∉ ([98] : Bytes) := by
  -- They are one byte each.
  decide

/-- The subvolume of that kernel which may be opened. -/
def openNode : FaultyNode Nat where
  node := ⟨257, 256, ⟨[], UnixPath.clean_nil⟩, ⟨[97], maskedNames_clean.1⟩, 1⟩
  fault := none

/-- The other one, which may not. -/
def maskedNode : FaultyNode Nat where
  node := ⟨258, 256, ⟨[], UnixPath.clean_nil⟩, ⟨[98], maskedNames_clean.2⟩, 2⟩
  fault := some (.opening (.os eacces))

/-- The kernel has an answer for the one that may be opened. -/
theorem openNode_answered : openNode.Answered maskedKernel 0 :=
  ⟨⟨[0], [97, 0], rfl, rfl, rfl⟩, rfl⟩

/-- The kernel has an error for the one that may not be opened. -/
theorem maskedNode_answered : maskedNode.Answered maskedKernel 0 :=
  ⟨⟨[0], [98, 0], rfl, rfl, rfl⟩, rfl⟩

/-- In descending order the subvolume that fails comes first, and the other one is returned. -/
theorem iter_spares_iff_masked :
    ∃ iter results, Iter.new maskedKernel 0 .descending = .ok iter ∧
      (∃ enough, ∀ fuel, enough ≤ fuel → collect maskedKernel fuel iter = some results) ∧
      (results.Perm [.error (.os eacces), .ok ⟨1, 257, 5, 100, none⟩] ↔
        (none = (none : Option IoError) →
          (Forest.cons maskedNode .nil (.cons openNode .nil .nil)).Spared .descending true)) :=
  iter_spares_iff maskedKernel 0 5 rfl .descending none
    (.cons maskedNode .nil (.cons openNode .nil .nil))
    ⟨⟨_, _, rfl, rfl⟩, by simp [Forest.roots, openNode_answered, maskedNode_answered]⟩
    (fun _ => ⟨nofun, nofun, ⟨fun _ => ⟨⟨_, _, rfl, rfl⟩, nofun⟩, fun _ => trivial, trivial⟩⟩)

/-- In ascending order the subvolume that fails hides the one in front of it. -/
theorem iter_hides_masked :
    AnswersOrFails maskedKernel ⟨0⟩ 0 none [openNode, maskedNode] ∧
      AnswersOrFails maskedKernel ⟨0⟩ openNode.node.f none [] ∧
      ∃ iter, Iter.new maskedKernel 0 ⟨0⟩ = .ok iter ∧
        (∃ enough, ∀ fuel, enough ≤ fuel →
          collect maskedKernel fuel iter = some [.error (.os eacces)]) ∧
        ¬ [.error (.os eacces)].Perm
          ((Forest.cons openNode .nil (.cons maskedNode .nil .nil)).wantedBelow ⟨0⟩ 5 none) := by
  -- Two children, of which one cannot be opened: both sides are false.
  refine ⟨⟨⟨_, _, rfl, rfl⟩, by simp [openNode_answered, maskedNode_answered]⟩,
    ⟨⟨_, _, rfl, rfl⟩, nofun⟩, ⟨[.rootVol 5 0], ⟨0⟩, []⟩, rfl, ?_, fun same => ?_⟩
  · -- The second child is the first to be pushed, and nothing is on the stack before it fails.
    have goes : Iter.round maskedKernel ⟨[.rootVol 5 0], ⟨0⟩, []⟩ =
        .returns (.error (.os eacces)) ⟨[], ⟨0⟩, [98, 0]⟩ := rfl
    exact Drains.forEach (.returns goes (.finished rfl))
  · exact absurd same.length_eq (by decide)

end Libbtrfs
