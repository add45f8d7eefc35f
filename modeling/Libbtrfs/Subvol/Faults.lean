import Libbtrfs.Subvol.Traversal

/-! Forests in which some subvolumes fail: what is to be returned of them, and what is. -/

namespace Libbtrfs

/-- What goes wrong with a subvolume: it cannot be looked up, opened, or asked for its children. -/
inductive Fault where
  | lookup (error : IoError)
  | opening (error : IoError)
  | listing (error : IoError)

/-- A subvolume and what goes wrong with it. Its descriptor is only there if it can be opened. -/
structure FaultyNode (Fd : Type) where
  node : SubvolNode Fd
  fault : Option Fault

/-- What an iterator returns one after the other. -/
abbrev Returns (Fd : Type) : Type := List (Except IoError (SubvolItem Fd))

namespace FaultyNode

variable {Fd : Type}

/-- Whether the subvolume can be looked up and opened. -/
def Reached (entry : FaultyNode Fd) : Prop :=
  match entry.fault with
  | some (.lookup _) => False
  | some (.opening _) => False
  | _ => True

instance (entry : FaultyNode Fd) : Decidable entry.Reached :=
  match fault : entry.fault with
  | none => isTrue (by simp [Reached, fault])
  | some (.listing _) => isTrue (by simp [Reached, fault])
  | some (.lookup _) => isFalse (by simp [Reached, fault])
  | some (.opening _) => isFalse (by simp [Reached, fault])

/-- The error with which the subvolume cannot be asked for its children. -/
def listing (entry : FaultyNode Fd) : Option IoError :=
  match entry.fault with
  | some (.listing error) => some error
  | _ => none

/--
The error with which the subvolume fails as a child of another one.

A child of the root that may not be looked up does not lie below the root.
-/
def failure (isRoot : Bool) (entry : FaultyNode Fd) : Option IoError :=
  match entry.fault with
  | some (.lookup error) => if isRoot ∧ error = .os eacces then none else some error
  | some (.opening error) => some error
  | _ => none

/-- What is to be returned for the subvolume, with all that is below it. -/
def wanted (isRoot : Bool) (entry : FaultyNode Fd) (item : SubvolItem Fd) (below : Returns Fd) :
    Returns Fd :=
  match entry.fault with
  | none => .ok item :: below
  -- It can be opened all the same.
  | some (.listing error) => [.ok item, .error error]
  | some _ => (entry.failure isRoot).toList.map .error

/-- What is returned for it when it is on the stack, and how its children go there. -/
def yields (post : Bool) (entry : FaultyNode Fd) (item : SubvolItem Fd) (failed : Option IoError)
    (below : Returns Fd) : Returns Fd :=
  match entry.fault with
  | none =>
    if post then failed.toList.map .error ++ below ++ [.ok item]
    else
      match failed with
      | none => .ok item :: below
      -- The entry itself is gone from the stack, but not the children pushed before.
      | some error => .error error :: below
  | some (.listing error) => if post then [.error error, .ok item] else [.error error]
  | some _ => []

/-- Among the siblings there is none that fails. -/
def Sound (isRoot : Bool) (siblings : List (FaultyNode Fd)) : Prop :=
  ∀ entry ∈ siblings, entry.failure isRoot = none

/-- The subvolume is returned although something may be wrong with it or with its children. -/
def Kept (post : Bool) (entry : FaultyNode Fd) (children : List (FaultyNode Fd)) : Prop :=
  match entry.fault with
  | none => post = true ∨ Sound false children
  | some (.listing _) => post = true
  | some _ => True

/-- The first failure of siblings in the order in which they go on the stack, from the last on. -/
def failedOf (isRoot : Bool) : List (FaultyNode Fd) → Option IoError
  | [] => none
  | entry :: rest =>
    match failedOf isRoot rest with
    | some error => some error
    | none => entry.failure isRoot

/-- There is a failure if and only if not all siblings are sound. -/
theorem failedOf_none {isRoot : Bool} {siblings : List (FaultyNode Fd)} :
    failedOf isRoot siblings = none ↔ Sound isRoot siblings := by
  -- The first sibling counts only if all behind it are sound.
  induction siblings with
  | nil => simp [failedOf, Sound]
  | cons entry rest ih =>
    rw [Sound, List.forall_mem_cons, ← Sound, ← ih, failedOf]
    cases failedOf isRoot rest with
    | none => simp
    | some error => simp

/-- No more is returned for a subvolume than is wanted, and all of it only if it is kept. -/
theorem yields_length {post isRoot : Bool} {entry : FaultyNode Fd} {item : SubvolItem Fd}
    {children : List (FaultyNode Fd)} {below all : Returns Fd}
    (bound : (failedOf false children).toList.length + below.length ≤ all.length) :
    let returned := (entry.failure isRoot).toList.length +
      (entry.yields post item (failedOf false children) below).length
    let wanted := (entry.wanted isRoot item all).length
    returned ≤ wanted ∧ (returned = wanted → entry.Kept post children ∧
      (entry.fault = none →
        (failedOf false children).toList.length + below.length = all.length)) := by
  -- One case for each fault, as that decides about the errors and about the entry itself.
  rcases fault : entry.fault with _ | (error | error | error)
  · cases post with
    | true =>
      simp only [failure, yields, wanted, Kept, fault, if_true, List.length_append, List.length_map,
        List.length_cons, List.length_nil, Option.toList_none]
      refine ⟨by omega, fun same => ⟨Or.inl trivial, fun _ => by omega⟩⟩
    | false =>
      cases failed : failedOf false children with
      | none =>
        have sound := failedOf_none.mp failed
        simp only [failure, yields, wanted, Kept, fault, failed, Option.toList_none,
          List.length_nil, List.length_cons, Bool.false_eq_true, if_false] at bound ⊢
        exact ⟨by omega, fun same => ⟨Or.inr sound, fun _ => by omega⟩⟩
      | some error =>
        -- One of the results is the error, so there is none for the entry.
        simp only [failure, yields, wanted, Kept, fault, failed, Option.toList_none,
          Option.toList_some, List.length_nil, List.length_cons, Bool.false_eq_true,
          if_false] at bound ⊢
        exact ⟨by omega, fun same => by omega⟩
  · simp only [yields, wanted, Kept, fault, List.length_map, List.length_nil]
    exact ⟨by omega, fun _ => ⟨trivial, nofun⟩⟩
  · simp only [yields, wanted, Kept, fault, List.length_map, List.length_nil]
    exact ⟨by omega, fun _ => ⟨trivial, nofun⟩⟩
  · cases post with
    | true =>
      simp only [failure, yields, wanted, Kept, fault, if_true, Option.toList_none, List.length_nil,
        List.length_cons]
      exact ⟨by omega, fun _ => ⟨trivial, nofun⟩⟩
    | false =>
      simp only [failure, yields, wanted, Kept, fault, Option.toList_none, List.length_nil,
        List.length_cons, Bool.false_eq_true, if_false]
      exact ⟨by omega, fun same => by omega⟩

/-- For a subvolume that is kept all is returned that is wanted, as it is of what is below it. -/
theorem yields_perm {post isRoot : Bool} {entry : FaultyNode Fd} {item : SubvolItem Fd}
    {children : List (FaultyNode Fd)} {below all : Returns Fd} (kept : entry.Kept post children)
    (inside : entry.fault = none →
      ((failedOf false children).toList.map Except.error ++ below).Perm all) :
    ((entry.failure isRoot).toList.map Except.error ++
        entry.yields post item (failedOf false children) below).Perm
      (entry.wanted isRoot item all) := by
  -- One case for each fault: the order is another in post-order, the results are the same.
  rcases fault : entry.fault with _ | (error | error | error)
  · simp only [failure, yields, wanted, Kept, fault, Option.toList_none, List.map_nil,
      List.nil_append] at kept ⊢
    cases post with
    | true =>
      rw [if_pos rfl]
      exact (List.perm_append_singleton _ _).trans ((inside fault).cons _)
    | false =>
      rw [failedOf_none.mpr (kept.resolve_left nofun)] at inside ⊢
      exact (inside fault).cons _
  · simp only [yields, wanted, fault, List.append_nil]
    exact List.Perm.refl _
  · simp only [yields, wanted, fault, List.append_nil]
    exact List.Perm.refl _
  · simp only [failure, yields, wanted, Kept, fault, Option.toList_none, List.map_nil,
      List.nil_append] at kept ⊢
    rw [if_pos kept]
    exact List.Perm.swap _ _ _

/-- What is not reached cannot be looked up, or cannot be opened. -/
theorem fault_of_unreached {entry : FaultyNode Fd} (unreached : ¬ entry.Reached) :
    (∃ error, entry.fault = some (.lookup error)) ∨ ∃ error, entry.fault = some (.opening error) := by
  -- A subvolume that has no fault, or cannot be listed, is reached all the same.
  rcases fault : entry.fault with _ | (error | error | error)
  · exact absurd (by simp [Reached, fault]) unreached
  · exact Or.inl ⟨error, rfl⟩
  · exact Or.inr ⟨error, rfl⟩
  · exact absurd (by simp [Reached, fault]) unreached

/-- A subvolume that is not reached need not be kept. -/
theorem kept_outside {post : Bool} {entry : FaultyNode Fd} {children : List (FaultyNode Fd)}
    (unreached : ¬ entry.Reached) : entry.Kept post children := by
  -- There is a fault in front of it, and all that is kept is about those without.
  obtain ⟨error, fault⟩ | ⟨error, fault⟩ := fault_of_unreached unreached
  · simp only [Kept, fault]
  · simp only [Kept, fault]

/-- For a subvolume that is not reached nothing is returned. -/
theorem yields_outside {post : Bool} {entry : FaultyNode Fd} {item : SubvolItem Fd}
    {failed : Option IoError} {below : Returns Fd} (unreached : ¬ entry.Reached) :
    entry.yields post item failed below = [] := by
  -- There is a fault in front of it.
  obtain ⟨error, fault⟩ | ⟨error, fault⟩ := fault_of_unreached unreached
  · simp only [yields, fault]
  · simp only [yields, fault]

/-- What the turn of a subvolume returns, by the failure that pushing its children comes to. -/
def reported (post : Bool) (item : SubvolItem Fd) : Option IoError → Returns Fd
  | some error => [.error error]
  | none => if post then [] else [.ok item]

/-- What is returned for a subvolume behind its children. -/
def returnedLast (post : Bool) (item : SubvolItem Fd) : Returns Fd := if post then [.ok item] else []

/-- Without a fault, what is below a subvolume comes between its two turns. -/
theorem yields_reported {post : Bool} {entry : FaultyNode Fd} {item : SubvolItem Fd}
    {failed : Option IoError} {below : Returns Fd} (sound : entry.fault = none) :
    entry.yields post item failed below =
      reported post item failed ++ (below ++ returnedLast post item) := by
  -- In pre-order there is no second turn, and in post-order the first one returns an error only.
  simp only [yields, sound]
  cases post with
  | true => cases failed <;> simp [reported, returnedLast]
  | false => cases failed <;> simp [reported, returnedLast]

/-- A subvolume that cannot be listed has nothing between its two turns. -/
theorem yields_listing {post : Bool} {entry : FaultyNode Fd} {item : SubvolItem Fd}
    {failed : Option IoError} {below : Returns Fd} {error : IoError}
    (listing : entry.fault = some (.listing error)) :
    entry.yields post item failed below =
      reported post item (some error) ++ returnedLast post item := by
  -- The one turn is in front of the others or behind them.
  simp only [yields, listing]
  cases post <;> rfl

/-- A subvolume with which nothing goes wrong is reached. -/
theorem reached_sound {entry : FaultyNode Fd} (sound : entry.fault = none) : entry.Reached := by
  -- Nothing stands in the way.
  simp only [Reached, sound]

/-- Nothing is wanted only for what does not lie below the root. -/
theorem wanted_none {isRoot : Bool} {entry : FaultyNode Fd} {item : SubvolItem Fd}
    {below : Returns Fd} (nothing : (entry.wanted isRoot item below).length = 0) :
    ¬ entry.Reached ∧ entry.failure isRoot = none := by
  -- A subvolume that is reached is wanted itself, and one that cannot be opened is an error.
  rcases fault : entry.fault with _ | (error | error | error)
  · simp [wanted, fault] at nothing
  · refine ⟨by simp [Reached, fault], ?_⟩
    simpa [wanted, fault] using nothing
  · simp [wanted, failure, fault] at nothing
  · simp [wanted, fault] at nothing

/-- For what does not lie below the root nothing is wanted. -/
theorem wanted_outside {isRoot : Bool} {entry : FaultyNode Fd} {item : SubvolItem Fd}
    {below : Returns Fd} (outside : ¬ entry.Reached ∧ entry.failure isRoot = none) :
    entry.wanted isRoot item below = [] := by
  -- Without a failure there is no error to be returned either.
  obtain ⟨unreached, harmless⟩ := outside
  obtain ⟨error, fault⟩ | ⟨error, fault⟩ := fault_of_unreached unreached
  · simp only [wanted, fault, harmless, Option.toList_none, List.map_nil]
  · simp only [wanted, fault, harmless, Option.toList_none, List.map_nil]

end FaultyNode

/-- The siblings that have gone on the stack by then, with the top first. -/
def pushedOf {Fd : Type} (isRoot : Bool) : List (FaultyNode Fd) → List (FaultyNode Fd)
  | [] => []
  | entry :: rest =>
    if FaultyNode.failedOf isRoot rest = none ∧ entry.Reached then entry :: pushedOf isRoot rest
    else pushedOf isRoot rest

namespace Forest

variable {Fd : Type}

/-- All that is to be returned below a parent, for every subvolume that is found there. -/
def wanted (withPath isRoot : Bool) (parentId : UInt64) (chain : Option UnixPath) :
    Forest (FaultyNode Fd) → Returns Fd
  | nil => []
  | cons entry children rest =>
    entry.wanted isRoot (entry.node.item withPath parentId chain)
        (children.wanted withPath false entry.node.treeid (some (entry.node.path chain))) ++
      rest.wanted withPath isRoot parentId chain

/-- What the iterator returns for the subvolumes below a parent that are on the stack. -/
def yields (flags : Flags) (isRoot : Bool) (parentId : UInt64) (chain : Option UnixPath) :
    Forest (FaultyNode Fd) → Returns Fd
  | nil => []
  | cons entry children rest =>
    (if FaultyNode.failedOf isRoot rest.roots = none then
        entry.yields (flags.contains .postOrder)
          (entry.node.item (flags.contains .getPath) parentId chain) (FaultyNode.failedOf false children.roots)
          (children.yields flags false entry.node.treeid (some (entry.node.path chain)))
      else []) ++
      rest.yields flags isRoot parentId chain

/-- All that it returns below a parent, with the failure among the direct children. -/
def outcome (flags : Flags) (isRoot : Bool) (parentId : UInt64) (chain : Option UnixPath)
    (forest : Forest (FaultyNode Fd)) : Returns Fd :=
  (FaultyNode.failedOf isRoot forest.roots).toList.map .error ++ forest.yields flags isRoot parentId chain

/--
Nothing of a forest is lost to a failure, where siblings stand in the order of their return.

In front of one that fails there are only siblings that do not lie below the root at all, and in
pre-order no subvolume but the root has a child that fails, or cannot be asked for its children.
-/
def Spared (flags : Flags) (isRoot : Bool) : Forest (FaultyNode Fd) → Prop
  | nil => True
  | cons entry children rest =>
    (FaultyNode.Sound isRoot rest.roots ∨ ¬ entry.Reached ∧ entry.failure isRoot = none) ∧
      entry.Kept (flags.contains .postOrder) children.roots ∧
      (entry.fault = none → children.Spared flags false) ∧ rest.Spared flags isRoot

/-- No more is returned below a parent than is wanted, and all of it only if nothing is lost. -/
theorem outcome_length (flags : Flags) (isRoot : Bool) (parentId : UInt64)
    (chain : Option UnixPath) (forest : Forest (FaultyNode Fd)) :
    let returned := (forest.outcome flags isRoot parentId chain).length
    let all := (forest.wanted (flags.contains .getPath) isRoot parentId chain).length
    returned ≤ all ∧ (returned = all → forest.Spared flags isRoot) := by
  -- By induction on the forest, with what is below the first root and what is behind it.
  induction forest generalizing isRoot parentId chain with
  | nil => exact ⟨Nat.le_refl _, fun _ => trivial⟩
  | cons entry children rest inner outer =>
    obtain ⟨bound, spared⟩ := outer isRoot parentId chain
    obtain ⟨bound_below, spared_below⟩ :=
      inner false entry.node.treeid (some (entry.node.path chain))
    simp only [outcome, List.length_append, List.length_map] at bound spared bound_below spared_below
    simp only [outcome, roots, FaultyNode.failedOf, yields, wanted, Spared, List.length_append,
      List.length_map]
    rcases behind : FaultyNode.failedOf isRoot rest.roots with _ | error
    · -- No sibling behind it fails, so the entry gets its turn.
      have own := @FaultyNode.yields_length Fd (flags.contains .postOrder) isRoot entry
        (entry.node.item (flags.contains .getPath) parentId chain) _ _ _ bound_below
      obtain ⟨fewer, kept⟩ := own
      rw [behind] at bound spared
      simp only [Option.toList_none, List.length_nil, Nat.zero_add, if_true] at bound spared ⊢
      refine ⟨by omega, fun same => ?_⟩
      obtain ⟨keeps, whole⟩ := kept (by omega)
      refine ⟨Or.inl (FaultyNode.failedOf_none.mp behind), keeps, fun sound => ?_, spared (by omega)⟩
      exact spared_below (whole sound)
    · -- A sibling behind it fails, and the entry never goes on the stack.
      rw [behind] at bound spared
      simp only [Option.toList_some, List.length_singleton, reduceCtorEq, if_false,
        List.length_nil, Nat.zero_add] at bound spared ⊢
      refine ⟨by omega, fun same => ?_⟩
      have nothing : (entry.wanted isRoot (entry.node.item (flags.contains .getPath) parentId chain)
          (children.wanted (flags.contains .getPath) false entry.node.treeid
            (some (entry.node.path chain)))).length = 0 := by omega
      have outside := FaultyNode.wanted_none nothing
      exact ⟨Or.inr outside, FaultyNode.kept_outside outside.1, fun sound =>
        absurd (FaultyNode.reached_sound sound) outside.1, spared (by omega)⟩

/-- If nothing is lost to a failure, all that is wanted below a parent is returned. -/
theorem outcome_perm (flags : Flags) (isRoot : Bool) (parentId : UInt64)
    (chain : Option UnixPath) {forest : Forest (FaultyNode Fd)}
    (spared : forest.Spared flags isRoot) :
    (forest.outcome flags isRoot parentId chain).Perm
      (forest.wanted (flags.contains .getPath) isRoot parentId chain) := by
  -- By induction on the forest, as the lengths.
  induction forest generalizing isRoot parentId chain with
  | nil => exact List.Perm.refl _
  | cons entry children rest inner outer =>
    obtain ⟨first, kept, below, others⟩ := spared
    have behind := outer isRoot parentId chain others
    simp only [outcome, roots, FaultyNode.failedOf, yields, wanted] at behind ⊢
    rcases failed : FaultyNode.failedOf isRoot rest.roots with _ | error
    · have inside := @FaultyNode.yields_perm Fd _ isRoot entry
        (entry.node.item (flags.contains .getPath) parentId chain) _ _ _ kept
        fun sound => inner false entry.node.treeid (some (entry.node.path chain)) (below sound)
      rw [failed] at behind
      simp only [Option.toList_none, List.map_nil, List.nil_append, if_true] at behind ⊢
      rw [← List.append_assoc]
      exact inside.append behind
    · -- The entry does not lie below the root, so there is nothing to return for it.
      have outside := first.resolve_left fun sound => by
        rw [FaultyNode.failedOf_none.mpr sound] at failed
        cases failed
      rw [failed] at behind
      simp only [reduceCtorEq, if_false, List.nil_append] at behind ⊢
      rw [FaultyNode.wanted_outside outside, List.nil_append]
      exact behind

/-- All that is wanted below a parent is returned if and only if nothing is lost to a failure. -/
theorem outcome_perm_iff (flags : Flags) (isRoot : Bool) (parentId : UInt64)
    (chain : Option UnixPath) (forest : Forest (FaultyNode Fd)) :
    (forest.outcome flags isRoot parentId chain).Perm
        (forest.wanted (flags.contains .getPath) isRoot parentId chain) ↔
      forest.Spared flags isRoot := by
  refine ⟨fun same => ?_, outcome_perm flags isRoot parentId chain⟩
  -- What is lost is missing from the length.
  exact (outcome_length flags isRoot parentId chain forest).2 same.length_eq

end Forest

end Libbtrfs
