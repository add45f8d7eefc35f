import Libbtrfs.Subvol.Walk

/-! The documented walk and the iterator over the same subvolumes, and exactly when they agree. -/

namespace Libbtrfs

open Subvol

/-- Lists that differ still do with anything behind them. -/
theorem Differ.extend {α : Type} {one other : List α} (differ : Differ one other)
    (tail back : List α) : Differ (one ++ tail) (other ++ back) := by
  -- The first difference is where it was.
  obtain ⟨front, first, second, rest, others, rfl, rfl, distinct⟩ := differ
  exact ⟨front, first, second, rest ++ tail, others ++ back, by simp, by simp, distinct⟩

/-- Lists that differ still do behind the same front. -/
theorem Differ.behind {α : Type} {one other : List α} (differ : Differ one other)
    (front : List α) : Differ (front ++ one) (front ++ other) := by
  -- The first difference lies behind the front.
  obtain ⟨shared, first, second, rest, others, rfl, rfl, distinct⟩ := differ
  exact ⟨front ++ shared, first, second, rest, others, by simp, by simp, distinct⟩

/-- Lists that differ are not the same. -/
theorem Differ.ne {α : Type} {one other : List α} (differ : Differ one other) : one ≠ other := by
  -- At the first difference they would have to be equal.
  obtain ⟨front, first, second, rest, others, rfl, rfl, distinct⟩ := differ
  intro same
  have tails := List.append_cancel_left same
  exact distinct (List.cons.inj tails).1

/-- A walk has got through and printed the lines that it should, or it has printed something else. -/
def Told (through : Prop) (printed lines : List Visit) : Prop :=
  through ∧ printed = lines ∨ Differ printed lines

/-- What is told of a subvolume is what is told of those below it and of those behind it. -/
theorem Told.join {below behind : Prop} {deep wide inner outer : List Visit}
    (told_below : Told below deep inner) (told_behind : Told behind wide outer) (line : Visit) :
    Told (below ∧ behind) (line :: (deep ++ wide)) (line :: (inner ++ outer)) := by
  -- A difference below stays in front of all that comes behind it.
  rcases told_below with ⟨walks_below, rfl⟩ | differ
  · rcases told_behind with ⟨walks_behind, rfl⟩ | differ
    · exact Or.inl ⟨⟨walks_below, walks_behind⟩, rfl⟩
    · exact Or.inr ((differ.behind deep).behind [line])
  · exact Or.inr ((differ.extend wide outer).behind [line])

section Loop

variable {Fd S : Type} {kernel : Kernel Fd}
  {callback : Rootref → Bytes → Bytes → S → Except IoError Unit × S}

/-- What the callback keeps about the state is kept by the loop over it. -/
theorem rootrefLoop_keeps {Keeps : S → Prop}
    (keeps : ∀ rref lookup name state, Keeps state → Keeps (callback rref lookup name state).2)
    (f : Fd) (refs : List Rootref) (state : S) (kept : Keeps state) :
    Keeps (rootrefLoop kernel f callback refs state).2 := by
  -- The induction is on the entries, of which each is looked up and handed on.
  induction refs generalizing state with
  | nil => exact kept
  | cons rref refs ih =>
    rw [rootrefLoop]
    cases pathStr kernel f rref.dirid rref.treeid with
    | error error => exact kept
    | ok found =>
      obtain ⟨lookup, name⟩ := found
      have next := keeps rref lookup name state kept
      cases called : callback rref lookup name state with
      | mk result after =>
        rw [called] at next
        cases result with
        | error error =>
          simp only [called]
          exact next
        | ok done =>
          simp only [called]
          exact ih after next

/-- What the callback keeps is kept by `get_rootref`. -/
theorem getRootref_keeps {Keeps : S → Prop}
    (keeps : ∀ rref lookup name state, Keeps state → Keeps (callback rref lookup name state).2)
    (f : Fd) (state : S) (kept : Keeps state) : Keeps (getRootref kernel f callback state).2 := by
  -- The children are listed first, and the callbacks are called for them.
  rw [getRootref]
  cases btrfsIoctl (kernel.getSubvolRootref f 0) with
  | error error => exact kept
  | ok listed => exact rootrefLoop_keeps keeps f _ state kept

/-- The loop goes on behind an entry for which the callback passes. -/
theorem rootrefLoop_passed {f : Fd} {rref : Rootref} {refs : List Rootref} {lookup name : Bytes}
    {state after : S} (found : pathStr kernel f rref.dirid rref.treeid = .ok (lookup, name))
    (passed : callback rref lookup name state = (.ok (), after)) :
    rootrefLoop kernel f callback (rref :: refs) state =
      rootrefLoop kernel f callback refs after := by
  -- The path is found, and the callback has nothing against going on.
  rw [rootrefLoop]
  simp only [found, passed]

/-- A loop that ends without an error has called back without one for its first entry. -/
theorem rootrefLoop_first {f : Fd} {rref : Rootref} {refs : List Rootref} {state after : S}
    (ended : rootrefLoop kernel f callback (rref :: refs) state = (.ok (), after)) :
    ∃ lookup name between, pathStr kernel f rref.dirid rref.treeid = .ok (lookup, name) ∧
      callback rref lookup name state = (.ok (), between) ∧
      rootrefLoop kernel f callback refs between = (.ok (), after) := by
  -- A lookup that fails ends the loop, and so does a callback.
  rw [rootrefLoop] at ended
  cases found : pathStr kernel f rref.dirid rref.treeid with
  | error error =>
    rw [found] at ended
    cases ended
  | ok pair =>
    obtain ⟨lookup, name⟩ := pair
    simp only [found] at ended
    cases called : callback rref lookup name state with
    | mk result between =>
      simp only [called] at ended
      cases result with
      | error error => cases ended
      | ok done => exact ⟨lookup, name, between, rfl, called, ended⟩

end Loop

/-- Whatever is printed later, the earlier lines stay in front of it. -/
def Printed (earlier later : Option (List Visit)) : Prop :=
  ∀ lines, later = some lines → ∃ front more, earlier = some front ∧ lines = front ++ more

/-- The buffer in front of the children of a subvolume, which has a path behind the base or none. -/
def innerBuffer (base : Bytes) : Option UnixPath → Bytes
  | none => base
  | some parent => base ++ parent.bytes ++ [separator]

section Walk

variable {Fd : Type} {kernel : Kernel Fd} {openFile : Bytes → Except IoError Fd}

/-- What has been printed so far is there. -/
theorem Printed.refl (printed : Option (List Visit)) : Printed printed printed := by
  -- No line has been added.
  intro lines same
  exact ⟨lines, [], same, (List.append_nil lines).symm⟩

/-- Lines that are added to the later ones stay behind the earlier ones. -/
theorem Printed.trans {first second third : Option (List Visit)} (earlier : Printed first second)
    (later : Printed second third) : Printed first third := by
  -- What was printed at first is still in front of all the rest.
  intro lines ended
  obtain ⟨middle, more, begun, rfl⟩ := later lines ended
  obtain ⟨front, between, printed, rfl⟩ := earlier middle begun
  exact ⟨front, between ++ more, printed, List.append_assoc _ _ _⟩

/-- A line is printed behind the earlier ones. -/
theorem Printed.line (printed : Option (List Visit)) (line : Visit) :
    Printed printed (printed.map (· ++ [line])) := by
  -- Where the printing has ended there is nothing to say.
  intro lines ended
  cases printed with
  | none => cases ended
  | some front =>
    cases ended
    exact ⟨front, [line], rfl, rfl⟩

/-- A walk prints behind what was printed before. -/
theorem walk_printed (fuel : Nat) (path : Bytes) (printed : Option (List Visit)) :
    Printed printed (walk kernel openFile fuel path printed).2 := by
  -- The induction is on the fuel, of which every inner walk has less.
  induction fuel generalizing path printed with
  | zero =>
    intro lines impossible
    cases impossible
  | succ fuel ih =>
    rw [walk]
    cases openFile path with
    | error error => exact Printed.refl printed
    | ok f =>
      refine @getRootref_keeps _ _ _ _ (Printed printed) ?_ f printed (Printed.refl printed)
      -- The closure adds its own line, and the inner walk prints behind that.
      intro rref lookup name state kept
      exact kept.trans ((Printed.line state _).trans (ih _ _))

/-- The loop of a walk prints behind what was printed before. -/
theorem loop_printed (fuel : Nat) (f : Fd) (buf : Bytes) (refs : List Rootref)
    (printed : Option (List Visit)) :
    Printed printed
      (rootrefLoop kernel f (walkInto (walk kernel openFile fuel) buf) refs printed).2 := by
  -- Each of the calls prints a line, and then what is below it.
  refine @rootrefLoop_keeps _ _ _ _ (Printed printed) ?_ f refs printed (Printed.refl printed)
  intro rref lookup name state kept
  exact kept.trans ((Printed.line state _).trans (walk_printed fuel _ _))

/-- The path of what lies directly below a subvolume begins with that of the subvolume. -/
theorem SubvolNode.path_behind (base : Bytes) (chain : Option UnixPath) (node : SubvolNode Fd) :
    base ++ (node.path chain).bytes =
      innerBuffer base chain ++ (node.lookup.bytes ++ node.name.bytes) := by
  -- The path is a chain of buffers, of which the outermost one is the base.
  cases chain with
  | none => rfl
  | some parent => simp [SubvolNode.path, innerBuffer]

/-- The last byte of a path is that of the name, which is no separator. -/
theorem walkBuffer_path {base : Bytes} {chain : Option UnixPath} {node : SubvolNode Fd}
    (named : node.Named) :
    walkBuffer (base ++ (node.path chain).bytes) = innerBuffer base (some (node.path chain)) := by
  obtain ⟨present, single⟩ := named
  have last : (base ++ (node.path chain).bytes).getLast? = node.name.bytes.getLast? := by
    rw [SubvolNode.path_behind, List.getLast?_append, List.getLast?_append]
    cases ends : node.name.bytes.getLast? with
    | none => exact absurd (List.getLast?_eq_none_iff.mp ends) present
    | some byte => rfl
  -- A path that ends in a separator would have one in its name.
  have other : node.name.bytes.getLast? ≠ some separator := by
    intro ends
    exact single (List.mem_of_getLast? ends)
  rw [walkBuffer, last, if_neg other, innerBuffer, List.append_assoc]

/-- A walk of a subvolume whose children are listed is the loop over them. -/
theorem walk_opened {path : Bytes} {f : Fd} {children : List (FaultyNode Fd)}
    (opened : openFile path = .ok f) (answers : AnswersOrFails kernel .getPath f none children)
    (fuel : Nat) (printed : Option (List Visit)) :
    walk kernel openFile (fuel + 1) path printed =
      rootrefLoop kernel f (walkInto (walk kernel openFile fuel) (walkBuffer path))
        (children.map fun child => child.node.rootref) printed := by
  obtain ⟨⟨slots, count, listed, filled⟩, _⟩ := answers
  -- The default order of the listing is that of the ids, so nothing is reversed.
  have ascending : Iter.returned .getPath (children.map FaultyNode.node) =
      children.map FaultyNode.node := if_neg (by decide)
  rw [ascending, List.map_map] at filled
  rw [walk, opened]
  simp only [getRootref, listed, btrfsIoctl, filled]
  rfl

/-- What is printed of a subvolume is its line, if its path is UTF-8, and another line if not. -/
theorem walkInto_line
    {inner : Bytes → Option (List Visit) → Except IoError Unit × Option (List Visit)}
    (base : Bytes) (chain : Option UnixPath) (node : SubvolNode Fd)
    (printed : Option (List Visit)) (legible : node.Legible) :
    walkInto inner (innerBuffer base chain) node.rootref node.lookup.bytes node.name.bytes printed =
      inner (base ++ (node.path chain).bytes)
        (printed.map (· ++ [⟨node.treeid, node.dirid, base ++ (node.path chain).bytes⟩])) := by
  -- A path that is UTF-8 is printed as it is.
  have path : innerBuffer base chain ++ fromUtf8Lossy node.lookup.bytes ++
      fromUtf8Lossy node.name.bytes = base ++ (node.path chain).bytes := by
    rw [List.append_assoc, legible, SubvolNode.path_behind]
  rw [walkInto, path]
  rfl

/-- A subvolume that can be looked up is told of in front of those below it and behind it. -/
theorem inside_visits {entry : FaultyNode Fd} (sound : entry.fault = none) (base : Bytes)
    (chain : Option UnixPath) (children rest : Forest (FaultyNode Fd)) :
    ((Forest.cons entry children rest).inside.visits chain).map (Visit.behind base) =
      ⟨entry.node.treeid, entry.node.dirid, base ++ (entry.node.path chain).bytes⟩ ::
        ((children.inside.visits (some (entry.node.path chain))).map (Visit.behind base) ++
          (rest.inside.visits chain).map (Visit.behind base)) := by
  -- The visits of a forest are those of its first tree and of the others.
  simp only [Forest.inside, sound, Forest.visits, List.map_cons, List.map_append, Visit.behind]

/-- A walk over a forest that it gets through prints a line for each of the subvolumes. -/
theorem loop_walks {forest : Forest (FaultyNode Fd)} {base : Bytes} {chain : Option UnixPath}
    {f : Fd} (answered : ∀ entry ∈ forest.roots, entry.Answered kernel f)
    (shown : forest.FaultyShown kernel .getPath)
    (paths : forest.inside.Opened openFile base chain) (walkable : forest.Walkable base chain)
    (printed : List Visit) :
    ∃ enough, ∀ fuel, enough ≤ fuel →
      rootrefLoop kernel f (walkInto (walk kernel openFile fuel) (innerBuffer base chain))
          (forest.roots.map fun entry => entry.node.rootref) (some printed) =
        (.ok (), some (printed ++ (forest.inside.visits chain).map (Visit.behind base))) := by
  -- The induction is on the trees, where the inner walk takes a unit of fuel for what is below.
  induction forest generalizing chain f printed with
  | nil =>
    refine ⟨0, ?_⟩
    intro fuel _
    rw [Forest.inside, Forest.visits, List.map_nil, List.append_nil]
    rfl
  | cons entry children rest inner outer =>
    obtain ⟨⟨sound, legible, short, below⟩, behind⟩ := walkable
    obtain ⟨listed, shown_below, shown_behind⟩ := shown
    have own := answered entry List.mem_cons_self
    simp only [Forest.inside, sound, Forest.Opened] at paths
    obtain ⟨⟨named, opened⟩, opened_below, opened_behind⟩ := paths
    simp only [FaultyNode.Answered, sound] at own
    have answers := listed (FaultyNode.reached_sound sound)
    simp only [FaultyNode.listing, sound] at answers
    rw [if_pos short] at opened
    let line : Visit :=
      ⟨entry.node.treeid, entry.node.dirid, base ++ (entry.node.path chain).bytes⟩
    obtain ⟨deep, inside⟩ := inner answers.2 (shown_below sound) opened_below below
      (printed ++ [line])
    obtain ⟨wide, others⟩ := outer
      (fun other member => answered other (List.mem_cons_of_mem _ member)) shown_behind
      opened_behind behind (printed ++ [line] ++
        (children.inside.visits (some (entry.node.path chain))).map (Visit.behind base))
    refine ⟨max (deep + 1) wide, ?_⟩
    intro fuel enough
    obtain ⟨less, rfl⟩ : ∃ less, fuel = less + 1 := ⟨fuel - 1, by omega⟩
    have passed : walkInto (walk kernel openFile (less + 1)) (innerBuffer base chain)
        entry.node.rootref entry.node.lookup.bytes entry.node.name.bytes (some printed) =
        (.ok (), some (printed ++ [line] ++
          (children.inside.visits (some (entry.node.path chain))).map (Visit.behind base))) := by
      rw [walkInto_line base chain entry.node _ legible, walk_opened opened answers,
        walkBuffer_path named]
      exact inside less (by omega)
    rw [inside_visits sound, Forest.roots, List.map_cons,
      rootrefLoop_passed (pathStr_found own.1) passed, others _ (by omega)]
    simp [line]

/-- A path that is not UTF-8 is printed as another one. -/
theorem illegible_differs {base : Bytes} {chain : Option UnixPath} {node : SubvolNode Fd}
    (illegible : ¬ node.Legible) :
    (⟨node.treeid, node.dirid, innerBuffer base chain ++ fromUtf8Lossy node.lookup.bytes ++
        fromUtf8Lossy node.name.bytes⟩ : Visit) ≠
      ⟨node.treeid, node.dirid, base ++ (node.path chain).bytes⟩ := by
  -- The two paths begin with the same bytes.
  intro same
  have paths := congrArg Visit.path same
  rw [SubvolNode.path_behind, List.append_assoc] at paths
  exact illegible (List.append_cancel_left paths)

/-- The loop of a walk that ends has got through the forest, or has printed something else. -/
theorem loop_told {forest : Forest (FaultyNode Fd)} {base : Bytes} {chain : Option UnixPath}
    {f : Fd} {isRoot : Bool} (answered : ∀ entry ∈ forest.roots, entry.Answered kernel f)
    (shown : forest.FaultyShown kernel .getPath) (located : forest.Below isRoot)
    (paths : forest.inside.Opened openFile base chain) {fuel : Nat} {printed out : List Visit}
    (ended : rootrefLoop kernel f (walkInto (walk kernel openFile fuel) (innerBuffer base chain))
      (forest.roots.map fun entry => entry.node.rootref) (some printed) = (.ok (), some out)) :
    ∃ more, out = printed ++ more ∧ Told (forest.Walkable base chain) more
      ((forest.inside.visits chain).map (Visit.behind base)) := by
  -- The induction is on the trees, and every subvolume is where the walk may go wrong.
  induction forest generalizing chain f isRoot fuel printed out with
  | nil =>
    cases ended
    exact ⟨[], (List.append_nil _).symm, Or.inl ⟨trivial, rfl⟩⟩
  | cons entry children rest inner outer =>
    obtain ⟨listed, shown_below, shown_behind⟩ := shown
    obtain ⟨place, located_below, located_behind⟩ := located
    have own := answered entry List.mem_cons_self
    obtain ⟨lookup, name, between, found, called, behind⟩ := rootrefLoop_first ended
    have sound : entry.fault = none := by
      -- A subvolume that lies elsewhere is not looked up, which ends the loop.
      refine place.resolve_right ?_
      intro outside
      have elsewhere : entry.fault = some (.lookup (.os eacces)) := outside.2
      simp only [FaultyNode.Answered, elsewhere] at own
      have lost := own.symm.trans found
      cases lost
    simp only [Forest.inside, sound, Forest.Opened] at paths
    obtain ⟨⟨named, opened⟩, opened_below, opened_behind⟩ := paths
    simp only [FaultyNode.Answered, sound] at own
    have answers := listed (FaultyNode.reached_sound sound)
    simp only [FaultyNode.listing, sound] at answers
    have same := (pathStr_found own.1).symm.trans found
    cases same
    -- What is printed behind this subvolume has what it has printed in front.
    obtain ⟨middle, last, rfl, whole⟩ : ∃ middle last, between = some middle ∧
        out = middle ++ last := by
      have kept := @loop_printed _ kernel openFile fuel f (innerBuffer base chain)
        (rest.roots.map fun entry => entry.node.rootref) between
      rw [behind] at kept
      exact kept out rfl
    rw [inside_visits sound]
    by_cases legible : entry.node.Legible
    · rw [walkInto_line base chain entry.node _ legible] at called
      cases fuel with
      | zero => cases called
      | succ less =>
        by_cases short : (base ++ (entry.node.path chain).bytes).length < pathRoom
        · rw [if_pos short] at opened
          rw [walk_opened opened answers, walkBuffer_path named] at called
          obtain ⟨deep, rfl, told_below⟩ := inner answers.2 (shown_below sound)
            (located_below sound) opened_below called
          obtain ⟨wide, rfl, told_behind⟩ := outer
            (fun other member => answered other (List.mem_cons_of_mem _ member)) shown_behind
            located_behind opened_behind behind
          have told := told_below.join told_behind
            ⟨entry.node.treeid, entry.node.dirid, base ++ (entry.node.path chain).bytes⟩
          exact ⟨⟨entry.node.treeid, entry.node.dirid, base ++ (entry.node.path chain).bytes⟩ ::
              (deep ++ wide), by simp,
            by simpa only [Told, Forest.Walkable, sound, legible, short, true_and] using told⟩
        · rw [if_neg short] at opened
          simp only [walk, opened] at called
          cases called
    · -- The line of the subvolume is another one, whatever the inner walk comes to.
      have kept := @walk_printed _ kernel openFile fuel
        (innerBuffer base chain ++ fromUtf8Lossy entry.node.lookup.bytes ++
          fromUtf8Lossy entry.node.name.bytes)
        (some (printed ++ [⟨entry.node.treeid, entry.node.dirid, innerBuffer base chain ++
          fromUtf8Lossy entry.node.lookup.bytes ++ fromUtf8Lossy entry.node.name.bytes⟩]))
      rw [walkInto] at called
      obtain ⟨front, more, begun, rfl⟩ := kept middle (congrArg Prod.snd called)
      cases begun
      have line := @illegible_differs _ base chain _ legible
      refine ⟨⟨entry.node.treeid, entry.node.dirid, innerBuffer base chain ++
        fromUtf8Lossy entry.node.lookup.bytes ++ fromUtf8Lossy entry.node.name.bytes⟩ ::
          (more ++ last), by simp [whole], Or.inr ?_⟩
      exact ⟨[], _, _, _, _, rfl, rfl, line⟩

end Walk

section Items

variable {Fd : Type} {forest : Forest (FaultyNode Fd)} {isRoot : Bool}

/-- Subvolumes that lie elsewhere are no failures of the iterator. -/
theorem Forest.Below.sound (located : forest.Below isRoot) :
    FaultyNode.Sound isRoot forest.roots := by
  -- The induction is on the trees, of which only those at the root may lie elsewhere.
  induction forest with
  | nil =>
    intro entry impossible
    cases impossible
  | cons entry children rest _ outer =>
    obtain ⟨place, _, behind⟩ := located
    intro other member
    rcases List.mem_cons.mp member with rfl | later
    · rcases place with sound | ⟨top, outside⟩
      · simp only [FaultyNode.failure, sound]
      · have elsewhere : other.fault = some (.lookup (.os eacces)) := outside
        simp only [FaultyNode.failure, elsewhere, top, and_self, if_true]
    · exact outer behind other later

/-- The iterator returns the subvolumes that can be looked up, and skips the others. -/
theorem Forest.Below.yields (located : forest.Below isRoot) (parentId : UInt64)
    (chain : Option UnixPath) :
    forest.yields .getPath isRoot parentId chain =
      ((forest.inside.items true parentId chain).visit false).map Except.ok := by
  -- The induction is on the trees, of which none below the root is skipped.
  induction forest generalizing isRoot parentId chain with
  | nil => rfl
  | cons entry children rest inner outer =>
    obtain ⟨place, below, behind⟩ := located
    have others := FaultyNode.failedOf_none.mpr behind.sound
    have preOrder : Flags.getPath.contains .postOrder = false := by decide
    have withPath : Flags.getPath.contains .getPath = true := by decide
    rw [Forest.yields, if_pos others, outer behind]
    rcases place with sound | ⟨_, outside⟩
    · have children_sound := FaultyNode.failedOf_none.mpr (below sound).sound
      rw [inner (below sound), children_sound]
      simp only [FaultyNode.yields, sound, preOrder, withPath, Forest.inside, Forest.items,
        Forest.visit, Bool.false_eq_true, if_false, List.map_append, List.map_cons]
    · have elsewhere : entry.fault = some (.lookup (.os eacces)) := outside
      simp only [FaultyNode.yields, elsewhere, Forest.inside, List.nil_append]

/-- The inode that the iterator reports for every subvolume. -/
def Visit.atRoot (visit : Visit) : Visit := { visit with dirid := 100 }

/-- What the items tell of the subvolumes is right, but for the inode. -/
theorem items_told (parentId : UInt64) (chain : Option UnixPath) (nodes : Forest (SubvolNode Fd)) :
    (((nodes.items true parentId chain).visit false).map Except.ok).map visitOf =
      (nodes.visits chain).map fun visit => some visit.atRoot := by
  -- The induction is on the trees, which both sides go through in the same order.
  induction nodes generalizing parentId chain with
  | nil => rfl
  | cons node children rest inner outer =>
    have read := fromPtr_toBytesWithNul (node.path chain).clean
    have own : visitOf (.ok (node.item true parentId chain)) =
        some (⟨node.treeid, 100, (node.path chain).bytes⟩ : Visit) := by
      simp only [visitOf, SubvolItem.pathText, SubvolNode.item, if_true, read]
    simp only [Forest.items, Forest.visit, Forest.visits, Bool.false_eq_true, if_false,
      List.map_append, List.map_cons, List.cons_append, inner, outer, own, Visit.atRoot]

/-- The items tell of the subvolumes exactly when these lie in the directory that is reported. -/
theorem told_iff (visits : List Visit) :
    visits.map (fun visit => some visit.atRoot) = visits.map some ↔
      ∀ visit ∈ visits, visit.dirid = 100 := by
  rw [List.map_inj_left]
  refine forall_congr' fun visit => imp_congr_right fun _ => ?_
  rw [Option.some_inj]
  -- The two visits differ in nothing but the directory.
  constructor
  · intro same
    exact (congrArg Visit.dirid same).symm
  · intro root
    rw [Visit.atRoot, ← root]

end Items

section Enumerated

variable {Fd : Type} {kernel : Kernel Fd} {openFile : Bytes → Except IoError Fd} {start : Bytes}
  {root : Fd} {treeid : UInt64} {forest : Forest (FaultyNode Fd)}

/-- The walk prints the subvolumes below its start exactly when it gets through the forest. -/
theorem Enumerated.walks (enumerated : Enumerated kernel openFile start root treeid forest) :
    Walks kernel openFile start (forest.inside.visits none) ↔
      forest.Walkable (walkBuffer start) none := by
  obtain ⟨_, opened, answers, shown, located, paths⟩ := enumerated
  constructor
  · intro walks
    obtain ⟨enough, walked⟩ := walks
    -- The loop over the direct children has got through the forest, or has printed other lines.
    have ended := walked (enough + 1) (Nat.le_succ enough)
    rw [walk_opened opened answers] at ended
    obtain ⟨more, same, told⟩ := @loop_told _ kernel openFile forest (walkBuffer start) none root
      true answers.2 shown located paths enough [] _ ended
    rcases told with ⟨walkable, _⟩ | differ
    · exact walkable
    · exact absurd same.symm differ.ne
  · intro walkable
    obtain ⟨enough, walked⟩ := loop_walks answers.2 shown paths walkable []
    refine ⟨enough + 1, ?_⟩
    intro fuel more
    obtain ⟨less, rfl⟩ : ∃ less, fuel = less + 1 := ⟨fuel - 1, by omega⟩
    rw [walk_opened opened answers]
    exact walked less (by omega)

/-- The iterator gets to its end in any case, and skips what lies elsewhere. -/
theorem Enumerated.collected (enumerated : Enumerated kernel openFile start root treeid forest) :
    ∃ enough, ∀ fuel, enough ≤ fuel →
      collect kernel fuel ⟨[.rootVol treeid root], .getPath, []⟩ =
        some (((forest.inside.items true treeid none).visit false).map Except.ok) := by
  obtain ⟨_, _, answers, shown, located, _⟩ := enumerated
  -- What the loop of the iterator collects is what is found in the forest.
  have drains : Drains (fun _ => kernel) (fun items item => items ++ [item]) []
      ⟨[.rootVol treeid root], .getPath, []⟩
      ((forest.found .getPath treeid none).foldl (fun items item => items ++ [item]) []) :=
    drains_found answers fun _ => shown
  obtain ⟨enough, done⟩ := drains.forEach
  refine ⟨enough, ?_⟩
  intro fuel more
  rw [collect, done fuel more, foldl_snoc, List.nil_append]
  simp only [Forest.found, Forest.outcome, FaultyNode.failedOf_none.mpr located.sound,
    located.yields, Option.toList_none, List.map_nil, List.nil_append]

/-- The iterator tells of the subvolumes exactly when they lie in the directory that it reports. -/
theorem Enumerated.iterates (enumerated : Enumerated kernel openFile start root treeid forest) :
    Iterates kernel root (forest.inside.visits none) ↔
      ∀ visit ∈ forest.inside.visits none, visit.dirid = 100 := by
  obtain ⟨enough, items⟩ := enumerated.collected
  have made : Iter.new kernel root .getPath = .ok ⟨[.rootVol treeid root], .getPath, []⟩ := by
    simp only [Iter.new, lookupTreeid, enumerated.found, btrfsIoctl]
  constructor
  · intro iterates
    obtain ⟨iter, results, new, ⟨least, collected⟩, told⟩ := iterates
    rw [made] at new
    cases new
    -- With fuel for both, the results are the items.
    have same := (collected (max enough least) (le_max_right _ _)).symm.trans
      (items (max enough least) (le_max_left _ _))
    cases same
    rw [items_told] at told
    exact (told_iff _).mp told
  · intro at_root
    refine ⟨_, _, made, ⟨enough, items⟩, ?_⟩
    rw [items_told]
    exact (told_iff _).mpr at_root

end Enumerated

/--
The documented walk and the iterator tell of the same subvolumes exactly when each of these lies in
the directory with the inode 100, and the walk gets through.
-/
theorem enumerations_agree_iff {Fd : Type} (kernel : Kernel Fd)
    (openFile : Bytes → Except IoError Fd) (start : Bytes) (root : Fd) (treeid : UInt64)
    (forest : Forest (FaultyNode Fd))
    (enumerated : Enumerated kernel openFile start root treeid forest) :
    Agree kernel openFile start root (forest.inside.visits none) ↔
      forest.Walkable (walkBuffer start) none ∧
        ∀ visit ∈ forest.inside.visits none, visit.dirid = 100 :=
  and_congr enumerated.walks enumerated.iterates

/-- A kernel with a directory that one of the two subvolumes of its tree lies below. -/
def directoryKernel : Kernel Nat where
  getSubvolRootref f _ := if f = 0 then .ok ([⟨257, 256⟩, ⟨258, 300⟩], 2) else .ok ([], 0)
  inoLookupUser _ _ treeid := if treeid = 257 then .ok ([0], [97, 0]) else .error (.os eacces)
  inoLookup _ _ := .ok 5
  openat _ path := if path = [97] then .ok 1 else .error (.os enoent)

/-- The files that can be opened: the directory, and the subvolume below it. -/
def directoryFile (path : Bytes) : Except IoError Nat :=
  if path = [47, 109] then .ok 0 else if path = [47, 109, 47, 97] then .ok 1
  else .error (.os enoent)

/-- The name of the other subvolume has no zero in it. -/
theorem elsewhereName_clean : 0 ∉ ([98] : Bytes) := maskedNames_clean.2

/-- The other subvolume of the tree, which does not lie below the directory. -/
def elsewhereNode : FaultyNode Nat where
  node := ⟨258, 300, ⟨[], UnixPath.clean_nil⟩, ⟨[98], elsewhereName_clean⟩, 2⟩
  fault := some (.lookup (.os eacces))

/-- What that kernel shows. -/
def directoryForest : Forest (FaultyNode Nat) :=
  .cons openNode .nil (.cons elsewhereNode .nil .nil)

/-- What the two ways of enumerating are told of that directory is what there is. -/
theorem directory_enumerated :
    Enumerated directoryKernel directoryFile [47, 109] 0 5 directoryForest where
  found := rfl
  opened := rfl
  answers := by
    -- There is one subvolume to be listed, and nothing in that.
    refine ⟨⟨_, _, rfl, rfl⟩, ?_⟩
    intro child member
    rcases List.mem_cons.mp member with rfl | later
    · exact ⟨⟨[0], [97, 0], rfl, rfl, rfl⟩, rfl⟩
    · rw [List.mem_singleton.mp later]
      rfl
  shown := by
    refine ⟨?_, fun _ => trivial, ?_, fun _ => trivial, trivial⟩
    · intro _
      refine ⟨⟨_, _, rfl, rfl⟩, ?_⟩
      intro child impossible
      cases impossible
    · intro reached
      cases reached
  below := by
    refine ⟨Or.inl rfl, fun _ => trivial, Or.inr ⟨rfl, rfl⟩, ?_, trivial⟩
    intro impossible
    cases impossible
  paths := by
    refine ⟨⟨⟨List.cons_ne_nil _ _, by decide⟩, rfl⟩, trivial, trivial⟩

/-- The two agree on the plain directory just if it can be walked and what is in sight lies in the
directory with the inode 100. -/
theorem enumerations_agree_iff_directory :
    Agree directoryKernel directoryFile [47, 109] 0 (directoryForest.inside.visits none) ↔
      directoryForest.Walkable (walkBuffer [47, 109]) none ∧
        ∀ visit ∈ directoryForest.inside.visits none, visit.dirid = 100 :=
  enumerations_agree_iff directoryKernel directoryFile [47, 109] 0 5 directoryForest
    directory_enumerated

/-- From a directory in a subvolume the walk ends with an error, and the iterator makes up an inode. -/
theorem enumerations_disagree_directory :
    Enumerated directoryKernel directoryFile [47, 109] 0 5 directoryForest ∧
      directoryForest.inside.visits none = [⟨257, 256, [97]⟩] ∧
      ¬ Walks directoryKernel directoryFile [47, 109] [⟨257, 256, [97]⟩] ∧
      ¬ Iterates directoryKernel 0 [⟨257, 256, [97]⟩] ∧
      ¬ Agree directoryKernel directoryFile [47, 109] 0 [⟨257, 256, [97]⟩] := by
  have stuck : ¬ Walks directoryKernel directoryFile [47, 109] [⟨257, 256, [97]⟩] := by
    intro walks
    -- The second subvolume of the tree lies elsewhere.
    obtain ⟨_, ⟨inside, _⟩, _⟩ := directory_enumerated.walks.mp walks
    cases inside
  have made_up : ¬ Iterates directoryKernel 0 [⟨257, 256, [97]⟩] := by
    intro iterates
    have root := directory_enumerated.iterates.mp iterates _ List.mem_cons_self
    exact absurd root (by decide)
  refine ⟨directory_enumerated, rfl, stuck, made_up, ?_⟩
  intro agree
  exact stuck agree.1

end Libbtrfs
