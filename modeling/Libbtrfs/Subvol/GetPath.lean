import Libbtrfs.Core.Backward
import Libbtrfs.TreeSearch.RootRef

/-! `get_path`: the references up to the top-level subvolume, and the buffer the path is built in. -/

namespace Libbtrfs

open Search

/-- What a round of the loop reads: a part of the path, and whether it is the first one. -/
structure Ancestor where
  rootvol : Bool
  lookup : Bytes
  name : Bytes
  deriving DecidableEq

namespace Ancestor

/-- The part of the path that a subvolume makes up. -/
def part (ancestor : Ancestor) : Bytes := ancestor.lookup ++ ancestor.name

/-- The path that a chain of subvolumes stands for, the innermost of which comes first. -/
def joined (chain : List Ancestor) : Bytes :=
  List.intercalate [separator] (chain.reverse.map part)

/-- The end of a path: a chain of subvolumes, each with a separator in front of it. -/
def suffix : List Ancestor → Bytes
  | [] => []
  | ancestor :: above => suffix above ++ separator :: ancestor.part

end Ancestor

/-- The buffer in front of the first round, which is as the allocation left it. -/
def uninit (memory : Bytes) (sized : memory.length = 128) : Backward UInt8 where
  buf := memory
  pos := 128
  inside := sized.ge
  room := by
    rw [sized]
    exact Nat.succ_pos 127

/-- The number of bytes that a part of the path takes, `total_len`. -/
def Ancestor.totalLen (ancestor : Ancestor) : Nat := ancestor.lookup.length + ancestor.name.length

/-- `pos -= total_len`, and the two copies: first the lookup path, and then the name behind it. -/
def fill (ancestor : Ancestor) (back : Backward UInt8) (fits : ancestor.totalLen ≤ back.pos) :
    Backward UInt8 :=
  let front := back.retreat ancestor.totalLen fits
  let looked := front.write 0 ancestor.lookup
    (back.retreat_ends fits (by rw [Nat.zero_add]; exact Nat.le_add_right _ _))
  looked.write ancestor.lookup.length ancestor.name (by
    rw [front.length_write]
    exact back.retreat_ends fits (Nat.le_refl ancestor.totalLen))

/-- The end of a round, which returns the path or puts a separator in front of it. -/
def assemble (ancestor : Ancestor) (back : Backward UInt8) : Outcome (Bytes ⊕ Backward UInt8) :=
  let grown := back.grow (ancestor.totalLen + (!ancestor.rootvol).toNat)
  if fits : ancestor.totalLen ≤ grown.pos then
    let filled := fill ancestor grown fits
    if ancestor.rootvol then .ok (.inl filled.kept)
    else if left : 1 ≤ filled.pos then
      .ok (.inr ((filled.retreat 1 left).write 0 [separator]
        (filled.retreat_ends left (Nat.le_refl 1))))
    else .error (.panic "attempt to subtract with overflow")
  else .error (.panic "attempt to subtract with overflow")

/-- The loop of `get_path`: how many rounds there were, its search, its buffer, and how it ended. -/
structure GetPath (S : Type) where
  calls : Nat
  search : S
  path : Backward UInt8
  ended : Option (Outcome Bytes)

/-- Calls that start from a state, each of which yields the next one of some answers. -/
def Reads {S A : Type} (next : Nat → S → Outcome A × S) : Nat → S → List A → S → Prop
  | _, state, [], last => state = last
  | call, state, answer :: more, last =>
    ∃ after, next call state = (.ok answer, after) ∧ Reads next (call + 1) after more last

/-- The callback of the search, `|(.., off)| (off, RootBackref::KEY, 0)`. -/
def toParent (key : QueryKey) : Outcome QueryKey := .ok (key.2.2, RootBackref.key, 0)

/-- The search of `get_path`. -/
def pathSearch (treeid : UInt64) : TreeSearch :=
  build ((((SearchKey.default.tree .rootTree).itemLimit 1).objectid
    ⟨.unbounded, .included treeid⟩).itemType ⟨.unbounded, .included RootBackref.key⟩)

/-- The query of a round. Its iterator yields one item, and is dropped before that is looked at. -/
def nextBackref (ioctl : Nat → TreeSearch → Except IoError Unit × TreeSearch) (call : Nat)
    (search : TreeSearch) : Outcome SearchItem × TreeSearch :=
  match query (ioctl call) search toParent with
  | (.error error, search) => (.error (.io error), search)
  | (.ok items, _) =>
    match items.next with
    | (found, items) =>
      match items.drop with
      | .error failure => (.error failure, items.search)
      | .ok search =>
        match found with
        | none => (.error (.io (.kind .notFound)), search)
        | some item => (.ok item, search)

/-- `Lookup::path_str`, for the memory of the name that `BTRFS_IOC_INO_LOOKUP` fills. -/
def lookupPathStr (inoLookup : UInt64 → UInt64 → Except IoError Bytes) (objectid treeid : UInt64) :
    Except IoError Bytes :=
  match btrfsIoctl (inoLookup objectid treeid) with
  | .error error => .error error
  | .ok name => .ok (fromPtr name)

/-- What a round makes of the item it has found. -/
def readAncestor (inoLookup : UInt64 → UInt64 → Except IoError Bytes) (item : SearchItem) :
    Outcome Ancestor :=
  let backref : RootBackref := ⟨item.payload⟩
  match backref.nameAsBytes with
  | .error error => .error (.io error)
  | .ok name =>
    match lookupPathStr inoLookup backref.dirid item.offset with
    | .error error => .error (.io error)
    | .ok lookup => .ok ⟨item.offset = TreeId.fsTree.toUInt64, lookup, name⟩

/-- What a round reads from the filesystem. -/
def nextAncestor (ioctl : Nat → TreeSearch → Except IoError Unit × TreeSearch)
    (inoLookup : UInt64 → UInt64 → Except IoError Bytes) (call : Nat) (search : TreeSearch) :
    Outcome Ancestor × TreeSearch :=
  match nextBackref ioctl call search with
  | (.error failure, search) => (.error failure, search)
  | (.ok item, search) => (readAncestor inoLookup item, search)

namespace GetPath

variable {S : Type}

/-- The loop in front of its first round. -/
def start (search : S) (memory : Bytes) (sized : memory.length = 128) : GetPath S :=
  ⟨0, search, uninit memory sized, none⟩

/-- A round of the loop, for the part of it that reads what the path goes on with. -/
def turn (next : Nat → S → Outcome Ancestor × S) (loop : GetPath S) : GetPath S :=
  match loop.ended with
  | some _ => loop
  | none =>
    match next loop.calls loop.search with
    | (.error failure, search) => ⟨loop.calls + 1, search, loop.path, some (.error failure)⟩
    | (.ok ancestor, search) =>
      match assemble ancestor loop.path with
      | .error failure => ⟨loop.calls + 1, search, loop.path, some (.error failure)⟩
      | .ok (.inl path) => ⟨loop.calls + 1, search, loop.path, some (.ok path)⟩
      | .ok (.inr path) => ⟨loop.calls + 1, search, path, none⟩

/-- The loop after a number of rounds. -/
def run (next : Nat → S → Outcome Ancestor × S) (rounds : Nat) (loop : GetPath S) : GetPath S :=
  (turn next)^[rounds] loop

end GetPath

/-- `get_path` after a number of rounds. -/
def getPath (ioctl : Nat → TreeSearch → Except IoError Unit × TreeSearch)
    (inoLookup : UInt64 → UInt64 → Except IoError Bytes) (treeid : UInt64) (memory : Bytes)
    (sized : memory.length = 128) (rounds : Nat) : GetPath TreeSearch :=
  (GetPath.start (pathSearch treeid) memory sized).run (nextAncestor ioctl inoLookup) rounds

/-- What a separator joins is its first part, and every other one behind a separator. -/
theorem intercalate_cons {α : Type} (sep first : List α) (rest : List (List α)) :
    List.intercalate sep (first :: rest) = first ++ rest.flatMap (sep ++ ·) := by
  -- The induction is on the other parts.
  induction rest generalizing first with
  | nil => rw [List.intercalate_singleton, List.flatMap_nil, List.append_nil]
  | cons second rest ih =>
    rw [List.intercalate_cons_cons, ih, List.flatMap_cons]
    simp only [List.append_assoc]

namespace Ancestor

/-- The end of a path is made of the parts of its chain, each behind a separator. -/
theorem suffix_eq (chain : List Ancestor) :
    suffix chain = (chain.reverse.map part).flatMap ([separator] ++ ·) := by
  -- The induction is on the chain, whose first subvolume is the last one of the path.
  induction chain with
  | nil => rfl
  | cons ancestor above ih =>
    rw [suffix, ih, List.reverse_cons, List.map_append, List.flatMap_append]
    simp only [List.map_cons, List.map_nil, List.flatMap_singleton]
    rfl

/-- The path of a chain is the part of its outermost subvolume with the end of the path behind it. -/
theorem joined_append (chain : List Ancestor) (top : Ancestor) :
    joined (chain ++ [top]) = top.part ++ suffix chain := by
  -- The chain is read from its outermost end.
  rw [joined, List.reverse_append, List.map_append, suffix_eq]
  exact intercalate_cons [separator] top.part _

end Ancestor

/-- The part of the path lies in front of what was in the buffer. -/
theorem kept_fill (ancestor : Ancestor) (back : Backward UInt8)
    (fits : ancestor.totalLen ≤ back.pos) :
    (fill ancestor back fits).kept = ancestor.part ++ back.kept := by
  have behind : ((back.retreat ancestor.totalLen fits).kept.drop ancestor.lookup.length).drop
      ancestor.name.length = back.kept := by
    rw [List.drop_drop]
    exact back.drop_retreat fits
  -- The name is written behind the lookup path, and what was in use begins behind both.
  rw [fill, Backward.kept_write_behind _ (Backward.kept_write_front _ _), behind, Ancestor.part]

/-- A round returns the path, or it goes on with a separator in front of the path. -/
theorem assemble_cases (ancestor : Ancestor) (back : Backward UInt8) :
    (ancestor.rootvol = true ∧ assemble ancestor back = .ok (.inl (ancestor.part ++ back.kept))) ∨
      (ancestor.rootvol = false ∧ ∃ later, assemble ancestor back = .ok (.inr later) ∧
        later.kept = separator :: (ancestor.part ++ back.kept)) := by
  -- The buffer has grown so far that neither subtraction overflows.
  obtain ⟨_, _, enough, _⟩ := back.grow_eq (ancestor.totalLen + (!ancestor.rootvol).toNat)
  have kept := back.kept_grow (ancestor.totalLen + (!ancestor.rootvol).toNat)
  have fits : ancestor.totalLen ≤ (back.grow (ancestor.totalLen + (!ancestor.rootvol).toNat)).pos :=
    (Nat.le_add_right _ _).trans enough
  have filled := kept_fill ancestor _ fits
  rw [kept] at filled
  rw [assemble]
  simp only [dif_pos fits]
  rcases Bool.eq_false_or_eq_true ancestor.rootvol with rootvol | nested
  · exact Or.inl ⟨rootvol, by rw [if_pos rootvol, filled]⟩
  · -- The room of one byte is left for the separator.
    have left : 1 ≤ (fill ancestor _ fits).pos := by
      show 1 ≤ (back.grow (ancestor.totalLen + (!ancestor.rootvol).toNat)).pos - ancestor.totalLen
      have one : (!ancestor.rootvol).toNat = 1 := by rw [nested]; rfl
      omega
    have ends : ((fill ancestor _ fits).retreat 1 left).pos + 0 + [separator].length ≤
        ((fill ancestor _ fits).retreat 1 left).buf.length :=
      Backward.retreat_ends _ left (Nat.le_refl 1)
    refine Or.inr ⟨nested, ((fill ancestor _ fits).retreat 1 left).write 0 [separator] ends, ?_, ?_⟩
    · rw [if_neg (by rw [nested]; exact Bool.false_ne_true), dif_pos left]
    · rw [Backward.kept_write_front, List.length_singleton, Backward.drop_retreat, filled]
      rfl

/-- Answers one after the other are read in two goes. -/
theorem reads_append {S A : Type} {next : Nat → S → Outcome A × S} {calls : Nat} {state last : S}
    {first second : List A} :
    Reads next calls state (first ++ second) last ↔ ∃ middle, Reads next calls state first middle ∧
      Reads next (calls + first.length) middle second last := by
  -- The induction is on the answers of the first go.
  induction first generalizing calls state with
  | nil =>
    refine ⟨fun reads => ⟨state, rfl, reads⟩, fun ⟨middle, same, reads⟩ => ?_⟩
    cases same
    exact reads
  | cons answer first ih =>
    rw [List.length_cons, Nat.add_comm first.length 1, ← Nat.add_assoc]
    refine ⟨fun ⟨after, called, reads⟩ => ?_, fun ⟨middle, ⟨after, called, reads⟩, later⟩ => ?_⟩
    · obtain ⟨middle, reads, later⟩ := ih.mp reads
      exact ⟨middle, ⟨after, called, reads⟩, later⟩
    · exact ⟨after, called, ih.mpr ⟨middle, reads, later⟩⟩

namespace GetPath

variable {S : Type} {next : Nat → S → Outcome Ancestor × S} {loop : GetPath S}

/-- One round more is a round at the end of the others. -/
theorem run_succ (rounds : Nat) : loop.run next (rounds + 1) = (loop.run next rounds).turn next :=
  Function.iterate_succ_apply' _ _ _

/-- A round that reads a subvolume inside another one puts it in front of the path. -/
theorem turn_nested {ancestor : Ancestor} {after : S} (running : loop.ended = none)
    (called : next loop.calls loop.search = (.ok ancestor, after))
    (nested : ancestor.rootvol = false) :
    ∃ path, loop.turn next = ⟨loop.calls + 1, after, path, none⟩ ∧
      path.kept = separator :: (ancestor.part ++ loop.path.kept) := by
  -- There is a part to put in front, and the loop goes on.
  obtain ⟨rootvol, _⟩ | ⟨_, path, assembled, kept⟩ := assemble_cases ancestor loop.path
  · exact nomatch rootvol.symm.trans nested
  · refine ⟨path, ?_, kept⟩
    rw [turn, running]
    simp only [called, assembled]

/-- A round that reads a subvolume inside the top-level one returns the path. -/
theorem turn_rootvol {ancestor : Ancestor} {after : S} (running : loop.ended = none)
    (called : next loop.calls loop.search = (.ok ancestor, after))
    (rootvol : ancestor.rootvol = true) :
    (loop.turn next).ended = some (.ok (ancestor.part ++ loop.path.kept)) := by
  -- There is a part to put in front, and the loop is over.
  obtain ⟨_, assembled⟩ | ⟨nested, _⟩ := assemble_cases ancestor loop.path
  · rw [turn, running]
    simp only [called, assembled]
  · exact nomatch rootvol.symm.trans nested

/-- A round that reads nothing ends the loop with the reason. -/
theorem turn_fails {failure : Failure} (running : loop.ended = none)
    (called : (next loop.calls loop.search).1 = .error failure) :
    (loop.turn next).ended = some (.error failure) := by
  -- The error is the first thing that is looked at.
  cases answer : next loop.calls loop.search with
  | mk outcome after =>
    rw [answer] at called
    cases called
    rw [turn, running]
    simp only [answer]

/-- Rounds that read subvolumes inside others put them in front of the path, one by one. -/
theorem run_nested (loop : GetPath S) {chain : List Ancestor} {after : S}
    (running : loop.ended = none)
    (reads : Reads next loop.calls loop.search chain after)
    (nested : ∀ ancestor ∈ chain, ancestor.rootvol = false) :
    ∃ path, loop.run next chain.length = ⟨loop.calls + chain.length, after, path, none⟩ ∧
      path.kept = Ancestor.suffix chain ++ loop.path.kept := by
  -- The induction is on the chain, whose first subvolume is read in the first round.
  induction chain generalizing loop with
  | nil =>
    cases reads
    obtain ⟨calls, search, path, ended⟩ := loop
    cases running
    exact ⟨path, rfl, rfl⟩
  | cons ancestor chain ih =>
    obtain ⟨middle, called, reads⟩ := reads
    obtain ⟨first, turned, front⟩ := turn_nested running called (nested ancestor List.mem_cons_self)
    have others : ∀ other ∈ chain, other.rootvol = false :=
      fun other member => nested other (.tail _ member)
    obtain ⟨path, ran, kept⟩ := ih ⟨loop.calls + 1, middle, first, none⟩ rfl reads others
    refine ⟨path, ?_, ?_⟩
    · show (loop.turn next).run next chain.length = _
      rw [turned, ran, List.length_cons, Nat.add_comm chain.length 1, Nat.add_assoc]
    · rw [kept, front, Ancestor.suffix, List.append_assoc]
      rfl

/-- In front of the first round nothing of the buffer is in use. -/
theorem kept_start (search : S) {memory : Bytes} (sized : memory.length = 128) :
    (start search memory sized).path.kept = [] :=
  List.drop_eq_nil_of_le sized.le

/-- Rounds that read a chain up to the top-level subvolume return the path of it. -/
theorem run_joined {search last : S} {memory : Bytes} (sized : memory.length = 128)
    {chain : List Ancestor} {top : Ancestor} (reads : Reads next 0 search (chain ++ [top]) last)
    (nested : ∀ ancestor ∈ chain, ancestor.rootvol = false) (reached : top.rootvol = true) :
    ((start search memory sized).run next (chain.length + 1)).ended =
      some (.ok (Ancestor.joined (chain ++ [top]))) := by
  -- All the rounds but the last one go on, and the last one returns.
  obtain ⟨middle, front, after, called, _⟩ := reads_append.mp reads
  obtain ⟨path, ran, kept⟩ := (start search memory sized).run_nested rfl front nested
  rw [run_succ, ran, turn_rootvol rfl called reached, kept, kept_start, List.append_nil,
    Ancestor.joined_append]

/-- Rounds that read a part of a chain and then nothing more end with the reason for that. -/
theorem run_fails {search last : S} {memory : Bytes} (sized : memory.length = 128)
    {chain : List Ancestor} {failure : Failure} (reads : Reads next 0 search chain last)
    (nested : ∀ ancestor ∈ chain, ancestor.rootvol = false)
    (failed : (next (0 + chain.length) last).1 = .error failure) {rounds : Nat}
    (enough : chain.length < rounds) :
    ((start search memory sized).run next rounds).ended = some (.error failure) := by
  obtain ⟨path, ran, _⟩ := (start search memory sized).run_nested rfl reads nested
  -- The induction is on the rounds behind the one that fails, which change nothing.
  induction rounds, enough using Nat.le_induction with
  | base =>
    rw [run_succ, ran]
    exact turn_fails rfl failed
  | succ rounds _ ih => rw [run_succ, turn, ih, ih]

end GetPath

/--
The path of every chain is put together in the buffer, whatever the lengths of its parts.

In front of every round, the part of the buffer that is in use is the end of the path so far; the
growth of the buffer ends and keeps that part, and no subtraction overflows.
-/
theorem getPath_assembles {S : Type} {next : Nat → S → Outcome Ancestor × S} {search last : S}
    {memory : Bytes} (sized : memory.length = 128) {chain : List Ancestor} {top : Ancestor}
    (reads : Reads next 0 search (chain ++ [top]) last)
    (nested : ∀ ancestor ∈ chain, ancestor.rootvol = false) (reached : top.rootvol = true) :
    let loop := GetPath.start search memory sized
    (loop.run next (chain.length + 1)).ended = some (.ok (Ancestor.joined (chain ++ [top]))) ∧
      ∀ rounds ≤ chain.length,
        (loop.run next rounds).ended = none ∧
        (loop.run next rounds).path.kept = Ancestor.suffix (chain.take rounds) ∧
        ∀ needed, ∃ times,
          (loop.run next rounds).path.grow needed =
            Backward.double^[times] (loop.run next rounds).path ∧
          ((loop.run next rounds).path.grow needed).kept = (loop.run next rounds).path.kept ∧
          needed ≤ ((loop.run next rounds).path.grow needed).pos := by
  intro loop
  refine ⟨GetPath.run_joined sized reads nested reached, fun rounds within => ?_⟩
  -- The rounds so far have read the front of the chain.
  rw [← List.take_append_drop rounds chain, List.append_assoc] at reads
  obtain ⟨_, read, _⟩ := reads_append.mp reads
  obtain ⟨path, ran, kept⟩ := loop.run_nested rfl read
    fun ancestor member => nested ancestor (List.mem_of_mem_take member)
  rw [List.length_take_of_le within] at ran
  rw [GetPath.kept_start, List.append_nil] at kept
  rw [ran]
  refine ⟨rfl, kept, fun needed => ?_⟩
  obtain ⟨times, grown, enough, _⟩ := path.grow_eq needed
  exact ⟨times, grown, path.kept_grow needed, enough⟩

/-- Two subvolumes, of which the inner one lies in a directory. -/
def twoParts (call : Nat) (_state : Unit) : Outcome Ancestor × Unit :=
  (.ok (if call = 0 then ⟨false, [97, 47], [98]⟩ else ⟨true, [], [99]⟩), ())

/-- The path of the two subvolumes is `c/a/b`. -/
theorem getPath_assembles_twoParts :
    ((GetPath.start () (List.replicate 128 0) List.length_replicate).run twoParts 2).ended =
      some (.ok [99, 47, 97, 47, 98]) :=
  (@getPath_assembles _ twoParts () () _ List.length_replicate [⟨false, [97, 47], [98]⟩]
    ⟨true, [], [99]⟩ ⟨(), rfl, (), rfl, rfl⟩ (by decide) rfl).1

end Libbtrfs
