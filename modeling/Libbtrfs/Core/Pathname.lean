import Mathlib.Data.List.Basic
import Mathlib.Data.List.Induction

/-! Names ended by a separator, the way back from them, and lists that part before either ends. -/

namespace Libbtrfs

section Separated

variable {α : Type} (sep : α)

/-- Each of the names, with the separator behind it. -/
def terminated (names : List (List α)) : List α := names.flatMap fun name => name ++ [sep]

@[simp] theorem terminated_nil : terminated sep [] = [] := rfl

@[simp] theorem terminated_append (one other : List (List α)) :
    terminated sep (one ++ other) = terminated sep one ++ terminated sep other :=
  List.flatMap_append

@[simp] theorem terminated_cons (name : List α) (names : List (List α)) :
    terminated sep (name :: names) = name ++ sep :: terminated sep names := by
  -- The names are concatenated with a separator behind each.
  simp [terminated]

/-- What none of the names has is only in their terminated text when it is the separator. -/
theorem not_mem_terminated {names : List (List α)} {letter : α} (other : letter ≠ sep)
    (clean : ∀ name ∈ names, letter ∉ name) : letter ∉ terminated sep names := by
  -- It would be in one of the names, or the separator behind one.
  intro member
  obtain ⟨name, found, inside⟩ := List.mem_flatMap.mp member
  rcases List.mem_append.mp inside with within | behind
  · exact clean name found within
  · exact other (List.mem_singleton.mp behind)

variable {sep}

/-- Splitting at the separators gives the names back, and what comes behind the last of them. -/
theorem splitOn_terminated [DecidableEq α] {names : List (List α)} {last : List α}
    (clean : ∀ name ∈ names, sep ∉ name) (end_clean : sep ∉ last) :
    (terminated sep names ++ last).splitOn sep = names ++ [last] := by
  -- The first separator is the one behind the first name.
  induction names with
  | nil => exact List.splitOn_eq_singleton end_clean
  | cons name rest ih =>
    have others := ih fun other member => clean other (List.mem_cons_of_mem _ member)
    rw [terminated_cons, List.append_assoc, List.cons_append,
      List.splitOn_append_cons_self_of_not_mem (clean name List.mem_cons_self), others,
      List.cons_append]

end Separated

/-- `Iterator::rposition`: the position of the last item that passes. -/
def rposition {α : Type} (passes : α → Bool) (items : List α) : Option Nat :=
  (items.reverse.findIdx? passes).map fun back => items.length - 1 - back

/-- The last item that passes is the one behind which none does. -/
theorem rposition_middle {α : Type} {passes : α → Bool} (front back : List α) {item : α}
    (found : passes item = true) (fails : ∀ other ∈ back, passes other = false) :
    rposition passes (front ++ item :: back) = some front.length := by
  -- From the end, all items behind it are passed over.
  have skipped : (back.reverse ++ item :: front.reverse).findIdx? passes = some back.length := by
    rw [List.findIdx?_append]
    have none_behind : back.reverse.findIdx? passes = none := by
      rw [List.findIdx?_eq_none_iff]
      intro other member
      exact fails other (List.mem_reverse.mp member)
    rw [none_behind, List.findIdx?_cons, if_pos found]
    simp
  have turned : (front ++ item :: back).reverse = back.reverse ++ item :: front.reverse := by simp
  rw [rposition, turned, skipped, Option.map_some, List.length_append, List.length_cons]
  congr 1
  omega

/-- Where no item passes there is no position. -/
theorem rposition_none {α : Type} {passes : α → Bool} {items : List α}
    (fails : ∀ item ∈ items, passes item = false) : rposition passes items = none := by
  -- It is the first position in the list backwards.
  rw [rposition, Option.map_eq_none_iff, List.findIdx?_eq_none_iff]
  intro item member
  exact fails item (List.mem_reverse.mp member)

/-- No item passes, or there is a last one that does. -/
theorem last_cases {α : Type} (passes : α → Bool) (items : List α) :
    (∀ item ∈ items, passes item = false) ∨
      ∃ front item back, items = front ++ item :: back ∧ passes item = true ∧
        ∀ other ∈ back, passes other = false := by
  -- The induction goes on from behind, where an item that passes is the last one.
  induction items using List.reverseRecOn with
  | nil => exact Or.inl fun _ member => absurd member List.not_mem_nil
  | append_singleton items item ih =>
    cases tested : passes item with
    | true =>
      exact Or.inr ⟨items, item, [], rfl, tested, fun _ member => absurd member List.not_mem_nil⟩
    | false =>
      have behind : ∀ others : List α, (∀ other ∈ others, passes other = false) →
          ∀ other ∈ others ++ [item], passes other = false := by
        intro others fail other member
        rcases List.mem_append.mp member with inside | same
        · exact fail other inside
        · rw [List.mem_singleton.mp same]
          exact tested
      rcases ih with none_passes | ⟨front, last, back, split, passed, fail⟩
      · exact Or.inl (behind items none_passes)
      · refine Or.inr ⟨front, last, back ++ [item], ?_, passed, behind back fail⟩
        rw [split, List.append_assoc, List.cons_append]

section Components

variable {α : Type} [DecidableEq α] (sep : α)

/-- What a path has between its separators, where that is not empty. -/
def components (path : List α) : List (List α) := (path.splitOn sep).filter (· ≠ [])

/-- A separator parts the components in front of it from those behind it. -/
@[simp] theorem components_append (front back : List α) :
    components sep (front ++ sep :: back) = components sep front ++ components sep back := by
  -- The list is split at each separator, and what is empty is dropped from both parts.
  rw [components, List.splitOn_append_cons_self, List.filter_append]
  rfl

@[simp] theorem components_nil : components sep [] = [] := rfl

/-- A separator in front of a path does not count. -/
theorem components_cons (path : List α) : components sep (sep :: path) = components sep path :=
  components_append sep [] path

variable {sep}

/-- What has no separator in it is its own only component. -/
theorem components_singleton {name : List α} (clean : sep ∉ name) (named : name ≠ []) :
    components sep name = [name] := by
  -- There is nothing to split at.
  rw [components, List.splitOn_eq_singleton clean]
  simp [named]

/-- Only what is made of separators has no component. -/
theorem components_eq_nil_iff {path : List α} :
    components sep path = [] ↔ ∀ item ∈ path, item = sep := by
  induction path with
  | nil => simp
  | cons item path ih =>
    by_cases same : item = sep
    · rw [same, components_cons, ih]
      simp
    · -- The item belongs to the first component.
      have found : components sep (item :: path) ≠ [] := by
        rw [components, List.splitOn_cons_eq_if_modifyHead, if_neg (by simpa using same)]
        cases split : path.splitOn sep with
        | nil => exact absurd split (List.splitOn_ne_nil sep path)
        | cons first others => simp
      refine ⟨fun nothing => absurd nothing found, fun all => ?_⟩
      exact absurd (all item List.mem_cons_self) same

/-- Separators behind a path do not count. -/
theorem components_trailing (path : List α) {trail : List α} (only : ∀ item ∈ trail, item = sep) :
    components sep (path ++ trail) = components sep path := by
  -- What lies behind the first of them has no components.
  cases trail with
  | nil => rw [List.append_nil]
  | cons item trail =>
    have nothing := components_eq_nil_iff.mpr fun other member => only other (.tail _ member)
    rw [only item List.mem_cons_self, components_append, nothing, List.append_nil]

end Components

section Apart

variable {α : Type} {one other below : List α}

/-- Neither of the lists is in front of the other. -/
def Apart (one other : List α) : Prop := ¬ one <+: other ∧ ¬ other <+: one

/-- Either of two such names may come first. -/
theorem Apart.symm (apart : Apart one other) : Apart other one := ⟨apart.2, apart.1⟩

/-- What continues one of two such lists is apart from the other one too. -/
theorem Apart.continued (apart : Apart one other) (continues : other <+: below) :
    Apart one below := by
  refine ⟨fun inside => ?_, fun inside => apart.2 (continues.trans inside)⟩
  -- Two lists in front of a third one are in front of each other.
  rcases List.prefix_or_prefix_of_prefix inside continues with first | second
  · exact apart.1 first
  · exact apart.2 second

/-- A list that is in front of another one, and not all of it, is in front of its front part. -/
theorem prefix_dropLast (inside : one <+: other) (different : one ≠ other) :
    one <+: other.dropLast := by
  -- What is left behind the front has a last item, which is not part of the front.
  obtain ⟨rest, whole⟩ := inside
  have further : rest ≠ [] := by
    rintro rfl
    exact different (by rw [← whole, List.append_nil])
  rw [← whole, List.dropLast_append_of_ne_nil further]
  exact List.prefix_append _ _

/--
Lists that are continued in the same finitely many ways from one front as from another share it.

A longer front on one side would make the continuations ever shorter, or ever longer.
-/
theorem same_front {one other : List α} {middle : α} {Continues : List α → Prop} {bound : Nat}
    (short : ∀ rest, Continues rest → rest.length ≤ bound) {start : List α}
    (starts : Continues start)
    (moved : ∀ rest, Continues rest → ∃ further, Continues further ∧
      other ++ middle :: rest = one ++ middle :: further) : one = other := by
  -- The length of a continuation changes by the difference of the fronts.
  rcases Nat.lt_trichotomy one.length other.length with shorter | same | longer
  · -- The continuations get longer each time.
    have grows : ∀ steps, ∃ rest, Continues rest ∧ steps ≤ rest.length := by
      intro steps
      induction steps with
      | zero => exact ⟨start, starts, Nat.zero_le _⟩
      | succ steps ih =>
        obtain ⟨rest, continues, long⟩ := ih
        obtain ⟨further, also, equal⟩ := moved rest continues
        have lengths := congrArg List.length equal
        simp only [List.length_append, List.length_cons] at lengths
        exact ⟨further, also, by omega⟩
    obtain ⟨rest, continues, long⟩ := grows (bound + 1)
    have := short rest continues
    omega
  · obtain ⟨further, _, equal⟩ := moved start starts
    exact (List.append_inj_left equal same.symm).symm
  · -- They get shorter each time.
    have shrinks : ∀ steps, ∃ rest, Continues rest ∧ rest.length + steps ≤ start.length := by
      intro steps
      induction steps with
      | zero => exact ⟨start, starts, Nat.le_refl _⟩
      | succ steps ih =>
        obtain ⟨rest, continues, left⟩ := ih
        obtain ⟨further, also, equal⟩ := moved rest continues
        have lengths := congrArg List.length equal
        simp only [List.length_append, List.length_cons] at lengths
        exact ⟨further, also, by omega⟩
    obtain ⟨rest, _, left⟩ := shrinks (start.length + 1)
    omega

end Apart

end Libbtrfs
