import Libbtrfs.Subvol.Destroy
import Libbtrfs.Subvol.VolName

/-! The parent and the name that a path is split into, which together address what the path does. -/

namespace Libbtrfs

/-- A path with one component, which is taken from the current directory. -/
def Single (path : Bytes) : Prop :=
  ¬ Absolute path ∧ (components separator path).length = 1

instance (path : Bytes) : Decidable (Single path) :=
  inferInstanceAs (Decidable (¬ Absolute path ∧ (components separator path).length = 1))

/-- The name in the directory is where the path leads to. -/
structure Addresses (path dir base : Bytes) : Prop where
  named : base ≠ []
  plain : separator ∉ base
  absolute : Absolute dir ↔ Absolute path
  single : Single path → dir = curDir
  components : components separator path =
    (if Single path then [] else components separator dir) ++ [base]

/-- No byte of a plain name passes for a separator. -/
theorem not_separator {base : Bytes} (plain : separator ∉ base) :
    ∀ byte ∈ base, decide (byte = separator) = false := by
  -- It would be a separator in the name.
  intro byte member
  have other : byte ≠ separator := fun same => plain (same ▸ member)
  simpa using other

/-- A name stays plain when another byte that is no separator is put behind it. -/
theorem plain_concat {front : Bytes} {last : UInt8} (plain : ∀ byte ∈ front, byte ≠ separator)
    (ends : last ≠ separator) : separator ∉ front ++ [last] := by
  -- The byte is one of those before, or the last one.
  intro member
  rcases List.mem_append.mp member with inside | again
  · exact plain separator inside rfl
  · exact ends (List.mem_singleton.mp again).symm

/-- Where a name ends is found whatever separators are behind it. -/
theorem rposition_name {base trail : Bytes} (front : Bytes) (named : base ≠ [])
    (plain : separator ∉ base) (only : ∀ byte ∈ trail, byte = separator) :
    ∃ p, rposition (· ≠ separator) (front ++ base ++ trail) = some p ∧
      (front ++ base ++ trail).take (p + 1) = front ++ base := by
  have ends : base.getLast named ≠ separator :=
    fun same => plain (same ▸ List.getLast_mem named)
  have split : front ++ base ++ trail = front ++ base.dropLast ++ base.getLast named :: trail := by
    have whole := List.dropLast_append_getLast named
    calc front ++ base ++ trail
        = front ++ (base.dropLast ++ [base.getLast named]) ++ trail := by rw [whole]
      _ = _ := by simp only [List.append_assoc, List.singleton_append]
  refine ⟨(front ++ base.dropLast).length, ?_, ?_⟩
  · rw [split]
    exact rposition_middle _ trail (by simpa using ends)
      fun byte member => by simpa using only byte member
  · -- The last byte of the name is the one at that position.
    have positive := List.length_pos_iff.mpr named
    apply List.take_left'
    simp only [List.length_append, List.length_dropLast]
    omega

/-- A name without a separator is taken from the current directory. -/
theorem parseParentAndName_single {base trail : Bytes} (named : base ≠ [])
    (plain : separator ∉ base) (only : ∀ byte ∈ trail, byte = separator) :
    parseParentAndName (base ++ trail) = (curDir, base) := by
  obtain ⟨p, found, taken⟩ := rposition_name [] named plain only
  rw [List.nil_append] at found taken
  -- The second scan finds no separator.
  have missing : rposition (· = separator) base = none := rposition_none (not_separator plain)
  simp only [parseParentAndName, found, taken, missing]

/-- A name behind a separator is taken from what is in front of that, or from the root. -/
theorem parseParentAndName_below {front base trail : Bytes} (named : base ≠ [])
    (plain : separator ∉ base) (only : ∀ byte ∈ trail, byte = separator) :
    parseParentAndName (front ++ separator :: base ++ trail) =
      (if front = [] then [separator] else front, base) := by
  have joined : front ++ separator :: base = front ++ [separator] ++ base := by
    rw [List.append_assoc, List.singleton_append]
  obtain ⟨p, found, taken⟩ := rposition_name (front ++ [separator]) named plain only
  rw [← joined] at found taken
  have last : rposition (· = separator) (front ++ separator :: base) = some front.length :=
    rposition_middle front base (by simp) (not_separator plain)
  -- What is behind the last separator is the name.
  have behind : (front ++ separator :: base).drop (front.length + 1) = base := by
    rw [joined]
    exact List.drop_left' (by simp)
  have before : (front ++ separator :: base).take front.length = front := List.take_left
  simp only [parseParentAndName, found, taken, last, behind, before, List.length_eq_zero_iff]

/-- A path with something other than separators in it ends in a name, with or without a parent. -/
theorem path_cases {path : Bytes} (something : ∃ byte ∈ path, byte ≠ separator) :
    ∃ base trail, base ≠ [] ∧ separator ∉ base ∧ (∀ byte ∈ trail, byte = separator) ∧
      (path = base ++ trail ∨ ∃ front, path = front ++ separator :: base ++ trail) := by
  rcases last_cases (· ≠ separator) path with none_other | ⟨front, last, trail, split, ends, only⟩
  · obtain ⟨byte, member, other⟩ := something
    have same := none_other byte member
    simp [other] at same
  · simp only [ne_eq, decide_eq_true_eq, decide_eq_false_iff_not, not_not] at ends only
    -- The name ends with the last other byte, and starts behind the separator in front of that.
    rcases last_cases (· = separator) front with plain | ⟨dir, middle, base, parts, same, plain⟩
    · simp only [decide_eq_false_iff_not] at plain
      exact ⟨front ++ [last], trail, by simp, plain_concat plain ends, only,
        Or.inl (by simp [split])⟩
    · simp only [decide_eq_true_eq, decide_eq_false_iff_not] at same plain
      exact ⟨base ++ [last], trail, by simp, plain_concat plain ends, only,
        Or.inr ⟨dir, by simp [split, parts, same]⟩⟩

/-- The first byte of a path that does not start with a separator is not one. -/
theorem not_absolute_append {base : Bytes} (named : base ≠ []) (plain : separator ∉ base)
    (back : Bytes) : ¬ Absolute (base ++ back) := by
  -- Its first byte is that of the name.
  obtain ⟨first, rest, rfl⟩ := List.exists_cons_of_ne_nil named
  intro starts
  rw [Absolute, List.cons_append, List.head?_cons, Option.some_inj] at starts
  exact plain (starts ▸ List.mem_cons_self)

/-- Whatever separators a path has, its parent and its name address what it does. -/
theorem parseParentAndName_addresses {path : Bytes}
    (something : ∃ byte ∈ path, byte ≠ separator) :
    Addresses path (parseParentAndName path).1 (parseParentAndName path).2 := by
  obtain ⟨base, trail, named, plain, only, alone | ⟨front, below⟩⟩ := path_cases something
  · subst alone
    rw [parseParentAndName_single named plain only]
    have relative := not_absolute_append named plain trail
    have parts : components separator (base ++ trail) = [base] := by
      rw [components_trailing base only, components_singleton plain named]
    have single : Single (base ++ trail) := ⟨relative, by rw [parts, List.length_singleton]⟩
    refine ⟨named, plain, ?_, fun _ => rfl, ?_⟩
    · have current : ¬ Absolute curDir := by decide
      exact ⟨fun impossible => absurd impossible current, fun other => absurd other relative⟩
    · rw [if_pos single, parts, List.nil_append]
  · subst below
    rw [parseParentAndName_below named plain only]
    have parts : components separator (front ++ separator :: base ++ trail) =
        components separator front ++ [base] := by
      rw [components_trailing _ only, components_append, components_singleton plain named]
    cases front with
    | nil =>
      -- The parent is the root, which has no component of its own.
      have absolute : Absolute ([] ++ separator :: base ++ trail) := rfl
      have many : ¬ Single ([] ++ separator :: base ++ trail) := fun single => single.1 absolute
      refine ⟨named, plain, ⟨fun _ => absolute, fun _ => rfl⟩, fun single => absurd single many, ?_⟩
      rw [if_neg many, parts, if_pos rfl]
      rfl
    | cons first rest =>
      have same : Absolute (first :: rest) ↔
          Absolute (first :: rest ++ separator :: base ++ trail) := Iff.rfl
      have many : ¬ Single (first :: rest ++ separator :: base ++ trail) := by
        intro single
        have counted := single.2
        rw [parts, List.length_append, List.length_singleton] at counted
        have nothing := List.length_eq_zero_iff.mp (Nat.succ.inj counted)
        -- A parent without components would start with a separator.
        have starts := components_eq_nil_iff.mp nothing first List.mem_cons_self
        exact single.1 (by rw [starts]; rfl)
      rw [if_neg (List.cons_ne_nil first rest)]
      refine ⟨named, plain, same, fun single => absurd single many, ?_⟩
      rw [if_neg many, parts]

/-- A path of separators alone has no name. -/
theorem parseParentAndName_separators {path : Bytes} (only : ∀ byte ∈ path, byte = separator) :
    (parseParentAndName path).2 = [] := by
  have whole : rposition (· ≠ separator) path = none :=
    rposition_none fun byte member => by simpa using only byte member
  rcases List.eq_nil_or_concat path with empty | ⟨front, last, split⟩
  · rw [empty]
    rfl
  · have found : rposition (· = separator) path = some front.length := by
      rw [split, List.concat_eq_append]
      apply rposition_middle front [] _ fun _ member => absurd member List.not_mem_nil
      simpa using only last (by simp [split])
    -- The last separator is the last byte, and nothing is behind it.
    simp only [parseParentAndName, whole, found]
    rw [split, List.concat_eq_append]
    simp

/--
A path is addressed by its parent and its name, and a name is passed whole or not at all.

The paths have any number of separators anywhere, and the array for the name has any size.
-/
theorem parent_and_name (path : Bytes) :
    ((∃ byte ∈ path, byte ≠ separator) →
      Addresses path (parseParentAndName path).1 (parseParentAndName path).2) ∧
    ((∀ byte ∈ path, byte = separator) → (parseParentAndName path).2 = []) ∧
    ∀ (size : Nat) (name : Bytes),
      ((CArray.setVolName name (.zeroed size)).1 = .ok () ↔ 0 ∉ name ∧ name.length < size) ∧
      ((CArray.setVolName name (.zeroed size)).1 = .ok () →
        fromPtr (CArray.setVolName name (.zeroed size)).2.bytes = name) ∧
      ((CArray.setVolName name (.zeroed size)).1 ≠ .ok () →
        CArray.setVolName name (.zeroed size) = (.error (.kind .invalidInput), .zeroed size)) :=
  ⟨parseParentAndName_addresses, parseParentAndName_separators, CArray.setVolName_zeroed⟩

/-- A path with doubled separators, one of separators only, and two names for an array of two bytes.
-/
theorem parent_and_name_doubled :
    Addresses [47, 97, 47, 47, 98, 47] [47, 97, 47] [98] ∧ (parseParentAndName [47, 47]).2 = [] ∧
      fromPtr (CArray.setVolName [98] (.zeroed 2)).2.bytes = [98] ∧
      CArray.setVolName [98, 99] (.zeroed 2) = (.error (.kind .invalidInput), .zeroed 2) :=
  ⟨(parent_and_name [47, 97, 47, 47, 98, 47]).1 ⟨97, by decide, by decide⟩,
    (parent_and_name [47, 47]).2.1 (by simp [separator]),
    ((parent_and_name []).2.2 2 [98]).2.1
      (((parent_and_name []).2.2 2 [98]).1.mpr ⟨by decide, by decide⟩),
    ((parent_and_name []).2.2 2 [98, 99]).2.2 fun passed =>
      absurd (((parent_and_name []).2.2 2 [98, 99]).1.mp passed).2 (by decide)⟩

end Libbtrfs
