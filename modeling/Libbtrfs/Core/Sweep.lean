import Libbtrfs.Core.Paging
import Mathlib.Order.Monotone.Defs

/-! Reading an ascending list page by page from a low key on, while the list changes between the pages. -/

namespace Libbtrfs

section Sweep

variable {α κ : Type} [LinearOrder κ]

/--
What was read of a changing list below some key, in as many pages as were counted.

For each key there is one page that decides whether its item was read, and no earlier one for a
greater key.
-/
structure Sweep (key : α → κ) (lists : Nat → List α) (bottom high low : κ) (count : Nat)
    (decides : κ → Nat) (seen : List α) : Prop where
  started : bottom ≤ low
  ascending : Ascending key seen
  monotone : Monotone decides
  ahead : ∀ place, low ≤ place → decides place = count
  exact : ∀ item, item ∈ seen ↔ bottom ≤ key item ∧ key item < low ∧ key item ≤ high ∧
    item ∈ lists (decides (key item))

namespace Sweep

variable {key : α → κ} {lists : Nat → List α} {bottom high low next : κ} {count : Nat}
  {decides : κ → Nat} {seen front rest : List α} {last : α}

/-- Nothing was read in front of the first page. -/
theorem start (key : α → κ) (lists : Nat → List α) (bottom high : κ) :
    Sweep key lists bottom high bottom 0 (fun _ => 0) [] where
  started := le_refl bottom
  ascending := List.Pairwise.nil
  monotone := monotone_const
  ahead _ _ := rfl
  exact item := by
    -- Every item lies behind the place that was reached, and none was read.
    refine ⟨fun none => (List.not_mem_nil none).elim, fun ⟨reached, below, _⟩ => ?_⟩
    exact absurd below reached.not_gt

/-- The page that decides a key is one of those that were counted, or the next one. -/
theorem decides_le (sweep : Sweep key lists bottom high low count decides seen) (place : κ) :
    decides place ≤ count := by
  -- Below the lowest key ahead it is no later page than there.
  rcases le_total low place with ahead | behind
  · exact (sweep.ahead place ahead).le
  · exact (sweep.monotone behind).trans (sweep.ahead low (le_refl low)).le

/-- What was read is below what a page holds. -/
theorem seen_lt (sweep : Sweep key lists bottom high low count decides seen) {one other : α}
    (first : one ∈ seen) (second : low ≤ key other) : key one < key other :=
  ((sweep.exact one).mp first).2.1.trans_le second

/-- A page up to its last item is read, and the sweep goes on from the key behind that. -/
theorem page (sweep : Sweep key lists bottom high low count decides seen)
    (ascending : Ascending key (lists count))
    (selected : between key low high (lists count) = front ++ last :: rest)
    (above : key last < next) (resumes : ∀ item, key last < key item → next ≤ key item) :
    Sweep key lists bottom high next (count + 1)
      (fun place => if place < next then decides place else count + 1)
      (seen ++ (front ++ [last])) := by
  have ordered : Ascending key (front ++ last :: rest) := selected ▸ ascending.between
  have inside : ∀ item, item ∈ front ++ last :: rest ↔
      item ∈ lists count ∧ low ≤ key item ∧ key item ≤ high := by
    intro item
    rw [← selected]
    exact mem_between
  have reached : low ≤ key last := ((inside last).mp (by simp)).2.1
  -- Of what a page could hold, it holds what is below the key that the sweep goes on from.
  have held : ∀ item, item ∈ front ++ [last] ↔
      item ∈ lists count ∧ low ≤ key item ∧ key item ≤ high ∧ key item < next := by
    intro item
    obtain ⟨_, behind, across⟩ := List.pairwise_append.mp ordered
    constructor
    · intro member
      have whole : item ∈ front ++ last :: rest := by
        simp only [List.mem_append, List.mem_cons, List.not_mem_nil, or_false] at member ⊢
        tauto
      obtain ⟨listed, reached, within⟩ := (inside item).mp whole
      refine ⟨listed, reached, within, ?_⟩
      rcases List.mem_append.mp member with before | final
      · exact (across item before last List.mem_cons_self).trans above
      · rwa [List.mem_singleton.mp final]
    · rintro ⟨listed, reached, within, below⟩
      have whole := (inside item).mpr ⟨listed, reached, within⟩
      rcases List.mem_append.mp whole with before | tail
      · exact List.mem_append_left _ before
      · rcases List.mem_cons.mp tail with rfl | later
        · exact List.mem_append_right _ List.mem_cons_self
        · have higher := (List.pairwise_cons.mp behind).1 item later
          exact absurd (resumes item higher) below.not_ge
  refine ⟨sweep.started.trans (reached.trans above.le), ?_, ?_, fun place ahead => ?_,
    fun item => ?_⟩
  · -- The page is in order, and above all that was read before it.
    refine List.pairwise_append.mpr ⟨sweep.ascending, ?_, ?_⟩
    · refine List.Pairwise.sublist ?_ ordered
      exact List.Sublist.append_left (List.cons_sublist_cons.mpr (List.nil_sublist rest)) front
    · intro one first other second
      exact sweep.seen_lt first ((held other).mp second).2.1
  · -- From the new key on the next page decides, and no page comes behind that.
    intro one other order
    dsimp only
    rcases lt_or_ge other next with below | ahead
    · rw [if_pos below, if_pos (order.trans_lt below)]
      exact sweep.monotone order
    · rw [if_neg ahead.not_gt]
      split
      · exact (sweep.decides_le one).trans (Nat.le_succ count)
      · exact le_refl _
  · exact if_neg ahead.not_gt
  · rw [List.mem_append, sweep.exact, held]
    constructor
    · rintro (⟨least, before, most, listed⟩ | ⟨listed, ahead, most, below⟩)
      · have below := before.trans_le (reached.trans above.le)
        exact ⟨least, below, most, by rwa [if_pos below]⟩
      · refine ⟨sweep.started.trans ahead, below, most, ?_⟩
        rwa [if_pos below, sweep.ahead _ ahead]
    · rintro ⟨least, below, most, listed⟩
      rw [if_pos below] at listed
      rcases lt_or_ge (key item) low with before | ahead
      · exact .inl ⟨least, before, most, listed⟩
      · exact .inr ⟨sweep.ahead _ ahead ▸ listed, ahead, most, below⟩

/-- When a page selects nothing, all keys of the range have been decided. -/
theorem finish (sweep : Sweep key lists bottom high low count decides seen)
    (nothing : between key low high (lists count) = []) (item : α) :
    item ∈ seen ↔ bottom ≤ key item ∧ key item ≤ high ∧ item ∈ lists (decides (key item)) := by
  rw [sweep.exact]
  refine ⟨fun ⟨reached, _, within, listed⟩ => ⟨reached, within, listed⟩,
    fun ⟨reached, within, listed⟩ => ⟨reached, ?_, within, listed⟩⟩
  -- An item ahead would be in the list that nothing was selected from.
  by_contra behind
  have ahead := not_lt.mp behind
  rw [sweep.ahead _ ahead] at listed
  have chosen : item ∈ between key low high (lists count) := mem_between.mpr ⟨listed, ahead, within⟩
  rw [nothing] at chosen
  exact List.not_mem_nil chosen

end Sweep

end Sweep

end Libbtrfs
