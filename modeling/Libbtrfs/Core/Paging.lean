import Mathlib.Order.Lattice
import Mathlib.Data.List.Nodup

/-! Reading an ascending selection page by page, where each page says from which key the next goes on. -/

namespace Libbtrfs

section Paging

variable {α κ : Type} [LinearOrder κ] (key : α → κ)

/-- Items in ascending order of their keys, none of which occurs twice. -/
def Ascending (items : List α) : Prop :=
  items.Pairwise fun first second => key first < key second

/-- The items whose keys lie between two bounds, both of which are included. -/
def between (low high : κ) (items : List α) : List α :=
  items.filter fun item => low ≤ key item ∧ key item ≤ high

variable {key} {low next high : κ} {items front rest : List α} {item last : α}

/-- What lies between two bounds is in the list, and in its key inside them. -/
theorem mem_between :
    item ∈ between key low high items ↔ item ∈ items ∧ low ≤ key item ∧ key item ≤ high := by
  -- It is what the filter keeps.
  simp [between]

/-- When all items lie between two bounds, all of them are selected. -/
theorem between_all (inside : ∀ item ∈ items, low ≤ key item ∧ key item ≤ high) :
    between key low high items = items := by
  -- The filter drops nothing.
  rw [between, List.filter_eq_self]
  exact fun item member => decide_eq_true (inside item member)

/-- A selection of ascending items ascends. -/
theorem Ascending.between (ascending : Ascending key items) :
    Ascending key (between key low high items) :=
  -- The selection leaves items out and keeps the order of the others.
  List.Pairwise.sublist List.filter_sublist ascending

/-- In an ascending list no two items have the same key. -/
theorem Ascending.injective (ascending : Ascending key items) {one other : α} (first : one ∈ items)
    (second : other ∈ items) (same : key one = key other) : one = other := by
  -- Ascending keys are different, so a key has one place in the list.
  have distinct : (items.map key).Nodup :=
    List.pairwise_map.mpr (ascending.imp fun below => below.ne)
  exact List.inj_on_of_nodup_map distinct first second same

/-- In an ascending list every item stands in front of exactly the items above it. -/
theorem Ascending.above (ascending : Ascending key (front ++ last :: rest)) :
    (front ++ last :: rest).filter (fun item => key last < key item) = rest := by
  -- What stands in front is below the item, and what stands behind it is above.
  obtain ⟨_, behind, across⟩ := List.pairwise_append.mp ascending
  have above := (List.pairwise_cons.mp behind).1
  have nothing : front.filter (fun item => key last < key item) = [] := by
    rw [List.filter_eq_nil_iff]
    intro item member
    have below := across item member last List.mem_cons_self
    simpa using below.le
  have everything : rest.filter (fun item => key last < key item) = rest := by
    rw [List.filter_eq_self]
    intro item member
    simpa using above item member
  simp [List.filter_append, nothing, everything]

/-- In an ascending list the item that no other one is below stands at the front. -/
theorem Ascending.first (ascending : Ascending key items) (inside : item ∈ items)
    (least : ∀ other ∈ items, key item ≤ key other) : ∃ rest, items = item :: rest := by
  cases items with
  | nil => exact nomatch inside
  | cons head rest =>
    refine ⟨rest, ?_⟩
    rcases List.mem_cons.mp inside with rfl | behind
    · rfl
    · -- The head would be below the item, which is below none.
      have below := (List.pairwise_cons.mp ascending).1 item behind
      exact absurd below (least head List.mem_cons_self).not_gt

/-- A raised lower bound leaves out the items below it and nothing else. -/
theorem between_raise (raised : ∀ item ∈ items, next ≤ key item → low ≤ key item) :
    between key next high items =
      (between key low high items).filter fun item => next ≤ key item := by
  -- Whatever reaches the raised bound has passed the lower one.
  rw [between, between, List.filter_filter]
  apply List.filter_congr
  intro item member
  have passed := raised item member
  by_cases reached : next ≤ key item
  · simp [reached, passed reached]
  · simp [reached]

/-- A bound above the last item of a page selects, of what is behind the page, what reaches it. -/
theorem between_page (ascending : Ascending key items)
    (selected : between key low high items = front ++ last :: rest) (above : key last < next) :
    between key next high items = rest.filter fun item => next ≤ key item := by
  have inside : last ∈ between key low high items := by
    rw [selected]
    exact List.mem_append_right _ List.mem_cons_self
  have reached := (mem_between.mp inside).2.1
  rw [between_raise fun item _ passed => (reached.trans above.le).trans passed]
  -- An item that reaches the bound is above the last one, and so it stands behind it.
  have ordered : Ascending key (front ++ last :: rest) := selected ▸ ascending.between
  have behind : (front ++ last :: rest).filter (fun item => next ≤ key item) =
      ((front ++ last :: rest).filter (fun item => key last < key item)).filter
        (fun item => next ≤ key item) := by
    rw [List.filter_filter]
    apply List.filter_congr
    intro item _
    by_cases passed : next ≤ key item
    · simp [passed, above.trans_le passed]
    · simp [passed]
  rw [selected, behind, ordered.above]

/-- A bound that exactly the items above the last one reach goes on right behind the page. -/
theorem between_resume (ascending : Ascending key items)
    (selected : between key low high items = front ++ last :: rest) (above : key last < next)
    (resumes : ∀ item ∈ items, key last < key item → next ≤ key item) :
    between key next high items = rest := by
  rw [between_page ascending selected above, List.filter_eq_self]
  have ordered : Ascending key (front ++ last :: rest) := selected ▸ ascending.between
  intro item member
  -- What stands behind the last item is above it.
  have chosen : item ∈ between key low high items := by
    rw [selected]
    exact List.mem_append_right _ (List.mem_cons_of_mem _ member)
  have higher := (List.pairwise_cons.mp (List.pairwise_append.mp ordered).2.1).1 item member
  simpa using resumes item (mem_between.mp chosen).1 higher

end Paging

end Libbtrfs
