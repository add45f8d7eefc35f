import Mathlib.Logic.Function.Iterate

/-! A loop as rounds on its state, the last of which says how it has ended. -/

namespace Libbtrfs.Rounds

section Rounds

variable {State Out : Type} {turn : State → State} {ended : State → Option Out} {state : State}

/-- A loop ends when every round that goes on lowers the same measure. -/
theorem ends (Inv : State → Prop) (measure : State → Nat)
    (keeps : ∀ state, Inv state → Inv (turn state))
    (lowers : ∀ state, Inv state → ended (turn state) = none →
      measure (turn state) < measure state)
    (holds : Inv state) : ∃ rounds outcome, ended (turn^[rounds] state) = some outcome := by
  by_contra never
  have running : ∀ rounds, ended (turn^[rounds] state) = none := by
    intro rounds
    cases last : ended (turn^[rounds] state) with
    | none => rfl
    | some outcome => exact absurd ⟨rounds, outcome, last⟩ never
  -- The measure would have fallen by one in every round.
  have spent : ∀ rounds, measure (turn^[rounds] state) + rounds ≤ measure state := by
    intro rounds
    induction rounds with
    | zero => exact Nat.le_refl _
    | succ rounds ih =>
      have next := running (rounds + 1)
      rw [Function.iterate_succ_apply'] at next ⊢
      have lower := lowers _ (Function.Iterate.rec Inv holds keeps rounds) next
      omega
  have beyond := spent (measure state + 1)
  omega

/-- A loop that stays as it is when it has ended ends in one way only. -/
theorem unique (stays : ∀ state outcome, ended state = some outcome → turn state = state)
    {rounds others : Nat} {outcome other : Out}
    (one : ended (turn^[rounds] state) = some outcome)
    (another : ended (turn^[others] state) = some other) : outcome = other := by
  -- The rounds behind the one that ended the loop change nothing.
  have later : ∀ {few many : Nat} {last : Out}, few ≤ many →
      ended (turn^[few] state) = some last → ended (turn^[many] state) = some last := by
    intro few many last more done
    obtain ⟨extra, rfl⟩ := Nat.exists_eq_add_of_le' more
    rw [Function.iterate_add_apply, Function.iterate_fixed (stays _ _ done) extra]
    exact done
  have first := later (Nat.le_max_left rounds others) one
  have second := later (Nat.le_max_right rounds others) another
  exact Option.some.inj (first.symm.trans second)

end Rounds

end Libbtrfs.Rounds
