import Mathlib.Data.List.Induction

/-! Chains of calls that set parts of a state, where the last call that names a part counts. -/

namespace Libbtrfs

section Settings

variable {σ γ α : Type}

/-- A state after the calls of a chain, in their order. -/
def applied (apply : γ → σ → σ) (state : σ) (calls : List γ) : σ :=
  calls.foldl (fun state call => apply call state) state

/-- What is told by the last call that tells something. -/
def lastTold (tells : γ → Option α) (calls : List γ) : Option α := (calls.filterMap tells).getLast?

/-- Each call sets a part of the state to what it tells of it, or leaves the part as it is. -/
def Sets (apply : γ → σ → σ) (get : σ → α) (tells : γ → Option α) : Prop :=
  ∀ call state, get (apply call state) = (tells call).getD (get state)

variable {apply : γ → σ → σ} {get : σ → α} {tells : γ → Option α}

/-- A call at the end of a chain is applied to the state that the others have made. -/
theorem applied_concat (state : σ) (calls : List γ) (call : γ) :
    applied apply state (calls ++ [call]) = apply call (applied apply state calls) := by
  -- The fold over the chain ends with that call.
  rw [applied, List.foldl_append]
  rfl

/-- A call at the end of a chain has the last word, if it tells something. -/
theorem lastTold_concat (calls : List γ) (call : γ) :
    lastTold tells (calls ++ [call]) = (tells call).or (lastTold tells calls) := by
  -- What the call tells stands behind what the others have told.
  rw [lastTold, lastTold, List.filterMap_append, List.getLast?_append]
  cases told : tells call with
  | none => simp [told]
  | some value => simp [told]

/-- Behind a chain, a part of the state is what was last told of it, or what it was in front. -/
theorem Sets.applied (sets : Sets apply get tells) (state : σ) (calls : List γ) :
    get (applied apply state calls) = (lastTold tells calls).getD (get state) := by
  -- The induction is on the chain from its end, where the last word is.
  induction calls using List.reverseRecOn with
  | nil => rfl
  | append_singleton calls call ih =>
    rw [applied_concat, sets, ih, lastTold_concat]
    cases tells call with
    | none => rfl
    | some value => rfl

end Settings

end Libbtrfs
