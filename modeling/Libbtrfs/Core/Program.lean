import Mathlib.Logic.Basic

/-! Programs that keep a state and may fail, and the rules for what holds when they end. -/

namespace Libbtrfs

/-- A program over a state: it ends with a value or a failure, and in a state either way. -/
def Program (σ ε α : Type) : Type := σ → Except ε α × σ

namespace Program

variable {σ ε α β : Type}

instance : Monad (Program σ ε) where
  pure value := fun state => (.ok value, state)
  bind program next := fun state =>
    match program state with
    | (.ok value, state) => next value state
    | (.error failure, state) => (.error failure, state)

/-- Ends with a failure. -/
def fail (failure : ε) : Program σ ε α := fun state => (.error failure, state)

/-- Reads the state. -/
def get : Program σ ε σ := fun state => (.ok state, state)

/-- Changes the state. -/
def modify (change : σ → σ) : Program σ ε Unit := fun state => (.ok (), change state)

/-- A program that has failed leaves the rest of a sequence out. -/
theorem bind_error {program : Program σ ε α} {next : α → Program σ ε β} {failure : ε}
    {state after : σ} (ended : program state = (.error failure, after)) :
    (program >>= next) state = (.error failure, after) := by
  -- The failure is handed on as it is.
  simp only [bind, ended]

/-- A program that has ended with a value is followed by the rest of the sequence. -/
theorem bind_ok {program : Program σ ε α} {next : α → Program σ ε β} {value : α}
    {state after : σ} (ended : program state = (.ok value, after)) :
    (program >>= next) state = next value after := by
  -- The rest starts in the state that the first part left.
  simp only [bind, ended]

/-- Returning a value behind a program leaves the state in which that ended. -/
theorem bind_pure_state {program : Program σ ε α} {value : β} {state : σ} :
    ((program >>= fun _ => (pure value : Program σ ε β)) state).2 = (program state).2 := by
  -- Both ways of ending hand the state on.
  rcases ended : program state with ⟨_ | _, after⟩
  · rw [bind_error ended]
  · rw [bind_ok ended]
    rfl

/-- From every state with the first property, a program ends as the other two say. -/
def Triple (before : σ → Prop) (program : Program σ ε α) (returns : α → σ → Prop)
    (fails : ε → σ → Prop) : Prop :=
  ∀ state, before state →
    match program state with
    | (.ok value, after) => returns value after
    | (.error failure, after) => fails failure after

/-- A program keeps a property of the state, however it ends. -/
def Keeps (inv : σ → Prop) (program : Program σ ε α) : Prop :=
  Triple inv program (fun _ => inv) (fun _ => inv)

section Rules

variable {before other : σ → Prop} {program : Program σ ε α} {next : α → Program σ ε β}
  {returns later : α → σ → Prop} {ends : β → σ → Prop} {fails worse : ε → σ → Prop}

/-- The state behind a program that keeps a property has the property. -/
theorem Keeps.after {inv : σ → Prop} (keeps : Keeps inv program) {state : σ} (starts : inv state) :
    inv (program state).2 := by
  -- Both ways of ending say so.
  have result := keeps state starts
  rcases ended : program state with ⟨_ | _, after⟩ <;> rw [ended] at result <;> exact result

/-- A triple may ask for more in front, and promise less behind. -/
theorem Triple.weaken (holds : Triple before program returns fails)
    (starts : ∀ state, other state → before state)
    (less : ∀ value state, returns value state → later value state)
    (failing : ∀ failure state, fails failure state → worse failure state) :
    Triple other program later worse := by
  -- Whichever way the program ends, its own promise is the stronger one.
  intro state inside
  have result := holds state (starts state inside)
  rcases ended : program state with ⟨_ | _, after⟩ <;> rw [ended] at result
  · exact failing _ _ result
  · exact less _ _ result

/-- A value is returned in the state as it is. -/
theorem Triple.pure {value : α} (holds : ∀ state, before state → returns value state) :
    Triple before (Pure.pure value : Program σ ε α) returns fails := fun state inside =>
  holds state inside

/-- A failure leaves the state as it is. -/
theorem Triple.fail {failure : ε} (holds : ∀ state, before state → fails failure state) :
    Triple before (Program.fail failure : Program σ ε α) returns fails := fun state inside =>
  holds state inside

/-- In a sequence, what the first part leaves is where the second part starts. -/
theorem Triple.bind (first : Triple before program returns fails)
    (second : ∀ value, Triple (returns value) (next value) ends fails) :
    Triple before (program >>= next) ends fails := by
  -- A failure of the first part is one of the whole.
  intro state inside
  have result := first state inside
  rcases ended : program state with ⟨_ | value, after⟩ <;> rw [ended] at result
  · rw [bind_error ended]
    exact result
  · rw [bind_ok ended]
    exact second value after result

/-- A choice ends as each of its branches does. -/
theorem Triple.ite {condition : Prop} [Decidable condition] {one two : Program σ ε α}
    (yes : condition → Triple before one returns fails)
    (no : ¬ condition → Triple before two returns fails) :
    Triple before (if condition then one else two) returns fails := by
  -- In each branch the condition is known.
  split
  · exact yes ‹_›
  · exact no ‹_›

/-- A property that does not speak of the state may be used as a fact about the whole run. -/
theorem Triple.and_left {fact : Prop} (holds : fact → Triple before program returns fails) :
    Triple (fun state => fact ∧ before state) program returns fails := fun state inside =>
  holds inside.1 state inside.2

/-- The second part of a sequence starts with the only value that the first part returns. -/
theorem Triple.bind_known {result : α} {after : σ → Prop}
    (first : Triple before program (fun value state => value = result ∧ after state) fails)
    (second : Triple after (next result) ends fails) :
    Triple before (program >>= next) ends fails := by
  -- The value that is returned is put in for the one that is known.
  refine first.bind fun value => Triple.and_left ?_
  rintro rfl
  exact second

end Rules

end Program

end Libbtrfs
