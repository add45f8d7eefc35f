import Libbtrfs.Core.Bytes

/-! Processes that share one state, run by every schedule that decides who moves next. -/

namespace Libbtrfs

/-- A set of actors over one shared state, each with the one step it can take next. -/
structure System (Actor State : Type) where
  step : Actor → State → Option State

namespace System

variable {Actor State : Type} (system : System Actor State)

/-- The state after one turn, which an actor that cannot move leaves as it was. -/
def turn (actor : Actor) (state : State) : State :=
  (system.step actor state).getD state

/-- The state after a whole schedule of turns. -/
def run : List Actor → State → State
  | [], state => state
  | actor :: rest, state => run rest (system.turn actor state)

/-- No step of the schedule is one of the given kind. -/
def Avoids (Bad : Actor → State → Prop) : List Actor → State → Prop
  | [], _ => True
  | actor :: rest, state => ¬ Bad actor state ∧ Avoids Bad rest (system.turn actor state)

/-- A schedule run in two parts is the second part run from where the first one ended. -/
theorem run_append (first second : List Actor) (state : State) :
    system.run (first ++ second) state = system.run second (system.run first state) := by
  -- The first part is consumed turn by turn, and each turn is the same on both sides.
  induction first generalizing state with
  | nil => rfl
  | cons actor rest ih => exact ih (system.turn actor state)

/-- A turn keeps whatever the steps of the actors keep. -/
theorem turn_invariant {Inv : State → Prop} {actor : Actor} {state : State} (holds : Inv state)
    (keeps : ∀ after, system.step actor state = some after → Inv after) :
    Inv (system.turn actor state) := by
  -- An actor that cannot move leaves a state that already satisfies the invariant.
  unfold turn
  cases moved : system.step actor state with
  | none => exact holds
  | some after => exact keeps after moved

/-- What every step keeps holds after every schedule. -/
theorem run_invariant {Inv : State → Prop}
    (keeps : ∀ actor state after, Inv state → system.step actor state = some after → Inv after)
    (schedule : List Actor) {state : State} (holds : Inv state) :
    Inv (system.run schedule state) := by
  -- One turn at a time, with the invariant carried to the state the rest starts from.
  induction schedule generalizing state with
  | nil => exact holds
  | cons actor rest ih =>
    exact ih (system.turn_invariant holds fun after => keeps actor state after holds)

/-- What every step outside the excluded kind keeps holds after a schedule without such steps. -/
theorem run_invariant_avoiding {Inv : State → Prop} {Bad : Actor → State → Prop}
    (keeps : ∀ actor state after, Inv state → ¬ Bad actor state →
      system.step actor state = some after → Inv after)
    (schedule : List Actor) {state : State} (holds : Inv state)
    (avoids : system.Avoids Bad schedule state) : Inv (system.run schedule state) := by
  -- The schedule supplies, turn by turn, that the step about to be taken is a permitted one.
  induction schedule generalizing state with
  | nil => exact holds
  | cons actor rest ih =>
    exact ih (system.turn_invariant holds fun after => keeps actor state after holds avoids.1)
      avoids.2

/-- A schedule with an excluded step reaches a state from which that step is taken. -/
theorem hits_of_not_avoids {Bad : Actor → State → Prop} {schedule : List Actor} {state : State}
    (hit : ¬ system.Avoids Bad schedule state) :
    ∃ before actor after, schedule = before ++ actor :: after ∧
      Bad actor (system.run before state) := by
  -- The first turn is the excluded one, or the rest of the schedule holds it.
  induction schedule generalizing state with
  | nil => exact absurd trivial hit
  | cons actor rest ih =>
    by_cases bad : Bad actor state
    · exact ⟨[], actor, rest, rfl, bad⟩
    · have later : ¬ system.Avoids Bad rest (system.turn actor state) :=
        fun avoids => hit ⟨bad, avoids⟩
      obtain ⟨before, other, after, split, found⟩ := ih later
      exact ⟨actor :: before, other, after, by rw [split]; rfl, found⟩

/-- A turn that moves an actor is one step of the run. -/
theorem run_step {actor : Actor} {state after : State}
    (moved : system.step actor state = some after) (rest : List Actor) :
    system.run (actor :: rest) state = system.run rest after := by
  -- The actor can move, so its turn is the step.
  rw [run, turn, moved, Option.getD_some]

/-- A turn behind a schedule that moves an actor is one step from where the schedule ended. -/
theorem run_concat {schedule : List Actor} {actor : Actor} {state after : State}
    (moved : system.step actor (system.run schedule state) = some after) :
    system.run (schedule ++ [actor]) state = after := by
  -- The schedule is run first, and what is left of it is the one step.
  rw [system.run_append, system.run_step moved]
  rfl

/-- An actor that repeats one step counts its turns in whatever that step counts. -/
theorem run_replicate {actor : Actor} {family : Nat → State} {limit : Nat}
    (moves : ∀ count, count < limit →
      system.step actor (family count) = some (family (count + 1)))
    (turns start : Nat) (within : start + turns ≤ limit) :
    system.run (List.replicate turns actor) (family start) = family (start + turns) := by
  -- Every turn advances the family by one.
  induction turns generalizing start with
  | zero => rfl
  | succ turns ih =>
    rw [List.replicate_succ, system.run_step (moves start (by omega)), ih _ (by omega)]
    congr 1
    omega

/-- Two systems over the same state take the same turns in a schedule. -/
def Agree (other : System Actor State) : List Actor → State → Prop
  | [], _ => True
  | actor :: rest, state =>
    system.turn actor state = other.turn actor state ∧ Agree other rest (system.turn actor state)

/-- Systems that agree on a schedule end it in the same state. -/
theorem Agree.run {other : System Actor State} {schedule : List Actor} {state : State}
    (agree : system.Agree other schedule state) :
    system.run schedule state = other.run schedule state := by
  -- The first turns are the same, and so are the rests of the schedule behind them.
  induction schedule generalizing state with
  | nil => rfl
  | cons actor rest ih =>
    rw [System.run, System.run, ← agree.1]
    exact ih agree.2

/-- Systems that agree on a schedule take the same steps of every kind in it. -/
theorem Agree.avoids {other : System Actor State} {Bad : Actor → State → Prop}
    {schedule : List Actor} {state : State} (agree : system.Agree other schedule state) :
    system.Avoids Bad schedule state ↔ other.Avoids Bad schedule state := by
  -- Every turn is taken from the same state on both sides.
  induction schedule generalizing state with
  | nil => exact Iff.rfl
  | cons actor rest ih =>
    rw [Avoids, Avoids, ← agree.1, ih agree.2]

/-- The state after the first turns of an endless schedule. -/
def after (turns : Nat → Actor) (count : Nat) (state : State) : State :=
  system.run ((List.range count).map turns) state

/-- Further turns start from where the earlier ones ended. -/
theorem after_add (turns : Nat → Actor) (count more : Nat) (state : State) :
    system.after turns (count + more) state =
      system.run ((List.range' count more).map turns) (system.after turns count state) := by
  -- The longer front of the schedule is the shorter one with the further turns behind it.
  have split : List.range (count + more) = List.range count ++ List.range' count more := by
    rw [List.range_eq_range', List.range_eq_range', ← List.range'_append_1, Nat.zero_add]
  rw [after, split, List.map_append, run_append]
  rfl

/-- One turn more than before is a turn of the actor that is next. -/
theorem after_succ (turns : Nat → Actor) (count : Nat) (state : State) :
    system.after turns (count + 1) state =
      system.turn (turns count) (system.after turns count state) := by
  -- One turn is added at the end.
  rw [after_add]
  rfl

/-- In a fair schedule every actor gets its turn again and again. -/
def Fair (turns : Nat → Actor) : Prop :=
  ∀ actor count, ∃ later, count ≤ later ∧ turns later = actor

/--
Why a system gets to its goal: in every other state one actor is the helper, whose next step lowers
the rank, while the steps of the others lower it too or change neither the rank nor the helper.
-/
structure Helps (Inv Goal : State → Prop) (rank : State → Nat) (helper : State → Actor) :
    Prop where
  keeps : ∀ actor state next, Inv state → system.step actor state = some next → Inv next
  moves : ∀ state, Inv state → ¬ Goal state →
    ∃ next, system.step (helper state) state = some next
  lowers : ∀ actor state next, Inv state → system.step actor state = some next →
    rank next < rank state ∨
      rank next = rank state ∧ helper next = helper state ∧ helper state ≠ actor

/-- Until the helper gets its turn, the rank falls or nothing that matters changes. -/
theorem Helps.until {Inv Goal : State → Prop} {rank : State → Nat} {helper : State → Actor}
    (progress : system.Helps Inv Goal rank helper) {turns : Nat → Actor} {state : State}
    (holds : ∀ count, Inv (system.after turns count state)) (count more : Nat) :
    rank (system.after turns (count + more) state) < rank (system.after turns count state) ∨
      rank (system.after turns (count + more) state) = rank (system.after turns count state) ∧
        helper (system.after turns (count + more) state) =
          helper (system.after turns count state) := by
  -- One turn at a time, where a turn without a step changes nothing at all.
  induction more with
  | zero => exact Or.inr ⟨rfl, rfl⟩
  | succ more ih =>
    have succ := system.after_succ turns (count + more) state
    rw [turn] at succ
    cases moved : system.step (turns (count + more))
        (system.after turns (count + more) state) with
    | none =>
      rw [moved, Option.getD_none] at succ
      rw [← Nat.add_assoc, succ]
      exact ih
    | some next =>
      rw [moved, Option.getD_some] at succ
      have step := progress.lowers _ _ next (holds _) moved
      rw [← Nat.add_assoc, succ]
      rcases ih with lower | ⟨same, helped⟩
      · rcases step with fell | ⟨kept, _⟩
        · exact Or.inl (by omega)
        · exact Or.inl (by omega)
      · rcases step with fell | ⟨kept, helping⟩
        · exact Or.inl (by omega)
        · exact Or.inr ⟨kept.trans same, helping.1.trans helped⟩

/-- A system with a helper gets to its goal under every fair schedule. -/
theorem Helps.reaches {Inv Goal : State → Prop} {rank : State → Nat} {helper : State → Actor}
    (progress : system.Helps Inv Goal rank helper) {turns : Nat → Actor} (fair : Fair turns)
    {state : State} (holds : Inv state) : ∃ count, Goal (system.after turns count state) := by
  by_contra never
  have away : ∀ count, ¬ Goal (system.after turns count state) :=
    fun count there => never ⟨count, there⟩
  have kept : ∀ count, Inv (system.after turns count state) :=
    fun count => system.run_invariant progress.keeps _ holds
  -- The rank would fall again and again, as the helper is given its turn every time.
  have falls : ∀ count, ∃ later,
      rank (system.after turns later state) < rank (system.after turns count state) := by
    intro count
    obtain ⟨later, behind, helping⟩ := fair (helper (system.after turns count state)) count
    rcases progress.until system kept count (later - count) with lower | ⟨same, helped⟩
    · exact ⟨_, lower⟩
    · rw [Nat.add_sub_of_le behind] at same helped
      obtain ⟨next, moved⟩ := progress.moves _ (kept later) (away later)
      refine ⟨later + 1, ?_⟩
      rcases progress.lowers _ _ next (kept later) moved with lower | ⟨_, _, other⟩
      · rw [helped, ← helping] at moved
        rw [system.after_succ, turn, moved, Option.getD_some]
        omega
      · exact absurd rfl other
  have bounded : ∀ rest count, rank (system.after turns count state) < rest → False := by
    intro rest
    induction rest with
    | zero => exact fun count none_left => absurd none_left (Nat.not_lt_zero _)
    | succ rest ih =>
      intro count below
      obtain ⟨later, lower⟩ := falls count
      exact ih later (by omega)
  exact bounded _ 0 (Nat.lt_succ_self _)

end System

end Libbtrfs
