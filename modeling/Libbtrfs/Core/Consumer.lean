import Libbtrfs.Core.Interleaving
import Mathlib.Data.List.Induction

/-! Processes that consume a stream as it arrives, alone and at the end of a pipe. -/

namespace Libbtrfs

/-- What one turn of an actor comes to, which may ask for more of the stream than has arrived. -/
inductive Turn (State : Type) where
  | moves (next : State)
  | hungry
  | idle

/-- A turn that asks for nothing, of an actor that may not be able to move. -/
def Turn.ofOption {State : Type} : Option State → Turn State
  | some next => .moves next
  | none => .idle

/-- Actors that consume a stream between them: their steps, what arrives, and the end of it. -/
structure Consumer (α Actor State : Type) where
  step : Actor → State → Turn State
  give : List α → State → State
  starve : Actor → State → State

namespace Consumer

variable {α Actor State : Type} (consumer : Consumer α Actor State)

/-- A step that needs no more than has arrived is the same when more arrives. -/
structure Lawful : Prop where
  give_nil : ∀ state, consumer.give [] state = state
  give_give : ∀ items later state,
    consumer.give later (consumer.give items state) = consumer.give (items ++ later) state
  moves_give : ∀ actor state next items, consumer.step actor state = .moves next →
    consumer.step actor (consumer.give items state) = .moves (consumer.give items next)

/-- The consumer with nothing but what has arrived. -/
def alone : System Actor State where
  step actor state :=
    match consumer.step actor state with
    | .moves next => some next
    | _ => none

/-- Whatever the schedule is, no actor asks for more than has arrived. -/
def Sated (state : State) : Prop :=
  ∀ schedule actor, consumer.step actor (consumer.alone.run schedule state) ≠ .hungry

variable {consumer}

/-- A consumer that is sated does not ask for more in its next turn. -/
theorem Sated.not_hungry {state : State} (sated : consumer.Sated state) (actor : Actor) :
    consumer.step actor state ≠ .hungry := sated [] actor

/-- A consumer that is sated is so behind each of its steps. -/
theorem Sated.moves {state next : State} (sated : consumer.Sated state) {actor : Actor}
    (moved : consumer.step actor state = .moves next) : consumer.Sated next := by
  -- A schedule behind the step is one that starts with it.
  intro schedule other
  have whole := sated (actor :: schedule) other
  have taken : consumer.alone.step actor state = some next := by simp only [alone, moved]
  rwa [consumer.alone.run_step taken] at whole

/-- A consumer is sated by an invariant under which none of its actors asks for more. -/
theorem sated_of_invariant {Inv : State → Prop}
    (keeps : ∀ actor state next, Inv state → consumer.step actor state = .moves next → Inv next)
    (fed : ∀ actor state, Inv state → consumer.step actor state ≠ .hungry) {state : State}
    (holds : Inv state) : consumer.Sated state := by
  -- The invariant holds behind every schedule, and so in front of every further turn.
  intro schedule actor
  refine fed actor _ (consumer.alone.run_invariant ?_ schedule holds)
  intro other before after inv stepped
  simp only [alone] at stepped
  split at stepped
  · rename_i moved
    cases stepped
    exact keeps other before _ inv moved
  · cases stepped

variable (consumer)

/--
A turn at the end of a pipe that holds some items, and whose write ends may all be closed.

An actor that asks for more gets it item by item, and the end of the stream when there is no more.
-/
def pull (actor : Actor) (closed : Bool) (held : List α) (state : State) :
    Option (List α × State) :=
  match consumer.step actor state with
  | .moves next => some (held, next)
  | .idle => none
  | .hungry =>
    match held with
    | item :: rest => some (rest, consumer.give [item] state)
    | [] => if closed then some ([], consumer.starve actor state) else none

variable {consumer}

/-- A consumer that all the rest of the stream sates is sated by what is left of it. -/
theorem pull_sated (lawful : consumer.Lawful) {actor : Actor} {closed : Bool}
    {held rest after : List α} {state next : State} (whole : closed = true → rest = [])
    (sated : consumer.Sated (consumer.give (held ++ rest) state))
    (pulled : consumer.pull actor closed held state = some (after, next)) :
    consumer.Sated (consumer.give (after ++ rest) next) := by
  -- A step leaves the stream as it is, and an item that is pulled moves from it to the consumer.
  unfold pull at pulled
  split at pulled
  · rename_i moved
    cases pulled
    exact sated.moves (lawful.moves_give actor state next _ moved)
  · cases pulled
  · rename_i hungry
    split at pulled
    · cases pulled
      rw [lawful.give_give]
      exact sated
    · split at pulled
      · -- The stream would have ended too early, but everything has arrived.
        rename_i ended
        rw [whole ended, List.append_nil, lawful.give_nil] at sated
        exact absurd hungry (sated.not_hungry actor)
      · cases pulled

section Entire

variable (consumer)

/-- The consumer to which everything has arrived, so that one that asks for more finds the end. -/
def entire : System Actor State where
  step actor state :=
    match consumer.step actor state with
    | .moves next => some next
    | .hungry => some (consumer.starve actor state)
    | .idle => none

/--
Where a consumer can have got to with the items that were delivered, of all that there are.

Until the end has been seen it knows of no others, and behind the end all of them were delivered.
-/
def Reached (start : State) (all delivered : List α) (state : State) : Prop :=
  (∃ turns, state = consumer.alone.run turns (consumer.give delivered start)) ∨
    delivered = all ∧ ∃ turns, state = consumer.entire.run turns (consumer.give all start)

variable {consumer}

/-- What a consumer does alone is what it does without asking for more. -/
theorem alone_moves {actor : Actor} {state next : State} :
    consumer.alone.step actor state = some next ↔ consumer.step actor state = .moves next := by
  -- Each of the three answers is what it says.
  simp only [alone]
  cases consumer.step actor state with
  | moves other => simp
  | hungry => simp
  | idle => simp

/-- With the end in sight a consumer takes the steps that it takes alone, or finds the end. -/
theorem entire_cases {actor : Actor} {state next : State}
    (stepped : consumer.entire.step actor state = some next) :
    consumer.step actor state = .moves next ∨
      consumer.step actor state = .hungry ∧ next = consumer.starve actor state := by
  simp only [entire] at stepped
  -- Each of the three answers is what it says.
  cases answer : consumer.step actor state with
  | moves other =>
    rw [answer] at stepped
    cases stepped
    exact Or.inl rfl
  | hungry =>
    rw [answer] at stepped
    cases stepped
    exact Or.inr ⟨rfl, rfl⟩
  | idle =>
    rw [answer] at stepped
    cases stepped

/-- A consumer that does not ask for more does the same with the end in sight. -/
theorem entire_moves {actor : Actor} {state next : State}
    (moved : consumer.step actor state = .moves next) :
    consumer.entire.step actor state = some next := by
  -- The end makes a difference only where more is asked for.
  simp only [entire, moved]

/-- A consumer that asks for more finds the end of it. -/
theorem entire_hungry {actor : Actor} {state : State} (hungry : consumer.step actor state = .hungry) :
    consumer.entire.step actor state = some (consumer.starve actor state) := by
  -- The answer to the question is what decides.
  simp only [entire, hungry]

/-- A consumer without the end of its items does nothing that it would not do with it. -/
theorem alone_entire (turns : List Actor) (state : State) :
    ∃ others, consumer.entire.run others state = consumer.alone.run turns state := by
  -- The turns in which the consumer asks for more are left out.
  induction turns generalizing state with
  | nil => exact ⟨[], rfl⟩
  | cons actor rest ih =>
    cases stepped : consumer.alone.step actor state with
    | none =>
      obtain ⟨others, same⟩ := ih state
      refine ⟨others, same.trans ?_⟩
      rw [System.run, System.turn, stepped, Option.getD_none]
    | some next =>
      obtain ⟨others, same⟩ := ih next
      have taken := entire_moves (alone_moves.mp stepped)
      refine ⟨actor :: others, ?_⟩
      rw [consumer.entire.run_step taken, consumer.alone.run_step stepped, same]

/-- What was done with some items can be done with more of them. -/
theorem alone_give (lawful : consumer.Lawful) (items : List α) (turns : List Actor)
    (state : State) :
    ∃ others, consumer.alone.run others (consumer.give items state) =
      consumer.give items (consumer.alone.run turns state) := by
  -- A step is the same with more items, and a turn without a step is left out.
  induction turns generalizing state with
  | nil => exact ⟨[], rfl⟩
  | cons actor rest ih =>
    cases stepped : consumer.alone.step actor state with
    | none =>
      obtain ⟨others, same⟩ := ih state
      refine ⟨others, same.trans ?_⟩
      rw [System.run, System.turn, stepped, Option.getD_none]
    | some next =>
      obtain ⟨others, same⟩ := ih next
      have taken := alone_moves.mpr
        (lawful.moves_give actor state next items (alone_moves.mp stepped))
      refine ⟨actor :: others, ?_⟩
      rw [consumer.alone.run_step taken, consumer.alone.run_step stepped, same]

/-- A consumer that has received nothing yet has got nowhere. -/
theorem Reached.start (lawful : consumer.Lawful) (state : State) (all : List α) :
    consumer.Reached state all [] state :=
  Or.inl ⟨[], (lawful.give_nil state).symm⟩

/-- One step more gets a consumer somewhere that it can get to. -/
theorem Reached.moves {start state next : State} {all delivered : List α}
    (reached : consumer.Reached start all delivered state) {actor : Actor}
    (moved : consumer.step actor state = .moves next) :
    consumer.Reached start all delivered next := by
  -- The step is put behind the turns that led to the state.
  rcases reached with ⟨turns, rfl⟩ | ⟨ended, turns, rfl⟩
  · exact Or.inl ⟨turns ++ [actor], (System.run_concat _ (alone_moves.mpr moved)).symm⟩
  · exact Or.inr ⟨ended, turns ++ [actor], (System.run_concat _ (entire_moves moved)).symm⟩

/-- Whatever a consumer has got to, with the rest of the items it is one that has received all. -/
theorem Reached.entire (lawful : consumer.Lawful) {start state : State}
    {delivered rest : List α}
    (reached : consumer.Reached start (delivered ++ rest) delivered state) :
    ∃ turns, consumer.give rest state =
      consumer.entire.run turns (consumer.give (delivered ++ rest) start) := by
  rcases reached with ⟨turns, rfl⟩ | ⟨ended, turns, rfl⟩
  · obtain ⟨others, same⟩ := alone_give lawful rest turns (consumer.give delivered start)
    obtain ⟨more, whole⟩ := consumer.alone_entire others (consumer.give rest
      (consumer.give delivered start))
    rw [← same, ← whole, lawful.give_give]
    exact ⟨more, rfl⟩
  · -- There are no further items behind the end.
    have none_left : rest = [] := List.self_eq_append_right.mp ended
    rw [none_left, lawful.give_nil]
    exact ⟨turns, rfl⟩

/--
A turn at the end of a pipe gets the consumer on with what was delivered to it, and what is taken
off the pipe is delivered.
-/
theorem pull_reached (lawful : consumer.Lawful) {actor : Actor} {closed : Bool}
    {delivered held rest after : List α} {start state next : State}
    (whole : closed = true → rest = [])
    (reached : consumer.Reached start (delivered ++ held ++ rest) delivered state)
    (pulled : consumer.pull actor closed held state = some (after, next)) :
    ∃ taken, held = taken ++ after ∧
      consumer.Reached start (delivered ++ held ++ rest) (delivered ++ taken) next := by
  -- The consumer steps, is given the first item, or is told that there are no more.
  unfold pull at pulled
  split at pulled
  · rename_i moved
    cases pulled
    refine ⟨[], rfl, ?_⟩
    rw [List.append_nil]
    exact reached.moves moved
  · cases pulled
  · rename_i hungry
    split at pulled
    · rename_i item others
      cases pulled
      refine ⟨[item], rfl, Or.inl ?_⟩
      rcases reached with ⟨turns, rfl⟩ | ⟨ended, _⟩
      · obtain ⟨others, same⟩ := alone_give lawful [item] turns (consumer.give delivered start)
        refine ⟨others, ?_⟩
        rw [← same, lawful.give_give]
      · rw [List.append_assoc] at ended
        exact absurd (List.self_eq_append_right.mp ended) (List.cons_ne_nil _ _)
    · split at pulled
      · rename_i ended
        cases pulled
        rw [whole ended, List.append_nil, List.append_nil] at reached ⊢
        refine ⟨[], rfl, Or.inr ⟨List.append_nil _, ?_⟩⟩
        -- The turns that led here were possible with the end in sight too.
        have everything : ∃ turns, state =
            consumer.entire.run turns (consumer.give delivered start) := by
          rcases reached with ⟨turns, rfl⟩ | ⟨_, turns, rfl⟩
          · obtain ⟨more, same⟩ := consumer.alone_entire turns (consumer.give delivered start)
            exact ⟨more, same.symm⟩
          · exact ⟨turns, rfl⟩
        obtain ⟨turns, rfl⟩ := everything
        exact ⟨turns ++ [actor], (System.run_concat _ (entire_hungry hungry)).symm⟩
      · cases pulled

end Entire

section Pulling

variable (consumer)

/-- Where a consumer can have got to behind the items it has taken, each of them when it asked. -/
inductive Takes (start : State) : List α → State → Prop
  | start : Takes start [] start
  | moves {actor : Actor} {taken : List α} {state next : State} (takes : Takes start taken state)
      (moved : consumer.step actor state = .moves next) : Takes start taken next
  | pulls {actor : Actor} {taken : List α} {state : State} (item : α)
      (takes : Takes start taken state) (hungry : consumer.step actor state = .hungry) :
      Takes start (taken ++ [item]) (consumer.give [item] state)

variable {consumer}

/-- What was taken was delivered, and nothing is known of what is still to come. -/
theorem Takes.reached (lawful : consumer.Lawful) {start state : State} {taken : List α}
    (takes : consumer.Takes start taken state) (all : List α) :
    consumer.Reached start all taken state := by
  -- By induction over the steps, each of which can be made with more items too.
  refine Or.inl ?_
  induction takes with
  | start => exact ⟨[], (lawful.give_nil start).symm⟩
  | @moves actor _ _ _ _ moved ih =>
    obtain ⟨turns, rfl⟩ := ih
    exact ⟨turns ++ [actor], (System.run_concat _ (alone_moves.mpr moved)).symm⟩
  | @pulls _ taken _ item _ _ ih =>
    obtain ⟨turns, rfl⟩ := ih
    obtain ⟨others, same⟩ := alone_give lawful [item] turns (consumer.give taken start)
    refine ⟨others, ?_⟩
    rw [← same, lawful.give_give]

/-- The last item that was taken was asked for when those in front of it had been. -/
theorem Takes.asked {start state : State} {taken front : List α} {last : α}
    (takes : consumer.Takes start taken state) (ends : taken = front ++ [last]) :
    ∃ actor before, consumer.Takes start front before ∧ consumer.step actor before = .hungry := by
  -- By induction over what was done since then.
  induction takes with
  | start => exact absurd ends.symm (List.append_ne_nil_of_right_ne_nil front (List.cons_ne_nil _ _))
  | moves _ _ ih => exact ih ends
  | @pulls actor _ before item earlier hungry =>
    obtain ⟨rfl, _⟩ := List.append_inj' ends rfl
    exact ⟨actor, before, earlier, hungry⟩

/-- A turn at the end of a pipe with an open write end takes what was asked for off the pipe. -/
theorem pull_takes {actor : Actor} {taken held after : List α} {start state next : State}
    (takes : consumer.Takes start taken state)
    (pulled : consumer.pull actor false held state = some (after, next)) :
    ∃ more, held = more ++ after ∧ consumer.Takes start (taken ++ more) next := by
  -- The consumer steps, or is given the first item; it is not told of an end.
  unfold pull at pulled
  split at pulled
  · rename_i moved
    cases pulled
    refine ⟨[], rfl, ?_⟩
    rw [List.append_nil]
    exact takes.moves moved
  · cases pulled
  · rename_i hungry
    split at pulled
    · rename_i item others
      cases pulled
      exact ⟨[item], rfl, takes.pulls item hungry⟩
    · cases pulled

/-- An actor that cannot move is not moved by what arrives. -/
def Patient (consumer : Consumer α Actor State) : Prop :=
  ∀ actor state items, consumer.step actor state = .idle →
    consumer.step actor (consumer.give items state) = .idle

/-- A step with all that is to come is a step behind as many items as were asked for. -/
theorem Takes.step (lawful : consumer.Lawful) (patient : consumer.Patient) {actor : Actor}
    {start state target : State} {taken coming : List α} (takes : consumer.Takes start taken state)
    (moved : consumer.step actor (consumer.give coming state) = .moves target) :
    ∃ more rest next, coming = more ++ rest ∧ consumer.Takes start (taken ++ more) next ∧
      consumer.give rest next = target := by
  -- By induction over what is to come, of which one item is taken at a time.
  induction coming generalizing taken state with
  | nil =>
    rw [lawful.give_nil] at moved
    refine ⟨[], [], target, rfl, ?_, lawful.give_nil target⟩
    rw [List.append_nil]
    exact takes.moves moved
  | cons item coming ih =>
    cases stepped : consumer.step actor state with
    | moves next =>
      have same := lawful.moves_give actor state next (item :: coming) stepped
      rw [moved] at same
      cases same
      refine ⟨[], item :: coming, next, rfl, ?_, rfl⟩
      rw [List.append_nil]
      exact takes.moves stepped
    | idle => cases (patient actor state _ stepped).symm.trans moved
    | hungry =>
      rw [← List.singleton_append, ← lawful.give_give] at moved
      obtain ⟨more, rest, next, split, later, same⟩ := ih (takes.pulls item stepped) moved
      refine ⟨item :: more, rest, next, by rw [split, List.cons_append], ?_, same⟩
      rw [List.append_cons]
      exact later

/-- Where a consumer gets with all of its items at once, it gets when it takes them as it asks. -/
theorem takes_of_alone (lawful : consumer.Lawful) (patient : consumer.Patient) (start : State)
    (items : List α) (turns : List Actor) :
    ∃ taken rest state, items = taken ++ rest ∧ consumer.Takes start taken state ∧
      consumer.give rest state = consumer.alone.run turns (consumer.give items start) := by
  -- By induction over the turns, of which the last one goes on from where the others have led.
  induction turns using List.reverseRecOn with
  | nil => exact ⟨[], items, start, rfl, .start, rfl⟩
  | append_singleton turns actor ih =>
    obtain ⟨taken, rest, state, split, takes, same⟩ := ih
    rw [System.run_append, ← same]
    cases stepped : consumer.alone.step actor (consumer.give rest state) with
    | none =>
      refine ⟨taken, rest, state, split, takes, ?_⟩
      rw [System.run, System.turn, stepped, Option.getD_none]
      rfl
    | some target =>
      obtain ⟨more, left, next, found, later, there⟩ :=
        takes.step lawful patient (alone_moves.mp stepped)
      refine ⟨taken ++ more, left, next, ?_, later, ?_⟩
      · rw [split, found, List.append_assoc]
      · rw [there, System.run_step _ stepped]
        rfl

end Pulling

end Consumer

end Libbtrfs
