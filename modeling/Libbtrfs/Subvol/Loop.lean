import Libbtrfs.Subvol.Iterator

/-! A loop over the iterator that runs to its end, apart from the fuel it takes, and its invariants. -/

namespace Libbtrfs

section Loop

variable {Fd World : Type} (kernel : World → Kernel Fd)
  (body : World → Except IoError (SubvolItem Fd) → World)

/-- A loop over the iterator runs to its end, with the world that it leaves behind. -/
inductive Drains : World → Iter Fd → World → Prop where
  | finished {world : World} {iter : Iter Fd} (done : Iter.round (kernel world) iter = .finished) :
      Drains world iter world
  | again {world after : World} {iter later : Iter Fd}
      (goes : Iter.round (kernel world) iter = .again later) (rest : Drains world later after) :
      Drains world iter after
  | returns {world after : World} {iter later : Iter Fd} {item : Except IoError (SubvolItem Fd)}
      (found : Iter.round (kernel world) iter = .returns item later)
      (rest : Drains (body world item) later after) : Drains world iter after

variable {kernel body}

/-- More fuel does not change what `next` returns. -/
theorem Iter.next_more {kernel : Kernel Fd} {fuel : Nat} {iter : Iter Fd}
    {result : Option (Except IoError (SubvolItem Fd)) × Iter Fd}
    (done : Iter.next kernel fuel iter = some result) :
    Iter.next kernel (fuel + 1) iter = some result := by
  -- Each round takes one unit of the fuel, and the last one leaves what is left.
  induction fuel generalizing iter with
  | zero => cases done
  | succ fuel ih =>
    rw [Iter.next] at done ⊢
    split at done
    · exact done
    · exact ih done
    · exact done

/-- More fuel does not change what a loop leaves behind. -/
theorem forEach_more {fuel : Nat} {world after : World} {iter : Iter Fd}
    (done : forEach kernel body fuel world iter = some after) :
    forEach kernel body (fuel + 1) world iter = some after := by
  -- Every call of `next` and the rest of the loop get one unit of fuel more.
  induction fuel generalizing world iter with
  | zero => cases done
  | succ fuel ih =>
    rw [forEach] at done
    rw [forEach]
    cases found : Iter.next (kernel world) (fuel + 1) iter with
    | none =>
      rw [found] at done
      cases done
    | some result =>
      rw [found] at done
      rw [Iter.next_more found]
      obtain ⟨item, later⟩ := result
      cases item with
      | none => exact done
      | some item => exact ih done

/-- With any more fuel a loop leaves the same behind. -/
theorem forEach_mono {fuel later : Nat} (more : fuel ≤ later) {world after : World}
    {iter : Iter Fd} (done : forEach kernel body fuel world iter = some after) :
    forEach kernel body later world iter = some after := by
  -- Step by step, one unit more changes nothing.
  induction later, more using Nat.le_induction with
  | base => exact done
  | succ later _ ih => exact forEach_more ih

/-- A round without a result takes one unit of fuel from the loop. -/
theorem forEach_again {fuel : Nat} {world after : World} {iter later : Iter Fd}
    (goes : Iter.round (kernel world) iter = .again later)
    (done : forEach kernel body fuel world later = some after) :
    forEach kernel body (fuel + 1) world iter = some after := by
  -- The round is part of the first call of `next`, which then has one unit less left.
  cases fuel with
  | zero => cases done
  | succ fuel =>
    rw [forEach] at done
    rw [forEach, Iter.next, goes]
    cases found : Iter.next (kernel world) (fuel + 1) later with
    | none =>
      rw [found] at done
      cases done
    | some result =>
      rw [found] at done
      obtain ⟨item, rest⟩ := result
      cases item with
      | none =>
        simp only [found]
        exact done
      | some item =>
        simp only [found]
        exact forEach_more done

/-- A loop that runs to its end does so with enough fuel, and with any more of it. -/
theorem Drains.forEach {world after : World} {iter : Iter Fd}
    (drains : Drains kernel body world iter after) :
    ∃ enough, ∀ fuel, enough ≤ fuel → forEach kernel body fuel world iter = some after := by
  -- Every round adds one unit of fuel to what the rest of the loop takes.
  have once : ∃ enough, Libbtrfs.forEach kernel body enough world iter = some after := by
    induction drains with
    | finished done => exact ⟨1, by rw [Libbtrfs.forEach, Iter.next, done]⟩
    | again goes _ ih =>
      obtain ⟨enough, rest⟩ := ih
      exact ⟨enough + 1, forEach_again goes rest⟩
    | returns found _ ih =>
      obtain ⟨enough, rest⟩ := ih
      exact ⟨enough + 1, by rw [Libbtrfs.forEach, Iter.next, found]; exact rest⟩
  obtain ⟨enough, done⟩ := once
  exact ⟨enough, fun fuel more => forEach_mono more done⟩

/-- What `next` returns is where the loop goes on. -/
theorem Iter.next_drains {fuel : Nat} {world : World} {iter later : Iter Fd}
    {result : Option (Except IoError (SubvolItem Fd))}
    (done : Iter.next (kernel world) fuel iter = some (result, later)) :
    match result with
    | none => Drains kernel body world iter world
    | some item => ∀ after, Drains kernel body (body world item) later after →
        Drains kernel body world iter after := by
  -- The rounds without a result come first.
  induction fuel generalizing iter with
  | zero => cases done
  | succ fuel ih =>
    rw [Iter.next] at done
    cases goes : Iter.round (kernel world) iter with
    | finished =>
      rw [goes] at done
      cases done
      exact .finished goes
    | again next =>
      rw [goes] at done
      have rest := ih done
      cases result with
      | none => exact .again goes rest
      | some item => exact fun after further => .again goes (rest after further)
    | returns item next =>
      rw [goes] at done
      cases done
      exact fun after further => .returns goes further

/-- A loop that gets by with its fuel runs to its end. -/
theorem drains_of_forEach {fuel : Nat} {world after : World} {iter : Iter Fd}
    (done : forEach kernel body fuel world iter = some after) :
    Drains kernel body world iter after := by
  -- Each call of `next` is followed by the rest of the loop, for which there is less fuel.
  induction fuel generalizing world iter with
  | zero => cases done
  | succ fuel ih =>
    rw [forEach] at done
    cases found : Iter.next (kernel world) (fuel + 1) iter with
    | none =>
      rw [found] at done
      cases done
    | some pair =>
      obtain ⟨result, later⟩ := pair
      rw [found] at done
      have rest := @Iter.next_drains _ _ kernel body _ _ _ _ _ found
      cases result with
      | none =>
        cases done
        exact rest
      | some item => exact rest after (ih done)

/-- What every round keeps still holds when the loop is at its end. -/
theorem Drains.keeps {Keeps : World → Iter Fd → Prop}
    (again : ∀ world iter later, Keeps world iter →
      Iter.round (kernel world) iter = .again later → Keeps world later)
    (returns : ∀ world iter later item, Keeps world iter →
      Iter.round (kernel world) iter = .returns item later → Keeps (body world item) later)
    {world after : World} {iter : Iter Fd} (drains : Drains kernel body world iter after)
    (kept : Keeps world iter) : ∃ last, Keeps after last := by
  -- The induction is on the rounds of the loop.
  induction drains with
  | finished _ => exact ⟨_, kept⟩
  | again goes _ ih => exact ih (again _ _ _ kept goes)
  | returns found _ ih => exact ih (returns _ _ _ _ kept found)

end Loop

end Libbtrfs
