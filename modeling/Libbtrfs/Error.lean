import Libbtrfs.Core.Bytes

/-! How an operation ends: a value, an I/O error handed to the caller, or a panic. -/

namespace Libbtrfs

/-- The kinds of `std::io::Error` that the library itself makes or looks at. -/
inductive ErrorKind where
  | unexpectedEof | invalidInput | invalidData | unsupported | notFound | notADirectory | other
  deriving DecidableEq, Repr

/-- An I/O error: a bare kind, a kind with a message, or an error number of the system. -/
inductive IoError where
  | kind (kind : ErrorKind)
  | custom (kind : ErrorKind) (message : String)
  | os (code : Nat)
  deriving DecidableEq, Repr

/-- The two ways in which a call does not come back with a value. -/
inductive Failure where
  | io (error : IoError)
  | panic (message : String)
  deriving DecidableEq, Repr

/-- What a fallible call of the library produces. -/
abbrev Outcome (α : Type) := Except Failure α

/-- Whether a call ended in a panic. -/
def Outcome.Panics {α : Type} (outcome : Outcome α) : Prop :=
  ∃ message, outcome = .error (.panic message)

/-- The error built by the `receive_error!` macro. -/
def receiveError (message : String) : Failure :=
  .io (.custom .other ("[RECEIVE-ERROR]: " ++ message))

/-- A returned value is not a panic. -/
@[simp] theorem Outcome.not_panics_ok {α : Type} (value : α) :
    ¬ Outcome.Panics (.ok value : Outcome α) := by
  -- A panic is an error, and this is none.
  rintro ⟨message, same⟩
  cases same

/-- An I/O error is not a panic. -/
@[simp] theorem Outcome.not_panics_io {α : Type} (error : IoError) :
    ¬ Outcome.Panics (.error (.io error) : Outcome α) := by
  -- The two kinds of failure are different constructors.
  rintro ⟨message, same⟩
  cases same

/-- An error made by `receive_error!` is not a panic. -/
@[simp] theorem Outcome.not_panics_receiveError {α : Type} (message : String) :
    ¬ Outcome.Panics (.error (receiveError message) : Outcome α) :=
  -- The macro builds an I/O error.
  Outcome.not_panics_io _

/-- A panic is one. -/
@[simp] theorem Outcome.panics_panic {α : Type} (message : String) :
    Outcome.Panics (.error (.panic message) : Outcome α) := ⟨message, rfl⟩

/-- Whether a failure is a panic does not depend on what the call would have returned. -/
theorem Outcome.panics_error {α β : Type} {failure : Failure} :
    Outcome.Panics (.error failure : Outcome α) ↔ Outcome.Panics (.error failure : Outcome β) := by
  -- The failure itself says whether it is a panic.
  refine ⟨fun panics => ?_, fun panics => ?_⟩
  · obtain ⟨message, same⟩ := panics
    cases same
    exact ⟨message, rfl⟩
  · obtain ⟨message, same⟩ := panics
    cases same
    exact ⟨message, rfl⟩

/-- A sequence panics in its first part, or in what follows the value of that part. -/
theorem Outcome.panics_bind {α β : Type} (first : Outcome α) (next : α → Outcome β) :
    Outcome.Panics (first >>= next) ↔
      first.Panics ∨ ∃ value, first = .ok value ∧ (next value).Panics := by
  -- A failure of the first part ends the sequence, and a value goes on to the second one.
  cases first with
  | error failure =>
    constructor
    · rintro ⟨message, same⟩
      cases same
      exact Or.inl ⟨message, rfl⟩
    · rintro (⟨message, same⟩ | ⟨value, impossible, _⟩)
      · cases same
        exact ⟨message, rfl⟩
      · cases impossible
  | ok value =>
    constructor
    · intro later
      exact Or.inr ⟨value, rfl, later⟩
    · rintro (⟨message, impossible⟩ | ⟨other, same, later⟩)
      · cases impossible
      · cases same
        exact later

/-- Mapping a returned value neither adds nor removes a panic. -/
@[simp] theorem Outcome.panics_map {α β : Type} (first : Outcome α) (change : α → β) :
    Outcome.Panics (change <$> first) ↔ first.Panics := by
  -- Only the value is changed, and a panic has none.
  cases first with
  | error failure =>
    constructor <;> rintro ⟨message, same⟩ <;> cases same <;> exact ⟨message, rfl⟩
  | ok value => constructor <;> rintro ⟨message, impossible⟩ <;> cases impossible

end Libbtrfs
