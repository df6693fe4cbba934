import Parsing.Position

/-!
# Outcomes of a run

A run returns a value, stops at a fault, or uses up the budget it was given. A fault is a misuse of
the library or a number out of range; unlike a failed parse it is no answer about the input, and no
alternative is tried after it. The budget bounds the work of a run; an exhausted run says nothing
about how a run with a larger budget ends.
-/

namespace Parsing

/-- A reason for which a run cannot go on. -/
inductive Fault where
  /-- A parser succeeded without consuming input inside a repetition, which would never end. The
  position is where that turn began. -/
  | emptyRepetition (position : Position)
  /-- A line or a column left its range. -/
  | positionOverflow
  /-- The nest level left its range. -/
  | levelOverflow
  /-- A position was asked for with line or column zero. -/
  | invalidPosition
  deriving DecidableEq

/-- The text that reports a fault. -/
def Fault.message : Fault → String
  | .emptyRepetition position =>
    "combinator 'many' is applied to a parser that accepts an empty string (at " ++
      position.describe ++ ")"
  | .positionOverflow | .levelOverflow => "attempt to add with overflow"
  | .invalidPosition => "positions start at line 1, column 1"

/-- How a run ends. -/
inductive Outcome (α : Type) where
  /-- The run ended with a value. -/
  | returned (value : α)
  /-- The run stopped. -/
  | fault (fault : Fault)
  /-- The run used up its budget. -/
  | exhausted
  deriving DecidableEq

namespace Outcome

variable {α β γ : Type}

/-- Goes on with the value of a run that ended with one. -/
@[inline]
def bind (outcome : Outcome α) (next : α → Outcome β) : Outcome β :=
  match outcome with
  | returned value => next value
  | fault f => fault f
  | exhausted => exhausted

/-- Applies a function to the value of a run. -/
@[inline]
def map (f : α → β) (outcome : Outcome α) : Outcome β :=
  match outcome with
  | returned value => returned (f value)
  | fault f => fault f
  | exhausted => exhausted

instance : Monad Outcome where
  pure := returned
  bind := bind
  map := map

/-- What was computed with positions, if they stayed in range, and a fault otherwise. -/
def ofInRange? : Option α → Outcome α
  | some value => returned value
  | none => fault .positionOverflow

/-- What was computed, or the fault that prevented it. -/
def ofExcept : Except Fault α → Outcome α
  | .ok value => returned value
  | .error f => fault f

@[simp]
theorem bind_returned (value : α) (next : α → Outcome β) :
    (returned value).bind next = next value :=
  rfl

@[simp]
theorem bind_fault (f : Fault) (next : α → Outcome β) : (fault f).bind next = fault f := rfl

@[simp]
theorem bind_exhausted (next : α → Outcome β) : exhausted.bind next = exhausted := rfl

@[simp]
theorem map_returned (f : α → β) (value : α) : (returned value).map f = returned (f value) := rfl

@[simp]
theorem map_fault (f : α → β) (e : Fault) : (fault e : Outcome α).map f = fault e := rfl

@[simp]
theorem map_exhausted (f : α → β) : (exhausted : Outcome α).map f = exhausted := rfl

theorem bind_assoc (outcome : Outcome α) (f : α → Outcome β) (g : β → Outcome γ) :
    (outcome.bind f).bind g = outcome.bind fun value => (f value).bind g := by
  cases outcome <;> rfl

theorem map_eq_bind (f : α → β) (outcome : Outcome α) :
    outcome.map f = outcome.bind fun value => returned (f value) := by
  cases outcome <;> rfl

instance : LawfulMonad Outcome :=
  LawfulMonad.mk' Outcome
    (fun outcome => by cases outcome <;> rfl)
    (fun _ _ => rfl)
    (fun outcome _ _ => by cases outcome <;> rfl)
    (fun f outcome => by cases outcome <;> rfl)

end Outcome

end Parsing
