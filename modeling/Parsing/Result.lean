import Parsing.State
import Parsing.Outcome
import Parsing.ParseError.Basic

/-!
# Results of a parser

A result says two things that are independent of each other: whether the parser moved past any
input, and whether it succeeded. A success carries a hint, an error that matters only if a later
failure at the same position is merged with it.

Alternatives are tried only for a parser that consumed nothing. This is what keeps backtracking
bounded, and it decides how results are put together: what a step reported is merged with what the
next one reports only as long as the next one consumed nothing.
-/

namespace Parsing

/-- Whether a parser moved past any input. -/
inductive Tag where
  /-- No input was read. -/
  | empty
  /-- Input was read. -/
  | consumed
  deriving DecidableEq

/-- Success or failure of a parser. -/
inductive Reply (σ υ α : Type) where
  /-- The output, the state after it, and what else could have been read there. -/
  | success (output : α) (state : State σ υ) (hint : ParseError)
  /-- The reason why the parser does not apply. -/
  | failure (error : ParseError)
  deriving BEq

/-- What a parser returns. -/
structure Result (σ υ α : Type) where
  /-- Whether input was read. -/
  tag : Tag
  /-- Success or failure. -/
  reply : Reply σ υ α
  deriving BEq

variable {σ υ α β : Type}

namespace Reply

/-- Applies a function to the output. -/
def map (f : α → β) : Reply σ υ α → Reply σ υ β
  | success output state hint => success (f output) state hint
  | failure error => failure error

/-- Applies a function to the error or the hint. -/
def mapError (f : ParseError → ParseError) : Reply σ υ α → Reply σ υ α
  | success output state hint => success output state (f hint)
  | failure error => failure (f error)

/-- The error of a failure, or the hint of a success. -/
def error : Reply σ υ α → ParseError
  | success _ _ hint => hint
  | failure error => error

/-- Merges an error that was reported before this reply into it. -/
def after (reply : Reply σ υ α) (earlier : ParseError) : Reply σ υ α :=
  reply.mapError (earlier.merge ·)

/-- The output and the state of a success, without its hint. -/
def value? : Reply σ υ α → Option (α × State σ υ)
  | success output state _ => some (output, state)
  | failure _ => none

/-- Whether the reply is a success. -/
def isSuccess : Reply σ υ α → Bool
  | success .. => true
  | failure _ => false

instance [Inspect σ] [Inspect υ] [Inspect α] : Inspect (Reply σ υ α) :=
  ⟨fun
    | success output state hint =>
      Inspect.variant "Success" [inspect output, inspect state, inspect hint]
    | failure error => Inspect.variant "Failure" [inspect error]⟩

@[simp]
theorem map_success (f : α → β) (output : α) (state : State σ υ) (hint : ParseError) :
    (success output state hint).map f = success (f output) state hint := rfl

@[simp]
theorem map_failure (f : α → β) (error : ParseError) :
    (failure error : Reply σ υ α).map f = failure error := rfl

@[simp]
theorem after_success (output : α) (state : State σ υ) (hint earlier : ParseError) :
    (success output state hint).after earlier =
      success output state (earlier.merge hint) := rfl

@[simp]
theorem after_failure (error earlier : ParseError) :
    (failure error : Reply σ υ α).after earlier = failure (earlier.merge error) := rfl

@[simp]
theorem value?_success (output : α) (state : State σ υ) (hint : ParseError) :
    (success output state hint).value? = some (output, state) := rfl

@[simp]
theorem value?_failure (error : ParseError) :
    (failure error : Reply σ υ α).value? = none := rfl

@[simp]
theorem value?_mapError (f : ParseError → ParseError) (reply : Reply σ υ α) :
    (reply.mapError f).value? = reply.value? := by
  cases reply <;> rfl

@[simp]
theorem error_mapError (f : ParseError → ParseError) (reply : Reply σ υ α) :
    (reply.mapError f).error = f reply.error := by
  cases reply <;> rfl

end Reply

namespace Result

/-- Applies a function to the output. -/
def map (f : α → β) (result : Result σ υ α) : Result σ υ β :=
  ⟨result.tag, result.reply.map f⟩

/-- The success that leaves the state as it is and reports nothing. -/
def accept (output : α) (state : State σ υ) : Result σ υ α :=
  ⟨.empty, .success output state (.unknown state.position)⟩

/-- The failure that read nothing. -/
def reject (error : ParseError) : Result σ υ α :=
  ⟨.empty, .failure error⟩

/-- A result as it appears behind an earlier step with the given tag and error: if it consumed input
itself it stands as it is, and otherwise the earlier step decides whether input was read and its
error comes first. -/
def behind (tag : Tag) (earlier : ParseError) (result : Result σ υ α) : Result σ υ α :=
  match result.tag with
  | .empty => ⟨tag, result.reply.after earlier⟩
  | .consumed => result

/-- Goes on with `next` from the output and the state of a success. -/
def andThen (first : Result σ υ α) (next : α → State σ υ → Outcome (Result σ υ β)) :
    Outcome (Result σ υ β) :=
  match first.reply with
  | .success output state hint => (next output state).map (behind first.tag hint)
  | .failure error => .returned ⟨first.tag, .failure error⟩

/-- Tries `second`, unless `first` consumed input. After an empty success `second` runs for its
error only, which is added to the hint; the first output stands. -/
def orElse (first : Result σ υ α) (second : Unit → Outcome (Result σ υ α)) :
    Outcome (Result σ υ α) :=
  match first with
  | ⟨.empty, .failure error⟩ => (second ()).map (behind .empty error)
  | ⟨.empty, .success output state hint⟩ =>
    (second ()).map fun result =>
      match result.tag with
      | .empty => ⟨.empty, .success output state (hint.merge result.reply.error)⟩
      | .consumed => ⟨.empty, .success output state hint⟩
  | ⟨.consumed, reply⟩ => .returned ⟨.consumed, reply⟩

/-- Replaces what an empty result reports by the labels; a result that consumed input has got past
the point that the labels describe. -/
def labeled (labels : List String) (result : Result σ υ α) : Result σ υ α :=
  match result.tag with
  | .empty => ⟨.empty, result.reply.mapError (·.relabel labels)⟩
  | .consumed => result

/-- Takes back the input that a failure consumed. -/
def rewound (result : Result σ υ α) : Result σ υ α :=
  match result with
  | ⟨.consumed, .failure error⟩ => ⟨.empty, .failure error⟩
  | other => other

instance [Inspect σ] [Inspect υ] [Inspect α] : Inspect (Result σ υ α) :=
  ⟨fun result =>
    match result.tag with
    | .empty => Inspect.variant "Empty" [inspect result.reply]
    | .consumed => Inspect.variant "Consumed" [inspect result.reply]⟩

end Result

end Parsing
