import Parsing.Input.Items
import Parsing.Result
import Parsing.State

/-!
# Parsers

A parser is a function of the context and the state it starts from. This module holds the parsers
that read nothing themselves, and the ways to put parsers together in sequence and as alternatives;
what is read comes from the token parsers.
-/

namespace Parsing

/-- What reads an input: from a context and a state to the outcome of a run with a result. -/
abbrev Parser (σ υ α : Type) : Type :=
  Context → State σ υ → Outcome (Result σ υ α)

namespace Parser

variable {σ υ α β γ : Type}

/-! ## Parsers that read nothing -/

/-- Succeeds with `output`. -/
protected def pure (output : α) : Parser σ υ α :=
  fun _ state => .returned (.accept output state)

/-- Fails with one message. -/
def failWith (message : Message) : Parser σ υ α :=
  fun _ state => .returned (.reject (.single message state.position))

/-- Fails with a remark. -/
def fail (text : String) : Parser σ υ α :=
  failWith ⟨.plain, text⟩

/-- Fails over something that should not be there. -/
def unexpected (text : String) : Parser σ υ α :=
  failWith ⟨.unexpected, text⟩

/-- Fails without a message. -/
def zero : Parser σ υ α :=
  fun _ state => .returned (.reject (.unknown state.position))

/-- The parser that has no budget left. -/
def exhausted : Parser σ υ α :=
  fun _ _ => .exhausted

/-! ## Sequences -/

/-- Applies a function to the output. -/
protected def map (f : α → β) (p : Parser σ υ α) : Parser σ υ β :=
  fun context state => (p context state).map (·.map f)

/-- Runs `p`, and then the parser that `f` makes of its output. -/
protected def bind (p : Parser σ υ α) (f : α → Parser σ υ β) : Parser σ υ β :=
  fun context state =>
    (p context state).bind fun first => first.andThen fun output => f output context

/-- Runs `p` and then `q`, and keeps the output of `q`. -/
def discardLeft (p : Parser σ υ α) (q : Parser σ υ β) : Parser σ υ β :=
  fun context state => (p context state).bind fun first => first.andThen fun _ => q context

/-- Runs `p` and then `q`, and keeps the output of `p`. -/
def discardRight (p : Parser σ υ α) (q : Parser σ υ β) : Parser σ υ α :=
  fun context state =>
    (p context state).bind fun first => first.andThen fun output rest =>
      (q context rest).map (·.map fun _ => output)

/-- Runs `opening`, `p` and `closing`, and keeps the output of `p`. -/
def between (opening : Parser σ υ α) (closing : Parser σ υ β) (p : Parser σ υ γ) : Parser σ υ γ :=
  fun context state =>
    (opening context state).bind fun first => first.andThen fun _ rest =>
      (p context rest).bind fun second => second.andThen fun output rest =>
        (closing context rest).map (·.map fun _ => output)

/-! ## Alternatives -/

/-- Runs `p`, and `q` from the same state unless `p` consumed input. -/
def choice (p q : Parser σ υ α) : Parser σ υ α :=
  fun context state => (p context state).bind fun first => first.orElse fun _ => q context state

/-- The first of the parsers that succeeds or consumes input. -/
def choiceOf : List (Parser σ υ α) → Parser σ υ α
  | [] => fun _ state => .returned (.reject (.unknown state.position))
  | p :: ps => fun context state =>
    (p context state).bind fun first => first.orElse fun _ => choiceOf ps context state

/-- Runs `p` if it applies, and drops its output. -/
def optional (p : Parser σ υ α) : Parser σ υ Unit :=
  fun context state =>
    (p context state).bind fun first =>
      (first.map fun _ => ()).orElse fun _ => .returned (.accept () state)

/-- Reports the labels as what was expected where `p` consumes nothing. -/
def labels (names : List String) (p : Parser σ υ α) : Parser σ υ α :=
  fun context state => (p context state).map (·.labeled names)

/-- Turns a failure that consumed input into one that did not, so that an alternative is tried. -/
def attempt (p : Parser σ υ α) : Parser σ υ α :=
  fun context state => (p context state).map (·.rewound)

/-! ## Looking ahead -/

/-- Runs `p` and goes back to where it started if it succeeds. A failure stands as it is. -/
def lookAhead (p : Parser σ υ α) : Parser σ υ α :=
  fun context state =>
    (p context state).map fun result =>
      match result.reply with
      | .success output _ _ => .accept output state
      | .failure _ => result

/-- Succeeds where `p` fails and reads nothing; a match is unexpected where it began. -/
def notFollowedBy (shown : α → String) (p : Parser σ υ α) : Parser σ υ Unit :=
  fun context state =>
    (p context state).map fun result =>
      match result.reply with
      | .success output _ _ => .reject (.single ⟨.unexpected, shown output⟩ state.position)
      | .failure _ => .accept () state

/-! ## Nesting -/

/-- Runs `p` one nest level deeper, or fails at the limit. -/
def nested (p : Parser σ υ α) : Parser σ υ α :=
  fun context state =>
    (context.nest state.position).bind fun
      | .error refusal => .returned (.reject refusal)
      | .ok deeper => p deeper state

/-! ## Access to the state -/

/-- The whole state. -/
def getState : Parser σ υ (State σ υ) :=
  fun _ state => .returned (.accept state state)

/-- The position of the next item. -/
def getPosition : Parser σ υ Position :=
  fun _ state => .returned (.accept state.position state)

/-- The input that is still to be read. -/
def getInput : Parser σ υ σ :=
  fun _ state => .returned (.accept state.input state)

/-- The value that the grammar keeps. -/
def getUser : Parser σ υ υ :=
  fun _ state => .returned (.accept state.user state)

/-- Replaces the state by `f` of it, and returns the new state. There is a fault instead where `f`
cannot make a position of the new state. -/
def updateState (f : State σ υ → Except Fault (State σ υ)) : Parser σ υ (State σ υ) :=
  fun _ state => (Outcome.ofExcept (f state)).map fun state => .accept state state

/-- Replaces the value that the grammar keeps. -/
def modifyUser (f : υ → υ) : Parser σ υ Unit :=
  fun _ state => .returned (.accept () { state with user := f state.user })

end Parser

end Parsing
