import Parsing.Outcome
import Parsing.ParseError.Basic

/-!
# What a parser starts from

A state is what a parser starts from and what it leaves behind: the input that is still to be read,
the value that the grammar keeps for itself, and the position of the next item. States are values;
going back to an earlier one undoes everything that happened since.

A context is what a parser is told besides. Parsers that are built on demand, which is how a grammar
refers to itself, are entered one inside the other. The context counts them, and a limit turns a
recursion that is too deep into a parse error instead of letting it go on.
-/

namespace Parsing

/-- The input left to read, the user's own value, and the place in the source. -/
structure State (σ υ : Type) where
  /-- The input that is still to be read. -/
  input : σ
  /-- The value that the grammar keeps. -/
  user : υ
  /-- The position of the next item. -/
  position : Position
  deriving BEq

instance {σ υ : Type} [Inspect σ] [Inspect υ] : Inspect (State σ υ) :=
  ⟨fun state => Inspect.record "ParseState"
    [("input", inspect state.input), ("user_state", inspect state.user),
      ("position", inspect state.position)]⟩

/-! ## Nesting -/

/-- How deep a run is nested, and how deep it may be. -/
structure Context where
  /-- The number of parsers on demand that surround the current one. -/
  level : Nat
  /-- The level from which no deeper one is entered; none leaves the depth open. -/
  limit : Option Nat
  deriving DecidableEq

namespace Context

/-- The context in which a run starts. -/
def start (limit : Option Nat) : Context :=
  ⟨0, limit⟩

/-- The largest nest level. -/
def maxLevel : Nat := 4294967295

/-- The error that refuses a deeper level. -/
def refusal (position : Position) : ParseError :=
  .single ⟨.plain, "exceeded nest level"⟩ position

/-- The context one level deeper, or the error that refuses it at the limit. -/
def nest (context : Context) (position : Position) : Outcome (Except ParseError Context) :=
  if some context.level = context.limit then .returned (.error (refusal position))
  else if context.level < maxLevel then .returned (.ok { context with level := context.level + 1 })
  else .fault .levelOverflow

theorem nest_of_eq_limit {context : Context} (h : some context.level = context.limit)
    (position : Position) : context.nest position = .returned (.error (refusal position)) := by
  simp [nest, h]

theorem nest_of_ne_limit {context : Context} (h : some context.level ≠ context.limit)
    (hl : context.level < maxLevel) (position : Position) :
    context.nest position = .returned (.ok { context with level := context.level + 1 }) := by
  simp [nest, h, hl]

end Context

end Parsing
