import Parsing.Chars.Lexeme
import Parsing.Described.Item
import Parsing.Grammar.Meaning

/-!
# Grammars that are data

The pieces from which a described grammar is put together beyond the general ones: all outputs are
values, rules are named by texts, and what follows an output is chosen from a few continuations.
The value that such a grammar keeps is a value too, or nothing at all.
-/

namespace Parsing

/-!
## Places

A place is a position as someone asks for it: a name and two numbers that nobody has checked. The
numbers are checked only where a run makes the position, so a place that is never reached does no
harm.
-/

/-- A line and a column of a named source, not yet known to be in range. -/
structure Place where
  /-- The name of the source. -/
  name : String
  /-- The number asked for as the line. -/
  line : Nat
  /-- The number asked for as the column. -/
  column : Nat
  deriving DecidableEq

namespace Place

/-- The position at a place. Line and column count from 1, so zero is a misuse. -/
def position (place : Place) : Except Fault Position :=
  match Position.ofNat? place.name place.line place.column with
  | some position => .ok position
  | none =>
    .error (if place.line = 0 ∨ place.column = 0 then .invalidPosition else .positionOverflow)

/-- The place of a position. -/
def ofPosition (p : Position) : Place :=
  ⟨p.name, p.line.val, p.column.val⟩

theorem position_ofPosition (p : Position) : (ofPosition p).position = .ok p := by
  simp [position, ofPosition, Position.ofNat?, Coordinate.ofNat?_val]

end Place

/-! ## Grammars of values -/

/-- Types in which a described grammar can keep its user value. -/
class Kept (υ σ : Type) where
  /-- Keeps a value. -/
  keep : Value σ → υ
  /-- The value that was kept. -/
  kept : υ → Value σ

/-- Values are kept as they are. -/
instance {σ : Type} : Kept (Value σ) σ := ⟨id, id⟩

/-- Nothing is kept. -/
instance {σ : Type} : Kept Unit σ := ⟨fun _ => (), fun _ => .unit⟩

/-- Grammars whose outputs and rules are all values, with the rules named by texts. -/
abbrev Described (σ τ υ : Type) : Type 1 :=
  Grammar σ τ υ (fun _ : String => Value σ) (Value σ)

namespace Described

variable {σ τ υ : Type}

/-! ## Continuations -/

/-- Goes on with `q`, and puts out both outputs. -/
def pairedWith (q : Described σ τ υ) (v : Value σ) : Described σ τ υ :=
  q.map (Value.pair v)

/-- Goes on with `q`, and puts out the texts of both outputs as one. -/
def joinedWith (q : Described σ τ υ) (v : Value σ) : Described σ τ υ :=
  q.map fun w => .string (v.text ++ w.text)

/-- Fails with the text of the output. -/
def failing (v : Value σ) : Described σ τ υ :=
  .fail v.text

/-- Fails over the text of the output. -/
def rejecting (v : Value σ) : Described σ τ υ :=
  .unexpected v.text

/-- Reads the output once more. -/
def again (v : Value σ) : Described σ Char υ :=
  match v with
  | .char c => (Chars.char c).map .char
  | v => (Chars.string v.text).map .string

/-- Keeps the output as the user value. -/
def keeping [Kept υ σ] (v : Value σ) : Described σ τ υ :=
  (Grammar.setUser (Kept.keep v)).map fun _ => .unit

/-- Reads `q` as often as the output says, and not at all if that is not a positive number. -/
def times (q : Described σ τ υ) (v : Value σ) : Described σ τ υ :=
  match v with
  | .int n => (q.repeated n.toNat).map .list
  | _ => .pure (.list [])

/-- Goes on as the first case says whose value is the output, or else as `otherwise` says. -/
def byCase [BEq σ] (cases : List (Value σ × Described σ τ υ)) (otherwise : Described σ τ υ)
    (v : Value σ) : Described σ τ υ :=
  ((cases.find? fun entry => entry.1 == v).map (·.2)).getD otherwise

/-! ## The state -/

/-- A state as an output. -/
def ofState [Kept υ σ] (state : State σ υ) : Value σ :=
  .state state.input (Kept.kept state.user) state.position

/-- Drops `count` items and moves the position over each. The result is the number of items that
were missing at the end of the input, and the state; there is none if the position leaves its
range. -/
def dropItems [Input σ τ] [Spaced τ] : (count : Nat) → State σ υ → Option (Nat × State σ υ)
  | 0, state => some (0, state)
  | count + 1, state =>
    match Input.uncons? state.input with
    | none => some (count + 1, state)
    | some (item, rest) => do
      let position ← Spaced.after state.position item
      dropItems count { state with input := rest, position }

/-- The changes that a described grammar makes to its state: it drops some items, then takes another
position, then keeps another user value. -/
structure StateChange (σ : Type) where
  /-- The number of items to drop. -/
  dropped : Nat
  /-- The place to go on from. -/
  place : Option Place
  /-- The value to keep. -/
  user : Option (Value σ)

/-- The position at a place, or `position` where no place is given. -/
def placed (place : Option Place) (position : Position) : Except Fault Position :=
  match place with
  | some place => place.position
  | none => .ok position

/-- The state after the changes. -/
def StateChange.apply [Input σ τ] [Spaced τ] [Kept υ σ] (change : StateChange σ)
    (state : State σ υ) : Except Fault (State σ υ) :=
  match dropItems change.dropped state with
  | some (_, rest) => (placed change.place rest.position).map fun position =>
    { rest with position, user := (change.user.map Kept.keep).getD rest.user }
  | none => .error .positionOverflow

/-- The nest level of the context. -/
def nestLevel : Described σ τ υ :=
  .ofParser fun context state => .returned (.accept (.int context.level) state)

/-! ## Results by hand -/

/-- A result that is described part by part. -/
structure FixedResult (σ : Type) where
  /-- Whether the result counts as having read input. -/
  tag : Tag
  /-- The number of items to drop first. -/
  dropped : Nat
  /-- The output of a success; none for a failure. -/
  output : Option (Value σ)
  /-- The messages of the error or the hint. -/
  messages : List Message
  /-- Where the messages are reported; none for the position after the dropped items. -/
  place : Option Place

/-- The result, after its items have been dropped. -/
def FixedResult.after (fixed : FixedResult σ) (state : State σ υ) :
    Except Fault (Result σ υ (Value σ)) :=
  (placed fixed.place state.position).map fun position =>
    match fixed.output with
    | some output => ⟨fixed.tag, .success output state ⟨position, fixed.messages⟩⟩
    | none => ⟨fixed.tag, .failure ⟨position, fixed.messages⟩⟩

/-- The parser that drops the items and returns the result, or fails if the input is too short. -/
def FixedResult.parser [Input σ τ] [Spaced τ] (fixed : FixedResult σ) : Parser σ υ (Value σ) :=
  fun _ state =>
    (Outcome.ofInRange? (dropItems fixed.dropped state)).bind fun
      | (0, rest) => .ofExcept (fixed.after rest)
      | (_, _) => .returned (.reject (.single ⟨.systemUnexpected, ""⟩ state.position))

end Described

end Parsing
