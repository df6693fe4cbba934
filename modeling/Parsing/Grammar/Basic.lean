import Parsing.Parser.Basic

/-!
# Grammars

A grammar is the plan of a parser: a tree with one node for each way of putting parsers together,
and a type for its output. It may call rules by name, and the rules may call each other and
themselves, so a finite table of trees describes a recursive parser.

`Grammar.parser`, in the next module, turns a grammar into the parser it stands for. What can be
said of every parser that is made this way is proved by induction on the tree.
-/

namespace Parsing

/-- Plans of parsers over inputs `σ` of items `τ` with user values `υ`; the rules have names in `ι`,
and the rule `i` has outputs in `ρ i`. -/
inductive Grammar (σ τ υ : Type) {ι : Type} (ρ : ι → Type) : Type → Type 1 where
  /-- Succeeds with `output` and reads nothing. -/
  | pure {α : Type} (output : α) : Grammar σ τ υ ρ α
  /-- Fails with a remark. -/
  | fail {α : Type} (text : String) : Grammar σ τ υ ρ α
  /-- Fails over something that should not be there. -/
  | unexpected {α : Type} (text : String) : Grammar σ τ υ ρ α
  /-- Fails without a message. -/
  | zero {α : Type} : Grammar σ τ υ ρ α
  /-- Applies `f` to the output of `p`. -/
  | map {α β : Type} (f : α → β) (p : Grammar σ τ υ ρ α) : Grammar σ τ υ ρ β
  /-- Runs `p`, and then the grammar that `f` makes of its output. -/
  | bind {α β : Type} (p : Grammar σ τ υ ρ α) (f : α → Grammar σ τ υ ρ β) : Grammar σ τ υ ρ β
  /-- Runs `p` and then `q`, and keeps the output of `q`. -/
  | discardLeft {α β : Type} (p : Grammar σ τ υ ρ α) (q : Grammar σ τ υ ρ β) : Grammar σ τ υ ρ β
  /-- Runs `p` and then `q`, and keeps the output of `p`. -/
  | discardRight {α β : Type} (p : Grammar σ τ υ ρ α) (q : Grammar σ τ υ ρ β) : Grammar σ τ υ ρ α
  /-- Runs `opening`, `p` and `closing`, and keeps the output of `p`. -/
  | between {α β γ : Type} (opening : Grammar σ τ υ ρ α) (closing : Grammar σ τ υ ρ β)
      (p : Grammar σ τ υ ρ γ) : Grammar σ τ υ ρ γ
  /-- Runs `p`, and `q` from the same state unless `p` consumed input. -/
  | choice {α : Type} (p q : Grammar σ τ υ ρ α) : Grammar σ τ υ ρ α
  /-- The first of `count` alternatives that succeeds or consumes input. -/
  | alternatives {α : Type} (count : Nat) (p : Fin count → Grammar σ τ υ ρ α) : Grammar σ τ υ ρ α
  /-- Runs `p` if it applies, and drops its output. -/
  | optional {α : Type} (p : Grammar σ τ υ ρ α) : Grammar σ τ υ ρ Unit
  /-- Reports `names` as what was expected where `p` consumes nothing. -/
  | labels {α : Type} (names : List String) (p : Grammar σ τ υ ρ α) : Grammar σ τ υ ρ α
  /-- Turns a failure of `p` that consumed input into one that did not. -/
  | attempt {α : Type} (p : Grammar σ τ υ ρ α) : Grammar σ τ υ ρ α
  /-- Runs `p` and goes back to where it started if it succeeds. -/
  | lookAhead {α : Type} (p : Grammar σ τ υ ρ α) : Grammar σ τ υ ρ α
  /-- Succeeds where `p` fails and reads nothing; `shown` gives an output in the message. -/
  | notFollowedBy {α : Type} (shown : α → String) (p : Grammar σ τ υ ρ α) : Grammar σ τ υ ρ Unit
  /-- Reads one item that the test accepts. -/
  | token {α : Type} (shown : τ → String) (next : Position → τ → σ → Option Position)
      (test : τ → Option α) : Grammar σ τ υ ρ α
  /-- Reads exactly the items of `expected`. -/
  | tokens (shown : List τ → String) (next : Position → List τ → Option Position)
      (expected : List τ) : Grammar σ τ υ ρ (List τ)
  /-- Succeeds at the end of the input only. -/
  | eof (shown : τ → String) : Grammar σ τ υ ρ Unit
  /-- Zero or more `p`. -/
  | many {α : Type} (p : Grammar σ τ υ ρ α) : Grammar σ τ υ ρ (List α)
  /-- One or more `p`. -/
  | many1 {α : Type} (p : Grammar σ τ υ ρ α) : Grammar σ τ υ ρ (List α)
  /-- Zero or more `p` without their outputs. -/
  | skipMany {α : Type} (p : Grammar σ τ υ ρ α) : Grammar σ τ υ ρ Unit
  /-- One or more `p` without their outputs. -/
  | skipMany1 {α : Type} (p : Grammar σ τ υ ρ α) : Grammar σ τ υ ρ Unit
  /-- Zero or more `p` with a separator between each two. -/
  | sepBy {α β : Type} (p : Grammar σ τ υ ρ α) (separator : Grammar σ τ υ ρ β) :
      Grammar σ τ υ ρ (List α)
  /-- One or more `p` with a separator between each two. -/
  | sepBy1 {α β : Type} (p : Grammar σ τ υ ρ α) (separator : Grammar σ τ υ ρ β) :
      Grammar σ τ υ ρ (List α)
  /-- Runs `p` one nest level deeper. -/
  | lazy {α : Type} (p : Grammar σ τ υ ρ α) : Grammar σ τ υ ρ α
  /-- Runs the rule `i` one nest level deeper. -/
  | rule (i : ι) : Grammar σ τ υ ρ (ρ i)
  /-- The whole state. -/
  | getState : Grammar σ τ υ ρ (State σ υ)
  /-- The position of the next item. -/
  | getPosition : Grammar σ τ υ ρ Position
  /-- The input that is still to be read. -/
  | getInput : Grammar σ τ υ ρ σ
  /-- The user value. -/
  | getUser : Grammar σ τ υ ρ υ
  /-- Replaces the state, unless that is a fault, and returns the new one. -/
  | updateState (f : State σ υ → Except Fault (State σ υ)) : Grammar σ τ υ ρ (State σ υ)
  /-- Replaces the user value. -/
  | modifyUser (f : υ → υ) : Grammar σ τ υ ρ Unit
  /-- A parser that is given as it is. -/
  | ofParser {α : Type} (p : Parser σ υ α) : Grammar σ τ υ ρ α

/-- One grammar for each rule. -/
abbrev Rules (σ τ υ : Type) {ι : Type} (ρ : ι → Type) : Type 1 :=
  (i : ι) → Grammar σ τ υ ρ (ρ i)

namespace Grammar

variable {σ τ υ ι : Type} {ρ : ι → Type} {α : Type}

/-- Runs `p`, and succeeds with `output` if it fails without consuming input. -/
def option (output : α) (p : Grammar σ τ υ ρ α) : Grammar σ τ υ ρ α :=
  choice p (pure output)

/-- Reports `name` as what was expected where `p` consumes nothing. -/
def label (name : String) (p : Grammar σ τ υ ρ α) : Grammar σ τ υ ρ α :=
  labels [name] p

/-- The first grammar of the list that succeeds or consumes input. -/
def choiceOf (ps : List (Grammar σ τ υ ρ α)) : Grammar σ τ υ ρ α :=
  alternatives ps.length ps.get

/-- Runs the grammars one after the other, and keeps their outputs in order. -/
def sequence : List (Grammar σ τ υ ρ α) → Grammar σ τ υ ρ (List α)
  | [] => pure []
  | p :: ps => bind p fun first => map (first :: ·) (sequence ps)

/-- Runs `p` the given number of times, and keeps the outputs in order. -/
def repeated (p : Grammar σ τ υ ρ α) : Nat → Grammar σ τ υ ρ (List α)
  | 0 => pure []
  | count + 1 => bind p fun first => map (first :: ·) (repeated p count)

/-- Replaces the user value by `value`. -/
def setUser (value : υ) : Grammar σ τ υ ρ Unit :=
  modifyUser fun _ => value

end Grammar

end Parsing
