import Parsing.Grammar.Basic
import Parsing.Parser.Repeat
import Parsing.Parser.Token

/-!
# The parser of a grammar

A grammar may call itself through its rules, and a repetition goes on for as long as its body
succeeds, so the parser it stands for gets a budget: a bound on the turns of a repetition and a
bound on the depth of nesting. A run that needs more ends as exhausted, and every other end of a run
is the same for all larger budgets.

Going one nest level deeper is the only step that is not a step down the tree. `meaning` therefore
goes by recursion on the tree and is told how a grammar is entered that lies one level deeper;
`parserAt` supplies that, level by level.
-/

namespace Parsing

/-- What a run may use up. -/
structure Budget (σ : Type) where
  /-- The turns of a repetition that starts at an input. -/
  turns : σ → Nat
  /-- The depth to which parsers on demand may be nested. -/
  depth : Nat

/-- A budget that is larger than the work a machine can do. -/
def Budget.large {σ : Type} : Budget σ :=
  ⟨fun _ => 1000000000000000000, 1000000000000000000⟩

namespace Grammar

variable {σ τ υ ι : Type} {ρ : ι → Type} [Input σ τ] [DecidableEq τ]

/-- The parser of a grammar, with `enter` for the grammars that are entered one nest level
deeper. -/
def meaning (rules : Rules σ τ υ ρ) (turns : σ → Nat)
    (enter : {α : Type} → Grammar σ τ υ ρ α → Parser σ υ α) :
    {α : Type} → Grammar σ τ υ ρ α → Parser σ υ α
  | _, .pure output => Parser.pure output
  | _, .fail text => Parser.fail text
  | _, .unexpected text => Parser.unexpected text
  | _, .zero => Parser.zero
  | _, .map f p => Parser.map f (meaning rules turns enter p)
  | _, .bind p f =>
    Parser.bind (meaning rules turns enter p) fun output => meaning rules turns enter (f output)
  | _, .discardLeft p q =>
    Parser.discardLeft (meaning rules turns enter p) (meaning rules turns enter q)
  | _, .discardRight p q =>
    Parser.discardRight (meaning rules turns enter p) (meaning rules turns enter q)
  | _, .between opening closing p =>
    Parser.between (meaning rules turns enter opening) (meaning rules turns enter closing)
      (meaning rules turns enter p)
  | _, .choice p q => Parser.choice (meaning rules turns enter p) (meaning rules turns enter q)
  | _, .alternatives _ p =>
    Parser.choiceOf (List.ofFn fun i => meaning rules turns enter (p i))
  | _, .optional p => Parser.optional (meaning rules turns enter p)
  | _, .labels names p => Parser.labels names (meaning rules turns enter p)
  | _, .attempt p => Parser.attempt (meaning rules turns enter p)
  | _, .lookAhead p => Parser.lookAhead (meaning rules turns enter p)
  | _, .notFollowedBy shown p => Parser.notFollowedBy shown (meaning rules turns enter p)
  | _, .token shown next test => Parser.token shown next test
  | _, .tokens shown next expected => Parser.tokens shown next expected
  | _, .eof shown => Parser.eof shown
  | _, .many p => Parser.many turns (meaning rules turns enter p)
  | _, .many1 p => Parser.many1 turns (meaning rules turns enter p)
  | _, .skipMany p => Parser.skipMany turns (meaning rules turns enter p)
  | _, .skipMany1 p => Parser.skipMany1 turns (meaning rules turns enter p)
  | _, .sepBy p separator =>
    Parser.sepBy turns (meaning rules turns enter p) (meaning rules turns enter separator)
  | _, .sepBy1 p separator =>
    Parser.sepBy1 turns (meaning rules turns enter p) (meaning rules turns enter separator)
  | _, .lazy p => enter p
  | _, .rule i => enter (rules i)
  | _, .getState => Parser.getState
  | _, .getPosition => Parser.getPosition
  | _, .getInput => Parser.getInput
  | _, .getUser => Parser.getUser
  | _, .updateState f => Parser.updateState f
  | _, .modifyUser f => Parser.modifyUser f
  | _, .ofParser p => p

/-- The parser of a grammar that may nest to the given depth. -/
def parserAt (rules : Rules σ τ υ ρ) (turns : σ → Nat) :
    (depth : Nat) → {α : Type} → Grammar σ τ υ ρ α → Parser σ υ α
  | 0, _, p => meaning rules turns (fun _ => Parser.nested Parser.exhausted) p
  | depth + 1, _, p => meaning rules turns (fun q => Parser.nested (parserAt rules turns depth q)) p

/-- The parser of a grammar within a budget. -/
def parser {α : Type} (rules : Rules σ τ υ ρ) (budget : Budget σ) (p : Grammar σ τ υ ρ α) :
    Parser σ υ α :=
  parserAt rules budget.turns budget.depth p

end Grammar

end Parsing
