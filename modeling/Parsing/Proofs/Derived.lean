import Parsing.Parser.Repeat

/-!
# Parsers in terms of a few others

Most ways of putting parsers together come down to four: a function on the output, a sequence, a
choice between two, and a repetition. What holds of these four therefore holds of the rest, by the
equations below.
-/

namespace Parsing.Parser

variable {σ υ α β γ : Type}

/-! ## Sequences -/

theorem discardLeft_eq_bind (p : Parser σ υ α) (q : Parser σ υ β) :
    discardLeft p q = Parser.bind p fun _ => q := rfl

theorem discardRight_eq_bind (p : Parser σ υ α) (q : Parser σ υ β) :
    discardRight p q = Parser.bind p fun output => Parser.map (fun _ => output) q := rfl

theorem between_eq_bind (opening : Parser σ υ α) (closing : Parser σ υ β) (p : Parser σ υ γ) :
    between opening closing p =
      Parser.bind opening fun _ => Parser.bind p fun output =>
        Parser.map (fun _ => output) closing := rfl

/-! ## Alternatives -/

@[simp]
theorem choiceOf_nil : choiceOf ([] : List (Parser σ υ α)) = zero := rfl

@[simp]
theorem choiceOf_cons (p : Parser σ υ α) (ps : List (Parser σ υ α)) :
    choiceOf (p :: ps) = choice p (choiceOf ps) := rfl

theorem optional_eq_choice (p : Parser σ υ α) :
    optional p = choice (Parser.map (fun _ => ()) p) (Parser.pure ()) := by
  funext context state
  simp only [optional, choice, Parser.map, Parser.pure]
  cases p context state <;> rfl

/-! ## Repetitions -/

/-- Applies the body until it fails without consuming input, and hands each output to `push`. -/
def repetition (turns : σ → Nat) (push : β → α → β) (acc : β) (body : Parser σ υ α) :
    Parser σ υ β :=
  fun context state => accumulate push body context (turns state.input) acc none state

theorem many_eq_map (turns : σ → Nat) (p : Parser σ υ α) :
    many turns p =
      Parser.map List.reverse (repetition turns (fun acc output => output :: acc) [] p) := rfl

theorem many1_eq_bind (turns : σ → Nat) (p : Parser σ υ α) :
    many1 turns p = Parser.bind p fun first =>
      Parser.map List.reverse (repetition turns (fun acc output => output :: acc) [first] p) := rfl

theorem skipMany_eq_repetition (turns : σ → Nat) (p : Parser σ υ α) :
    skipMany turns p = repetition turns (fun _ _ => ()) () p := rfl

theorem skipMany1_eq_bind (turns : σ → Nat) (p : Parser σ υ α) :
    skipMany1 turns p = Parser.bind p fun _ => repetition turns (fun _ _ => ()) () p := rfl

theorem sepBy1_eq_bind (turns : σ → Nat) (p : Parser σ υ α) (separator : Parser σ υ β) :
    sepBy1 turns p separator = Parser.bind p fun first =>
      Parser.map (first :: ·) (many turns (discardLeft separator p)) := rfl

theorem sepBy_eq_choice (turns : σ → Nat) (p : Parser σ υ α) (separator : Parser σ υ β) :
    sepBy turns p separator = choice (sepBy1 turns p separator) (Parser.pure []) := rfl

end Parsing.Parser
