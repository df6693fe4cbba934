import Parsing.Parser.Basic

/-!
# Reading items

The parsers that read: one item that passes a test, or a sequence of items that are known in
advance. Both are told how an item shows in a message and where the position goes.
-/

namespace Parsing

/-- How far an input agrees with a list of items. -/
inductive Agreement (σ τ : Type) where
  /-- Every item was met; `rest` is what follows. -/
  | whole (rest : σ)
  /-- After `matched` items the input went on differently, with `found` or with its end. -/
  | partly (matched : Nat) (found : Option τ)

variable {σ τ υ α : Type} [Input σ τ]

/-- Compares an input with the items `wanted`, of which `matched` have been met before. -/
def Agreement.compare [DecidableEq τ] : (wanted : List τ) → (matched : Nat) → σ → Agreement σ τ
  | [], _, input => .whole input
  | item :: wanted, matched, input =>
    match Input.uncons? input with
    | none => .partly matched none
    | some (found, rest) =>
      if found = item then compare wanted (matched + 1) rest else .partly matched (some found)

namespace Parser

/-- Reads one item. The test accepts it and says what it stands for, `shown` gives a rejected item
in the message, and `next` is the position after an accepted item, for which it may look at the rest
of the input. -/
def token (shown : τ → String) (next : Position → τ → σ → Option Position) (test : τ → Option α) :
    Parser σ υ α :=
  fun _ state =>
    match Input.uncons? state.input with
    | none => .returned (.reject (.single ⟨.systemUnexpected, ""⟩ state.position))
    | some (item, rest) =>
      match test item with
      | none => .returned (.reject (.single ⟨.systemUnexpected, shown item⟩ state.position))
      | some output =>
        (Outcome.ofInRange? (next state.position item rest)).map fun position =>
          ⟨.consumed, .success output { input := rest, user := state.user, position }
            (.unknown position)⟩

/-- Reads exactly the items of `expected`. A mismatch is reported where the first item would have
stood, and it has consumed input if any item was met. -/
def tokens [DecidableEq τ] (shown : List τ → String)
    (next : Position → List τ → Option Position) (expected : List τ) : Parser σ υ (List τ) :=
  fun _ state =>
    if expected.isEmpty then .returned (.accept [] state)
    else
      match Agreement.compare expected 0 state.input with
      | .whole rest =>
        (Outcome.ofInRange? (next state.position expected)).map fun position =>
          ⟨.consumed, .success expected { input := rest, user := state.user, position }
            (.unknown position)⟩
      | .partly matched found =>
        .returned
          ⟨if matched = 0 then .empty else .consumed,
            .failure ⟨state.position,
              [⟨.systemUnexpected, (found.map fun item => shown [item]).getD ""⟩,
                ⟨.expected, shown expected⟩]⟩⟩

/-- Succeeds at the end of the input only. -/
def eof (shown : τ → String) : Parser σ υ Unit :=
  fun _ state =>
    match Input.peek? state.input with
    | none => .returned (.accept () state)
    | some item =>
      .returned (.reject ⟨state.position,
        [⟨.unexpected, shown item⟩, ⟨.expected, "end of input"⟩]⟩)

end Parser

end Parsing
