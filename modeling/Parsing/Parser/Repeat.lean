import Parsing.Parser.Basic

/-!
# Repetition

A repetition applies its body until it fails without consuming input. A failure that consumed input
fails the repetition, and a success that did not is a fault, since the body would succeed there for
ever. The number of turns is bounded by a budget that depends on the input where the repetition
starts: a body that shortens the input with every success needs one turn more than there are items.
-/

namespace Parsing.Parser

variable {σ υ α β : Type}

/-- The turns of a repetition: each success of the body is handed to `push`, and its hint is kept
for the next turn. There is a hint exactly when some turn has consumed input. -/
def accumulate (push : β → α → β) (body : Parser σ υ α) (context : Context) :
    (turns : Nat) → β → Option ParseError → State σ υ → Outcome (Result σ υ β)
  | 0, _, _, _ => .exhausted
  | turns + 1, acc, hint, state =>
    match body context state with
    | .fault f => .fault f
    | .exhausted => .exhausted
    | .returned ⟨.consumed, .success output next last⟩ =>
      accumulate push body context turns (push acc output) (some last) next
    | .returned ⟨.consumed, .failure error⟩ => .returned ⟨.consumed, .failure error⟩
    | .returned ⟨.empty, .success _ _ _⟩ => .fault (.emptyRepetition state.position)
    | .returned ⟨.empty, .failure error⟩ =>
      match hint with
      | none => .returned ⟨.empty, .success acc state error⟩
      | some last => .returned ⟨.consumed, .success acc state (last.merge error)⟩

/-- Collects the outputs behind those of `acc`, which come last output first. -/
def collect (turns : Nat) (body : Parser σ υ α) (acc : List α) : Parser σ υ (List α) :=
  fun context state =>
    (accumulate (fun acc output => output :: acc) body context turns acc none state).map
      (·.map List.reverse)

/-- Runs the body and drops the outputs. -/
def skip (turns : Nat) (body : Parser σ υ α) : Parser σ υ Unit :=
  fun context state => accumulate (fun _ _ => ()) body context turns () none state

/-- Zero or more `p`, with the outputs in order. -/
def many (turns : σ → Nat) (p : Parser σ υ α) : Parser σ υ (List α) :=
  fun context state => collect (turns state.input) p [] context state

/-- One or more `p`, with the outputs in order. -/
def many1 (turns : σ → Nat) (p : Parser σ υ α) : Parser σ υ (List α) :=
  fun context state =>
    (p context state).bind fun result => result.andThen fun first rest =>
      collect (turns rest.input) p [first] context rest

/-- Zero or more `p` without their outputs. -/
def skipMany (turns : σ → Nat) (p : Parser σ υ α) : Parser σ υ Unit :=
  fun context state => skip (turns state.input) p context state

/-- One or more `p` without their outputs. -/
def skipMany1 (turns : σ → Nat) (p : Parser σ υ α) : Parser σ υ Unit :=
  fun context state =>
    (p context state).bind fun result => result.andThen fun _ rest =>
      skip (turns rest.input) p context rest

/-- One or more `p` with a separator between each two. -/
def sepBy1 (turns : σ → Nat) (p : Parser σ υ α) (separator : Parser σ υ β) : Parser σ υ (List α) :=
  fun context state =>
    (p context state).bind fun result => result.andThen fun first rest =>
      (many turns (discardLeft separator p) context rest).map (·.map (first :: ·))

/-- Zero or more `p` with a separator between each two. -/
def sepBy (turns : σ → Nat) (p : Parser σ υ α) (separator : Parser σ υ β) : Parser σ υ (List α) :=
  fun context state =>
    (sepBy1 turns p separator context state).bind fun first =>
      first.orElse fun _ => .returned (.accept [] state)

end Parsing.Parser
