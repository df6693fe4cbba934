import Parsing.Proofs.Accounting
import Parsing.Proofs.Invariant
import Parsing.Proofs.Repetition

/-!
# The input gets shorter

What is left to read after a success is never more than there was, and it is less if the success has
read input. Items are taken one by one, a parser that goes back goes back to where it started, and
every other parser works on what an earlier one has left. So this is true of all grammars, if it is
true of the functions on the state and of the parsers by hand in them.
-/

namespace Parsing

variable {σ τ υ α β : Type} [Input σ τ]

/-- The number of items that are left to read. -/
def State.left (s : State σ υ) : Nat :=
  (Input.items s.input).length

@[simp]
theorem State.left_mk (input : σ) (user : υ) (position : Position) :
    (⟨input, user, position⟩ : State σ υ).left = (Input.items input).length := rfl

/-- A success at `s` leaves no more than there was to read, and less if it has read input. -/
inductive Result.Shrinks : {α : Type} → State σ υ → Result σ υ α → Prop where
  | success {α : Type} {s t : State σ υ} {tag : Tag} {output : α} {hint : ParseError}
      (hle : t.left ≤ s.left) (hlt : tag = .consumed → t.left < s.left) :
      Shrinks s ⟨tag, .success output t hint⟩
  | failure {α : Type} {s : State σ υ} {tag : Tag} {error : ParseError} :
      Shrinks s (⟨tag, .failure error⟩ : Result σ υ α)

namespace Result

variable {s t : State σ υ} {result : Result σ υ α}

theorem shrinks_accept (output : α) (h : t.left ≤ s.left) : (accept output t).Shrinks s :=
  .success h fun hconsumed => by cases hconsumed

/-- What happens behind a step to `t`, seen from where that step began. -/
theorem Shrinks.behind {tag : Tag} {hint : ParseError} (h : Shrinks t result)
    (hle : t.left ≤ s.left) (hlt : tag = .consumed → t.left < s.left) :
    Shrinks s (behind tag hint result) := by
  cases h with
  | @success last tag' _ _ hle' hlt' =>
    cases tag' with
    | empty =>
      refine .success (by omega) fun hconsumed => ?_
      have hless := hlt hconsumed
      omega
    | consumed =>
      have hless := hlt' rfl
      exact .success (by omega) fun _ => by omega
  | @failure tag' _ => cases tag' <;> exact .failure

theorem shrinks_invariant : Invariant (σ := σ) (υ := υ) Shrinks where
  accept output s t hinput _ := by
    have hleft : t.left = s.left := by rw [State.left, State.left, hinput]
    exact shrinks_accept output hleft.le
  reject _ _ := .failure
  map f _ _ h := by
    cases h with
    | success hle hlt => exact .success hle hlt
    | failure => exact .failure
  failure _ := .failure
  behind h h' := by
    cases h with
    | success hle hlt => exact h'.behind hle hlt
  instead _ h := h.behind (Nat.le_refl _) fun hconsumed => by cases hconsumed
  hinted h _ := by
    cases h with
    | success hle hlt => exact .success hle hlt
  labeled names _ _ h := by
    cases h with
    | @success _ tag _ _ hle hlt => cases tag <;> exact .success hle hlt
    | @failure tag _ => cases tag <;> exact .failure
  rewound h := by
    cases h with
    | @success _ tag _ _ hle hlt => cases tag <;> exact .success hle hlt
    | @failure tag _ => cases tag <;> exact .failure
  stop acc _ := .success (Nat.le_refl _) fun hconsumed => by cases hconsumed

end Result

/-! ## Parsers -/

namespace Parser

open Outcome (ensures_returned ensures_fault)

/-- The successes of the parser shorten the input, where they read any of it. -/
abbrev Shrinks (p : Parser σ υ α) : Prop :=
  p.Keeps Result.Shrinks

variable {p : Parser σ υ α}

/-- There are no more steps in a run of the parser than items that it reads. -/
theorem Shrinks.length_add_left_le (hp : p.Shrinks) {context : Context} {start last : State σ υ}
    {steps : List (α × ParseError)} (h : Run p context start steps last) :
    steps.length + last.left ≤ start.left := by
  induction h with
  | nil state => simp
  | @cons state next last output hint steps hstep hrest ih =>
    have hbody := hp context state
    rw [hstep, ensures_returned] at hbody
    cases hbody with
    | success _ hnext =>
      have hless := hnext rfl
      simp only [List.length_cons]
      omega

theorem shrinks_updateState {f : State σ υ → Except Fault (State σ υ)}
    (hf : ∀ state next, f state = .ok next → next.left ≤ state.left) :
    (updateState f).Shrinks := by
  intro context state
  unfold updateState
  cases hnext : f state with
  | error fault => exact ensures_fault _ _
  | ok next => exact ensures_returned.2 (Result.shrinks_accept next (hf state next hnext))

variable [LawfulInput σ]

theorem shrinks_token {shown : τ → String} {next : Position → τ → σ → Option Position}
    {test : τ → Option α} : (token shown next test : Parser σ υ α).Shrinks := by
  intro context state
  unfold token
  split
  · exact ensures_returned.2 .failure
  · rename_i item rest huncons
    split
    · exact ensures_returned.2 .failure
    · cases next state.position item rest with
      | none => exact ensures_fault _ _
      | some position =>
        have hlength : state.left = (Input.items rest).length + 1 :=
          Input.length_items_of_uncons? huncons
        exact ensures_returned.2 (.success (by simp; omega) fun _ => by simp; omega)

theorem shrinks_tokens [DecidableEq τ] {shown : List τ → String}
    {next : Position → List τ → Option Position} {expected : List τ} :
    (tokens shown next expected : Parser σ υ (List τ)).Shrinks := by
  intro context state
  unfold tokens
  split
  · exact ensures_returned.2 (Result.shrinks_accept [] (Nat.le_refl _))
  · rename_i hexpected
    split
    · rename_i rest hwhole
      cases next state.position expected with
      | none => exact ensures_fault _ _
      | some position =>
        have hne : expected ≠ [] := fun h => hexpected (by simp [h])
        have hpos := List.length_pos_iff.2 hne
        have hlength : state.left = expected.length + (Input.items rest).length := by
          rw [State.left, Agreement.items_of_compare_eq_whole hwhole, List.length_append]
        exact ensures_returned.2 (.success (by simp; omega) fun _ => by simp; omega)
    · exact ensures_returned.2 .failure

end Parser

/-! ## Grammars -/

namespace Grammar

variable {ι : Type} {ρ : ι → Type}

/-- What a node may be for its parser to shorten the input and to come to an end: a function on the
state does not make the input longer, and neither does a parser that is given by hand, which
shortens it wherever it has read input, and does not go on for ever. -/
def Shrinking : {α : Type} → Grammar σ τ υ ρ α → Prop
  | _, .updateState f => ∀ state next, f state = .ok next → next.left ≤ state.left
  | _, .ofParser p => p.Shrinks ∧ ∀ context state, p context state ≠ .exhausted
  | _, _ => True

variable [LawfulInput σ] [DecidableEq τ]

theorem shrinks_closed :
    Closed (σ := σ) (τ := τ) (υ := υ) (ρ := ρ) Shrinking Parser.Shrinks :=
  closed_of_invariant Result.shrinks_invariant (fun _ => Parser.shrinks_token)
    (fun _ => Parser.shrinks_tokens) (fun h => Parser.shrinks_updateState h) fun h => h.1

theorem parser_shrinks {rules : Rules σ τ υ ρ} (hrules : ∀ i, (rules i).Everywhere Shrinking)
    (budget : Budget σ) {p : Grammar σ τ υ ρ α} (hp : p.Everywhere Shrinking) :
    (p.parser rules budget).Shrinks :=
  shrinks_closed.parser Parser.keeps_exhausted (Parser.Keeps.nested Result.shrinks_invariant) hrules
    budget hp

end Grammar

end Parsing
