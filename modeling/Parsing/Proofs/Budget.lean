import Parsing.Proofs.Ensures
import Parsing.Proofs.Everywhere

/-!
# Larger budgets

A run that needs more than its budget ends as exhausted, and says nothing else. Every other end of a
run is the same for all larger budgets, so it is how the grammar ends without a bound on its turns
and its depth.
-/

namespace Parsing

variable {σ τ υ α β : Type}

namespace Outcome

variable {o o' : Outcome α}

/-- The run used up its budget, or it ends as the other run does. -/
def Approximates (o o' : Outcome α) : Prop :=
  o = exhausted ∨ o = o'

theorem exhausted_approximates (o : Outcome α) : exhausted.Approximates o :=
  Or.inl rfl

theorem approximates_refl (o : Outcome α) : o.Approximates o :=
  Or.inr rfl

theorem Approximates.eq_of_ne_exhausted (h : o.Approximates o') (hne : o ≠ exhausted) : o' = o := by
  rcases h with h | h
  · exact absurd h hne
  · exact h.symm

theorem Approximates.bind {next next' : α → Outcome β} (h : o.Approximates o')
    (hnext : ∀ value, (next value).Approximates (next' value)) :
    (o.bind next).Approximates (o'.bind next') := by
  rcases h with rfl | rfl
  · exact exhausted_approximates _
  · cases o with
    | returned value => exact hnext value
    | fault f => exact approximates_refl _
    | exhausted => exact approximates_refl _

theorem Approximates.map (f : α → β) (h : o.Approximates o') :
    (o.map f).Approximates (o'.map f) := by
  rcases h with rfl | rfl
  · exact exhausted_approximates _
  · exact approximates_refl _

end Outcome

open Outcome (exhausted_approximates approximates_refl)

namespace Result

theorem andThen_approximates {next next' : α → State σ υ → Outcome (Result σ υ β)}
    (first : Result σ υ α)
    (hnext : ∀ output state, (next output state).Approximates (next' output state)) :
    (first.andThen next).Approximates (first.andThen next') := by
  obtain ⟨tag, reply⟩ := first
  cases reply with
  | success output state hint => exact (hnext output state).map (behind tag hint)
  | failure error => exact approximates_refl _

theorem orElse_approximates {second second' : Unit → Outcome (Result σ υ α)}
    (first : Result σ υ α) (hsecond : (second ()).Approximates (second' ())) :
    (first.orElse second).Approximates (first.orElse second') := by
  obtain ⟨_ | _, reply⟩ := first
  · cases reply with
    | success output state hint => exact hsecond.map _
    | failure error => exact hsecond.map _
  · exact approximates_refl _

end Result

namespace Parser

variable {p q p₂ q₂ : Parser σ υ α}

/-- Every run of `p` uses up its budget, or ends as that of `q` does. -/
def Approximates (p q : Parser σ υ α) : Prop :=
  ∀ context state, (p context state).Approximates (q context state)

theorem Approximates.refl (p : Parser σ υ α) : p.Approximates p :=
  fun _ _ => approximates_refl _

theorem Approximates.bind {f g : α → Parser σ υ β} (h : p.Approximates q)
    (hfg : ∀ output, (f output).Approximates (g output)) :
    (Parser.bind p f).Approximates (Parser.bind q g) := by
  intro context state
  refine (h context state).bind fun first => ?_
  exact Result.andThen_approximates first fun output next => hfg output context next

theorem Approximates.choice (h : p.Approximates q) (h₂ : p₂.Approximates q₂) :
    (Parser.choice p p₂).Approximates (Parser.choice q q₂) := by
  intro context state
  refine (h context state).bind fun first => ?_
  exact Result.orElse_approximates first (h₂ context state)

theorem Approximates.nested (h : p.Approximates q) :
    (Parser.nested p).Approximates (Parser.nested q) := by
  intro context state
  refine (approximates_refl (context.nest state.position)).bind fun entry => ?_
  cases entry with
  | error refusal => exact approximates_refl _
  | ok deeper => exact h deeper state

/-- More turns change nothing where the body ends in the same way: each turn that the shorter budget
allows is a turn of the larger one. -/
theorem accumulate_approximates {push : β → α → β} (h : p.Approximates q) (context : Context)
    {turns turns' : Nat} (hturns : turns ≤ turns') (acc : β) (hint : Option ParseError)
    (state : State σ υ) :
    (accumulate push p context turns acc hint state).Approximates
      (accumulate push q context turns' acc hint state) := by
  induction turns generalizing turns' acc hint state with
  | zero => exact exhausted_approximates _
  | succ turns ih =>
    obtain ⟨more, rfl⟩ : ∃ more, turns' = more + 1 := ⟨turns' - 1, by omega⟩
    have hmore : turns ≤ more := by omega
    rcases h context state with hp | hp
    · rw [accumulate, hp]
      exact exhausted_approximates _
    · rw [accumulate, accumulate, hp]
      cases q context state with
      | fault f => exact approximates_refl _
      | exhausted => exact approximates_refl _
      | returned result =>
        obtain ⟨_ | _, reply⟩ := result
        · cases reply with
          | success output next last => exact approximates_refl _
          | failure error => exact approximates_refl _
        · cases reply with
          | success output next last =>
            -- only here is there another turn, and the larger budget has one for it
            exact ih hmore (push acc output) (some last) next
          | failure error => exact approximates_refl _

theorem Approximates.repetition {turns turns' : σ → Nat}
    (hturns : ∀ input, turns input ≤ turns' input) {push : β → α → β} {acc : β}
    (h : p.Approximates q) :
    (repetition turns push acc p).Approximates (repetition turns' push acc q) :=
  fun context state => accumulate_approximates h context (hturns state.input) acc none state

end Parser

namespace Grammar

variable {ι : Type} {ρ : ι → Type} [Input σ τ] [DecidableEq τ]

theorem approximates_congruence {turns turns' : σ → Nat}
    (hturns : ∀ input, turns input ≤ turns' input) :
    Congruence (σ := σ) (τ := τ) (υ := υ) (ρ := ρ) (fun _ => True) turns turns'
      Parser.Approximates where
  pure _ := .refl _
  failWith _ := .refl _
  zero := .refl _
  map h context state := (h context state).map _
  bind := Parser.Approximates.bind
  choice := Parser.Approximates.choice
  labels h context state := (h context state).map _
  attempt h context state := (h context state).map _
  lookAhead h context state := (h context state).map _
  notFollowedBy h context state := (h context state).map _
  repetition := Parser.Approximates.repetition hturns
  token _ := .refl _
  tokens _ := .refl _
  eof := .refl _
  getState _ := .refl _
  getPosition _ := .refl _
  getInput _ := .refl _
  getUser _ := .refl _
  updateState _ := .refl _
  modifyUser _ := .refl _
  ofParser _ := .refl _

/-- Whatever a run within a budget ends with, it ends with under every larger budget, unless it has
used up the smaller one. The induction is on the smaller depth. -/
theorem parser_approximates {rules : Rules σ τ υ ρ} {budget budget' : Budget σ}
    (hturns : ∀ input, budget.turns input ≤ budget'.turns input)
    (hdepth : budget.depth ≤ budget'.depth) (p : Grammar σ τ υ ρ α) :
    (p.parser rules budget).Approximates (p.parser rules budget') := by
  have htrivial : ∀ {α : Type} (q : Grammar σ τ υ ρ α), q.Everywhere fun _ => True :=
    everywhere_of_forall fun _ => trivial
  have hat : ∀ depth depth', depth ≤ depth' → ∀ {α : Type} (p : Grammar σ τ υ ρ α),
      (parserAt rules budget.turns depth p).Approximates
        (parserAt rules budget'.turns depth' p) := by
    intro depth
    induction depth with
    | zero =>
      intro depth' hle α p
      have hexhausted : ∀ {α : Type} (q : Parser σ υ α), Parser.exhausted.Approximates q :=
        fun _ _ _ => exhausted_approximates _
      cases depth' with
      | zero =>
        exact (approximates_congruence hturns).meaning _ _ (fun i => htrivial (rules i))
          (fun q _ => (hexhausted _).nested) p (htrivial p)
      | succ depth' =>
        exact (approximates_congruence hturns).meaning _ _ (fun i => htrivial (rules i))
          (fun q _ => (hexhausted _).nested) p (htrivial p)
    | succ depth ih =>
      intro depth' hle α p
      obtain ⟨more, rfl⟩ : ∃ more, depth' = more + 1 := ⟨depth' - 1, by omega⟩
      exact (approximates_congruence hturns).meaning _ _ (fun i => htrivial (rules i))
        (fun q _ => (ih more (by omega) q).nested) p (htrivial p)
  exact hat budget.depth budget'.depth hdepth p

end Grammar

end Parsing
