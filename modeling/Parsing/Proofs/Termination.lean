import Parsing.Chars.Class
import Parsing.Proofs.Budget
import Parsing.Proofs.Shrinking

/-!
# A limit on nesting makes every run end

There are two ways for a run to go on for ever. Rules may enter each other without end, and a
repetition may take turns without end. A limit stops the first, since each rule is entered one level
deeper. The input stops the second, since each turn but the last one shortens it. The two are nested
inside each other at will, so the proof goes down the tree for each number of levels that are left.

The budget of the main statement has one turn more for a repetition than there are items where it
starts. A run that does not use up this budget ends in the same way without one.
-/

namespace Parsing

variable {σ τ υ α β : Type}

namespace Outcome

theorem map_ne_exhausted {o : Outcome α} (f : α → β) (h : o ≠ exhausted) :
    o.map f ≠ exhausted := by
  cases o with
  | returned value => simp
  | fault f => simp
  | exhausted => exact absurd rfl h

theorem bind_ne_exhausted {o : Outcome α} {next : α → Outcome β} (h : o ≠ exhausted)
    (hnext : ∀ value, next value ≠ exhausted) : o.bind next ≠ exhausted := by
  cases o with
  | returned value => exact hnext value
  | fault f => simp
  | exhausted => exact absurd rfl h

end Outcome

open Outcome (map_ne_exhausted bind_ne_exhausted)

namespace Result

theorem andThen_ne_exhausted {next : α → State σ υ → Outcome (Result σ υ β)}
    (first : Result σ υ α) (hnext : ∀ output state, next output state ≠ .exhausted) :
    first.andThen next ≠ .exhausted := by
  obtain ⟨tag, reply⟩ := first
  cases reply with
  | success output state hint => exact map_ne_exhausted _ (hnext output state)
  | failure error => simp [andThen]

theorem orElse_ne_exhausted {second : Unit → Outcome (Result σ υ α)} (first : Result σ υ α)
    (hsecond : second () ≠ .exhausted) : first.orElse second ≠ .exhausted := by
  obtain ⟨_ | _, reply⟩ := first
  · cases reply with
    | success output state hint => exact map_ne_exhausted _ hsecond
    | failure error => exact map_ne_exhausted _ hsecond
  · simp [orElse]

end Result

/-- No more than `depth` levels can be entered below this one. -/
def Context.Within (depth : Nat) (context : Context) : Prop :=
  ∃ limit, context.limit = some limit ∧ context.level ≤ limit ∧ limit ≤ context.level + depth

theorem Context.Within.deeper {depth : Nat} {context : Context} (h : context.Within (depth + 1))
    (hne : some context.level ≠ context.limit) :
    Context.Within depth { context with level := context.level + 1 } := by
  obtain ⟨limit, hlimit, hle, hdepth⟩ := h
  have hlevel : context.level ≠ limit := fun heq => hne (by rw [hlimit, heq])
  exact ⟨limit, hlimit, by simp only; omega, by simp only; omega⟩

namespace Parser

/-- The runs of the parser come to an end where no more than `depth` levels can be entered. -/
def Halts (depth : Nat) (p : Parser σ υ α) : Prop :=
  ∀ context, context.Within depth → ∀ state, p context state ≠ .exhausted

variable {depth : Nat} {p q : Parser σ υ α}

theorem Halts.bind {f : α → Parser σ υ β} (h : p.Halts depth)
    (hf : ∀ output, (f output).Halts depth) : (Parser.bind p f).Halts depth := by
  intro context hcontext state
  refine bind_ne_exhausted (h context hcontext state) fun first => ?_
  exact Result.andThen_ne_exhausted first fun output next => hf output context hcontext next

theorem Halts.choice (h : p.Halts depth) (h₂ : q.Halts depth) :
    (Parser.choice p q).Halts depth := by
  intro context hcontext state
  refine bind_ne_exhausted (h context hcontext state) fun first => ?_
  exact Result.orElse_ne_exhausted first (h₂ context hcontext state)

/-- At the limit nothing is entered. -/
theorem halts_nested_zero (p : Parser σ υ α) : (Parser.nested p).Halts 0 := by
  rintro context ⟨limit, hlimit, hle, hdepth⟩ state
  have hlevel : some context.level = context.limit := by
    rw [hlimit]
    exact congrArg some (by omega)
  simp [Parser.nested, Context.nest_of_eq_limit hlevel]

theorem Halts.nested (h : p.Halts depth) : (Parser.nested p).Halts (depth + 1) := by
  intro context hcontext state
  unfold Parser.nested Context.nest
  by_cases hlimit : some context.level = context.limit
  · simp [hlimit]
  · by_cases hlevel : context.level < Context.maxLevel
    · simpa [hlimit, hlevel] using h _ (hcontext.deeper hlimit) state
    · simp [hlimit, hlevel]

theorem halts_updateState {f : State σ υ → Except Fault (State σ υ)} :
    (updateState f).Halts depth := by
  intro context _ state
  unfold updateState
  cases f state <;> simp [Outcome.ofExcept]

variable [Input σ τ]

/-- A repetition with more turns than items left does not use them up: a turn that reads input
leaves fewer items, and any other turn is the last. -/
theorem accumulate_ne_exhausted {push : β → α → β} {context : Context} (hp : p.Shrinks)
    (hbody : ∀ state, p context state ≠ .exhausted) {turns : Nat} {acc : β}
    {hint : Option ParseError} {state : State σ υ} (hturns : state.left < turns) :
    accumulate push p context turns acc hint state ≠ .exhausted := by
  induction turns generalizing acc hint state with
  | zero => omega
  | succ turns ih =>
    have hstep := hp context state
    have hne := hbody state
    unfold accumulate
    split
    · simp
    · rename_i heq
      exact absurd heq hne
    · rename_i output next last heq
      rw [heq, Outcome.ensures_returned] at hstep
      cases hstep with
      | success _ hlt =>
        have hless := hlt rfl
        exact ih (by omega)
    · simp
    · simp
    · cases hint <;> simp

theorem Halts.repetition {turns : σ → Nat}
    (hturns : ∀ input : σ, (Input.items input).length < turns input) {push : β → α → β} {acc : β}
    (hp : p.Shrinks) (h : p.Halts depth) : (Parser.repetition turns push acc p).Halts depth :=
  fun context hcontext state =>
    accumulate_ne_exhausted hp (h context hcontext) (hturns state.input)

theorem halts_token {shown : τ → String} {next : Position → τ → σ → Option Position}
    {test : τ → Option α} : (token shown next test : Parser σ υ α).Halts depth := by
  intro context _ state
  unfold token
  split
  · simp
  · split
    · simp
    · cases next state.position _ _ <;> simp [Outcome.ofInRange?]

theorem halts_tokens [DecidableEq τ] {shown : List τ → String}
    {next : Position → List τ → Option Position} {expected : List τ} :
    (tokens shown next expected : Parser σ υ (List τ)).Halts depth := by
  intro context _ state
  unfold tokens
  split
  · simp
  · split
    · cases next state.position expected <;> simp [Outcome.ofInRange?]
    · simp

theorem halts_eof {shown : τ → String} : (eof shown : Parser σ υ Unit).Halts depth := by
  intro context _ state
  unfold eof
  split <;> simp

end Parser

namespace Grammar

variable {ι : Type} {ρ : ι → Type} [Input σ τ]

/-- The grammar `p` is a repetition that applies `body`. -/
inductive Repeats : {α β : Type} → Grammar σ τ υ ρ α → Grammar σ τ υ ρ β → Prop where
  | many {α : Type} (p : Grammar σ τ υ ρ α) : Repeats (.many p) p
  | many1 {α : Type} (p : Grammar σ τ υ ρ α) : Repeats (.many1 p) p
  | skipMany {α : Type} (p : Grammar σ τ υ ρ α) : Repeats (.skipMany p) p
  | skipMany1 {α : Type} (p : Grammar σ τ υ ρ α) : Repeats (.skipMany1 p) p
  | sepBy {α β : Type} (p : Grammar σ τ υ ρ α) (separator : Grammar σ τ υ ρ β) :
    Repeats (.sepBy p separator) (.discardLeft separator p)
  | sepBy1 {α β : Type} (p : Grammar σ τ υ ρ α) (separator : Grammar σ τ υ ρ β) :
    Repeats (.sepBy1 p separator) (.discardLeft separator p)

theorem Repeats.everywhere_shrinking {p : Grammar σ τ υ ρ α} {body : Grammar σ τ υ ρ β}
    (h : p.Repeats body) (hp : p.Everywhere Shrinking) : body.Everywhere Shrinking := by
  cases h with
  | many | many1 | skipMany | skipMany1 => exact hp.2
  | sepBy | sepBy1 => exact ⟨trivial, hp.2.2, hp.2.1⟩

variable [DecidableEq τ]

/-- If the node is a repetition, its loop never takes more turns than there are items where it
starts, and one more in which the body does not succeed by reading input. -/
def LoopsWithinInput (rules : Rules σ τ υ ρ) (p : Grammar σ τ υ ρ α) : Prop :=
  ∀ {β : Type} (body : Grammar σ τ υ ρ β), p.Repeats body →
    ∀ budget context start steps last,
      Parser.Run (body.parser rules budget) context start steps last → steps.length ≤ start.left

variable [LawfulInput σ]

theorem halts_congruence {turns : σ → Nat}
    (hturns : ∀ input : σ, (Input.items input).length < turns input) (depth : Nat) :
    Congruence (σ := σ) (τ := τ) (υ := υ) (ρ := ρ) Shrinking turns turns
      fun p _ => p.Shrinks ∧ p.Halts depth := by
  have hshrinks := shrinks_closed (σ := σ) (τ := τ) (υ := υ) (ρ := ρ)
  -- what is done to the result of a run has no say in whether there is one
  have hmap {α β : Type} {p : Parser σ υ α} (f : State σ υ → Result σ υ α → Result σ υ β)
      (h : p.Halts depth) : Parser.Halts depth fun context state =>
        (p context state).map (f state) :=
    fun context hcontext state => map_ne_exhausted _ (h context hcontext state)
  have hreturned {α : Type} (f : State σ υ → Result σ υ α) :
      Parser.Halts depth fun _ state => .returned (f state) :=
    fun _ _ _ h => by cases h
  exact
    { pure := fun _ => ⟨hshrinks.inspects _, hreturned _⟩
      failWith := fun message => ⟨hshrinks.failWith message, hreturned _⟩
      zero := ⟨hshrinks.zero, hreturned _⟩
      map := fun h => ⟨hshrinks.map h.1, hmap _ h.2⟩
      bind := fun h hf =>
        ⟨hshrinks.bind h.1 fun output => (hf output).1, h.2.bind fun output => (hf output).2⟩
      choice := fun h h₂ => ⟨hshrinks.choice h.1 h₂.1, h.2.choice h₂.2⟩
      labels := fun h => ⟨hshrinks.labels h.1, hmap _ h.2⟩
      attempt := fun h => ⟨hshrinks.attempt h.1, hmap _ h.2⟩
      lookAhead := fun h => ⟨hshrinks.lookAhead h.1, hmap _ h.2⟩
      notFollowedBy := fun h => ⟨hshrinks.notFollowedBy h.1, hmap _ h.2⟩
      repetition := fun h => ⟨hshrinks.repetition h.1, h.2.repetition hturns h.1⟩
      token := fun h => ⟨hshrinks.token h, Parser.halts_token⟩
      tokens := fun h => ⟨hshrinks.tokens h, Parser.halts_tokens⟩
      eof := ⟨hshrinks.eof, Parser.halts_eof⟩
      getState := fun _ => ⟨hshrinks.inspects _, hreturned _⟩
      getPosition := fun _ => ⟨hshrinks.inspects _, hreturned _⟩
      getInput := fun _ => ⟨hshrinks.inspects _, hreturned _⟩
      getUser := fun _ => ⟨hshrinks.inspects _, hreturned _⟩
      updateState := fun h => ⟨hshrinks.updateState h, Parser.halts_updateState⟩
      modifyUser := fun _ => ⟨hshrinks.modifyUser _, hreturned _⟩
      ofParser := fun h => ⟨h.1, fun context _ state => h.2 context state⟩ }

theorem parserAt_halts {rules : Rules σ τ υ ρ} (hrules : ∀ i, (rules i).Everywhere Shrinking)
    {turns : σ → Nat} (hturns : ∀ input : σ, (Input.items input).length < turns input)
    (depth : Nat) (p : Grammar σ τ υ ρ α) (hp : p.Everywhere Shrinking) :
    (parserAt rules turns depth p).Shrinks ∧ (parserAt rules turns depth p).Halts depth := by
  have hnested {α : Type} {q : Parser σ υ α} (h : q.Shrinks) : (Parser.nested q).Shrinks :=
    h.nested Result.shrinks_invariant
  induction depth generalizing α with
  | zero =>
    exact (halts_congruence hturns 0).meaning _ (fun _ => Parser.exhausted) hrules
      (fun _ _ => ⟨hnested Parser.keeps_exhausted, Parser.halts_nested_zero _⟩) p hp
  | succ depth ih =>
    exact (halts_congruence hturns (depth + 1)).meaning _ (fun _ => Parser.exhausted) hrules
      (fun q hq => ⟨hnested (ih q hq).1, (ih q hq).2.nested⟩) p hp

/-- Under a limit on nesting every run comes to an end, and to the same one within all budgets that
reach down to the limit and leave each repetition one turn more than there are items where it
starts. A turn is one application of the body, and all turns but the last are the steps of a run of
the body: no run has more steps than there are items. -/
theorem ends_within_limit {rules : Rules σ τ υ ρ}
    (hrules : ∀ i, (rules i).Everywhere Shrinking) {p : Grammar σ τ υ ρ α}
    (hp : p.Everywhere Shrinking) {context : Context} {limit : Nat}
    (hlimit : context.limit = some limit) (hlevel : context.level ≤ limit) (state : State σ υ) :
    (∃ outcome, outcome ≠ .exhausted ∧ ∀ budget : Budget σ,
      (∀ input : σ, (Input.items input).length + 1 ≤ budget.turns input) →
        limit - context.level ≤ budget.depth → p.parser rules budget context state = outcome) ∧
    p.Everywhere (LoopsWithinInput rules) ∧ ∀ i, (rules i).Everywhere (LoopsWithinInput rules) := by
  have hloops {β : Type} (q : Grammar σ τ υ ρ β) (hq : q.Everywhere Shrinking) :
      LoopsWithinInput rules q := by
    intro γ body hbody budget context start steps last hrun
    have hbounded := (parser_shrinks hrules budget
      (hbody.everywhere_shrinking hq)).length_add_left_le hrun
    omega
  refine ⟨?_, hp.imp hloops, fun i => (hrules i).imp hloops⟩
  let tight : Budget σ := ⟨fun input => (Input.items input).length + 1, limit - context.level⟩
  have hwithin : context.Within tight.depth := ⟨limit, hlimit, hlevel, by simp only [tight]; omega⟩
  have hne : p.parser rules tight context state ≠ .exhausted :=
    (parserAt_halts hrules (fun _ => Nat.lt_succ_self _) tight.depth p hp).2 context hwithin state
  refine ⟨p.parser rules tight context state, hne, fun budget hturns hdepth => ?_⟩
  have happroximates : (p.parser rules tight).Approximates (p.parser rules budget) :=
    parser_approximates hturns hdepth p
  exact (happroximates context state).eq_of_ne_exhausted hne

/-- A rule that enters itself before it reads anything. Below the third level it is refused, and
only the second alternative is left there. -/
theorem left_recursion_ends :
    let sum : Grammar (List Char) Char Unit (fun _ : Unit => Char) Char :=
      .choice (.discardRight (.rule ()) (Chars.satisfy (· == 'a'))) (Chars.satisfy (· == 'b'))
    let start : State (List Char) Unit := ⟨['b', 'a', 'a', 'a'], (), .initial "f"⟩
    let rules : Rules (List Char) Char Unit (fun _ : Unit => Char) := fun _ => sum
    (∀ i, (rules i).Everywhere Shrinking) ∧ (many sum).Everywhere Shrinking ∧
      ∃ outcome, outcome ≠ .exhausted ∧ ∀ budget : Budget (List Char),
        (∀ input, input.length + 1 ≤ budget.turns input) → 3 ≤ budget.depth →
          (many sum).parser rules budget (.start (some 3)) start = outcome := by
  intro sum start rules
  have hsum : sum.Everywhere Shrinking :=
    ⟨trivial, ⟨trivial, trivial, trivial⟩, trivial⟩
  have hrules : ∀ i, (rules i).Everywhere Shrinking := fun _ => hsum
  have hmany : (many sum).Everywhere Shrinking := ⟨trivial, hsum⟩
  have hlimit : (Context.start (some 3)).limit = some 3 := rfl
  exact ⟨hrules, hmany, (ends_within_limit hrules hmany hlimit (by decide) start).1⟩

end Grammar

end Parsing
