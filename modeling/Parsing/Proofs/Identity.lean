import Parsing.Chars.Lexeme
import Parsing.Input.Items
import Parsing.Proofs.Forward
import Parsing.Proofs.Sequencing
import Parsing.Proofs.Shrinking

/-!
# Steps that do nothing may be left out

A success that reads nothing is neutral in a sequence, a failure without a message is neutral among
alternatives, and a repetition is nothing, or one turn followed by the rest of the turns. This holds
of complete results. What is put in reports an error without messages, and such an error would be
kept if it lay further on than the one it is merged with; that it never does is `Result.Forward`.

Where it comes first it gives the name of its source to an error at the same line and column, and
results are the same up to that name. All other laws are equations.
-/

namespace Parsing

variable {σ τ υ α β γ δ : Type}

open Outcome (ensures_returned)

/-- The results are the same, except for the name of the source in what they report. -/
def Result.Same (result result' : Result σ υ α) : Prop :=
  result.tag = result'.tag ∧ result.reply.value? = result'.reply.value? ∧
    (result.reply.error == result'.reply.error) = true

namespace Result

theorem same_refl (result : Result σ υ α) : result.Same result :=
  ⟨rfl, rfl, ParseError.beq_self _⟩

theorem map_behind (f : α → β) (tag : Tag) (earlier : ParseError) (result : Result σ υ α) :
    (result.behind tag earlier).map f = (result.map f).behind tag earlier := by
  obtain ⟨_ | _, reply⟩ := result <;> cases reply <;> rfl

theorem orElse_of_consumed {first : Result σ υ α} (h : first.tag = .consumed)
    (second : Unit → Outcome (Result σ υ α)) : first.orElse second = .returned first := by
  obtain ⟨tag, reply⟩ := first
  cases h
  rfl

/-- What has read input is not followed by an alternative. -/
theorem map_behind_bind_orElse (o : Outcome (Result σ υ α)) (hint : ParseError)
    (second : Unit → Outcome (Result σ υ α)) :
    ((o.map (behind .consumed hint)).bind fun first => first.orElse second) =
      o.map (behind .consumed hint) := by
  cases o with
  | returned result => exact orElse_of_consumed (tag_behind_consumed hint result) second
  | fault f => rfl
  | exhausted => rfl

variable {s : State σ υ} {result : Result σ υ α}

/-- A success that reads nothing does not change a hint that has messages or lies at its end. -/
theorem behind_accept {hint : ParseError} (tag : Tag) (output : α)
    (h : hint.isUnknown = true → s.position ≤ hint.position) :
    (accept output s).behind tag hint = ⟨tag, .success output s hint⟩ := by
  rw [behind_of_empty rfl, accept, Reply.after_success, ParseError.merge_unknown h]

/-- Nothing read and nothing reported before a step changes no more than the name of the source. -/
theorem Forward.behind_unknown (h : result.Forward s) :
    (result.behind .empty (.unknown s.position)).Same result := by
  have herror := ParseError.unknown_merge_beq h.error
  cases htag : result.tag with
  | consumed =>
    rw [behind_of_consumed htag]
    exact same_refl result
  | empty =>
    rw [behind_of_empty htag]
    refine ⟨htag.symm, Reply.value?_mapError _ _, ?_⟩
    rwa [Reply.after, Reply.error_mapError]

/-- Going on with a success that reads nothing adds nothing to what is reported. -/
theorem Forward.andThen_accept (h : result.Forward s) (f : α → β) :
    (result.andThen fun output state => .returned (.accept (f output) state)) =
      .returned (result.map f) := by
  cases h with
  | success hend hempty hhint hunknown =>
    exact congrArg Outcome.returned (behind_accept _ _ hunknown)
  | failure herror => rfl

/-- A second alternative that fails without a message adds nothing to the first one. -/
theorem Forward.orElse_reject (h : result.Forward s) :
    (result.orElse fun _ => .returned (.reject (.unknown s.position))) = .returned result := by
  have hmerge := ParseError.merge_unknown fun _ => h.error
  obtain ⟨_ | _, reply⟩ := result
  · cases reply with
    | success output state hint =>
      have hhint : hint.merge (.unknown s.position) = hint := hmerge
      simp only [orElse, Outcome.map_returned, reject, Reply.error, hhint]
    | failure error =>
      have herror : error.merge (.unknown s.position) = error := hmerge
      have hbehind : (reject (.unknown s.position)).behind .empty error =
          (reject error : Result σ υ α) := by
        rw [behind_of_empty rfl, reject, Reply.after_failure, herror, reject]
      exact congrArg Outcome.returned hbehind
  · rfl

end Result

/-! ## Parsers -/

namespace Parser

/-- The parsers have the same results, and stop at the same faults. -/
def Same (p q : Parser σ υ α) : Prop :=
  ∀ context state, (p context state).Both Result.Same (q context state)

variable {p : Parser σ υ α}

/-- Nothing read and nothing reported before a parser changes no more than the name of the
source. -/
theorem Forward.both_behind_unknown (h : p.Forward) (context : Context) (state : State σ υ) :
    ((p context state).map (Result.behind .empty (.unknown state.position))).Both Result.Same
      (p context state) := by
  have hforward := h context state
  cases hp : p context state with
  | returned result =>
    rw [hp, ensures_returned] at hforward
    exact .returned hforward.behind_unknown
  | fault f => exact .fault f
  | exhausted => exact .exhausted

theorem Forward.pure_bind {f : β → Parser σ υ α} (output : β) (h : (f output).Forward) :
    (Parser.bind (Parser.pure output) f).Same (f output) :=
  h.both_behind_unknown

theorem Forward.zero_choice (h : p.Forward) : (choice zero p).Same p :=
  h.both_behind_unknown

theorem Forward.bind_pure (h : p.Forward) (f : α → β) :
    Parser.bind p (fun output => Parser.pure (f output)) = Parser.map f p := by
  funext context state
  have hforward := h context state
  unfold Parser.bind Parser.map
  cases hp : p context state with
  | returned result =>
    rw [hp, ensures_returned] at hforward
    exact hforward.andThen_accept f
  | fault f => rfl
  | exhausted => rfl

theorem map_id (p : Parser σ υ α) : Parser.map id p = p := by
  funext context state
  unfold Parser.map
  cases p context state with
  | returned result => obtain ⟨tag, reply⟩ := result; cases reply <;> rfl
  | fault f => rfl
  | exhausted => rfl

theorem Forward.choice_zero (h : p.Forward) : choice p zero = p := by
  funext context state
  have hforward := h context state
  unfold choice
  cases hp : p context state with
  | returned result =>
    rw [hp, ensures_returned] at hforward
    exact hforward.orElse_reject
  | fault f => rfl
  | exhausted => rfl

/-! ## Repetitions -/

/-- The hint that a repetition comes with is put before what the repetition does without it. -/
theorem accumulate_hint {push : β → α → β} (context : Context) (turns : Nat) (acc : β)
    (hint : ParseError) (state : State σ υ) :
    accumulate push p context turns acc (some hint) state =
      (accumulate push p context turns acc none state).map (Result.behind .consumed hint) := by
  induction turns generalizing acc hint state with
  | zero => rfl
  | succ turns ih =>
    unfold accumulate
    cases p context state with
    | fault f => rfl
    | exhausted => rfl
    | returned result =>
      obtain ⟨_ | _, reply⟩ := result
      · cases reply <;> rfl
      · cases reply with
        | failure error => rfl
        | success output next last =>
          -- the turn replaces the hint, and what follows it has consumed input
          simp only [ih, Outcome.map_map]
          congr 1
          funext result
          exact (Result.behind_of_consumed (Result.tag_behind_consumed last result) _ _).symm

/-- So it is put before what a repetition collects without it. -/
theorem collect_hint (context : Context) (turns : Nat) (acc : List α) (hint : ParseError)
    (state : State σ υ) :
    (accumulate (fun acc output => output :: acc) p context turns acc (some hint) state).map
        (·.map List.reverse) =
      (collect turns p acc context state).map (Result.behind .consumed hint) := by
  rw [accumulate_hint, collect, Outcome.map_map, Outcome.map_map]
  simp only [Result.map_behind]

variable [Input σ τ]

/-- Two numbers of turns that exceed the number of items make no difference. -/
theorem accumulate_eq_of_left_lt {push : β → α → β} (hp : p.Shrinks) (context : Context)
    {turns turns' : Nat} (acc : β) (hint : Option ParseError) {state : State σ υ}
    (hturns : state.left < turns) (hturns' : state.left < turns') :
    accumulate push p context turns acc hint state =
      accumulate push p context turns' acc hint state := by
  induction turns generalizing turns' acc hint state with
  | zero => omega
  | succ turns ih =>
    obtain ⟨more, rfl⟩ : ∃ more, turns' = more + 1 := ⟨turns' - 1, by omega⟩
    have hbody := hp context state
    rw [accumulate, accumulate]
    cases hstep : p context state with
    | fault f => rfl
    | exhausted => rfl
    | returned result =>
      obtain ⟨_ | _, reply⟩ := result
      · cases reply <;> rfl
      · cases reply with
        | failure error => rfl
        | success output next last =>
          rw [hstep, ensures_returned] at hbody
          cases hbody with
          | success _ hlt =>
            have hless := hlt rfl
            exact ih (push acc output) (some last) (by omega) (by omega)

/-- A turn that reads input leads to what the rest of the turns do, however many each of the two may
take. -/
theorem accumulate_after_turn (hp : p.Shrinks) {turns : σ → Nat}
    (hturns : ∀ input : σ, (Input.items input).length < turns input) (context : Context)
    {more : Nat}
    (output : α) (hint : ParseError) {next : State σ υ} (hmore : next.left < more) :
    (accumulate (fun acc output => output :: acc) p context more [output] (some hint) next).map
        (·.map List.reverse) =
      (collect (turns next.input) p [output] context next).map (Result.behind .consumed hint) := by
  rw [accumulate_eq_of_left_lt hp context [output] (some hint) hmore (hturns next.input),
    collect_hint]

/-- Where the body does not succeed without reading input, a repetition is one or more turns, or
nothing. -/
theorem Forward.many_eq_choice (h : p.Forward) (hp : p.Shrinks) {turns : σ → Nat}
    (hturns : ∀ input : σ, (Input.items input).length < turns input) {context : Context}
    {state : State σ υ}
    (hne : ∀ output next hint,
      p context state ≠ .returned ⟨.empty, .success output next hint⟩) :
    many turns p context state = choice (many1 turns p) (Parser.pure []) context state := by
  have hstart : state.left < turns state.input := hturns state.input
  obtain ⟨more, hmore⟩ : ∃ more, turns state.input = more + 1 := ⟨turns state.input - 1, by omega⟩
  have hforward := h context state
  have hbody := hp context state
  rw [many, collect, hmore, accumulate]
  unfold choice many1
  cases hstep : p context state with
  | fault f => rfl
  | exhausted => rfl
  | returned result =>
    obtain ⟨_ | _, reply⟩ := result
    · cases reply with
      | success output next hint => exact absurd hstep (hne output next hint)
      | failure error =>
        rw [hstep, ensures_returned] at hforward
        have hend := Result.behind_accept .empty ([] : List α) fun _ => hforward.error
        exact congrArg Outcome.returned hend.symm
    · cases reply with
      | failure error => rfl
      | success output next hint =>
        rw [hstep, ensures_returned] at hbody
        cases hbody with
        | success _ hlt =>
          have hless := hlt rfl
          have hnext : next.left < more := by omega
          have hrest := accumulate_after_turn hp hturns context output hint hnext
          exact hrest.trans (Result.map_behind_bind_orElse _ _ _).symm

end Parser

/-! ## Grammars -/

namespace Grammar

variable {ι : Type} {ρ : ι → Type}

theorem Everywhere.shrinking [Input σ τ] {p : Grammar σ τ υ ρ α} (h : p.Everywhere Forward) :
    p.Everywhere Shrinking := by
  refine h.imp fun q hq => ?_
  cases q with
  | updateState f => exact hq.elim
  | ofParser p => exact hq.elim
  | _ => trivial

variable [Input σ τ] [DecidableEq τ]

/-- One way of entering grammars a level deeper serves all nodes of a tree. -/
theorem exists_meaning (rules : Rules σ τ υ ρ) (budget : Budget σ) :
    ∃ enter : {α : Type} → Grammar σ τ υ ρ α → Parser σ υ α, ∀ {α : Type} (p : Grammar σ τ υ ρ α),
      p.parser rules budget = meaning rules budget.turns enter p := by
  obtain ⟨turns, depth⟩ := budget
  cases depth with
  | zero => exact ⟨fun _ => Parser.nested Parser.exhausted, fun _ => rfl⟩
  | succ depth => exact ⟨fun q => Parser.nested (parserAt rules turns depth q), fun _ => rfl⟩

variable [LawfulInput σ]

/-- In a grammar whose tokens never move a position backwards, what does nothing may be put in or
left out, with the complete results: before and behind another grammar in a sequence, before and
behind it as an alternative, and as what is left of a repetition that takes no turn. -/
theorem identity_laws {rules : Rules σ τ υ ρ} (hrules : ∀ i, (rules i).Everywhere Forward)
    {p : Grammar σ τ υ ρ α} (hp : p.Everywhere Forward) {K : β → Grammar σ τ υ ρ γ}
    (hK : ∀ x, (K x).Everywhere Forward) (x : β) (f : α → δ) (budget : Budget σ) :
    ((bind (pure x) K).parser rules budget).Same ((K x).parser rules budget) ∧
      (bind p pure).parser rules budget = p.parser rules budget ∧
      (map f p).parser rules budget = (bind p fun v => pure (f v)).parser rules budget ∧
      ((choice zero p).parser rules budget).Same (p.parser rules budget) ∧
      (choice p zero).parser rules budget = p.parser rules budget ∧
      (choiceOf [p]).parser rules budget = p.parser rules budget ∧
      ((∀ input : σ, (Input.items input).length < budget.turns input) → ∀ context state,
        (∀ output next hint, p.parser rules budget context state ≠
          .returned ⟨.empty, .success output next hint⟩) →
        (many p).parser rules budget context state =
          (choice (many1 p) (pure [])).parser rules budget context state) := by
  have hforward := parser_forward hrules budget hp
  have hforwardK := parser_forward hrules budget (hK x)
  have hshrinks := parser_shrinks (fun i => (hrules i).shrinking) budget hp.shrinking
  obtain ⟨enter, hmeaning⟩ := exists_meaning rules budget
  simp only [hmeaning] at hforward hforwardK hshrinks ⊢
  refine ⟨Parser.Forward.pure_bind x hforwardK, ?_, (hforward.bind_pure f).symm,
    hforward.zero_choice, hforward.choice_zero, hforward.choice_zero, ?_⟩
  · exact (hforward.bind_pure id).trans (Parser.map_id _)
  · intro hturns context state hne
    exact hforward.many_eq_choice hshrinks hturns hne

/-- Opening parentheses that nothing closes, each with what the rule reads behind it. -/
theorem opened_parens_identity_laws :
    let opened : Grammar (List Char) Char Unit (fun _ : Unit => Nat) Nat :=
      .discardLeft (Chars.satisfy (· == '(')) (.rule ())
    let deeper : Nat → Grammar (List Char) Char Unit (fun _ : Unit => Nat) Nat :=
      fun depth => .map (· + depth) opened
    let budget : Budget (List Char) := ⟨fun input => input.length + 1, 3⟩
    let start : State (List Char) Unit := ⟨['(', '(', ')', '('], (), .initial "f"⟩
    (∀ i, (Chars.parensRules (σ := List Char) (υ := Unit) i).Everywhere Forward) ∧
      opened.Everywhere Forward ∧ (∀ x, (deeper x).Everywhere Forward) ∧
      ((bind (pure 1) deeper).parser Chars.parensRules budget).Same
        ((deeper 1).parser Chars.parensRules budget) ∧
      (∀ output next hint, opened.parser Chars.parensRules budget (.start none) start ≠
        .returned ⟨.empty, .success output next hint⟩) ∧
      (many opened).parser Chars.parensRules budget (.start none) start =
        (choice (many1 opened) (pure [])).parser Chars.parensRules budget (.start none) start := by
  intro opened deeper budget start
  have hsatisfy (accepts : Char → Bool) :
      (Chars.satisfy accepts : Grammar (List Char) Char Unit (fun _ : Unit => Nat) _).Everywhere
        Forward :=
    fun _ _ _ _ hafter => (Position.lt_of_advance hafter).le
  have hrules : ∀ i, (Chars.parensRules (σ := List Char) (υ := Unit) i).Everywhere Forward :=
    fun _ => ⟨trivial, ⟨trivial, trivial, ⟨trivial, hsatisfy _, trivial⟩, hsatisfy _⟩, trivial⟩
  have hopened : opened.Everywhere Forward := ⟨trivial, hsatisfy _, trivial⟩
  have hdeeper : ∀ x, (deeper x).Everywhere Forward := fun _ => ⟨trivial, hopened⟩
  have hne : ∀ output next hint, opened.parser Chars.parensRules budget (.start none) start ≠
      .returned ⟨.empty, .success output next hint⟩ := by
    intro output next hint h
    cases h
  have hlaws := identity_laws hrules hopened hdeeper 1 (· + 1) budget
  have hmany := hlaws.2.2.2.2.2.2 (fun _ => Nat.lt_succ_self _) (.start none) start hne
  exact ⟨hrules, hopened, hdeeper, hlaws.1, hne, hmany⟩

end Grammar

end Parsing
