import Parsing.Chars.Lexeme
import Parsing.Proofs.Advance
import Parsing.Proofs.Invariant
import Parsing.Proofs.Merge

/-!
# Accounting for the input

A success has read a beginning of the input: what is left is the input without it, the position has
moved over each of its items, and the tag says whether it is empty. Errors and hints lie where some
beginning of the input leads. Nothing checks this in a run; each way of putting parsers together
computes its tag from those of its parts.

The main statement is about grammars whose token parsers move the position over the items that they
accept, and that neither replace the state nor contain parsers given by hand.
-/

namespace Parsing

variable {σ τ υ α β : Type} [Input σ τ]

/-- An input that begins with some items consists of these and of what follows them. -/
theorem Agreement.items_of_compare_eq_whole [LawfulInput σ] [DecidableEq τ] {wanted : List τ}
    {matched : Nat} {input rest : σ} (h : Agreement.compare wanted matched input = .whole rest) :
    Input.items input = wanted ++ Input.items rest := by
  induction wanted generalizing matched input with
  | nil =>
    cases h
    rfl
  | cons item wanted ih =>
    unfold Agreement.compare at h
    split at h
    · contradiction
    · rename_i found next huncons
      split at h
      · rename_i heq
        rw [Input.items_of_uncons?_some huncons, heq, ih h, List.cons_append]
      · contradiction

variable [Spaced τ]

namespace State

/-- Reading the items `read` leads from the state `s` to the state `t`. -/
structure Reads (s : State σ υ) (read : List τ) (t : State σ υ) : Prop where
  /-- What is left at `t` are the items that follow. -/
  items : Input.items s.input = read ++ Input.items t.input
  /-- The position has moved over each of the items. -/
  position : s.position.afterAll read = some t.position

/-- Some beginning of the input leads from the state `s` to the position `p`. -/
def Sees (s : State σ υ) (p : Position) : Prop :=
  ∃ read rest : List τ, Input.items s.input = read ++ rest ∧ s.position.afterAll read = some p

variable {s t u : State σ υ} {read more : List τ} {p : Position}

theorem reads_nil (s : State σ υ) : s.Reads ([] : List τ) s :=
  ⟨rfl, rfl⟩

theorem Reads.trans (h : s.Reads read t) (h' : t.Reads more u) : s.Reads (read ++ more) u := by
  constructor
  · rw [h.items, h'.items, List.append_assoc]
  · rw [Position.afterAll_append, h.position]
    exact h'.position

theorem sees_position (s : State σ υ) : s.Sees s.position :=
  ⟨[], _, rfl, rfl⟩

theorem Reads.sees (h : s.Reads read t) (hp : t.Sees p) : s.Sees p := by
  obtain ⟨more, rest, hitems, hposition⟩ := hp
  refine ⟨read ++ more, rest, ?_, ?_⟩
  · rw [h.items, hitems, List.append_assoc]
  · rw [Position.afterAll_append, h.position]
    exact hposition

theorem Reads.sees_position (h : s.Reads read t) : s.Sees t.position :=
  h.sees t.sees_position

theorem Sees.merge {a b : ParseError} (ha : s.Sees a.position) (hb : s.Sees b.position) :
    s.Sees (a.merge b).position := by
  rcases ParseError.position_merge a b with h | h
  · rw [h]; exact ha
  · rw [h]; exact hb

end State

/-! ## Results -/

/-- A result says truly what was read from the state `s`. -/
inductive Result.Accounted (s : State σ υ) : Result σ υ α → Prop where
  /-- A success went on to a later state; its tag says whether that state is later at all. -/
  | success {tag : Tag} {output : α} {t : State σ υ} {hint : ParseError} {read : List τ}
      (hread : s.Reads read t) (htag : tag = .empty ↔ read = []) (hhint : s.Sees hint.position) :
      Accounted s ⟨tag, .success output t hint⟩
  /-- A failure lies where some beginning of the input leads. -/
  | failure {tag : Tag} {error : ParseError} (herror : s.Sees error.position) :
      Accounted s ⟨tag, .failure error⟩

namespace Result

variable {s t : State σ υ} {result : Result σ υ α}

theorem Accounted.error (h : result.Accounted s) : s.Sees result.reply.error.position := by
  cases h with
  | success _ _ hhint => exact hhint
  | failure herror => exact herror

theorem accounted_accept (output : α) (hinput : t.input = s.input)
    (hposition : t.position = s.position) : (accept output t).Accounted s := by
  have hread : s.Reads [] t := ⟨by rw [hinput, List.nil_append], by rw [hposition]; rfl⟩
  exact .success hread (by simp) hread.sees_position

/-- What happens behind the items that led to `t`, seen from where these items began. -/
theorem Accounted.behind {tag : Tag} {read : List τ} {hint : ParseError} (h : result.Accounted t)
    (hread : s.Reads read t) (htag : tag = .empty ↔ read = []) (hhint : s.Sees hint.position) :
    (behind tag hint result).Accounted s := by
  cases h with
  | @success tag' _ _ _ more hmore htag' hhint' =>
    cases tag' with
    | empty =>
      have hnil : more = [] := htag'.1 rfl
      exact .success (hread.trans hmore) (by simp [htag, hnil]) (hhint.merge (hread.sees hhint'))
    | consumed =>
      have hne : more ≠ [] := fun h => by simpa using htag'.2 h
      exact .success (hread.trans hmore) (by simp [hne]) (hread.sees hhint')
  | @failure tag' _ herror =>
    cases tag' with
    | empty => exact .failure (hhint.merge (hread.sees herror))
    | consumed => exact .failure (hread.sees herror)

theorem accounted_invariant : Invariant (σ := σ) (υ := υ) fun s result => Accounted s result where
  accept output s t := accounted_accept output
  reject _ s := .failure s.sees_position
  map f _ _ h := by
    cases h with
    | success hread htag hhint => exact .success hread htag hhint
    | failure herror => exact .failure herror
  failure h := .failure h.error
  behind h h' := by
    cases h with
    | success hread htag hhint => exact h'.behind hread htag hhint
  instead {_ s _ _} h h' := h'.behind s.reads_nil (by simp) h.error
  hinted h h' := by
    cases h with
    | success hread htag hhint => exact .success hread htag (hhint.merge h'.error)
  labeled names _ _ h := by
    cases h with
    | @success tag _ _ _ _ hread htag hhint => cases tag <;> exact .success hread htag hhint
    | @failure tag _ herror => cases tag <;> exact .failure herror
  rewound h := by
    cases h with
    | @success tag _ _ _ _ hread htag hhint => cases tag <;> exact .success hread htag hhint
    | @failure tag _ herror => cases tag <;> exact .failure herror
  stop {_ _ s _} _ h := .success s.reads_nil (by simp) h.error

end Result

/-! ## Parsers -/

/-- Every result of the parser says truly what was read. -/
def Parser.Accounts (p : Parser σ υ α) : Prop :=
  ∀ context state, (p context state).Ensures (·.Accounted state)

namespace Parser

open Outcome (ensures_returned ensures_fault)

variable {p : Parser σ υ α}

theorem accounts_nested (hp : p.Accounts) : (nested p).Accounts :=
  Keeps.nested Result.accounted_invariant hp

variable [LawfulInput σ]

theorem accounts_token {shown : τ → String} {next : Position → τ → σ → Option Position}
    {test : τ → Option α}
    (hnext : ∀ position item rest, (test item).isSome → next position item rest =
      Spaced.after position item) :
    (token shown next test : Parser σ υ α).Accounts := by
  intro context state
  unfold token
  split
  · exact ensures_returned.2 (.failure state.sees_position)
  · rename_i item rest huncons
    split
    · exact ensures_returned.2 (.failure state.sees_position)
    · rename_i output htest
      rw [hnext _ _ _ (by simp [htest])]
      cases hafter : Spaced.after state.position item with
      | none => exact ensures_fault _ _
      | some position =>
        have hread : state.Reads [item] ⟨rest, state.user, position⟩ :=
          ⟨Input.items_of_uncons?_some huncons, by rw [Position.afterAll_singleton, hafter]⟩
        exact ensures_returned.2 (.success hread (by simp) hread.sees_position)

theorem accounts_tokens [DecidableEq τ] {shown : List τ → String}
    {next : Position → List τ → Option Position} {expected : List τ}
    (hnext : expected ≠ [] → ∀ position : Position,
      next position expected = position.afterAll expected) :
    (tokens shown next expected : Parser σ υ (List τ)).Accounts := by
  intro context state
  unfold tokens
  split
  · exact ensures_returned.2 (Result.accounted_accept [] rfl rfl)
  · rename_i hexpected
    split
    · rename_i rest hwhole
      have hne : expected ≠ [] := fun h => hexpected (by simp [h])
      rw [hnext hne]
      cases hafter : state.position.afterAll expected with
      | none => exact ensures_fault _ _
      | some position =>
        have hread : state.Reads expected ⟨rest, state.user, position⟩ :=
          ⟨Agreement.items_of_compare_eq_whole hwhole, hafter⟩
        exact ensures_returned.2 (.success hread (by simp [hne]) hread.sees_position)
    · exact ensures_returned.2 (.failure state.sees_position)

end Parser

/-! ## Grammars -/

namespace Grammar

variable {ι : Type} {ρ : ι → Type}

/-- What a node may be for its parser to account for the input: a token parser moves the position
over the items that it accepts, and no other node touches the position or the input. -/
def Advancing : {α : Type} → Grammar σ τ υ ρ α → Prop
  | _, .token _ next test => ∀ position item rest, (test item).isSome →
    next position item rest = Spaced.after position item
  | _, .tokens _ next expected => expected ≠ [] → ∀ position : Position,
    next position expected = position.afterAll expected
  | _, .updateState _ => False
  | _, .ofParser _ => False
  | _, _ => True

variable [LawfulInput σ] [DecidableEq τ]

theorem accounts_closed :
    Closed (σ := σ) (τ := τ) (υ := υ) (ρ := ρ) Advancing Parser.Accounts :=
  closed_of_invariant Result.accounted_invariant (fun h => Parser.accounts_token h)
    (fun h => Parser.accounts_tokens h) (fun h => h.elim) fun h => h.elim

/-- Whatever a grammar reads, the result accounts for it: a success has read a beginning of the
input, has moved the position over it, and is tagged by whether it is empty; an error or a hint lies
where some beginning of the input leads, which is never before the start; and the positions carry
the name of the source. -/
theorem result_accounts_for_input [LawfulSpaced τ] {rules : Rules σ τ υ ρ}
    (hrules : ∀ i, (rules i).Everywhere Advancing) {p : Grammar σ τ υ ρ α}
    (hp : p.Everywhere Advancing) {budget : Budget σ} {context : Context} {state : State σ υ}
    {result : Result σ υ α} (hrun : p.parser rules budget context state = .returned result) :
    (∀ output rest hint, result.reply = .success output rest hint →
      ∃ read : List τ, Input.items state.input = read ++ Input.items rest.input ∧
        state.position.afterAll read = some rest.position ∧
        (result.tag = .empty ↔ read = []) ∧ (result.tag = .consumed ↔ read ≠ []) ∧
        rest.position.name = state.position.name) ∧
    (∃ read rest : List τ, Input.items state.input = read ++ rest ∧
      state.position.afterAll read = some result.reply.error.position) ∧
    state.position ≤ result.reply.error.position ∧
    result.reply.error.position.name = state.position.name := by
  have haccounted : result.Accounted state :=
    accounts_closed.parser (fun _ _ => Outcome.ensures_exhausted _) Parser.accounts_nested hrules
      budget hp context state result hrun
  obtain ⟨read, rest, hitems, hposition⟩ := haccounted.error
  refine ⟨fun output rest hint hreply => ?_, ⟨read, rest, hitems, hposition⟩,
    Position.le_of_afterAll hposition, Position.name_of_afterAll hposition⟩
  cases haccounted with
  | @success tag _ _ _ read hread htag _ =>
    cases hreply
    have hconsumed : tag = .consumed ↔ read ≠ [] := by
      rw [Ne, ← htag]
      cases tag <;> simp
    exact ⟨read, hread.items, hread.position, htag, hconsumed,
      Position.name_of_afterAll hread.position⟩
  | failure _ => cases hreply

theorem parens_advancing :
    (Chars.parens : Grammar (List Char) Char Unit _ Nat).Everywhere Advancing :=
  ⟨trivial, ⟨trivial, trivial, ⟨trivial, fun _ _ _ _ => rfl, trivial⟩, fun _ _ _ _ => rfl⟩, trivial⟩

/-- Two parentheses, one inside the other, are read up to what follows them. -/
theorem parens_account_for_input :
    let start : State (List Char) Unit := ⟨['(', '(', ')', ')', 'x'], (), .initial "f"⟩
    let stop : Position := ⟨"f", .first, ⟨5, by decide, by decide⟩⟩
    Chars.parens.parser Chars.parensRules ⟨List.length, 3⟩ (.start (some 3)) start =
        .returned ⟨.consumed, .success 2 ⟨['x'], (), stop⟩ (.unknown stop)⟩ ∧
      ∃ read : List Char, start.input = read ++ ['x'] ∧
        start.position.afterAll read = some stop ∧ read ≠ [] ∧ stop.name = "f" := by
  intro start stop
  have hrun : Chars.parens.parser Chars.parensRules ⟨List.length, 3⟩ (.start (some 3)) start =
      .returned ⟨.consumed, .success 2 ⟨['x'], (), stop⟩ (.unknown stop)⟩ := rfl
  obtain ⟨read, hitems, hposition, -, htag, hname⟩ :=
    (result_accounts_for_input (fun _ => parens_advancing) parens_advancing hrun).1 _ _ _ rfl
  exact ⟨hrun, read, hitems, hposition, htag.1 rfl, hname⟩

end Grammar

end Parsing
