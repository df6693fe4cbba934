import Parsing.Chars.Lexeme
import Parsing.Proofs.Link

/-!
# The user value

A state carries a value for the grammar. What reads items, puts parsers together or goes back to an
earlier state takes the value along, and never looks at it. So a grammar that does not use the value
itself runs in the same way whatever the value is, and every success hands it back as it was,
however often the run has gone back to an earlier state.
-/

namespace Parsing

variable {σ τ υ υ' α : Type}

/-- The state with another user value. -/
def State.withUser (user : υ') (s : State σ υ) : State σ υ' :=
  ⟨s.input, user, s.position⟩

/-- The result with another user value in its state. -/
def Result.withUser (user : υ') (result : Result σ υ α) : Result σ υ' α :=
  match result.reply with
  | .success output state hint => ⟨result.tag, .success output (state.withUser user) hint⟩
  | .failure error => ⟨result.tag, .failure error⟩

/-- A parser that knows of no user value, run where there is one. -/
def Parser.keepingUser (p : Parser σ Unit α) : Parser σ υ α :=
  fun context state => (p context (state.withUser ())).map (·.withUser state.user)

/-! ## States that differ in the user value -/

/-- The states hold one value and the other, and are the same apart from that. -/
structure State.Differ (user user' : υ) (s t : State σ υ) : Prop where
  left : s.user = user
  right : t.user = user'
  input : s.input = t.input
  position : s.position = t.position

namespace State

variable {user user' : υ} {s t : State σ υ}

theorem Differ.withUser_eq (h : Differ user user' s t) (other : υ') :
    s.withUser other = t.withUser other := by
  rw [withUser, withUser, h.input, h.position]

theorem Differ.eq_withUser (h : Differ user user' s t) : t = s.withUser user' := by
  obtain ⟨input, held, position⟩ := t
  obtain ⟨-, rfl, rfl, rfl⟩ := h
  rfl

end State

/-- Runs with one user value and with another one, which report the same. -/
def Link.users (user user' : υ) : Link σ υ σ υ :=
  .atOnePlace (State.Differ user user') fun h => h.position

variable {user user' : υ}

/-- What is the same but for the user value is made of the one by putting in the other. -/
theorem Result.Linked.eq_withUser {result result' : Result σ υ α}
    (h : result.Linked (.users user user') result') : result' = result.withUser user' := by
  cases h with
  | success hstate hhint =>
    cases hhint
    rw [hstate.eq_withUser]
    rfl
  | failure herror =>
    cases herror
    rfl

theorem Result.Linked.user_eq {result result' : Result σ υ α}
    (h : result.Linked (.users user user') result') (output : α) (next : State σ υ)
    (hvalue : result.reply.value? = some (output, next)) : next.user = user := by
  cases h with
  | success hstate _ =>
    cases hvalue
    exact hstate.left
  | failure _ => cases hvalue

namespace Parser

/-- Both runs of the parser are the same run, with one value put in and with the other. -/
theorem linked_keepingUser (p : Parser σ Unit α) :
    Linked (.users user user') p.keepingUser p.keepingUser := by
  intro context s t hst
  unfold keepingUser
  rw [hst.withUser_eq ()]
  have hsame : (p context (t.withUser ())).Follows (fun _ => False) Eq Eq
      (p context (t.withUser ())) := Outcome.follows_refl (fun _ => rfl) (fun _ => rfl) _
  refine hsame.map ?_
  rintro ⟨tag, reply⟩ _ rfl
  cases reply with
  | success output next hint => exact .success ⟨hst.left, hst.right, rfl, rfl⟩ rfl
  | failure error => exact .failure rfl

/-- The user value has no part in the step behind items. -/
theorem passed_of_differ {s t : State σ υ} (h : State.Differ user user' s t) (output : α) (rest : σ)
    (position? : Option Position) :
    (passed output rest s.user position?).Follows (fun _ => False) Eq
      (Result.Linked (.users user user')) (passed output rest t.user position?) := by
  cases position? with
  | none => exact .fault rfl
  | some position => exact .returned (.success ⟨h.left, h.right, rfl, rfl⟩ rfl)

end Parser

namespace Grammar

variable {ι : Type} {ρ : ι → Type}

/-- What a node may be if it has no use for the user value: it does not ask for the value or for the
whole state, it does not change them, and a parser that is given by hand keeps the value. -/
def IgnoresUser : {α : Type} → Grammar σ τ υ ρ α → Prop
  | _, .getUser | _, .modifyUser _ | _, .getState | _, .updateState _ => False
  | α, .ofParser p => ∃ q : Parser σ Unit α, p = q.keepingUser
  | _, _ => True

variable [Input σ τ] [DecidableEq τ]

theorem ignoresUser_congruence (user user' : υ) (turns : σ → Nat) :
    Congruence (σ := σ) (τ := τ) (υ := υ) (ρ := ρ) IgnoresUser turns turns
      (Parser.Linked (.users user user')) := by
  refine congruence_of_link turns (fun h => h.input) ?_ ?_ (fun h => h.elim)
    (fun _ _ _ h => h.position) (fun h => h.elim) (fun h => h.elim) (fun h => h.elim) ?_
  · intro β shown next test _ s t hst item rest output _
    rw [hst.position]
    exact Parser.passed_of_differ hst output rest _
  · intro shown next expected _ _ s t hst rest
    rw [hst.position]
    exact Parser.passed_of_differ hst expected rest _
  · rintro β _ ⟨q, rfl⟩
    exact Parser.linked_keepingUser q

/-- A run with one user value is the run with another one, with the one put in for the other: both
stop at the same fault, or both return the same, errors, hints and what is left of the input
included. And every success hands back the value with which the run has started. -/
theorem user_value_is_opaque {rules : Rules σ τ υ ρ}
    (hrules : ∀ i, (rules i).Everywhere IgnoresUser) {p : Grammar σ τ υ ρ α}
    (hp : p.Everywhere IgnoresUser) (budget : Budget σ) (context : Context) (input : σ)
    (position : Position) (user user' : υ) :
    (p.parser rules budget context ⟨input, user', position⟩ =
      (p.parser rules budget context ⟨input, user, position⟩).map (·.withUser user')) ∧
    (p.parser rules budget context ⟨input, user, position⟩).Ensures fun result =>
      ∀ output next, result.reply.value? = some (output, next) → next.user = user := by
  have hstart : State.Differ user user' (⟨input, user, position⟩ : State σ υ)
      ⟨input, user', position⟩ := ⟨rfl, rfl, rfl, rfl⟩
  have hlinked : Parser.Linked (.users user user')
      (p.parser rules budget) (p.parser rules budget) :=
    (ignoresUser_congruence user user' budget.turns).at_depth Parser.linked_exhausted
      Parser.Linked.nested hrules budget.depth p hp
  have hboth := (hlinked context hstart).both
  exact ⟨hboth.eq_map fun _ _ h => h.eq_withUser, hboth.ensures fun _ _ h => h.user_eq⟩

/-- Parentheses that are read twice, first only to look ahead, with a text as the user value. Behind
them a parser by hand gives the nest level. -/
theorem parens_ignore_text :
    let level : Parser (List Char) Unit Nat := fun context state =>
      .returned (.accept context.level state)
    let twice : Grammar (List Char) Char String (fun _ : Unit => Nat) Nat :=
      .discardLeft (.lookAhead Chars.parens)
        (.discardLeft Chars.parens (.ofParser level.keepingUser))
    let run := fun user : String => twice.parser Chars.parensRules ⟨List.length, 3⟩ (.start none)
      ⟨['(', '(', ')', ')', 'x'], user, .initial "f"⟩
    twice.Everywhere IgnoresUser ∧ run "b" = (run "a").map (·.withUser "b") ∧
      (run "a").Ensures fun result =>
        ∀ output next, result.reply.value? = some (output, next) → next.user = "a" := by
  intro level twice run
  have hparens :
      (Chars.parens : Grammar (List Char) Char String (fun _ : Unit => Nat) Nat).Everywhere
        IgnoresUser :=
    ⟨trivial, ⟨trivial, trivial, ⟨trivial, trivial, trivial⟩, trivial⟩, trivial⟩
  have htwice : twice.Everywhere IgnoresUser :=
    ⟨trivial, ⟨trivial, hparens⟩, trivial, hparens, level, rfl⟩
  exact ⟨htwice, user_value_is_opaque (fun _ => hparens) htwice _ _ _ _ "a" "b"⟩

end Grammar

end Parsing
