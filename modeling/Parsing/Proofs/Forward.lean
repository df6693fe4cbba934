import Parsing.Proofs.Advance
import Parsing.Proofs.Invariant
import Parsing.Proofs.Merge

/-!
# Positions that never go back

If the tokens of a grammar never move a position backwards, nothing that a run reports lies before
the place where it started. What is more, a hint without messages never lies before the end of its
success. The labels of an empty list take the messages of a hint away, but only from a success that
has read nothing, and that one ends where it started.
-/

namespace Parsing

variable {σ τ υ α β : Type}

/-- Seen from `s`, a success ends at `s` or past it, and what is reported lies there too. A success
that has read nothing ends at `s`, and a hint without messages does not lie before the end. -/
inductive Result.Forward : {α : Type} → State σ υ → Result σ υ α → Prop where
  | success {α : Type} {s t : State σ υ} {tag : Tag} {output : α} {hint : ParseError}
      (hend : s.position ≤ t.position) (hempty : tag = .empty → t.position = s.position)
      (hhint : s.position ≤ hint.position)
      (hunknown : hint.isUnknown = true → t.position ≤ hint.position) :
      Forward s ⟨tag, .success output t hint⟩
  | failure {α : Type} {s : State σ υ} {tag : Tag} {error : ParseError}
      (herror : s.position ≤ error.position) :
      Forward s (⟨tag, .failure error⟩ : Result σ υ α)

namespace Result

open ParseError (position_le_merge_left position_le_merge_right le_position_merge)

variable {s t : State σ υ} {result : Result σ υ α}

theorem forward_accept (output : α) (h : t.position = s.position) :
    (accept output t).Forward s :=
  .success h.ge (fun _ => h) h.ge fun _ => le_refl _

/-- A token reports nothing but the place where it ends. -/
theorem forward_consumed (output : α) (h : s.position ≤ t.position) :
    Forward s ⟨.consumed, .success output t (.unknown t.position)⟩ :=
  .success h (fun htag => by cases htag) h fun _ => le_refl _

theorem Forward.error (h : result.Forward s) : s.position ≤ result.reply.error.position := by
  cases h with
  | success _ _ hhint _ => exact hhint
  | failure herror => exact herror

/-- What happens behind a step to `t`, seen from where that step began. -/
theorem Forward.behind {tag : Tag} {hint : ParseError} (h : result.Forward t)
    (hend : s.position ≤ t.position) (hempty : tag = .empty → t.position = s.position)
    (hhint : s.position ≤ hint.position) : (result.behind tag hint).Forward s := by
  cases h with
  | @success last tag' output hint' hend' hempty' hhint' hunknown' =>
    have hlast := hend.trans hend'
    have hreported := hend.trans hhint'
    cases tag' with
    | empty =>
      have hstay := hempty' rfl
      refine .success hlast (fun htag => ?_) (le_position_merge hhint hreported) fun hmerge => ?_
      · rw [hstay, hempty htag]
      · -- neither of the two errors has messages, so the merged one does not lie before either
        have hmerged := position_le_merge_right hmerge
        rw [hstay]
        exact hhint'.trans hmerged
    | consumed => exact .success hlast (fun htag => by cases htag) hreported hunknown'
  | @failure tag' error herror =>
    have hreported := hend.trans herror
    cases tag' with
    | empty => exact .failure (le_position_merge hhint hreported)
    | consumed => exact .failure hreported

theorem forward_invariant : Invariant (σ := σ) (υ := υ) Forward where
  accept output s t _ hposition := forward_accept output hposition
  reject _ _ := .failure (le_refl _)
  map f _ _ h := by
    cases h with
    | success hend hempty hhint hunknown => exact .success hend hempty hhint hunknown
    | failure herror => exact .failure herror
  failure h := .failure h.error
  behind h h' := by
    cases h with
    | success hend hempty hhint hunknown => exact h'.behind hend hempty hhint
  instead h h' := h'.behind (le_refl _) (fun _ => rfl) h.error
  hinted h h' := by
    cases h with
    | success hend hempty hhint hunknown =>
      refine .success hend hempty (le_position_merge hhint h'.error) fun hmerge => ?_
      have hstay := hempty rfl
      have hmerged := position_le_merge_left hmerge
      rw [hstay]
      exact hhint.trans hmerged
  labeled names _ _ h := by
    cases h with
    | @success _ tag _ _ hend hempty hhint hunknown =>
      cases tag with
      | empty =>
        -- without a label the hint loses its messages, wherever it lies
        have hstay := hempty rfl
        refine .success hend hempty hhint fun _ => ?_
        rw [hstay]
        exact hhint
      | consumed => exact .success hend hempty hhint hunknown
    | @failure tag error herror => cases tag <;> exact .failure herror
  rewound h := by
    cases h with
    | @success _ tag _ _ hend hempty hhint hunknown =>
      cases tag <;> exact .success hend hempty hhint hunknown
    | @failure tag error herror => cases tag <;> exact .failure herror
  stop _ h := .success (le_refl _) (fun _ => rfl) h.error fun _ => h.error

end Result

/-! ## Parsers -/

namespace Parser

open Outcome (ensures_returned ensures_fault)

/-- The results of the parser never go back. -/
abbrev Forward (p : Parser σ υ α) : Prop :=
  p.Keeps Result.Forward

variable [Input σ τ]

theorem forward_token {shown : τ → String} {next : Position → τ → σ → Option Position}
    {test : τ → Option α}
    (hnext : ∀ position item rest after, next position item rest = some after → position ≤ after) :
    (token shown next test : Parser σ υ α).Forward := by
  intro context state
  unfold token
  split
  · exact ensures_returned.2 (.failure (le_refl _))
  · rename_i item rest huncons
    split
    · exact ensures_returned.2 (.failure (le_refl _))
    · cases hafter : next state.position item rest with
      | none => exact ensures_fault _ _
      | some after =>
        have hle := hnext state.position item rest after hafter
        exact ensures_returned.2 (Result.forward_consumed _ hle)

theorem forward_tokens [DecidableEq τ] {shown : List τ → String}
    {next : Position → List τ → Option Position} {expected : List τ}
    (hnext : ∀ position after, next position expected = some after → position ≤ after) :
    (tokens shown next expected : Parser σ υ (List τ)).Forward := by
  intro context state
  unfold tokens
  split
  · exact ensures_returned.2 (Result.forward_accept [] rfl)
  · split
    · cases hafter : next state.position expected with
      | none => exact ensures_fault _ _
      | some after =>
        have hle := hnext state.position after hafter
        exact ensures_returned.2 (Result.forward_consumed _ hle)
    · exact ensures_returned.2 (.failure (le_refl _))

end Parser

/-! ## Grammars -/

namespace Grammar

variable {ι : Type} {ρ : ι → Type}

/-- What a node may be for its parser never to go back: the position after a token is not before the
one where it starts, and there are no functions on the whole state and no parsers by hand. -/
def Forward : {α : Type} → Grammar σ τ υ ρ α → Prop
  | _, .token _ next _ =>
    ∀ position item rest after, next position item rest = some after → position ≤ after
  | _, .tokens _ next expected =>
    ∀ position after, next position expected = some after → position ≤ after
  | _, .updateState _ => False
  | _, .ofParser _ => False
  | _, _ => True

variable [Input σ τ] [DecidableEq τ]

theorem forward_closed : Closed (σ := σ) (τ := τ) (υ := υ) (ρ := ρ) Forward Parser.Forward :=
  closed_of_invariant Result.forward_invariant (fun h => Parser.forward_token h)
    (fun h => Parser.forward_tokens h) (fun h => h.elim) fun h => h.elim

theorem parser_forward {rules : Rules σ τ υ ρ} (hrules : ∀ i, (rules i).Everywhere Forward)
    (budget : Budget σ) {p : Grammar σ τ υ ρ α} (hp : p.Everywhere Forward) :
    (p.parser rules budget).Forward :=
  forward_closed.parser Parser.keeps_exhausted (Parser.Keeps.nested Result.forward_invariant) hrules
    budget hp

end Grammar

end Parsing
