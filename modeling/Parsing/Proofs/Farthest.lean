import Mathlib.Data.List.Forall2
import Parsing.Input.Items
import Parsing.Parser.Token
import Parsing.Proofs.Alternatives
import Parsing.Proofs.Groupings

/-!
# The farthest failure of a choice

Where no alternative applies, a choice merges the errors of all of them, one after the other, and
what fails at the end of the list adds an error without messages. The rank of what comes out is the
largest one, so the errors that count are those with messages that lie farthest on; each of them
keeps all its messages, in the order of the alternatives. Every way to nest choices between two over
the same list merges the same errors in another grouping.
-/

namespace Parsing

namespace ParseError

variable {e last : ParseError} {errors : List ParseError}

/-! ## Merging the errors of a list -/

theorem mem_parts_chain : e ∈ (Grouping.chain last errors).parts ↔ e ∈ last :: errors := by
  rw [Grouping.parts_chain, List.mem_append, List.mem_singleton, List.mem_cons, or_comm]

theorem rank_le_foldr_merge (errors : List ParseError) (last : ParseError) :
    ∀ e ∈ last :: errors, e.rank ≤ (errors.foldr merge last).rank := by
  intro e he
  rw [← Grouping.merged_chain]
  exact Grouping.rank_le (mem_parts_chain.2 he)

theorem foldr_merge_from (errors : List ParseError) (last : ParseError) :
    ∃ e ∈ last :: errors, e.rank = (errors.foldr merge last).rank ∧
      e.position = (errors.foldr merge last).position := by
  obtain ⟨e, he, hfrom⟩ := (Grouping.chain last errors).merged_from
  rw [Grouping.merged_chain] at hfrom
  exact ⟨e, mem_parts_chain.1 he, hfrom⟩

theorem isUnknown_foldr_merge (errors : List ParseError) (last : ParseError) :
    (errors.foldr merge last).isUnknown = (errors.all isUnknown && last.isUnknown) := by
  rw [← Grouping.merged_chain, Grouping.isUnknown_merged, Grouping.parts_chain, List.all_append]
  simp

/-! ## The errors that count -/

theorem foldr_merge_known (h : ∃ e ∈ errors, e.messages ≠ []) (last : ParseError) :
    (errors.foldr merge last).isUnknown = false := by
  obtain ⟨e, he, hmessages⟩ := h
  rw [← Grouping.merged_chain]
  exact Grouping.merged_known ⟨e, mem_parts_chain.2 (List.mem_cons_of_mem _ he), hmessages⟩

theorem position_le_foldr_merge (h : e ∈ errors) (hmessages : e.messages ≠ [])
    (last : ParseError) : e.position ≤ (errors.foldr merge last).position := by
  rw [← Grouping.merged_chain]
  exact Grouping.position_le_merged (mem_parts_chain.2 (List.mem_cons_of_mem _ h)) hmessages

/-- An error without messages behind the list is not the one that counts, if any other has
messages. -/
theorem exists_position_foldr_merge (hlast : last.isUnknown = true)
    (h : (errors.foldr merge last).isUnknown = false) :
    ∃ e ∈ errors, e.messages ≠ [] ∧ e.position = (errors.foldr merge last).position := by
  rw [← Grouping.merged_chain] at h ⊢
  obtain ⟨e, he, hmessages, hposition⟩ := Grouping.exists_position_merged h
  rcases List.mem_cons.1 (mem_parts_chain.1 he) with rfl | he
  · exact absurd (isUnknown_iff.1 hlast) hmessages
  · exact ⟨e, he, hmessages, hposition⟩

theorem messages_foldr_merge (hlast : last.messages = [])
    (h : (errors.foldr merge last).isUnknown = false) :
    (errors.foldr merge last).messages =
      (errors.filter fun e => !e.isUnknown &&
        e.position == (errors.foldr merge last).position).flatMap (·.messages) := by
  rw [← Grouping.merged_chain] at h ⊢
  have hunknown : last.isUnknown = true := isUnknown_iff.2 hlast
  rw [Grouping.messages_of_known h, Grouping.parts_chain, List.filter_append,
    List.filter_singleton, hunknown, List.flatMap_append]
  simp

end ParseError

/-! ## Alternatives that all fail -/

namespace Parser

variable {σ υ α : Type}

/-- The parser is made of the parsers of a list, in their order, by choices between two. -/
inductive Nests : List (Parser σ υ α) → Parser σ υ α → Prop where
  | single (p : Parser σ υ α) : Nests [p] p
  | choice {ps qs : List (Parser σ υ α)} {p q : Parser σ υ α} (hp : Nests ps p) (hq : Nests qs q) :
    Nests (ps ++ qs) (Parser.choice p q)

variable {p q : Parser σ υ α} {ps : List (Parser σ υ α)} {context : Context} {state : State σ υ}
  {errors : List ParseError}

theorem choice_of_reject {first second : ParseError}
    (hp : p context state = .returned (.reject first))
    (hq : q context state = .returned (.reject second)) :
    choice p q context state = .returned (.reject (first.merge second)) :=
  choice_of_returned hp hq

theorem choiceOf_of_reject
    (h : List.Forall₂ (fun e p => p context state = .returned (.reject e)) errors ps) :
    choiceOf ps context state =
      .returned (.reject (errors.foldr ParseError.merge (.unknown state.position))) := by
  induction h with
  | nil => rfl
  | cons hp _ ih => exact choice_of_reject hp ih

/-- A nesting of choices fails with what comes of the errors of its parts, grouped as they are. -/
theorem Nests.reject (hnests : Nests ps p)
    (h : List.Forall₂ (fun e p => p context state = .returned (.reject e)) errors ps) :
    ∃ g : ParseError.Grouping, g.parts = errors ∧
      p context state = .returned (.reject g.merged) := by
  induction hnests generalizing errors with
  | single p =>
    obtain ⟨error, rest, hp, hrest, rfl⟩ := List.forall₂_cons_right_iff.1 h
    cases hrest
    exact ⟨.single error, rfl, hp⟩
  | @choice ps qs p q _ _ ihp ihq =>
    obtain ⟨first, hfirst, hp⟩ := ihp (List.forall₂_take_append errors ps qs h)
    obtain ⟨second, hsecond, hq⟩ := ihq (List.forall₂_drop_append errors ps qs h)
    refine ⟨.pair first second, ?_, choice_of_reject hp hq⟩
    rw [ParseError.Grouping.parts, hfirst, hsecond, List.take_append_drop]

theorem Nests.reject_of_known (hnests : Nests ps p)
    (h : List.Forall₂ (fun e p => p context state = .returned (.reject e)) errors ps)
    {position : Position}
    (hknown : (errors.foldr ParseError.merge (.unknown position)).isUnknown = false) :
    p context state =
      .returned (.reject (errors.foldr ParseError.merge (.unknown position))) := by
  obtain ⟨g, rfl, hp⟩ := hnests.reject h
  rw [← g.merge_eq_foldr, ParseError.isUnknown_merge, ParseError.isUnknown_unknown,
    Bool.and_true] at hknown
  rw [hp, ← g.merge_eq_foldr, ParseError.merge_unknown]
  intro hunknown
  rw [hknown] at hunknown
  cases hunknown

/-- Where all alternatives fail without reading input, a choice does so too. If any of their errors
has messages, the error of the choice lies where the farthest of these lie, and has the messages of
all that lie there, in the order of the alternatives; any nesting of choices between two over the
same list has the same error. If none has messages, the error of the choice has none either, and
lies at the farthest of the start and their positions. -/
theorem choice_fails_farthest
    (h : List.Forall₂ (fun e p => p context state = .returned (.reject e)) errors ps) :
    ∃ error, choiceOf ps context state = .returned (.reject error) ∧
      ((∃ e ∈ errors, e.messages ≠ []) →
        (∃ e ∈ errors, e.messages ≠ [] ∧ e.position = error.position) ∧
        (∀ e ∈ errors, e.messages ≠ [] → e.position ≤ error.position) ∧
        error.messages =
          (errors.filter fun e => !e.isUnknown && e.position == error.position).flatMap
            (·.messages) ∧
        ∀ p, Nests ps p → p context state = .returned (.reject error)) ∧
      ((∀ e ∈ errors, e.messages = []) → error.messages = [] ∧
        error.position ∈ state.position :: errors.map (·.position) ∧
        ∀ position ∈ state.position :: errors.map (·.position), position ≤ error.position) := by
  let start := ParseError.unknown state.position
  let error := errors.foldr ParseError.merge start
  refine ⟨error, choiceOf_of_reject h, fun hsome => ?_, fun hnone => ?_⟩
  · have hknown : error.isUnknown = false := ParseError.foldr_merge_known hsome start
    refine ⟨ParseError.exists_position_foldr_merge rfl hknown,
      fun e he hmessages => ParseError.position_le_foldr_merge he hmessages start,
      ParseError.messages_foldr_merge rfl hknown, fun p hnests => ?_⟩
    exact hnests.reject_of_known h hknown
  · have hunknown : error.isUnknown = true := by
      rw [ParseError.isUnknown_foldr_merge, ParseError.isUnknown_unknown, Bool.and_true,
        List.all_eq_true]
      exact fun e he => ParseError.isUnknown_iff.2 (hnone e he)
    obtain ⟨source, hsource, -, hposition⟩ := ParseError.foldr_merge_from errors start
    have hpositions : state.position :: errors.map (·.position) =
        (start :: errors).map (·.position) := rfl
    rw [hpositions]
    refine ⟨ParseError.isUnknown_iff.1 hunknown, ?_, fun position hmem => ?_⟩
    · rw [← hposition]
      exact List.mem_map_of_mem hsource
    · obtain ⟨e, he, rfl⟩ := List.mem_map.1 hmem
      have hbelow : e.rank ≤ error.rank := ParseError.rank_le_foldr_merge errors start e he
      exact ParseError.position_le_of_isUnknown hbelow hunknown

/-- Three alternatives that fail: over a letter at the start, and over what follows the letter that
is there. They are asked in a list, and in two choices. -/
theorem letters_fail_farthest :
    let letter (wanted : Char) : Parser (List Char) Unit Char :=
      token Quoted.char (fun position c _ => position.advance c)
        fun c => if c = wanted then some c else none
    let behindA (p : Parser (List Char) Unit Char) : Parser (List Char) Unit Char :=
      attempt (discardLeft (letter 'a') p)
    let ps := [behindA (letter 'x'), letter 'y', behindA (fail "no z")]
    let start : State (List Char) Unit := ⟨['a', 'b'], (), .initial "f"⟩
    let second : Position := ⟨"f", .first, ⟨2, by decide, by decide⟩⟩
    let errors : List ParseError := [.single ⟨.systemUnexpected, "'b'"⟩ second,
      .single ⟨.systemUnexpected, "'a'"⟩ start.position, .single ⟨.plain, "no z"⟩ second]
    let error : ParseError := ⟨second, [⟨.systemUnexpected, "'b'"⟩, ⟨.plain, "no z"⟩]⟩
    List.Forall₂ (fun e p => p (.start none) start = .returned (.reject e)) errors ps ∧
      choiceOf ps (.start none) start = .returned (.reject error) ∧
      choice (choice (behindA (letter 'x')) (letter 'y'))
          (behindA (fail "no z")) (.start none) start =
        .returned (.reject error) := by
  intro letter behindA ps start second errors error
  have hfail : List.Forall₂ (fun e p => p (.start none) start = .returned (.reject e)) errors ps :=
    .cons rfl (.cons rfl (.cons rfl .nil))
  have hnests : Nests ps
      (choice (choice (behindA (letter 'x')) (letter 'y')) (behindA (fail "no z"))) :=
    .choice (.choice (.single _) (.single _)) (.single _)
  obtain ⟨error', hchoice, hknown, -⟩ := choice_fails_farthest hfail
  have hsome : ∃ e ∈ errors, e.messages ≠ [] := ⟨_, List.mem_cons_self .., List.cons_ne_nil _ _⟩
  obtain ⟨-, -, -, hsame⟩ := hknown hsome
  have herror : error' = error := by
    have hrun : choiceOf ps (.start none) start = .returned (.reject error) := rfl
    rw [hrun] at hchoice
    cases hchoice
    rfl
  subst herror
  exact ⟨hfail, hchoice, hsame _ hnests⟩

end Parser

end Parsing
