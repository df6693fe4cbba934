import Parsing.Input.Items
import Parsing.Parser.Token
import Parsing.Proofs.Sequencing

/-!
# How far alternatives may be grouped at will

`first.otherwise second` is what a choice makes of the results of its two alternatives, where both
of them return. Three alternatives have the same result in both groupings, but for one case. After a
success that has read nothing the other alternatives run for their errors only, and such an error is
heard if its alternative has read nothing. Grouped to the left, each of the other two is asked by
itself; grouped to the right, they are asked as one, and if either of them reads input, then neither
is heard.
-/

namespace Parsing

variable {σ υ α : Type}

namespace ParseError

/-- The error with another one merged into it, if there is another one. -/
def also (e : ParseError) (other : Option ParseError) : ParseError :=
  other.elim e e.merge

@[simp]
theorem also_none (e : ParseError) : e.also none = e := rfl

@[simp]
theorem also_some (e other : ParseError) : e.also (some other) = e.merge other := rfl

theorem merge_also (a b : ParseError) (other : Option ParseError) :
    (a.merge b).also other = a.merge (b.also other) := by
  cases other with
  | none => rfl
  | some c => exact merge_assoc a b c

end ParseError

/-! ## Results -/

namespace Result

/-- What the result reports, if it has read nothing. -/
def heard (result : Result σ υ α) : Option ParseError :=
  match result.tag with
  | .empty => some result.reply.error
  | .consumed => none

/-- What a choice makes of the results of both alternatives. -/
def otherwise (first second : Result σ υ α) : Result σ υ α :=
  match first with
  | ⟨.empty, .failure error⟩ => second.behind .empty error
  | ⟨.empty, .success output state hint⟩ =>
    ⟨.empty, .success output state (hint.also second.heard)⟩
  | ⟨.consumed, reply⟩ => ⟨.consumed, reply⟩

variable {first second third : Result σ υ α}

theorem heard_of_empty (h : first.tag = .empty) : first.heard = some first.reply.error := by
  unfold heard
  rw [h]

theorem heard_of_consumed (h : first.tag = .consumed) : first.heard = none := by
  unfold heard
  rw [h]

@[simp]
theorem failure_otherwise (error : ParseError) (second : Result σ υ α) :
    otherwise ⟨.empty, .failure error⟩ second = second.behind .empty error := rfl

@[simp]
theorem success_otherwise (output : α) (state : State σ υ) (hint : ParseError)
    (second : Result σ υ α) : otherwise ⟨.empty, .success output state hint⟩ second =
      ⟨.empty, .success output state (hint.also second.heard)⟩ := rfl

theorem otherwise_of_consumed (h : first.tag = .consumed) (second : Result σ υ α) :
    first.otherwise second = first := by
  obtain ⟨tag, reply⟩ := first
  cases h
  rfl

/-- The laws below speak of `otherwise`; this is where a choice comes to it. -/
theorem orElse_returned (first second : Result σ υ α) :
    (first.orElse fun _ => .returned second) = .returned (first.otherwise second) := by
  obtain ⟨_ | _, reply⟩ := first
  · cases reply with
    | failure error => rfl
    | success output state hint =>
      rw [success_otherwise]
      cases htag : second.tag with
      | empty =>
        rw [heard_of_empty htag, ParseError.also_some]
        simp only [orElse, Outcome.map_returned, htag]
      | consumed =>
        rw [heard_of_consumed htag, ParseError.also_none]
        simp only [orElse, Outcome.map_returned, htag]
  · rfl

theorem tag_behind_empty (error : ParseError) (result : Result σ υ α) :
    (result.behind .empty error).tag = result.tag := by
  cases htag : result.tag with
  | empty => rw [behind_of_empty htag]
  | consumed => rw [behind_of_consumed htag, htag]

/-- A choice reads input if its first alternative does, or fails there and the second one does. -/
theorem tag_otherwise_eq_consumed_iff : (first.otherwise second).tag = .consumed ↔
    first.tag = .consumed ∨ first.reply.isSuccess = false ∧ second.tag = .consumed := by
  obtain ⟨_ | _, reply⟩ := first
  · cases reply with
    | success output state hint =>
      constructor
      · intro h
        cases h
      · rintro (h | ⟨h, -⟩)
        · cases h
        · cases h
    | failure error =>
      rw [failure_otherwise, tag_behind_empty]
      constructor
      · intro h
        exact Or.inr ⟨rfl, h⟩
      · rintro (h | ⟨-, h⟩)
        · cases h
        · exact h
  · constructor
    · intro _
      exact Or.inl rfl
    · intro _
      rfl

/-- An error that comes first comes first in a choice as a whole. -/
theorem behind_otherwise (error : ParseError) (second third : Result σ υ α) :
    (second.behind .empty error).otherwise third =
      (second.otherwise third).behind .empty error := by
  obtain ⟨_ | _, reply⟩ := second
  · cases reply with
    | success output state hint =>
      have hmerge := ParseError.merge_also error hint third.heard
      rw [behind_of_empty rfl, Reply.after_success, success_otherwise, success_otherwise,
        behind_of_empty rfl, Reply.after_success, hmerge]
    | failure error' => exact (behind_behind_empty .empty error error' third).symm
  · have hconsumed : (⟨.consumed, reply⟩ : Result σ υ α).tag = .consumed := rfl
    rw [behind_of_consumed hconsumed, otherwise_of_consumed hconsumed, behind_of_consumed hconsumed]

/-- If no input is read in a choice, each alternative is heard as it would be by itself. -/
theorem also_heard_otherwise (hint : ParseError) (h : (second.otherwise third).tag = .empty) :
    hint.also (second.otherwise third).heard = (hint.also second.heard).also third.heard := by
  obtain ⟨tag, reply⟩ := second
  cases tag with
  | consumed => cases h
  | empty =>
    rw [heard_of_empty h, heard_of_empty rfl, ParseError.also_some, ParseError.also_some,
      ParseError.merge_also]
    cases reply with
    | success output state hint' => rfl
    | failure error =>
      rw [failure_otherwise, tag_behind_empty] at h
      rw [failure_otherwise, behind_of_empty h, heard_of_empty h, Reply.after, Reply.error_mapError]
      rfl

/-- If input is read in a choice, one of its alternatives is heard at most: the second one behind
a first one that has read input, or the first one if it has failed and the second one has read
input. -/
theorem also_heard_cases (hint : ParseError) (h : (second.otherwise third).tag = .consumed) :
    second.tag = .consumed ∧ third.tag = .empty ∧
        (hint.also second.heard).also third.heard = hint.merge third.reply.error ∨
      (∃ error, second = ⟨.empty, .failure error⟩ ∧ third.tag = .consumed ∧
        (hint.also second.heard).also third.heard = hint.merge error) ∨
      second.tag = .consumed ∧ third.tag = .consumed ∧
        (hint.also second.heard).also third.heard = hint := by
  by_cases hsecond : second.tag = .consumed
  · rw [heard_of_consumed hsecond, ParseError.also_none]
    cases hthird : third.tag with
    | empty => exact Or.inl ⟨hsecond, rfl, by rw [heard_of_empty hthird, ParseError.also_some]⟩
    | consumed =>
      exact Or.inr (Or.inr ⟨hsecond, rfl, by rw [heard_of_consumed hthird, ParseError.also_none]⟩)
  · rcases tag_otherwise_eq_consumed_iff.1 h with hconsumed | ⟨hfailed, hthird⟩
    · exact absurd hconsumed hsecond
    · obtain ⟨_ | _, reply⟩ := second
      · cases reply with
        | success output state hint' => cases hfailed
        | failure error =>
          refine Or.inr (Or.inl ⟨error, rfl, hthird, ?_⟩)
          rw [heard_of_consumed hthird, ParseError.also_none]
          rfl
      · exact absurd rfl hsecond

/-- The groupings agree, unless the first alternative is a success that reads nothing where the
other two read input. -/
theorem otherwise_assoc (h : ¬ (first.tag = .empty ∧ first.reply.isSuccess = true ∧
    (second.otherwise third).tag = .consumed)) :
    (first.otherwise second).otherwise third = first.otherwise (second.otherwise third) := by
  obtain ⟨tag, reply⟩ := first
  cases tag with
  | consumed => rfl
  | empty =>
    cases reply with
    | failure error => exact behind_otherwise error second third
    | success output state hint =>
      have hempty : (second.otherwise third).tag = .empty := by
        cases htag : (second.otherwise third).tag with
        | empty => rfl
        | consumed => exact absurd ⟨rfl, rfl, htag⟩ h
      have hheard := also_heard_otherwise hint hempty
      rw [success_otherwise, success_otherwise, success_otherwise, hheard]

/-- The success that reads nothing stands as it is before alternatives that read input. -/
theorem otherwise_of_tag_consumed (h : first.reply.isSuccess = true)
    (hsecond : second.tag = .consumed) : first.otherwise second = first := by
  obtain ⟨_ | _, reply⟩ := first
  · cases reply with
    | success output state hint =>
      rw [success_otherwise, heard_of_consumed hsecond, ParseError.also_none]
    | failure error => cases h
  · rfl

end Result

/-! ## Parsers -/

namespace Parser

variable {p q r : Parser σ υ α} {context : Context} {state : State σ υ}
  {first second third : Result σ υ α}

theorem choice_of_returned (hp : p context state = .returned first)
    (hq : q context state = .returned second) :
    choice p q context state = .returned (first.otherwise second) := by
  unfold choice
  rw [hp, hq, Outcome.bind_returned, Result.orElse_returned]

/-- Where three parsers return, both ways of grouping them into a choice give the same tag, variant,
output and state, and the same error on failure. They give the same hint as well, except where the
first parser succeeds without reading input and the choice of the other two reads some. There the
choice grouped to the right, and that of the whole list, return the result of the first parser as it
is, and the choice grouped to the left adds to its hint what the one of the other two reports that
has read nothing, if there is one. -/
theorem choice_regroups (hp : p context state = .returned first)
    (hq : q context state = .returned second) (hr : r context state = .returned third) :
    ∃ left right rest : Result σ υ α,
      choice (choice p q) r context state = .returned left ∧
      choice p (choice q r) context state = .returned right ∧
      choice q r context state = .returned rest ∧
      left.tag = right.tag ∧ left.reply.value? = right.reply.value? ∧
      (left.reply.isSuccess = false → left = right) ∧
      (¬ (first.tag = .empty ∧ first.reply.isSuccess = true ∧ rest.tag = .consumed) →
        left = right) ∧
      ∀ output next hint, first = ⟨.empty, .success output next hint⟩ → rest.tag = .consumed →
        right = first ∧ choiceOf [p, q, r] context state = .returned first ∧
        (second.tag = .consumed ∧ third.tag = .empty ∧
            left = ⟨.empty, .success output next (hint.merge third.reply.error)⟩ ∨
          (∃ error, second = ⟨.empty, .failure error⟩ ∧ third.tag = .consumed ∧
            left = ⟨.empty, .success output next (hint.merge error)⟩) ∨
          second.tag = .consumed ∧ third.tag = .consumed ∧ left = first) := by
  have hleft := choice_of_returned (choice_of_returned hp hq) hr
  have hrest := choice_of_returned hq hr
  have hright := choice_of_returned hp hrest
  refine ⟨_, _, _, hleft, hright, hrest, ?_⟩
  by_cases hexception : first.tag = .empty ∧ first.reply.isSuccess = true ∧
      (second.otherwise third).tag = .consumed
  · obtain ⟨htag, hsuccess, hconsumed⟩ := hexception
    obtain ⟨tag, reply⟩ := first
    cases htag
    cases reply with
    | failure error => cases hsuccess
    | success output next hint =>
      have hstands := Result.otherwise_of_tag_consumed hsuccess hconsumed
      refine ⟨rfl, rfl, fun h => ?_, fun h => ?_, ?_⟩
      · cases h
      · exact absurd ⟨rfl, rfl, hconsumed⟩ h
      · rintro _ _ _ ⟨⟩ -
        refine ⟨hstands, ?_, ?_⟩
        · -- the list ends with a parser that always fails, and what reads input stands before it
          have hlist := choice_of_returned hp (choice_of_returned hq
            (choice_of_returned hr (rfl : zero context state = _)))
          rw [choiceOf_cons, choiceOf_cons, choiceOf_cons, choiceOf_nil, hlist,
            Result.otherwise_of_tag_consumed hsuccess]
          rw [Result.tag_otherwise_eq_consumed_iff] at hconsumed ⊢
          rcases hconsumed with hsecond | ⟨hfailed, hthird⟩
          · exact Or.inl hsecond
          · rw [Result.otherwise_of_consumed hthird]
            exact Or.inr ⟨hfailed, hthird⟩
        · rw [Result.success_otherwise, Result.success_otherwise]
          rcases Result.also_heard_cases hint hconsumed with
            ⟨hsecond, hthird, hhint⟩ | ⟨error, hsecond, hthird, hhint⟩ | ⟨hsecond, hthird, hhint⟩
          · exact Or.inl ⟨hsecond, hthird, by rw [hhint]⟩
          · exact Or.inr (Or.inl ⟨error, hsecond, hthird, by rw [hhint]⟩)
          · exact Or.inr (Or.inr ⟨hsecond, hthird, by rw [hhint]⟩)
  · have hassoc := Result.otherwise_assoc hexception
    rw [hassoc]
    refine ⟨rfl, rfl, fun _ => rfl, fun _ => rfl, ?_⟩
    rintro output next hint rfl hconsumed
    exact absurd ⟨rfl, rfl, hconsumed⟩ hexception

/-- Nothing, or one of two letters, of which the first is there. It is read in both groupings, to be
taken back; grouped to the left, the choice still reports that the second one is not there. -/
theorem choice_of_letters_regroups :
    let letter (wanted : Char) : Parser (List Char) Unit Char :=
      token Quoted.char (fun position c _ => position.advance c)
        fun c => if c = wanted then some c else none
    let start : State (List Char) Unit := ⟨['a'], (), .initial "f"⟩
    choice (choice (Parser.pure 'z') (letter 'a')) (letter 'b') (.start none) start =
        .returned ⟨.empty, .success 'z' start (.single ⟨.systemUnexpected, "'a'"⟩ start.position)⟩ ∧
      choice (Parser.pure 'z') (choice (letter 'a') (letter 'b')) (.start none) start =
        .returned ⟨.empty, .success 'z' start (.unknown start.position)⟩ ∧
      choiceOf [Parser.pure 'z', letter 'a', letter 'b'] (.start none) start =
        .returned ⟨.empty, .success 'z' start (.unknown start.position)⟩ := by
  intro letter start
  let second : Position := ⟨"f", .first, ⟨2, by decide, by decide⟩⟩
  have hnothing : Parser.pure 'z' (.start none) start =
      .returned ⟨.empty, .success 'z' start (.unknown start.position)⟩ := rfl
  have hread : letter 'a' (.start none) start =
      .returned ⟨.consumed, .success 'a' ⟨[], (), second⟩ (.unknown second)⟩ := rfl
  have hfailed : letter 'b' (.start none) start =
      .returned ⟨.empty, .failure (.single ⟨.systemUnexpected, "'a'"⟩ start.position)⟩ := rfl
  obtain ⟨left, right, rest, hleft, hright, hrest, -, -, -, -, hexception⟩ :=
    choice_regroups hnothing hread hfailed
  have hconsumed : rest.tag = .consumed := by
    rw [choice_of_returned hread hfailed] at hrest
    cases hrest
    rfl
  obtain ⟨hstands, hlist, hcases⟩ := hexception _ _ _ rfl hconsumed
  rcases hcases with ⟨-, -, hhint⟩ | ⟨error, hsecond, -, -⟩ | ⟨-, hthird, -⟩
  · rw [hhint] at hleft
    rw [hstands] at hright
    exact ⟨hleft, hright, hlist⟩
  · cases hsecond
  · cases hthird

end Parser

end Parsing
