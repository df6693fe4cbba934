import Parsing.Proofs.Derived
import Parsing.Proofs.Merge

/-!
# Sequences may be grouped at will

A sequence of three steps has one result, whichever two of them are put together first: the same
output and state, the same tag, and the same error or hint down to the order of its messages. What a
step reports is merged with what stood before it only as long as the step consumed nothing; that the
merges may be grouped at will is `ParseError.merge_assoc`.
-/

namespace Parsing

variable {σ υ α β γ : Type}

theorem Outcome.map_map (f : α → β) (g : β → γ) (outcome : Outcome α) :
    (outcome.map f).map g = outcome.map fun value => g (f value) := by
  cases outcome <;> rfl

namespace Result

/-! ## Results behind earlier steps -/

theorem behind_of_consumed {result : Result σ υ α} (h : result.tag = .consumed) (tag : Tag)
    (earlier : ParseError) : behind tag earlier result = result := by
  simp only [behind, h]

theorem behind_of_empty {result : Result σ υ α} (h : result.tag = .empty) (tag : Tag)
    (earlier : ParseError) : behind tag earlier result = ⟨tag, result.reply.after earlier⟩ := by
  simp only [behind, h]

/-- A result behind a step that consumed input has consumed input. -/
theorem tag_behind_consumed (earlier : ParseError) (result : Result σ υ α) :
    (behind .consumed earlier result).tag = .consumed := by
  cases h : result.tag with
  | empty => rw [behind_of_empty h]
  | consumed => rw [behind_of_consumed h, h]

/-- What came before has no say in the output and the state. -/
theorem value?_behind (tag : Tag) (earlier : ParseError) (result : Result σ υ α) :
    (behind tag earlier result).reply.value? = result.reply.value? := by
  cases h : result.tag with
  | empty => rw [behind_of_empty h, Reply.after, Reply.value?_mapError]
  | consumed => rw [behind_of_consumed h]

theorem after_after (reply : Reply σ υ α) (earlier earliest : ParseError) :
    (reply.after earlier).after earliest = reply.after (earliest.merge earlier) := by
  cases reply <;> simp [ParseError.merge_assoc]

/-- Two steps of which the later one read nothing count as one step that reports the errors of
both. -/
theorem behind_behind_empty (tag : Tag) (earliest earlier : ParseError) (result : Result σ υ α) :
    behind tag earliest (behind .empty earlier result) =
      behind tag (earliest.merge earlier) result := by
  cases h : result.tag with
  | empty => rw [behind_of_empty h, behind_of_empty h, behind_of_empty rfl, after_after]
  | consumed => rw [behind_of_consumed h, behind_of_consumed h, behind_of_consumed h]

/-- Going on from a result behind an earlier step is going on from the result itself, and then
putting what comes out behind that step. -/
theorem behind_andThen (tag : Tag) (earlier : ParseError) (result : Result σ υ α)
    (next : α → State σ υ → Outcome (Result σ υ β)) :
    (behind tag earlier result).andThen next = (result.andThen next).map (behind tag earlier) := by
  obtain ⟨_ | _, reply⟩ := result
  · cases reply with
    | success output state hint =>
      rw [behind_of_empty rfl]
      simp only [Reply.after_success, andThen, Outcome.map_map, behind_behind_empty]
    | failure error => rfl
  · cases reply with
    | success output state hint =>
      -- what follows has consumed input, so the earlier step has no say in it
      rw [behind_of_consumed rfl]
      simp only [andThen, Outcome.map_map]
      congr 1
      funext last
      exact (behind_of_consumed (tag_behind_consumed hint last) tag earlier).symm
    | failure error => rfl

theorem andThen_andThen (first : Result σ υ α) (next : α → State σ υ → Outcome (Result σ υ β))
    (last : β → State σ υ → Outcome (Result σ υ γ)) :
    ((first.andThen next).bind fun second => second.andThen last) =
      first.andThen fun output state =>
        (next output state).bind fun second => second.andThen last := by
  obtain ⟨tag, reply⟩ := first
  cases reply with
  | success output state hint =>
    simp only [andThen]
    cases next output state with
    | returned second => exact behind_andThen tag hint second last
    | fault f => rfl
    | exhausted => rfl
  | failure error => rfl

end Result

namespace Parser

theorem bind_assoc (p : Parser σ υ α) (f : α → Parser σ υ β) (g : β → Parser σ υ γ) :
    Parser.bind (Parser.bind p f) g = Parser.bind p fun output => Parser.bind (f output) g := by
  funext context state
  simp only [Parser.bind, Outcome.bind_assoc, Result.andThen_andThen]
  rfl

/-- Three steps have the same outcome in both groupings, and so have the three ways to run a parser
between two others. -/
theorem sequences_regroup {ω κ ζ : Type} (p : Parser σ υ α) (f : α → Parser σ υ β)
    (g : β → Parser σ υ γ) (opening : Parser σ υ ω) (body : Parser σ υ κ) (closing : Parser σ υ ζ)
    (context : Context) (state : State σ υ) :
    Parser.bind (Parser.bind p f) g context state =
        Parser.bind p (fun output => Parser.bind (f output) g) context state ∧
      between opening closing body context state =
        discardRight (discardLeft opening body) closing context state ∧
      between opening closing body context state =
        discardLeft opening (discardRight body closing) context state := by
  refine ⟨congrFun (congrFun (bind_assoc p f g) context) state, ?_, rfl⟩
  rw [discardRight_eq_bind, discardLeft_eq_bind, bind_assoc, between_eq_bind]

end Parser

end Parsing
