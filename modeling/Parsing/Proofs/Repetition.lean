import Parsing.Input.Items
import Parsing.Parser.Token
import Parsing.Proofs.Derived
import Parsing.Proofs.Ensures

/-!
# What a repetition makes of its body

A body that succeeds and reads input, again and again, runs through a sequence of states. A
repetition follows this run to its end: the turns of the loop are the steps of the run, and what the
body does after the last step decides how the repetition ends.
-/

namespace Parsing.Parser

variable {σ υ α β : Type} {p : Parser σ υ α} {context : Context}

/-- From one state to another by steps in which `p` succeeds and reads input; each step has the
output and the hint of its success. -/
inductive Run (p : Parser σ υ α) (context : Context) :
    State σ υ → List (α × ParseError) → State σ υ → Prop where
  | nil (state : State σ υ) : Run p context state [] state
  | cons {state next last : State σ υ} {output : α} {hint : ParseError}
      {steps : List (α × ParseError)}
      (hstep : p context state = .returned ⟨.consumed, .success output next hint⟩)
      (hrest : Run p context next steps last) : Run p context state ((output, hint) :: steps) last

/-! ## Turns and steps -/

/-- A repetition takes one turn for each step of a run. Each step adds its output and leaves its
hint, in place of the one before. -/
theorem accumulate_of_run {push : β → α → β} {start last : State σ υ}
    {steps : List (α × ParseError)} (h : Run p context start steps last) (turns : Nat) (acc : β)
    (hint : Option ParseError) :
    accumulate push p context (steps.length + turns) acc hint start =
      accumulate push p context turns (steps.foldl (fun acc step => push acc step.1) acc)
        (steps.foldl (fun _ step => some step.2) hint) last := by
  induction h generalizing acc hint with
  | nil state => simp
  | @cons state next last output last_hint steps hstep hrest ih =>
    have hlength : ((output, last_hint) :: steps).length + turns = (steps.length + turns) + 1 := by
      simp only [List.length_cons]
      omega
    rw [hlength, accumulate, hstep]
    exact ih (push acc output) (some last_hint)

theorem foldl_hint (steps : List (α × ParseError)) (hint : Option ParseError) :
    steps.foldl (fun _ step => some step.2) hint = (steps.getLast?.map (·.2)).or hint := by
  induction steps generalizing hint with
  | nil => simp
  | cons step steps ih =>
    rw [List.foldl_cons, ih, List.getLast?_cons]
    cases steps.getLast? <;> rfl

/-- The outputs are collected last output first, and turned round at the end. -/
theorem reverse_foldl_output (steps : List (α × ParseError)) :
    (steps.foldl (fun acc step => step.1 :: acc) []).reverse = steps.map (·.1) := by
  rw [List.foldl_flip_cons_eq_append, List.append_nil, List.reverse_reverse]

/-- A repetition with turns for all steps of a run goes on from where the run has led. -/
theorem many_of_run {start last : State σ υ} {steps : List (α × ParseError)}
    (h : Run p context start steps last) {turns : σ → Nat}
    (hturns : steps.length < turns start.input) :
    ∃ more, many turns p context start =
      (accumulate (fun acc output => output :: acc) p context (more + 1)
        (steps.foldl (fun acc step => step.1 :: acc) []) (steps.getLast?.map (·.2)) last).map
        (·.map List.reverse) := by
  obtain ⟨more, hmore⟩ := Nat.exists_eq_add_of_lt hturns
  refine ⟨more, ?_⟩
  rw [many, collect, hmore, Nat.add_assoc, accumulate_of_run h (more + 1) [] none, foldl_hint,
    Option.or_none]

/-! ## The end of a repetition -/

/-- How a repetition ends that has come to `last`: with nothing left of a budget, or as the body
ends there, unless that has read nothing. -/
inductive Stops (p : Parser σ υ α) (context : Context) (last : State σ υ) :
    Outcome (Result σ υ β) → Prop where
  | exhausted : Stops p context last .exhausted
  | fault {f : Fault} (h : p context last = .fault f) : Stops p context last (.fault f)
  | failure {error : ParseError} (h : p context last = .returned ⟨.consumed, .failure error⟩) :
    Stops p context last (.returned ⟨.consumed, .failure error⟩)
  | emptySuccess {output : α} {next : State σ υ} {hint : ParseError}
    (h : p context last = .returned ⟨.empty, .success output next hint⟩) :
    Stops p context last (.fault (.emptyRepetition last.position))
  | emptyFailure {error : ParseError} (h : p context last = .returned ⟨.empty, .failure error⟩)
    (tag : Tag) (acc : β) (hint : ParseError) :
    Stops p context last (.returned ⟨tag, .success acc last hint⟩)

/-- A repetition runs its body as often as that succeeds and reads input, and then it stops. -/
theorem accumulate_stops (push : β → α → β) (p : Parser σ υ α) (context : Context) (turns : Nat)
    (acc : β) (hint : Option ParseError) (state : State σ υ) :
    ∃ steps last, Run p context state steps last ∧
      Stops p context last (accumulate push p context turns acc hint state) := by
  induction turns generalizing acc hint state with
  | zero => exact ⟨[], state, .nil state, .exhausted⟩
  | succ turns ih =>
    unfold accumulate
    split
    · rename_i f heq
      exact ⟨[], state, .nil state, .fault heq⟩
    · exact ⟨[], state, .nil state, .exhausted⟩
    · rename_i output next last_hint heq
      obtain ⟨steps, last, hrun, hstops⟩ := ih (push acc output) (some last_hint) next
      exact ⟨(output, last_hint) :: steps, last, .cons heq hrun, hstops⟩
    · rename_i error heq
      exact ⟨[], state, .nil state, .failure heq⟩
    · rename_i output next last_hint heq
      exact ⟨[], state, .nil state, .emptySuccess heq⟩
    · rename_i error heq
      cases hint with
      | none => exact ⟨[], state, .nil state, .emptyFailure heq _ _ _⟩
      | some last_hint => exact ⟨[], state, .nil state, .emptyFailure heq _ _ _⟩

/-- Whatever the body does, a repetition that has read nothing has not failed. -/
theorem accumulate_of_empty {push : β → α → β} (turns : Nat) (acc : β) (hint : Option ParseError)
    (state : State σ υ) :
    (accumulate push p context turns acc hint state).Ensures fun result =>
      result.tag = .empty → result.reply.isSuccess = true := by
  induction turns generalizing acc hint state with
  | zero => exact Outcome.ensures_exhausted _
  | succ turns ih =>
    unfold accumulate
    split
    · exact Outcome.ensures_fault _ _
    · exact Outcome.ensures_exhausted _
    · exact ih _ _ _
    · exact Outcome.ensures_returned.2 fun h => by cases h
    · exact Outcome.ensures_fault _ _
    · cases hint with
      | none => exact Outcome.ensures_returned.2 fun _ => rfl
      | some last => exact Outcome.ensures_returned.2 fun _ => rfl

theorem many_of_empty (turns : σ → Nat) (p : Parser σ υ α) (context : Context)
    (state : State σ υ) :
    (many turns p context state).Ensures fun result =>
      result.tag = .empty → result.reply.isSuccess = true := by
  refine Outcome.ensures_map.2 ((accumulate_of_empty (turns state.input) [] none state).mono ?_)
  rintro ⟨tag, reply⟩ hsuccess htag
  cases reply with
  | success output last hint => rfl
  | failure error => exact hsuccess htag

/-- A repetition computes exactly the run of its body. Where the body stops without having read
anything, the repetition succeeds with the outputs of the run, in the state before that last
application, and reports what the body reported there behind the hint of the last step. Where the
body fails over input that it has read, the repetition fails in the same way and nothing else is
reported. Where the body succeeds without having read anything, there is a fault that names the
position. No repetition fails without having read anything. -/
theorem many_follows_run (p : Parser σ υ α) (context : Context) (start : State σ υ) :
    (∀ (turns : σ → Nat) (steps : List (α × ParseError)) (last : State σ υ),
      Run p context start steps last → steps.length < turns start.input →
        (∀ error, p context last = .returned ⟨.empty, .failure error⟩ →
          many turns p context start = .returned
            (match steps.getLast? with
            | none => ⟨.empty, .success [] last error⟩
            | some (_, hint) => ⟨.consumed, .success (steps.map (·.1)) last (hint.merge error)⟩)) ∧
        (∀ error, p context last = .returned ⟨.consumed, .failure error⟩ →
          many turns p context start = .returned ⟨.consumed, .failure error⟩) ∧
        (∀ output next hint, p context last = .returned ⟨.empty, .success output next hint⟩ →
          many turns p context start = .fault (.emptyRepetition last.position) ∧
            (Fault.emptyRepetition last.position).message =
              "combinator 'many' is applied to a parser that accepts an empty string (at " ++
                last.position.describe ++ ")")) ∧
    ∀ turns error, many turns p context start ≠ .returned ⟨.empty, .failure error⟩ := by
  refine ⟨fun turns steps last hrun hturns => ?_, fun turns error h => ?_⟩
  · obtain ⟨more, hmany⟩ := many_of_run hrun hturns
    refine ⟨fun error hlast => ?_, fun error hlast => ?_, fun output next hint hlast => ?_⟩
    · rw [hmany, accumulate, hlast]
      cases hhint : steps.getLast? with
      | none =>
        have hnil : steps = [] := List.getLast?_eq_none_iff.1 hhint
        subst hnil
        rfl
      | some step =>
        rw [← reverse_foldl_output]
        rfl
    · rw [hmany, accumulate, hlast]
      rfl
    · refine ⟨?_, rfl⟩
      rw [hmany, accumulate, hlast]
      rfl
  · have hsuccess := many_of_empty turns p context start _ h rfl
    cases hsuccess

/-- Two letters, each of which is counted before it is read. The third count is taken back with the
attempt that it belongs to. -/
theorem counted_letters_follow_run :
    let letter : Parser (List Char) Nat Char :=
      discardLeft (modifyUser (· + 1))
        (token Quoted.char (fun position c _ => position.advance c)
          fun c => if c = 'a' then some c else none)
    let start : State (List Char) Nat := ⟨['a', 'a', 'b'], 0, .initial "f"⟩
    let second : Position := ⟨"f", .first, ⟨2, by decide, by decide⟩⟩
    let third : Position := ⟨"f", .first, ⟨3, by decide, by decide⟩⟩
    Run letter (.start none) start [('a', .unknown second), ('a', .unknown third)]
        ⟨['b'], 2, third⟩ ∧
      many List.length letter (.start none) start =
        .returned ⟨.consumed, .success ['a', 'a'] ⟨['b'], 2, third⟩
          (.single ⟨.systemUnexpected, "'b'"⟩ third)⟩ := by
  intro letter start second third
  have hrun : Run letter (.start none) start [('a', .unknown second), ('a', .unknown third)]
      ⟨['b'], 2, third⟩ := .cons rfl (.cons rfl (.nil _))
  have hlast : letter (.start none) ⟨['b'], 2, third⟩ =
      .returned ⟨.empty, .failure (.single ⟨.systemUnexpected, "'b'"⟩ third)⟩ := rfl
  exact ⟨hrun, ((many_follows_run letter (.start none) start).1 List.length _ _ hrun
    (by decide)).1 _ hlast⟩

end Parsing.Parser
