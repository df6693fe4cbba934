import Parsing.Proofs.Ensures
import Parsing.Proofs.Everywhere

/-!
# Invariants of results

An invariant says something of a result as seen from the state in which the parser started. Where it
is kept by the ways of putting results together, it is kept by the ways of putting parsers together.
A repetition puts its turns together as a sequence does: what has been read so far is a success, and
each turn happens behind it.
-/

namespace Parsing

variable {σ τ υ α β : Type}

/-- `I` is kept by the ways of putting results together. -/
structure Result.Invariant (I : {α : Type} → State σ υ → Result σ υ α → Prop) : Prop where
  /-- A success that leaves the input where it is. -/
  accept {α : Type} (output : α) {s t : State σ υ} (hinput : t.input = s.input)
    (hposition : t.position = s.position) : I s (.accept output t)
  /-- A failure that is reported where it occurs. -/
  reject {α : Type} (messages : List Message) (s : State σ υ) :
    I s (.reject ⟨s.position, messages⟩ : Result σ υ α)
  map {α β : Type} (f : α → β) {s : State σ υ} {result : Result σ υ α} :
    I s result → I s (result.map f)
  /-- A failure does not depend on the outputs that there could have been. -/
  failure {α β : Type} {s : State σ υ} {tag : Tag} {error : ParseError} :
    I s (⟨tag, .failure error⟩ : Result σ υ α) → I s (⟨tag, .failure error⟩ : Result σ υ β)
  /-- What happens behind a success, seen from where that started. -/
  behind {α β : Type} {s t : State σ υ} {tag : Tag} {output : α} {hint : ParseError}
    {result : Result σ υ β} :
    I s ⟨tag, .success output t hint⟩ → I t result → I s (result.behind tag hint)
  /-- What the second of two alternatives does after the first one has failed. -/
  instead {α : Type} {s : State σ υ} {error : ParseError} {result : Result σ υ α} :
    I s (⟨.empty, .failure error⟩ : Result σ υ α) → I s result → I s (result.behind .empty error)
  /-- What the second of two alternatives adds to a success of the first one. -/
  hinted {α : Type} {s t : State σ υ} {output : α} {hint : ParseError} {reply : Reply σ υ α} :
    I s ⟨.empty, .success output t hint⟩ → I s ⟨.empty, reply⟩ →
      I s (⟨.empty, .success output t (hint.merge reply.error)⟩ : Result σ υ α)
  labeled {α : Type} (names : List String) {s : State σ υ} {result : Result σ υ α} :
    I s result → I s (result.labeled names)
  rewound {α : Type} {s : State σ υ} {result : Result σ υ α} : I s result → I s result.rewound
  /-- The failure that ends a repetition is the hint of its success. -/
  stop {α β : Type} {s : State σ υ} {error : ParseError} (acc : β) :
    I s (⟨.empty, .failure error⟩ : Result σ υ α) → I s ⟨.empty, .success acc s error⟩

namespace Parser

open Outcome (ensures_returned ensures_map ensures_fault ensures_exhausted)

/-- Every result of the parser satisfies `I`. -/
def Keeps (I : {α : Type} → State σ υ → Result σ υ α → Prop) (p : Parser σ υ α) : Prop :=
  ∀ context state, (p context state).Ensures (I state)

variable {I : {α : Type} → State σ υ → Result σ υ α → Prop} {p q : Parser σ υ α}

theorem keeps_exhausted : (exhausted : Parser σ υ α).Keeps I :=
  fun _ _ => ensures_exhausted _

theorem keeps_inspect (hI : Result.Invariant I) (f : State σ υ → α) :
    Keeps I fun _ state => .returned (.accept (f state) state) :=
  fun _ _ => ensures_returned.2 (hI.accept _ rfl rfl)

theorem Keeps.bind {f : α → Parser σ υ β} (hI : Result.Invariant I) (hp : p.Keeps I)
    (hf : ∀ output, (f output).Keeps I) : (Parser.bind p f).Keeps I := by
  intro context state
  refine (hp context state).bind ?_
  rintro ⟨tag, reply⟩ hfirst
  cases reply with
  | success output next hint =>
    have hsecond := hf output context next
    exact ensures_map.2 (hsecond.mono fun result hresult => hI.behind hfirst hresult)
  | failure error => exact ensures_returned.2 (hI.failure hfirst)

theorem Keeps.choice (hI : Result.Invariant I) (hp : p.Keeps I) (hq : q.Keeps I) :
    (Parser.choice p q).Keeps I := by
  intro context state
  have hsecond := hq context state
  refine (hp context state).bind ?_
  rintro ⟨tag, reply⟩ hfirst
  cases tag with
  | consumed => exact ensures_returned.2 hfirst
  | empty =>
    cases reply with
    | success output next hint =>
      refine ensures_map.2 (hsecond.mono ?_)
      rintro ⟨tag', reply'⟩ hother
      cases tag' with
      | empty => exact hI.hinted hfirst hother
      | consumed => exact hfirst
    | failure error =>
      exact ensures_map.2 (hsecond.mono fun other hother => hI.instead hfirst hother)

theorem Keeps.lookAhead (hI : Result.Invariant I) (hp : p.Keeps I) :
    (Parser.lookAhead p).Keeps I := by
  intro context state
  refine ensures_map.2 ((hp context state).mono ?_)
  rintro ⟨tag, reply⟩ hresult
  cases reply with
  | success output next hint => exact hI.accept output rfl rfl
  | failure error => exact hresult

theorem keeps_notFollowedBy (hI : Result.Invariant I) (shown : α → String) :
    (notFollowedBy shown p).Keeps I := by
  intro context state
  refine ensures_map.2 ?_
  rintro ⟨tag, reply⟩ -
  cases reply with
  | success output next hint => exact hI.reject [⟨.unexpected, shown output⟩] state
  | failure error => exact hI.accept () rfl rfl

theorem Keeps.nested (hI : Result.Invariant I) (hp : p.Keeps I) : (Parser.nested p).Keeps I := by
  intro context state
  unfold Parser.nested Context.nest
  split
  · exact ensures_returned.2 (hI.reject [⟨.plain, "exceeded nest level"⟩] state)
  · split
    · exact hp _ state
    · exact ensures_fault _ _

/-- A repetition has come from `s` to `t` and has `hint`: no turn has been taken, or the turns so
far make up a success that has read input. -/
inductive Reached (I : {α : Type} → State σ υ → Result σ υ α → Prop) (α : Type) (s : State σ υ) :
    Option ParseError → State σ υ → Prop where
  | start : Reached I α s none s
  | turn {output : α} {t : State σ υ} {last : ParseError}
      (h : I s ⟨.consumed, .success output t last⟩) : Reached I α s (some last) t

/-- A turn that reads input has read input since the repetition started. -/
theorem Reached.of_consumed (hI : Result.Invariant I) {s t : State σ υ} {hint : Option ParseError}
    {reply : Reply σ υ β} (h : Reached I α s hint t) (hturn : I t ⟨.consumed, reply⟩) :
    I s ⟨.consumed, reply⟩ := by
  cases h with
  | start => exact hturn
  | turn hlast => exact hI.behind hlast hturn

theorem accumulate_keeps {push : β → α → β} (hI : Result.Invariant I) (hp : p.Keeps I)
    (context : Context) (turns : Nat) {acc : β} {hint : Option ParseError} {s t : State σ υ}
    (hreached : Reached I α s hint t) :
    (accumulate push p context turns acc hint t).Ensures (I s) := by
  induction turns generalizing acc hint t with
  | zero => exact ensures_exhausted _
  | succ turns ih =>
    have hbody := hp context t
    unfold accumulate
    split
    · exact ensures_fault _ _
    · exact ensures_exhausted _
    · rename_i output next last heq
      rw [heq, ensures_returned] at hbody
      exact ih (.turn (hreached.of_consumed hI hbody))
    · rename_i error heq
      rw [heq, ensures_returned] at hbody
      exact ensures_returned.2 (hI.failure (hreached.of_consumed hI hbody))
    · exact ensures_fault _ _
    · rename_i error heq
      rw [heq, ensures_returned] at hbody
      have hstop := hI.stop acc hbody
      cases hreached with
      | start => exact ensures_returned.2 hstop
      | turn hlast => exact ensures_returned.2 (hI.behind hlast hstop)

theorem Keeps.repetition {turns : σ → Nat} {push : β → α → β} {acc : β}
    (hI : Result.Invariant I) (hp : p.Keeps I) : (Parser.repetition turns push acc p).Keeps I :=
  fun context _ => accumulate_keeps hI hp context _ .start

theorem keeps_eof [Input σ τ] (hI : Result.Invariant I) (shown : τ → String) :
    (eof shown : Parser σ υ Unit).Keeps I := by
  intro context state
  unfold eof
  split
  · exact ensures_returned.2 (hI.accept () rfl rfl)
  · exact ensures_returned.2 (hI.reject _ state)

end Parser

namespace Grammar

variable {ι : Type} {ρ : ι → Type} [Input σ τ] [DecidableEq τ]
  {ok : {α : Type} → Grammar σ τ υ ρ α → Prop}
  {I : {α : Type} → State σ υ → Result σ υ α → Prop}

/-- An invariant holds of all results of the parser of a grammar, if it holds of those of its
tokens, of its functions on the state, and of its parsers by hand. -/
theorem closed_of_invariant (hI : Result.Invariant I)
    (htoken : ∀ {α : Type} {shown : τ → String} {next : Position → τ → σ → Option Position}
      {test : τ → Option α}, ok (.token shown next test) →
        (Parser.token shown next test : Parser σ υ α).Keeps I)
    (htokens : ∀ {shown : List τ → String} {next : Position → List τ → Option Position}
      {expected : List τ}, ok (.tokens shown next expected) →
        (Parser.tokens shown next expected : Parser σ υ (List τ)).Keeps I)
    (hupdate : ∀ {f : State σ υ → Except Fault (State σ υ)}, ok (.updateState f) →
      (Parser.updateState f).Keeps I)
    (hparser : ∀ {α : Type} {p : Parser σ υ α}, ok (.ofParser p) → p.Keeps I) :
    Closed ok (Parser.Keeps I) where
  inspects := Parser.keeps_inspect hI
  failWith message _ state := Outcome.ensures_returned.2 (hI.reject [message] state)
  zero _ state := Outcome.ensures_returned.2 (hI.reject [] state)
  map hp context state :=
    Outcome.ensures_map.2 ((hp context state).mono fun _ h => hI.map _ h)
  bind := Parser.Keeps.bind hI
  choice := Parser.Keeps.choice hI
  labels hp context state :=
    Outcome.ensures_map.2 ((hp context state).mono fun _ h => hI.labeled _ h)
  attempt hp context state :=
    Outcome.ensures_map.2 ((hp context state).mono fun _ h => hI.rewound h)
  lookAhead := Parser.Keeps.lookAhead hI
  notFollowedBy _ := Parser.keeps_notFollowedBy hI _
  repetition := Parser.Keeps.repetition hI
  modifyUser _ _ _ := Outcome.ensures_returned.2 (hI.accept () rfl rfl)
  token := htoken
  tokens := htokens
  eof := Parser.keeps_eof hI _
  updateState := hupdate
  ofParser := hparser

end Grammar

end Parsing
