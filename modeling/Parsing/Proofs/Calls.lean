import Parsing.Proofs.Everywhere
import Parsing.Proofs.Repetition
import Parsing.Proofs.Sequencing

/-!
# The calls of a run

A run of a grammar calls the parsers of its parts, each in a context and a state. Which calls there
are depends on what the earlier ones have returned: a second step is called where the first one has
succeeded, a second alternative where the first one has read nothing, the body of a repetition in
every state to which its run leads, and a parser on demand in the deeper context that it is given.

A `Watch` is a condition on a call, and `p.Throughout rules budget ok` is the watch that asks for
`ok` in every call of the run that `p` starts.
-/

namespace Parsing

/-- A condition on the context and the state in which a parser is called. -/
abbrev Watch (σ υ : Type) : Type :=
  Context → State σ υ → Prop

namespace Watch

open Outcome (ensures_returned ensures_map)

variable {σ υ α β : Type}

/-- Both conditions hold. -/
def both (here further : Watch σ υ) : Watch σ υ :=
  fun context state => here context state ∧ further context state

/-- `first` holds where `p` is called, and `next` holds where a success of `p` leads. -/
def andThen (p : Parser σ υ α) (first : Watch σ υ) (next : α → Watch σ υ) : Watch σ υ :=
  fun context state => first context state ∧ ∀ tag output after hint,
    p context state = .returned ⟨tag, .success output after hint⟩ → next output context after

/-- `first` holds where `p` is called, and `second` holds there too if `p` reads nothing. -/
def orElse (p : Parser σ υ α) (first second : Watch σ υ) : Watch σ υ :=
  fun context state => first context state ∧
    ∀ reply, p context state = .returned ⟨.empty, reply⟩ → second context state

/-- Each of the parsers is called under its own condition, if those before it read nothing. -/
def oneOf : List (Parser σ υ α × Watch σ υ) → Watch σ υ
  | [] => fun _ _ => True
  | (p, watch) :: rest => orElse p watch (oneOf rest)

/-- `turn` holds in every state to which steps of `p` lead. -/
def eachTurn (p : Parser σ υ α) (turn : Watch σ υ) : Watch σ υ :=
  fun context state => ∀ steps last, Parser.Run p context state steps last → turn context last

/-- `inside` holds one nest level deeper, if there is such a level. -/
def entered (inside : Watch σ υ) : Watch σ υ :=
  fun context state => ∀ deeper, context.nest state.position = .returned (.ok deeper) →
    inside deeper state

theorem oneOf_of_forall {context : Context} {state : State σ υ} {count : Nat}
    {p : Fin count → Parser σ υ α} {watch : Fin count → Watch σ υ}
    (h : ∀ i, watch i context state) :
    oneOf (List.ofFn fun i => (p i, watch i)) context state := by
  induction count with
  | zero => exact trivial
  | succ count ih =>
    rw [List.ofFn_succ]
    exact ⟨h 0, fun _ _ => ih fun i => h i.succ⟩

/-- The condition holds again wherever a success of `p` leads. -/
def KeptBy (J : Watch σ υ) (p : Parser σ υ α) : Prop :=
  ∀ context state, J context state → (p context state).Ensures fun result =>
    ∀ output next, result.reply.value? = some (output, next) → J context next

variable {J : Watch σ υ} {p : Parser σ υ α} {q : Parser σ υ β} {context : Context}

theorem KeptBy.of_success (h : J.KeptBy p) {state next : State σ υ} {tag : Tag} {output : α}
    {hint : ParseError} (hJ : J context state)
    (hp : p context state = .returned ⟨tag, .success output next hint⟩) : J context next :=
  h context state hJ _ hp output next rfl

theorem KeptBy.discardLeft (h : J.KeptBy p) (hq : J.KeptBy q) :
    J.KeptBy (Parser.discardLeft p q) := by
  intro context state hJ
  refine (h context state hJ).bind ?_
  rintro ⟨tag, reply⟩ hfirst
  cases reply with
  | failure error => exact ensures_returned.2 fun _ _ hvalue => by cases hvalue
  | success output next hint =>
    have hnext : J context next := hfirst output next rfl
    refine ensures_map.2 ((hq context next hnext).mono ?_)
    intro second hsecond output last hvalue
    rw [Result.value?_behind] at hvalue
    exact hsecond output last hvalue

theorem KeptBy.run (h : J.KeptBy p) {start last : State σ υ} {steps : List (α × ParseError)}
    (hrun : Parser.Run p context start steps last) (hJ : J context start) : J context last := by
  induction hrun with
  | nil state => exact hJ
  | cons hstep _ ih => exact ih (h.of_success hJ hstep)

theorem KeptBy.andThen {first : Watch σ υ} {next : α → Watch σ υ} {state : State σ υ}
    (h : J.KeptBy p) (hJ : J context state) (hfirst : first context state)
    (hnext : ∀ output after, J context after → next output context after) :
    andThen p first next context state :=
  ⟨hfirst, fun _ output after _ hp => hnext output after (h.of_success hJ hp)⟩

theorem KeptBy.eachTurn {turn : Watch σ υ} {state : State σ υ} (h : J.KeptBy p)
    (hJ : J context state) (hturn : ∀ state, J context state → turn context state) :
    eachTurn p turn context state :=
  fun _ last hrun => hturn last (h.run hrun hJ)

end Watch

namespace Grammar

open Watch (both andThen orElse oneOf eachTurn entered)

variable {σ τ υ ι : Type} {ρ : ι → Type} [Input σ τ] [DecidableEq τ]

/-- `ok` holds of every call in the run of a grammar, down to those one nest level deeper, of which
`inside` holds. `enter` gives the parsers of the latter, as in `meaning`. -/
def watch (rules : Rules σ τ υ ρ) (turns : σ → Nat)
    (enter : {α : Type} → Grammar σ τ υ ρ α → Parser σ υ α)
    (ok inside : {α : Type} → Grammar σ τ υ ρ α → Watch σ υ) :
    {α : Type} → Grammar σ τ υ ρ α → Watch σ υ
  | _, .map f p => both (ok (.map f p)) (watch rules turns enter ok inside p)
  | _, .bind p f => both (ok (.bind p f))
    (andThen (meaning rules turns enter p) (watch rules turns enter ok inside p) fun output =>
      watch rules turns enter ok inside (f output))
  | _, .discardLeft p q => both (ok (.discardLeft p q))
    (andThen (meaning rules turns enter p) (watch rules turns enter ok inside p) fun _ =>
      watch rules turns enter ok inside q)
  | _, .discardRight p q => both (ok (.discardRight p q))
    (andThen (meaning rules turns enter p) (watch rules turns enter ok inside p) fun _ =>
      watch rules turns enter ok inside q)
  | _, .between opening closing p => both (ok (.between opening closing p))
    (andThen (meaning rules turns enter opening) (watch rules turns enter ok inside opening)
      fun _ => andThen (meaning rules turns enter p) (watch rules turns enter ok inside p)
        fun _ => watch rules turns enter ok inside closing)
  | _, .choice p q => both (ok (.choice p q))
    (orElse (meaning rules turns enter p) (watch rules turns enter ok inside p)
      (watch rules turns enter ok inside q))
  | _, .alternatives count p => both (ok (.alternatives count p))
    (oneOf (List.ofFn fun i =>
      (meaning rules turns enter (p i), watch rules turns enter ok inside (p i))))
  | _, .optional p => both (ok (.optional p)) (watch rules turns enter ok inside p)
  | _, .labels names p => both (ok (.labels names p)) (watch rules turns enter ok inside p)
  | _, .attempt p => both (ok (.attempt p)) (watch rules turns enter ok inside p)
  | _, .lookAhead p => both (ok (.lookAhead p)) (watch rules turns enter ok inside p)
  | _, .notFollowedBy shown p =>
    both (ok (.notFollowedBy shown p)) (watch rules turns enter ok inside p)
  | _, .many p => both (ok (.many p))
    (eachTurn (meaning rules turns enter p) (watch rules turns enter ok inside p))
  | _, .many1 p => both (ok (.many1 p))
    (andThen (meaning rules turns enter p) (watch rules turns enter ok inside p) fun _ =>
      eachTurn (meaning rules turns enter p) (watch rules turns enter ok inside p))
  | _, .skipMany p => both (ok (.skipMany p))
    (eachTurn (meaning rules turns enter p) (watch rules turns enter ok inside p))
  | _, .skipMany1 p => both (ok (.skipMany1 p))
    (andThen (meaning rules turns enter p) (watch rules turns enter ok inside p) fun _ =>
      eachTurn (meaning rules turns enter p) (watch rules turns enter ok inside p))
  | _, .sepBy p separator => both (ok (.sepBy p separator))
    (andThen (meaning rules turns enter p) (watch rules turns enter ok inside p) fun _ =>
      eachTurn (Parser.discardLeft (meaning rules turns enter separator)
          (meaning rules turns enter p))
        (andThen (meaning rules turns enter separator) (watch rules turns enter ok inside separator)
          fun _ => watch rules turns enter ok inside p))
  | _, .sepBy1 p separator => both (ok (.sepBy1 p separator))
    (andThen (meaning rules turns enter p) (watch rules turns enter ok inside p) fun _ =>
      eachTurn (Parser.discardLeft (meaning rules turns enter separator)
          (meaning rules turns enter p))
        (andThen (meaning rules turns enter separator) (watch rules turns enter ok inside separator)
          fun _ => watch rules turns enter ok inside p))
  | _, .lazy p => both (ok (.lazy p)) (inside p)
  | _, .rule i => both (ok (.rule i)) (inside (rules i))
  | _, p => ok p

/-- `ok` holds of every call in the run of a grammar that may nest to the given depth. -/
def watchAt (rules : Rules σ τ υ ρ) (turns : σ → Nat)
    (ok : {α : Type} → Grammar σ τ υ ρ α → Watch σ υ) :
    (depth : Nat) → {α : Type} → Grammar σ τ υ ρ α → Watch σ υ
  | 0, _, p =>
    watch rules turns (fun _ => Parser.nested Parser.exhausted) ok (fun _ _ _ => True) p
  | depth + 1, _, p =>
    watch rules turns (fun q => Parser.nested (parserAt rules turns depth q)) ok
      (fun q => entered (watchAt rules turns ok depth q)) p

/-- `ok` holds of every call in the run of a grammar within a budget. -/
def Throughout {α : Type} (rules : Rules σ τ υ ρ) (budget : Budget σ)
    (ok : {α : Type} → Grammar σ τ υ ρ α → Watch σ υ) (p : Grammar σ τ υ ρ α) : Watch σ υ :=
  watchAt rules budget.turns ok budget.depth p

/-! ## Conditions that are kept -/

section Kept

variable {rules : Rules σ τ υ ρ} {J : Watch σ υ} {node : {α : Type} → Grammar σ τ υ ρ α → Prop}
  {ok inside : {α : Type} → Grammar σ τ υ ρ α → Watch σ υ}

/-- The parts of a grammar are called in states that satisfy what all of them keep. -/
theorem watch_of_kept {turns : σ → Nat} {enter : {α : Type} → Grammar σ τ υ ρ α → Parser σ υ α}
    (hrules : ∀ i, (rules i).Everywhere node)
    (hkept : ∀ {α : Type} (q : Grammar σ τ υ ρ α), q.Everywhere node →
      J.KeptBy (meaning rules turns enter q))
    (hok : ∀ {α : Type} (q : Grammar σ τ υ ρ α) context state, J context state →
      ok q context state)
    (hinside : ∀ {α : Type} (q : Grammar σ τ υ ρ α), q.Everywhere node → ∀ context state,
      J context state → inside q context state)
    {α : Type} (p : Grammar σ τ υ ρ α) (hp : p.Everywhere node) {context : Context}
    {state : State σ υ} (hJ : J context state) :
    watch rules turns enter ok inside p context state := by
  induction p generalizing state with
  | map f p ih | optional p ih | labels names p ih | attempt p ih | lookAhead p ih
  | notFollowedBy shown p ih => exact ⟨hok _ _ _ hJ, ih hp.2 hJ⟩
  | bind p f ihp ihf =>
    refine ⟨hok _ _ _ hJ, (hkept p hp.2.1).andThen hJ (ihp hp.2.1 hJ) fun output after hafter => ?_⟩
    exact ihf output (hp.2.2 output) hafter
  | discardLeft p q ihp ihq | discardRight p q ihp ihq =>
    refine ⟨hok _ _ _ hJ, (hkept p hp.2.1).andThen hJ (ihp hp.2.1 hJ) fun _ after hafter => ?_⟩
    exact ihq hp.2.2 hafter
  | between opening closing p iho ihc ihp =>
    refine ⟨hok _ _ _ hJ, (hkept opening hp.2.1).andThen hJ (iho hp.2.1 hJ)
      fun _ inner hinner => ?_⟩
    refine (hkept p hp.2.2.2).andThen hinner (ihp hp.2.2.2 hinner) fun _ after hafter => ?_
    exact ihc hp.2.2.1 hafter
  | choice p q ihp ihq => exact ⟨hok _ _ _ hJ, ihp hp.2.1 hJ, fun _ _ => ihq hp.2.2 hJ⟩
  | alternatives count p ih =>
    exact ⟨hok _ _ _ hJ, Watch.oneOf_of_forall fun i => ih i (hp.2 i) hJ⟩
  | many p ih | skipMany p ih =>
    exact ⟨hok _ _ _ hJ, (hkept p hp.2).eachTurn hJ fun _ => ih hp.2⟩
  | many1 p ih | skipMany1 p ih =>
    refine ⟨hok _ _ _ hJ, (hkept p hp.2).andThen hJ (ih hp.2 hJ) fun _ after hafter => ?_⟩
    exact (hkept p hp.2).eachTurn hafter fun _ => ih hp.2
  | sepBy p separator ihp ihs | sepBy1 p separator ihp ihs =>
    have hseparator := hkept separator hp.2.2
    refine ⟨hok _ _ _ hJ, (hkept p hp.2.1).andThen hJ (ihp hp.2.1 hJ) fun _ after hafter => ?_⟩
    refine (hseparator.discardLeft (hkept p hp.2.1)).eachTurn hafter fun turn hturn => ?_
    exact hseparator.andThen hturn (ihs hp.2.2 hturn) fun _ after hafter => ihp hp.2.1 hafter
  | lazy p => exact ⟨hok _ _ _ hJ, hinside p hp.2 _ _ hJ⟩
  | rule i => exact ⟨hok _ _ _ hJ, hinside (rules i) (hrules i) _ _ hJ⟩
  | _ => exact hok _ _ _ hJ

/-- What holds of the call with which a run starts holds of all its calls, if it is kept by the
parsers of the class and by going one level deeper. -/
theorem throughout_of_kept {budget : Budget σ} (hrules : ∀ i, (rules i).Everywhere node)
    (hkept : ∀ depth {α : Type} (q : Grammar σ τ υ ρ α), q.Everywhere node →
      J.KeptBy (parserAt rules budget.turns depth q))
    (hnest : ∀ context state deeper, J context state →
      context.nest state.position = .returned (.ok deeper) → J deeper state)
    (hok : ∀ {α : Type} (q : Grammar σ τ υ ρ α) context state, J context state →
      ok q context state)
    {α : Type} (p : Grammar σ τ υ ρ α) (hp : p.Everywhere node) {context : Context}
    {state : State σ υ} (hJ : J context state) : p.Throughout rules budget ok context state := by
  have hat : ∀ depth, ∀ {α : Type} (p : Grammar σ τ υ ρ α), p.Everywhere node →
      ∀ {context state}, J context state → watchAt rules budget.turns ok depth p context state := by
    intro depth
    induction depth with
    | zero =>
      intro α p hp context state hJ
      exact watch_of_kept hrules (hkept 0) hok (fun _ _ _ _ _ => trivial) p hp hJ
    | succ depth ih =>
      intro α p hp context state hJ
      refine watch_of_kept hrules (hkept (depth + 1)) hok (fun q hq context state hJ => ?_) p hp hJ
      exact fun deeper hdeeper => ih q hq (hnest context state deeper hJ hdeeper)
  exact hat budget.depth p hp hJ

/-- What holds of the context in which a run starts, and is kept by going one level deeper, holds of
the contexts of all its calls. -/
theorem throughout_of_context {K : Context → Prop} {budget : Budget σ}
    (hnest : ∀ context position deeper, K context →
      context.nest position = .returned (.ok deeper) → K deeper)
    (hok : ∀ {α : Type} (q : Grammar σ τ υ ρ α) context state, K context → ok q context state)
    {α : Type} (p : Grammar σ τ υ ρ α) {context : Context} (hK : K context) (state : State σ υ) :
    p.Throughout rules budget ok context state := by
  have htrivial : ∀ {α : Type} (q : Grammar σ τ υ ρ α), q.Everywhere fun _ => True :=
    everywhere_of_forall fun _ => trivial
  exact throughout_of_kept (J := fun context _ => K context) (fun i => htrivial (rules i))
    (fun _ _ _ _ _ _ hK _ _ _ _ _ => hK) (fun context state deeper => hnest context _ deeper) hok p
    (htrivial p) hK

end Kept

end Grammar

end Parsing
