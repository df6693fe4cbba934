import Parsing.Chars.Lexeme
import Parsing.Proofs.Calls
import Parsing.Proofs.Everywhere

/-!
# What a limit on nesting changes

A run asks for the limit in one place, where a parser is entered one nest level deeper. If it is
never refused there, the limit has had no say in it, and a context with as many levels left gives
the same run. A refusal is a failure that has read nothing, and an alternative or the end of a
repetition may hide it, so the condition is on the calls of the run and cannot be seen from its
outcome.

The limit is compared with the level for equality. That is enough, since the level starts at zero
and goes up one by one, and so cannot get past the limit.
-/

namespace Parsing

variable {σ τ υ α β : Type}

/-! ## Contexts -/

namespace Context

/-- The level is not past the limit. So it is in every context there is, since a context starts at
level zero and gets deeper by `nest` only. -/
def Sound (context : Context) : Prop :=
  ∀ limit, context.limit = some limit → context.level ≤ limit

/-- `wide` has no limit, or at least as many levels left as `tight`. -/
def Roomier (wide tight : Context) : Prop :=
  ∀ limit, wide.limit = some limit →
    ∃ limit', tight.limit = some limit' ∧ limit' - tight.level ≤ limit - wide.level

/-- No deeper level is entered from the context. -/
def Refuses (context : Context) (position : Position) : Prop :=
  context.nest position = .returned (.error (refusal position))

variable {context tight wide inner : Context} {position : Position}

theorem refuses_iff : context.Refuses position ↔ some context.level = context.limit := by
  by_cases hlimit : some context.level = context.limit
  · exact iff_of_true (nest_of_eq_limit hlimit position) hlimit
  · refine iff_of_false (fun h => ?_) hlimit
    by_cases hlevel : context.level < maxLevel
    · rw [Refuses, nest_of_ne_limit hlimit hlevel] at h
      cases h
    · simp [Refuses, nest, hlimit, hlevel] at h

/-- The only context that is entered is the one with the next level. -/
theorem eq_of_nest (h : context.nest position = .returned (.ok inner)) :
    some context.level ≠ context.limit ∧ inner = { context with level := context.level + 1 } := by
  by_cases hlimit : some context.level = context.limit
  · rw [nest_of_eq_limit hlimit] at h
    cases h
  · refine ⟨hlimit, ?_⟩
    by_cases hlevel : context.level < maxLevel
    · rw [nest_of_ne_limit hlimit hlevel] at h
      cases h
      rfl
    · simp [nest, hlimit, hlevel] at h

theorem sound_start (limit : Option Nat) : (start limit).Sound :=
  fun _ _ => Nat.zero_le _

theorem Sound.nest (h : context.Sound) (hnest : context.nest position = .returned (.ok inner)) :
    inner.Sound := by
  obtain ⟨hne, rfl⟩ := eq_of_nest hnest
  intro limit hlimit
  have hle := h limit hlimit
  have hlevel : context.level ≠ limit := fun heq => hne (by rw [heq]; exact hlimit.symm)
  simp only
  omega

/-- The comparison for equality finds every level from which the limit lets none be entered. -/
theorem Sound.refuses_iff_le (h : context.Sound) {limit : Nat}
    (hlimit : context.limit = some limit) :
    context.Refuses position ↔ limit ≤ context.level := by
  have hle := h limit hlimit
  rw [refuses_iff, hlimit, Option.some_inj]
  omega

/-- Where the tighter context has a level left, so has the wider one. -/
theorem Roomier.ne_limit (h : wide.Roomier tight) (hsound : tight.Sound)
    (hne : some tight.level ≠ tight.limit) : some wide.level ≠ wide.limit := by
  intro heq
  obtain ⟨limit, hlimit, hroom⟩ := h wide.level heq.symm
  have hle := hsound limit hlimit
  have hlevel : tight.level ≠ limit := fun h => hne (by rw [h, hlimit])
  omega

theorem Roomier.deeper (h : wide.Roomier tight) :
    Roomier { wide with level := wide.level + 1 } { tight with level := tight.level + 1 } := by
  intro limit hlimit
  obtain ⟨limit', hlimit', hroom⟩ := h limit hlimit
  refine ⟨limit', hlimit', ?_⟩
  simp only
  omega

end Context

/-! ## Parsers that do not see the limit -/

namespace Watch

/-- The call does not meet the limit, and the next level is in range. -/
def free : Watch σ υ :=
  fun context state => ¬ context.Refuses state.position ∧ context.level < Context.maxLevel

/-- The next level is in range. -/
def inRange : Watch σ υ :=
  fun context _ => context.level < Context.maxLevel

end Watch

open Watch (both andThen orElse oneOf eachTurn entered free inRange)

namespace Parser

/-- Two calls in the same state end alike, if one of them is in a context that satisfies `v`, and
the other is in a roomier context that satisfies `w`. -/
def AgreesUnder (p : Parser σ υ α) (v w : Watch σ υ) : Prop :=
  ∀ (tight wide : Context) (state : State σ υ), tight.Sound → wide.Roomier tight →
    v tight state → w wide state → p wide state = p tight state

variable {v w v' w' : Watch σ υ} {p q : Parser σ υ α}

/-- What does not look at the context is the same in all of them. -/
theorem agreesUnder_of_forall (h : ∀ context context' state, p context state = p context' state) :
    p.AgreesUnder v w :=
  fun _ _ state _ _ _ _ => h _ _ state

theorem agreesUnder_exhausted :
    (exhausted : Parser σ υ α).AgreesUnder (fun _ _ => True) (fun _ _ => True) :=
  agreesUnder_of_forall fun _ _ _ => rfl

/-- What is made of a result without the context agrees if the result does. -/
theorem AgreesUnder.apply (f : State σ υ → Outcome (Result σ υ α) → Outcome (Result σ υ β))
    (h : p.AgreesUnder v w) : AgreesUnder (fun context state => f state (p context state)) v w := by
  intro tight wide state hsound hroom hv hw
  exact congrArg (f state) (h tight wide state hsound hroom hv hw)

theorem AgreesUnder.bind {f : α → Parser σ υ β} {v' w' : α → Watch σ υ} (h : p.AgreesUnder v w)
    (hf : ∀ output, (f output).AgreesUnder (v' output) (w' output)) :
    (Parser.bind p f).AgreesUnder (andThen p v v') (andThen p w w') := by
  rintro tight wide state hsound hroom ⟨hv, hv'⟩ ⟨hw, hw'⟩
  have hfirst : p wide state = p tight state := h tight wide state hsound hroom hv hw
  rw [hfirst] at hw'
  unfold Parser.bind
  rw [hfirst]
  cases heq : p tight state with
  | fault f => rfl
  | exhausted => rfl
  | returned first =>
    obtain ⟨tag, reply⟩ := first
    cases reply with
    | failure error => rfl
    | success output next hint =>
      have hsecond : f output wide next = f output tight next :=
        hf output tight wide next hsound hroom (hv' tag output next hint heq)
          (hw' tag output next hint heq)
      simp only [Outcome.bind_returned, Result.andThen, hsecond]

theorem AgreesUnder.discardLeft {q : Parser σ υ β} (h : p.AgreesUnder v w)
    (hq : q.AgreesUnder v' w') :
    (Parser.discardLeft p q).AgreesUnder (andThen p v fun _ => v') (andThen p w fun _ => w') :=
  h.bind fun _ => hq

theorem AgreesUnder.discardRight {q : Parser σ υ β} (h : p.AgreesUnder v w)
    (hq : q.AgreesUnder v' w') :
    (Parser.discardRight p q).AgreesUnder (andThen p v fun _ => v') (andThen p w fun _ => w') :=
  h.bind fun _ => hq.apply fun _ => Outcome.map _

theorem AgreesUnder.choice (h : p.AgreesUnder v w) (hq : q.AgreesUnder v' w') :
    (Parser.choice p q).AgreesUnder (orElse p v v') (orElse p w w') := by
  rintro tight wide state hsound hroom ⟨hv, hv'⟩ ⟨hw, hw'⟩
  have hfirst : p wide state = p tight state := h tight wide state hsound hroom hv hw
  rw [hfirst] at hw'
  unfold Parser.choice
  rw [hfirst]
  cases heq : p tight state with
  | fault f => rfl
  | exhausted => rfl
  | returned first =>
    obtain ⟨_ | _, reply⟩ := first
    · have hsecond : q wide state = q tight state :=
        hq tight wide state hsound hroom (hv' reply heq) (hw' reply heq)
      simp only [Outcome.bind_returned, hsecond]
    · rfl

theorem AgreesUnder.optional (h : p.AgreesUnder v w) : (Parser.optional p).AgreesUnder v w :=
  h.apply fun state outcome => outcome.bind fun first =>
    (first.map fun _ => ()).orElse fun _ => .returned (.accept () state)

theorem agreesUnder_choiceOf_ofFn {count : Nat} {f : Fin count → Parser σ υ α}
    {v w : Fin count → Watch σ υ} (h : ∀ i, (f i).AgreesUnder (v i) (w i)) :
    (choiceOf (List.ofFn f)).AgreesUnder (oneOf (List.ofFn fun i => (f i, v i)))
      (oneOf (List.ofFn fun i => (f i, w i))) := by
  induction count with
  | zero => exact agreesUnder_of_forall fun _ _ _ => rfl
  | succ count ih =>
    simp only [List.ofFn_succ, choiceOf_cons, oneOf]
    exact (h 0).choice (ih fun i => h i.succ)

/-- The turns of a repetition are the same, since each of them starts where the run of those before
it has led. -/
theorem accumulate_agrees {push : β → α → β} {tight wide : Context} (h : p.AgreesUnder v w)
    (hsound : tight.Sound) (hroom : wide.Roomier tight) (turns : Nat) (acc : β)
    (hint : Option ParseError) {state : State σ υ} (hv : eachTurn p v tight state)
    (hw : eachTurn p w wide state) :
    accumulate push p wide turns acc hint state = accumulate push p tight turns acc hint state := by
  induction turns generalizing acc hint state with
  | zero => rfl
  | succ turns ih =>
    have hturn : p wide state = p tight state :=
      h tight wide state hsound hroom (hv [] state (.nil state)) (hw [] state (.nil state))
    rw [accumulate, accumulate, hturn]
    split
    · rfl
    · rfl
    · rename_i output next last heq
      have hv' : eachTurn p v tight next := fun steps last hrun => hv _ last (.cons heq hrun)
      have hw' : eachTurn p w wide next := fun steps last hrun =>
        hw _ last (.cons (hturn.trans heq) hrun)
      exact ih _ _ hv' hw'
    · rfl
    · rfl
    · rfl

theorem AgreesUnder.repetition (turns : σ → Nat) (push : β → α → β) (acc : β)
    (h : p.AgreesUnder v w) :
    (Parser.repetition turns push acc p).AgreesUnder (eachTurn p v) (eachTurn p w) :=
  fun _ _ state hsound hroom hv hw =>
    accumulate_agrees h hsound hroom (turns state.input) acc none hv hw

theorem AgreesUnder.many (turns : σ → Nat) (h : p.AgreesUnder v w) :
    (Parser.many turns p).AgreesUnder (eachTurn p v) (eachTurn p w) :=
  (h.repetition turns (fun acc output => output :: acc) []).apply fun _ => Outcome.map _

theorem AgreesUnder.sepBy1 (turns : σ → Nat) {separator : Parser σ υ β} (h : p.AgreesUnder v w)
    (hs : separator.AgreesUnder v' w') :
    (Parser.sepBy1 turns p separator).AgreesUnder
      (andThen p v fun _ =>
        eachTurn (Parser.discardLeft separator p) (andThen separator v' fun _ => v))
      (andThen p w fun _ =>
        eachTurn (Parser.discardLeft separator p) (andThen separator w' fun _ => w)) :=
  h.bind fun _ => ((hs.discardLeft h).many turns).apply fun _ => Outcome.map _

theorem AgreesUnder.sepBy (turns : σ → Nat) {separator : Parser σ υ β} (h : p.AgreesUnder v w)
    (hs : separator.AgreesUnder v' w') :
    (Parser.sepBy turns p separator).AgreesUnder
      (andThen p v fun _ =>
        eachTurn (Parser.discardLeft separator p) (andThen separator v' fun _ => v))
      (andThen p w fun _ =>
        eachTurn (Parser.discardLeft separator p) (andThen separator w' fun _ => w)) :=
  (h.sepBy1 turns hs).apply fun state outcome => outcome.bind fun first =>
    first.orElse fun _ => .returned (.accept [] state)

/-- Where the tighter context lets a parser be entered, so does the roomier one, and the contexts
one level deeper are related as those before. -/
theorem AgreesUnder.nested (h : p.AgreesUnder v w) :
    (Parser.nested p).AgreesUnder (both free (entered v)) (both inRange (entered w)) := by
  rintro tight wide state hsound hroom ⟨⟨hfree, htight⟩, hv⟩ ⟨hwide, hw⟩
  have hne : some tight.level ≠ tight.limit := fun heq => hfree (Context.refuses_iff.2 heq)
  have hnest := Context.nest_of_ne_limit hne htight state.position
  have hnest' := Context.nest_of_ne_limit (hroom.ne_limit hsound hne) hwide state.position
  have hinside := h _ _ state (hsound.nest hnest) hroom.deeper (hv _ hnest) (hw _ hnest')
  simp only [Parser.nested, hnest, hnest', Outcome.bind_returned]
  exact hinside

theorem AgreesUnder.mono (h : p.AgreesUnder v w)
    (hv : ∀ context state, v' context state → v context state)
    (hw : ∀ context state, w' context state → w context state) : p.AgreesUnder v' w' :=
  fun tight wide state hsound hroom hv' hw' =>
    h tight wide state hsound hroom (hv tight state hv') (hw wide state hw')

/-- A condition on the node itself may be added to those on its parts. -/
theorem AgreesUnder.at_node (h : p.AgreesUnder v w) : p.AgreesUnder (both v' v) (both w' w) :=
  h.mono (fun _ _ => And.right) (fun _ _ => And.right)

end Parser

/-! ## Grammars -/

namespace Grammar

variable {ι : Type} {ρ : ι → Type}

/-- The grammar is a call of a parser on demand, and the call is refused. -/
def Refused : {α : Type} → Grammar σ τ υ ρ α → Watch σ υ
  | _, .lazy _ => fun context state => context.Refuses state.position
  | _, .rule _ => fun context state => context.Refuses state.position
  | _, _ => fun _ _ => False

/-- What a node may be for the context not to be looked at other than by nesting: a parser by hand
does not look at it. -/
def Unaware : {α : Type} → Grammar σ τ υ ρ α → Prop
  | _, .ofParser p => ∀ context context' state, p context state = p context' state
  | _, _ => True

/-- The call is not refused, and the next level is in range. -/
abbrev Free {α : Type} (p : Grammar σ τ υ ρ α) : Watch σ υ :=
  fun context state => ¬ p.Refused context state ∧ context.level < Context.maxLevel

/-- The next level is in range. -/
abbrev InRange {α : Type} (_ : Grammar σ τ υ ρ α) : Watch σ υ :=
  inRange

variable [Input σ τ] [DecidableEq τ] {rules : Rules σ τ υ ρ}

/-- Outcomes agree where all calls of the run are free, if they do for what is entered one level
deeper. -/
theorem meaning_agrees {turns : σ → Nat} {enter : {α : Type} → Grammar σ τ υ ρ α → Parser σ υ α}
    {v w : {α : Type} → Grammar σ τ υ ρ α → Watch σ υ}
    (hrules : ∀ i, (rules i).Everywhere Unaware)
    (henter : ∀ {α : Type} (q : Grammar σ τ υ ρ α), q.Everywhere Unaware →
      (enter q).AgreesUnder (both free (v q)) (both inRange (w q)))
    (p : Grammar σ τ υ ρ α) (hp : p.Everywhere Unaware) :
    (meaning rules turns enter p).AgreesUnder (watch rules turns enter Free v p)
      (watch rules turns enter InRange w p) := by
  induction p with
  | map f p ih => exact ((ih hp.2).apply _).at_node
  | bind p f ihp ihf =>
    exact ((ihp hp.2.1).bind fun output => ihf output (hp.2.2 output)).at_node
  | discardLeft p q ihp ihq => exact ((ihp hp.2.1).discardLeft (ihq hp.2.2)).at_node
  | discardRight p q ihp ihq => exact ((ihp hp.2.1).discardRight (ihq hp.2.2)).at_node
  | between opening closing p iho ihc ihp =>
    have hrest := (ihp hp.2.2.2).discardRight (ihc hp.2.2.1)
    exact ((iho hp.2.1).discardLeft hrest).at_node
  | choice p q ihp ihq => exact ((ihp hp.2.1).choice (ihq hp.2.2)).at_node
  | alternatives count p ih =>
    exact (Parser.agreesUnder_choiceOf_ofFn fun i => ih i (hp.2 i)).at_node
  | optional p ih => exact (ih hp.2).optional.at_node
  | labels names p ih => exact ((ih hp.2).apply _).at_node
  | attempt p ih => exact ((ih hp.2).apply _).at_node
  | lookAhead p ih => exact ((ih hp.2).apply _).at_node
  | notFollowedBy shown p ih => exact ((ih hp.2).apply _).at_node
  | many p ih => exact ((ih hp.2).many turns).at_node
  | many1 p ih =>
    have hbody := ih hp.2
    exact (hbody.bind fun _ => (hbody.repetition turns _ _).apply fun _ => Outcome.map _).at_node
  | skipMany p ih => exact ((ih hp.2).repetition turns _ _).at_node
  | skipMany1 p ih =>
    have hbody := ih hp.2
    exact (hbody.bind fun _ => hbody.repetition turns _ _).at_node
  | sepBy p separator ihp ihs => exact ((ihp hp.2.1).sepBy turns (ihs hp.2.2)).at_node
  | sepBy1 p separator ihp ihs => exact ((ihp hp.2.1).sepBy1 turns (ihs hp.2.2)).at_node
  | lazy p => exact henter p hp.2
  | rule i => exact henter (rules i) (hrules i)
  | ofParser p => exact Parser.agreesUnder_of_forall hp
  | _ => exact Parser.agreesUnder_of_forall fun _ _ _ => rfl

theorem parserAt_agrees (hrules : ∀ i, (rules i).Everywhere Unaware) (turns : σ → Nat)
    (depth : Nat) (p : Grammar σ τ υ ρ α) (hp : p.Everywhere Unaware) :
    (parserAt rules turns depth p).AgreesUnder (watchAt rules turns Free depth p)
      (watchAt rules turns InRange depth p) := by
  induction depth generalizing α with
  | zero =>
    refine meaning_agrees hrules (fun q _ => ?_) p hp
    exact Parser.agreesUnder_exhausted.nested.mono (fun _ _ h => ⟨h.1, fun _ _ => trivial⟩)
      (fun _ _ h => ⟨h.1, fun _ _ => trivial⟩)
  | succ depth ih => exact meaning_agrees hrules (fun q hq => (ih q hq).nested) p hp

/-- The context of a run keeps its limit, and stays within it. -/
theorem throughout_of_limit {budget : Budget σ}
    {ok : {α : Type} → Grammar σ τ υ ρ α → Watch σ υ} {context : Context} {limit : Nat}
    (hlimit : context.limit = some limit) (hsound : context.Sound)
    (hok : ∀ {α : Type} (q : Grammar σ τ υ ρ α) (context : Context) (state : State σ υ),
      context.limit = some limit → context.Sound → ok q context state)
    (p : Grammar σ τ υ ρ α) (state : State σ υ) : p.Throughout rules budget ok context state := by
  refine throughout_of_context (K := fun context => context.limit = some limit ∧ context.Sound)
    ?_ (fun q context state h => hok q context state h.1 h.2) p ⟨hlimit, hsound⟩ state
  rintro context position inner ⟨hlimit, hsound⟩ hnest
  refine ⟨?_, hsound.nest hnest⟩
  obtain ⟨-, rfl⟩ := Context.eq_of_nest hnest
  exact hlimit

/-- A limit below the largest level keeps all levels in range. -/
theorem throughout_inRange {budget : Budget σ} {context : Context} {limit : Nat}
    (hlimit : context.limit = some limit) (hmax : limit < Context.maxLevel)
    (hsound : context.Sound) (p : Grammar σ τ υ ρ α) (state : State σ υ) :
    p.Throughout rules budget InRange context state := by
  refine throughout_of_limit hlimit hsound (fun q context state hlimit hsound => ?_) p state
  exact Nat.lt_of_le_of_lt (hsound limit hlimit) hmax

/-- A limit makes a difference to a run only where it refuses a call. If no call of the run in one
context is refused, the run from the same state in any context with as many levels left, or with no
limit, ends alike, with the same result, at the same fault, or with nothing left of the budget. In a
run that starts at level zero no call is deeper than the limit, and the comparison at the limit
refuses exactly those calls from which the limit lets no deeper one be made. -/
theorem limit_unseen_unless_reached (rules : Rules σ τ υ ρ) (p : Grammar σ τ υ ρ α)
    (budget : Budget σ) (state : State σ υ) :
    ((∀ i, (rules i).Everywhere Unaware) → p.Everywhere Unaware →
      ∀ tight wide : Context, tight.Sound → wide.Roomier tight →
        p.Throughout rules budget Free tight state →
        p.Throughout rules budget InRange wide state →
          p.parser rules budget wide state = p.parser rules budget tight state) ∧
    ∀ limit, p.Throughout rules budget
      (fun _ context state => context.limit = some limit ∧ context.level ≤ limit ∧
        (context.Refuses state.position ↔ limit ≤ context.level))
      (.start (some limit)) state := by
  refine ⟨fun hrules hp tight wide hsound hroom hfree hrange => ?_, fun limit => ?_⟩
  · exact parserAt_agrees hrules budget.turns budget.depth p hp tight wide state hsound hroom hfree
      hrange
  · refine throughout_of_limit rfl (Context.sound_start _) ?_ p state
    intro β q context state hlimit hsound
    exact ⟨hlimit, hsound limit hlimit, hsound.refuses_iff_le hlimit⟩

/-- A pair of parentheses is entered one level deep. The run that may go to this level only, and the
run that starts on level four and may go to level six, are the same. -/
theorem pair_of_parens_within_limit :
    let parens : Grammar (List Char) Char Unit (fun _ : Unit => Nat) Nat := Chars.parens
    let rules : Rules (List Char) Char Unit (fun _ : Unit => Nat) := Chars.parensRules
    let start : State (List Char) Unit := ⟨['(', ')'], (), .initial "f"⟩
    let tight : Context := .start (some 1)
    let wide : Context := ⟨4, some 6⟩
    let budget : Budget (List Char) := ⟨fun _ => 3, 2⟩
    (parens.Everywhere Unaware ∧ tight.Sound ∧ wide.Roomier tight ∧
      parens.Throughout rules budget Free tight start ∧
      parens.Throughout rules budget InRange wide start) ∧
    parens.parser rules budget wide start = parens.parser rules budget tight start := by
  intro parens rules start tight wide budget
  let opening : Grammar (List Char) Char Unit (fun _ : Unit => Nat) Char := Chars.satisfy (· == '(')
  have hparens : parens.Everywhere Unaware :=
    ⟨trivial, ⟨trivial, trivial, ⟨trivial, trivial, trivial⟩, trivial⟩, trivial⟩
  have hsound : tight.Sound := Context.sound_start _
  have hroom : wide.Roomier tight := by
    intro limit hlimit
    cases hlimit
    exact ⟨1, rfl, by decide⟩
  -- the rule is called behind an opening parenthesis only
  have hcall (depth : Nat) (context : Context) (state : State (List Char) Unit)
      (hlevel : context.level < Context.maxLevel)
      (hrule : ∀ tag output after hint, opening.parser rules budget context state =
        .returned ⟨tag, .success output after hint⟩ →
          ¬ context.Refuses after.position ∧
            entered (watchAt rules budget.turns Free depth parens) context after) :
      watchAt rules budget.turns Free (depth + 1) parens context state := by
    refine ⟨⟨id, hlevel⟩, ⟨⟨id, hlevel⟩, ⟨id, hlevel⟩, ⟨⟨id, hlevel⟩, ⟨id, hlevel⟩, ?_⟩, ?_⟩, ?_⟩
    · intro tag output after hint h
      obtain ⟨hrefuses, hinside⟩ := hrule tag output after hint h
      exact ⟨⟨hrefuses, hlevel⟩, hinside⟩
    · exact fun _ _ _ _ _ => ⟨id, hlevel⟩
    · exact fun _ _ => ⟨id, hlevel⟩
  have hfree : parens.Throughout rules budget Free tight start := by
    refine hcall 1 tight start (by decide) fun tag output after hint h => ?_
    cases h
    refine ⟨fun hrefuses => ?_, fun inner hnest => ?_⟩
    · cases Context.refuses_iff.1 hrefuses
    · obtain ⟨-, rfl⟩ := Context.eq_of_nest hnest
      refine hcall 0 _ _ (by decide) fun tag output after hint h => ?_
      cases h
  have hrange : parens.Throughout rules budget InRange wide start := by
    have hwide : wide.Sound := by
      intro limit hlimit
      cases hlimit
      decide
    have hlimit : wide.limit = some 6 := rfl
    exact throughout_inRange hlimit (by decide) hwide parens start
  refine ⟨⟨hparens, hsound, hroom, hfree, hrange⟩, ?_⟩
  exact (limit_unseen_unless_reached rules parens budget start).1 (fun _ => hparens) hparens tight
    wide hsound hroom hfree hrange

end Grammar

end Parsing
