import Parsing.Chars.Class
import Parsing.Input.Items
import Parsing.Proofs.Everywhere
import Parsing.Proofs.Sequencing

/-!
# Repetitions that are never at fault

A repetition is at fault if its body succeeds without reading input. A look at the grammar can rule
this out: a body is productive if every success of it passes through a part that reads input. Which
rules are productive is marked beforehand, and the marking is consistent if each marked rule is
productive as far as the marks on the rules that it calls go, itself included. There is no circle in
this, since a rule is entered one nest level deeper: the induction is on the depth, and for each
depth on the tree.
-/

namespace Parsing

variable {σ τ υ α β : Type}

namespace Result

/-- The result is not a success that has read nothing. -/
def Progresses (result : Result σ υ α) : Prop :=
  result.tag = .empty → result.reply.isSuccess = false

theorem progresses_failure (tag : Tag) (error : ParseError) :
    (⟨tag, .failure error⟩ : Result σ υ α).Progresses :=
  fun _ => rfl

theorem progresses_consumed (reply : Reply σ υ α) : Progresses ⟨.consumed, reply⟩ :=
  fun h => by cases h

theorem not_progresses_success {output : α} {state : State σ υ} {hint : ParseError} :
    ¬ Progresses ⟨.empty, .success output state hint⟩ :=
  fun h => by cases h rfl

theorem progresses_behind_consumed (earlier : ParseError) (result : Result σ υ α) :
    (result.behind .consumed earlier).Progresses := by
  intro h
  rw [tag_behind_consumed] at h
  cases h

theorem Progresses.behind {result : Result σ υ α} (h : result.Progresses) (tag : Tag)
    (earlier : ParseError) : (result.behind tag earlier).Progresses := by
  obtain ⟨_ | _, reply⟩ := result
  · cases reply with
    | success output state hint => exact absurd h not_progresses_success
    | failure error => exact progresses_failure tag _
  · exact progresses_consumed reply

theorem Progresses.map {result : Result σ υ α} (f : α → β) (h : result.Progresses) :
    (result.map f).Progresses := by
  intro htag
  have hfailure := h htag
  obtain ⟨tag, reply⟩ := result
  cases reply with
  | success output state hint => cases hfailure
  | failure error => rfl

theorem Progresses.labeled {result : Result σ υ α} (names : List String) (h : result.Progresses) :
    (result.labeled names).Progresses := by
  obtain ⟨_ | _, reply⟩ := result
  · cases reply with
    | success output state hint => exact absurd h not_progresses_success
    | failure error => exact progresses_failure _ _
  · exact h

theorem Progresses.rewound {result : Result σ υ α} (h : result.Progresses) :
    result.rewound.Progresses := by
  obtain ⟨_ | _, reply⟩ := result
  · exact h
  · cases reply with
    | success output state hint => exact h
    | failure error => exact progresses_failure _ _

end Result

open Result (progresses_failure progresses_consumed not_progresses_success
  progresses_behind_consumed)

/-- The run does not stop at the fault of a repetition, and what it returns is not a success that
has read nothing, provided that `P` holds. -/
inductive Outcome.Guards (P : Prop) : Outcome (Result σ υ α) → Prop where
  | returned {result : Result σ υ α} (h : P → result.Progresses) : Guards P (.returned result)
  | fault {f : Fault} (h : ∀ position, f ≠ .emptyRepetition position) : Guards P (.fault f)
  | exhausted : Guards P .exhausted

namespace Outcome.Guards

variable {P Q : Prop} {o : Outcome (Result σ υ α)}

theorem bind {next : Result σ υ α → Outcome (Result σ υ β)} (h : o.Guards P)
    (hnext : ∀ result, (P → result.Progresses) → (next result).Guards Q) :
    (o.bind next).Guards Q := by
  cases h with
  | returned h => exact hnext _ h
  | fault h => exact .fault h
  | exhausted => exact .exhausted

theorem map {f : Result σ υ α → Result σ υ β} (h : o.Guards P)
    (hf : ∀ result, (P → result.Progresses) → Q → (f result).Progresses) : (o.map f).Guards Q := by
  rw [Outcome.map_eq_bind]
  exact h.bind fun result hresult => .returned (hf result hresult)

theorem mono (h : o.Guards P) (himp : Q → P) : o.Guards Q := by
  cases h with
  | returned h => exact .returned fun hQ => h (himp hQ)
  | fault h => exact .fault h
  | exhausted => exact .exhausted

theorem ne_fault (h : o.Guards P) (position : Position) :
    o ≠ .fault (.emptyRepetition position) := by
  cases h with
  | returned h => exact fun heq => by cases heq
  | fault h => exact fun heq => h position (by cases heq; rfl)
  | exhausted => exact fun heq => by cases heq

theorem ne_empty_success (h : o.Guards P) (hP : P) (output : α) (state : State σ υ)
    (hint : ParseError) : o ≠ .returned ⟨.empty, .success output state hint⟩ := by
  rintro rfl
  cases h with
  | returned h => exact not_progresses_success (h hP)

end Outcome.Guards

namespace Parser

/-- The parser is never at fault for a repetition, and if `P` holds, it never succeeds without
reading input. -/
def Guards (P : Prop) (p : Parser σ υ α) : Prop :=
  ∀ context state, (p context state).Guards P

variable {P Q : Prop} {p q : Parser σ υ α}

theorem Guards.mono (h : p.Guards P) (himp : Q → P) : p.Guards Q :=
  fun context state => (h context state).mono himp

theorem guards_exhausted : (exhausted : Parser σ υ α).Guards P :=
  fun _ _ => .exhausted

theorem guards_inspect (f : State σ υ → Result σ υ α) :
    Guards False fun _ state => .returned (f state) :=
  fun _ _ => .returned False.elim

theorem guards_failWith (message : Message) : (failWith message : Parser σ υ α).Guards P :=
  fun _ _ => .returned fun _ => progresses_failure _ _

theorem guards_zero : (zero : Parser σ υ α).Guards P :=
  fun _ _ => .returned fun _ => progresses_failure _ _

theorem Guards.map (f : α → β) (h : p.Guards P) : (Parser.map f p).Guards P :=
  fun context state => (h context state).map fun _ hresult hP => (hresult hP).map f

theorem Guards.labels (names : List String) (h : p.Guards P) : (Parser.labels names p).Guards P :=
  fun context state => (h context state).map fun _ hresult hP => (hresult hP).labeled names

theorem Guards.attempt (h : p.Guards P) : (Parser.attempt p).Guards P :=
  fun context state => (h context state).map fun _ hresult hP => (hresult hP).rewound

theorem Guards.lookAhead (h : p.Guards P) : (Parser.lookAhead p).Guards False :=
  fun context state => (h context state).map fun _ _ => False.elim

theorem Guards.notFollowedBy (shown : α → String) (h : p.Guards P) :
    (Parser.notFollowedBy shown p).Guards False :=
  fun context state => (h context state).map fun _ _ => False.elim

/-- A success of a sequence passes through all of its steps, so one of them is enough. -/
theorem Guards.bind {F : α → Prop} {f : α → Parser σ υ β} (h : p.Guards P)
    (hf : ∀ output, (f output).Guards (F output)) :
    (Parser.bind p f).Guards (P ∨ ∀ output, F output) := by
  intro context state
  refine (h context state).bind ?_
  rintro ⟨tag, reply⟩ hfirst
  cases reply with
  | failure error => exact .returned fun _ => progresses_failure tag error
  | success output next hint =>
    refine (hf output context next).map fun second hsecond hor => ?_
    cases tag with
    | consumed => exact progresses_behind_consumed hint second
    | empty =>
      -- the first step is not the productive one here
      rcases hor with hP | hF
      · exact absurd (hfirst hP) not_progresses_success
      · exact (hsecond (hF output)).behind .empty hint

theorem Guards.discardLeft {p : Parser σ υ α} {q : Parser σ υ β} (h : p.Guards P)
    (hq : q.Guards Q) : (Parser.discardLeft p q).Guards (P ∨ Q) := by
  rw [discardLeft_eq_bind]
  exact (h.bind fun _ => hq).mono fun hor => hor.imp_right fun hQ _ => hQ

theorem Guards.discardRight {p : Parser σ υ α} {q : Parser σ υ β} (h : p.Guards P)
    (hq : q.Guards Q) : (Parser.discardRight p q).Guards (P ∨ Q) := by
  rw [discardRight_eq_bind]
  exact (h.bind fun _ => hq.map _).mono fun hor => hor.imp_right fun hQ _ => hQ

/-- A success of a choice is one of an alternative, so all of them are asked for. -/
theorem Guards.choice (h : p.Guards P) (hq : q.Guards Q) :
    (Parser.choice p q).Guards (P ∧ Q) := by
  intro context state
  refine (h context state).bind ?_
  rintro ⟨_ | _, reply⟩ hfirst
  · cases reply with
    | success output next hint =>
      refine (hq context state).map fun other _ hand => ?_
      exact absurd (hfirst hand.1) not_progresses_success
    | failure error =>
      exact (hq context state).map fun other hother hand => (hother hand.2).behind .empty error
  · exact .returned fun _ => progresses_consumed reply

theorem guards_choiceOf_ofFn {count : Nat} {P : Fin count → Prop}
    {f : Fin count → Parser σ υ α} (h : ∀ i, (f i).Guards (P i)) :
    (choiceOf (List.ofFn f)).Guards (∀ i, P i) := by
  induction count with
  | zero => exact guards_zero
  | succ count ih =>
    rw [List.ofFn_succ, choiceOf_cons]
    have hrest := ih fun i => h i.succ
    exact ((h 0).choice hrest).mono fun hall => ⟨hall 0, fun i => hall i.succ⟩

theorem Guards.optional (h : p.Guards P) : (Parser.optional p).Guards False := by
  rw [optional_eq_choice]
  exact ((h.map _).choice (guards_inspect _)).mono False.elim

theorem Guards.nested (h : p.Guards P) : (Parser.nested p).Guards P := by
  intro context state
  unfold Parser.nested Context.nest
  split
  · exact .returned fun _ => progresses_failure _ _
  · split
    · exact h _ state
    · exact .fault fun _ heq => by cases heq

/-! ## Repetitions -/

/-- The only turn at fault is one in which the body succeeds without reading input. -/
theorem accumulate_guards {push : β → α → β} (h : p.Guards True) (context : Context) (turns : Nat)
    (acc : β) (hint : Option ParseError) (state : State σ υ) :
    (accumulate push p context turns acc hint state).Guards False := by
  induction turns generalizing acc hint state with
  | zero => exact .exhausted
  | succ turns ih =>
    have hbody := h context state
    unfold accumulate
    split
    · rename_i f heq
      rw [heq] at hbody
      cases hbody with
      | fault hf => exact .fault hf
    · exact .exhausted
    · exact ih _ _ _
    · exact .returned False.elim
    · rename_i heq
      rw [heq] at hbody
      cases hbody with
      | returned hresult => exact absurd (hresult trivial) not_progresses_success
    · cases hint <;> exact .returned False.elim

theorem Guards.repetition {turns : σ → Nat} {push : β → α → β} {acc : β} (h : p.Guards P) (hP : P) :
    (Parser.repetition turns push acc p).Guards False :=
  fun context _ => accumulate_guards (h.mono fun _ => hP) context _ acc none _

theorem Guards.many {turns : σ → Nat} (h : p.Guards P) (hP : P) :
    (Parser.many turns p).Guards False := by
  rw [many_eq_map]
  exact (h.repetition hP).map _

theorem Guards.sepBy1 {turns : σ → Nat} {separator : Parser σ υ β} (h : p.Guards P)
    (hseparator : separator.Guards Q) (hor : P ∨ Q) :
    (Parser.sepBy1 turns p separator).Guards P := by
  rw [sepBy1_eq_bind]
  have hturn := hseparator.discardLeft h
  exact (h.bind fun _ => (hturn.many hor.symm).map _).mono Or.inl

/-! ## Tokens and functions on the state -/

section Tokens

variable [Input σ τ]

theorem guards_token {shown : τ → String} {next : Position → τ → σ → Option Position}
    {test : τ → Option α} : (token shown next test : Parser σ υ α).Guards P := by
  intro context state
  unfold token
  split
  · exact .returned fun _ => progresses_failure _ _
  · split
    · exact .returned fun _ => progresses_failure _ _
    · cases next state.position _ _ with
      | none => exact .fault fun _ heq => by cases heq
      | some position => exact .returned fun _ => progresses_consumed _

theorem guards_tokens [DecidableEq τ] {shown : List τ → String}
    {next : Position → List τ → Option Position} {expected : List τ} :
    (tokens shown next expected : Parser σ υ (List τ)).Guards (expected ≠ []) := by
  intro context state
  unfold tokens
  split
  · rename_i hexpected
    exact .returned fun hne => absurd (List.isEmpty_iff.1 hexpected) hne
  · split
    · cases next state.position expected with
      | none => exact .fault fun _ heq => by cases heq
      | some position => exact .returned fun _ => progresses_consumed _
    · exact .returned fun _ => progresses_failure _ _

theorem guards_eof {shown : τ → String} : (eof shown : Parser σ υ Unit).Guards False := by
  intro context state
  unfold eof
  split <;> exact .returned False.elim

end Tokens

theorem guards_updateState {f : State σ υ → Except Fault (State σ υ)}
    (hf : ∀ state position, f state ≠ .error (.emptyRepetition position)) :
    (updateState f).Guards False := by
  intro context state
  unfold updateState
  cases hstate : f state with
  | ok next => exact .returned False.elim
  | error fault => exact .fault fun position heq => hf state position (by rw [hstate, heq])

end Parser

/-! ## Grammars -/

namespace Grammar

variable {ι : Type} {ρ : ι → Type}

/-- Every success of the grammar reads input, as far as its text shows and the marks on the rules
are right. -/
def Productive (marked : ι → Prop) : {α : Type} → Grammar σ τ υ ρ α → Prop
  | _, .token .. => True
  | _, .tokens _ _ expected => expected ≠ []
  | _, .fail _ => True
  | _, .unexpected _ => True
  | _, .zero => True
  | _, .map _ p => Productive marked p
  | _, .labels _ p => Productive marked p
  | _, .attempt p => Productive marked p
  | _, .many1 p => Productive marked p
  | _, .skipMany1 p => Productive marked p
  | _, .sepBy1 p _ => Productive marked p
  | _, .discardLeft p q => Productive marked p ∨ Productive marked q
  | _, .discardRight p q => Productive marked p ∨ Productive marked q
  | _, .between opening closing p =>
    Productive marked opening ∨ Productive marked closing ∨ Productive marked p
  | _, .bind p f => Productive marked p ∨ ∀ output, Productive marked (f output)
  | _, .choice p q => Productive marked p ∧ Productive marked q
  | _, .alternatives _ p => ∀ i, Productive marked (p i)
  | _, .lazy p => Productive marked p
  | _, .rule i => marked i
  | _, _ => False

/-- What a node may be for its repetition not to be at fault. Parsers by hand are left out, and a
function on the state does not raise the fault of a repetition itself. -/
def Guarded (marked : ι → Prop) : {α : Type} → Grammar σ τ υ ρ α → Prop
  | _, .many p => p.Productive marked
  | _, .many1 p => p.Productive marked
  | _, .skipMany p => p.Productive marked
  | _, .skipMany1 p => p.Productive marked
  | _, .sepBy p separator => p.Productive marked ∨ separator.Productive marked
  | _, .sepBy1 p separator => p.Productive marked ∨ separator.Productive marked
  | _, .updateState f => ∀ state position, f state ≠ .error (.emptyRepetition position)
  | _, .ofParser _ => False
  | _, _ => True

variable [Input σ τ] [DecidableEq τ] {marked : ι → Prop} {rules : Rules σ τ υ ρ}

/-- What is productive never succeeds without reading input, if that is so for what is entered one
level deeper. -/
theorem meaning_guards {turns : σ → Nat}
    {enter : {α : Type} → Grammar σ τ υ ρ α → Parser σ υ α}
    (hmarked : ∀ i, marked i → (rules i).Productive marked)
    (hrules : ∀ i, (rules i).Everywhere (Guarded marked))
    (henter : ∀ {α : Type} (q : Grammar σ τ υ ρ α), q.Everywhere (Guarded marked) →
      (enter q).Guards (q.Productive marked))
    (p : Grammar σ τ υ ρ α) (hp : p.Everywhere (Guarded marked)) :
    (meaning rules turns enter p).Guards (p.Productive marked) := by
  induction p with
  | pure output => exact Parser.guards_inspect _
  | fail text => exact Parser.guards_failWith _
  | unexpected text => exact Parser.guards_failWith _
  | zero => exact Parser.guards_zero
  | map f p ih => exact (ih hp.2).map f
  | bind p f ihp ihf => exact (ihp hp.2.1).bind fun output => ihf output (hp.2.2 output)
  | discardLeft p q ihp ihq => exact (ihp hp.2.1).discardLeft (ihq hp.2.2)
  | discardRight p q ihp ihq => exact (ihp hp.2.1).discardRight (ihq hp.2.2)
  | between opening closing p iho ihc ihp =>
    have hrest := (ihp hp.2.2.2).discardRight (ihc hp.2.2.1)
    exact ((iho hp.2.1).discardLeft hrest).mono fun h => h.imp_right Or.symm
  | choice p q ihp ihq => exact (ihp hp.2.1).choice (ihq hp.2.2)
  | alternatives count p ih => exact Parser.guards_choiceOf_ofFn fun i => ih i (hp.2 i)
  | optional p ih => exact (ih hp.2).optional
  | labels names p ih => exact (ih hp.2).labels names
  | attempt p ih => exact (ih hp.2).attempt
  | lookAhead p ih => exact (ih hp.2).lookAhead
  | notFollowedBy shown p ih => exact (ih hp.2).notFollowedBy shown
  | token shown next test => exact Parser.guards_token
  | tokens shown next expected => exact Parser.guards_tokens
  | eof shown => exact Parser.guards_eof
  | many p ih => exact (ih hp.2).many hp.1
  | many1 p ih =>
    have hbody := ih hp.2
    exact (hbody.bind fun _ => (hbody.repetition hp.1).map _).mono Or.inl
  | skipMany p ih => exact (ih hp.2).repetition hp.1
  | skipMany1 p ih =>
    have hbody := ih hp.2
    exact (hbody.bind fun _ => hbody.repetition hp.1).mono Or.inl
  | sepBy p separator ihp ihs =>
    have hsepBy1 : (Parser.sepBy1 turns _ _).Guards _ := (ihp hp.2.1).sepBy1 (ihs hp.2.2) hp.1
    exact (hsepBy1.choice (Parser.guards_inspect _)).mono False.elim
  | sepBy1 p separator ihp ihs => exact (ihp hp.2.1).sepBy1 (ihs hp.2.2) hp.1
  | lazy p => exact henter p hp.2
  -- of a rule the tree shows no more than its mark
  | rule i => exact (henter (rules i) (hrules i)).mono (hmarked i)
  | getState => exact Parser.guards_inspect _
  | getPosition => exact Parser.guards_inspect _
  | getInput => exact Parser.guards_inspect _
  | getUser => exact Parser.guards_inspect _
  | updateState f => exact Parser.guards_updateState hp
  | modifyUser f => exact Parser.guards_inspect _
  | ofParser p => exact hp.elim

theorem parserAt_guards (hmarked : ∀ i, marked i → (rules i).Productive marked)
    (hrules : ∀ i, (rules i).Everywhere (Guarded marked)) (turns : σ → Nat) (depth : Nat)
    (p : Grammar σ τ υ ρ α) (hp : p.Everywhere (Guarded marked)) :
    (parserAt rules turns depth p).Guards (p.Productive marked) := by
  induction depth generalizing α with
  | zero =>
    exact meaning_guards hmarked hrules (fun _ _ => Parser.guards_exhausted.nested) p hp
  | succ depth ih =>
    exact meaning_guards hmarked hrules (fun q hq => (ih q hq).nested) p hp

/-- Where the rules bear out which of them are marked as productive, and what is repeated is
productive throughout the grammar and the rules, no run stops at the fault of a repetition. A
grammar that is productive itself does not succeed without reading input either. -/
theorem repetitions_of_productive_never_fault
    (hmarked : ∀ i, marked i → (rules i).Productive marked)
    (hrules : ∀ i, (rules i).Everywhere (Guarded marked)) {p : Grammar σ τ υ ρ α}
    (hp : p.Everywhere (Guarded marked)) (budget : Budget σ) (context : Context)
    (state : State σ υ) :
    (∀ position, p.parser rules budget context state ≠ .fault (.emptyRepetition position)) ∧
      (p.Productive marked → ∀ output next hint,
        p.parser rules budget context state ≠ .returned ⟨.empty, .success output next hint⟩) := by
  have hguards : (p.parser rules budget context state).Guards (p.Productive marked) :=
    parserAt_guards hmarked hrules budget.turns budget.depth p hp context state
  exact ⟨hguards.ne_fault, hguards.ne_empty_success⟩

/-- The rule is a letter, or a list of what it stands for itself between parentheses. The opening
one makes it productive, whatever the repetition behind it does. -/
theorem nested_lists_never_fault :
    let list : Grammar (List Char) Char Unit (fun _ : Unit => Nat) Nat :=
      .choice (.map (fun _ => 1) (Chars.satisfy (· == 'a')))
        (.discardLeft (Chars.satisfy (· == '('))
          (.discardRight (.map List.length (.many (.rule ()))) (Chars.satisfy (· == ')'))))
    let lists : Grammar (List Char) Char Unit (fun _ : Unit => Nat) (List Nat) :=
      .many1 (.rule ())
    let rules : Rules (List Char) Char Unit (fun _ : Unit => Nat) := fun _ => list
    let marked : Unit → Prop := fun _ => True
    let start : State (List Char) Unit := ⟨['a', '(', 'a', '(', ')', ')', 'b'], (), .initial "f"⟩
    (∀ i, marked i → (rules i).Productive marked) ∧
      (∀ i, (rules i).Everywhere (Guarded marked)) ∧ lists.Everywhere (Guarded marked) ∧
      lists.Productive marked ∧
      (∀ position, lists.parser rules ⟨fun _ => 9, 9⟩ (.start none) start ≠
        .fault (.emptyRepetition position)) ∧
      ∀ output next hint, lists.parser rules ⟨fun _ => 9, 9⟩ (.start none) start ≠
        .returned ⟨.empty, .success output next hint⟩ := by
  intro list lists rules marked start
  have hmarked : ∀ i, marked i → (rules i).Productive marked :=
    fun _ _ => ⟨trivial, Or.inl trivial⟩
  have hrules : ∀ i, (rules i).Everywhere (Guarded marked) := fun _ =>
    ⟨trivial, ⟨trivial, trivial⟩, trivial, trivial, trivial, ⟨trivial, trivial, trivial⟩, trivial⟩
  have hlists : lists.Everywhere (Guarded marked) := ⟨trivial, trivial⟩
  obtain ⟨hfault, hempty⟩ :=
    repetitions_of_productive_never_fault hmarked hrules hlists ⟨fun _ => 9, 9⟩ (.start none) start
  exact ⟨hmarked, hrules, hlists, trivial, hfault, hempty trivial⟩

end Grammar

end Parsing
