import Parsing.Chars.Lexeme
import Parsing.ParseError.Description
import Parsing.Parser.Run
import Parsing.Proofs.Ensures
import Parsing.Proofs.Everywhere
import Parsing.Proofs.Merge
import Parsing.Proofs.Repetition

/-!
# Failures that explain themselves

A failure is to say what was wrong. The hints of successes say nothing as a rule, and they are
merged into the failures behind them, but merging keeps the messages of both errors, or of one that
has some. So a failure has messages wherever those parsers have some that fail by themselves.

A choice from no alternatives does not, and it stands at the end of every list of alternatives. It
has read nothing, though, so its error is only merged with that of the alternative before it.
-/

namespace Parsing

variable {σ τ υ α β : Type}

namespace Result

/-- A failure has messages. -/
def Explains (result : Result σ υ α) : Prop :=
  ∀ error, result.reply = .failure error → error.isUnknown = false

/-- A failure over input that was read has messages. -/
def ExplainsReading (result : Result σ υ α) : Prop :=
  result.tag = .consumed → result.Explains

@[simp]
theorem explains_success (tag : Tag) (output : α) (state : State σ υ) (hint : ParseError) :
    Explains ⟨tag, .success output state hint⟩ :=
  fun _ h => by cases h

@[simp]
theorem explains_failure {tag : Tag} {error : ParseError} :
    (⟨tag, .failure error⟩ : Result σ υ α).Explains ↔ error.isUnknown = false :=
  ⟨fun h => h error rfl, fun h _ heq => by cases heq; exact h⟩

theorem Explains.map {result : Result σ υ α} (f : α → β) (h : result.Explains) :
    (result.map f).Explains := by
  obtain ⟨tag, reply⟩ := result
  cases reply with
  | success output state hint => exact explains_success _ _ _ _
  | failure error => exact explains_failure.2 (explains_failure.1 h)

/-- What came before does not take the messages of a failure away. -/
theorem Explains.behind {result : Result σ υ α} (h : result.Explains) (tag : Tag)
    (earlier : ParseError) : (result.behind tag earlier).Explains := by
  obtain ⟨_ | _, reply⟩ := result
  · cases reply with
    | success output state hint => exact explains_success _ _ _ _
    | failure error =>
      have herror : error.isUnknown = false := explains_failure.1 h
      exact explains_failure.2 (by rw [ParseError.isUnknown_merge, herror, Bool.and_false])
  · exact h

/-- Behind a failure that has messages, a failure that has read nothing need not have any. -/
theorem ExplainsReading.behind {result : Result σ υ α} (h : result.ExplainsReading)
    {earlier : ParseError} (hearlier : earlier.isUnknown = false) :
    (result.behind .empty earlier).Explains := by
  obtain ⟨_ | _, reply⟩ := result
  · cases reply with
    | success output state hint => exact explains_success _ _ _ _
    | failure error =>
      exact explains_failure.2 (by rw [ParseError.isUnknown_merge, hearlier, Bool.false_and])
  · exact h rfl

theorem Explains.labeled {result : Result σ υ α} (h : result.Explains) {names : List String}
    (hnames : names ≠ []) : (result.labeled names).Explains := by
  obtain ⟨_ | _, reply⟩ := result
  · cases reply with
    | success output state hint => exact explains_success _ _ _ _
    | failure error =>
      refine explains_failure.2 ?_
      rw [ParseError.isUnknown, List.isEmpty_eq_false_iff]
      exact fun heq => hnames (List.map_eq_nil_iff.1 heq)
  · exact h

theorem Explains.rewound {result : Result σ υ α} (h : result.Explains) :
    result.rewound.Explains := by
  obtain ⟨_ | _, reply⟩ := result
  · exact h
  · cases reply with
    | success output state hint => exact h
    | failure error => exact explains_failure.2 (explains_failure.1 h)

end Result

open Result (explains_success explains_failure)
open Outcome (ensures_returned ensures_map ensures_fault ensures_exhausted)

namespace Parser

/-- The failures of the parser have messages. -/
def Explains (p : Parser σ υ α) : Prop :=
  ∀ context state, (p context state).Ensures Result.Explains

/-- The failures of the parser over input that it has read have messages. -/
def ExplainsReading (p : Parser σ υ α) : Prop :=
  ∀ context state, (p context state).Ensures Result.ExplainsReading

variable {p q : Parser σ υ α}

theorem Explains.reading (h : p.Explains) : p.ExplainsReading :=
  fun context state => (h context state).mono fun _ hresult _ => hresult

theorem explains_exhausted : (exhausted : Parser σ υ α).Explains :=
  fun _ _ => ensures_exhausted _

theorem explains_accept (output : State σ υ → α) (after : State σ υ → State σ υ) :
    Explains fun _ state => .returned (.accept (output state) (after state)) :=
  fun _ _ => ensures_returned.2 (explains_success _ _ _ _)

theorem explains_failWith (message : Message) : (failWith message : Parser σ υ α).Explains :=
  fun _ _ => ensures_returned.2 (explains_failure.2 rfl)

theorem explainsReading_zero : (zero : Parser σ υ α).ExplainsReading :=
  fun _ _ => ensures_returned.2 fun h => by cases h

theorem Explains.map (f : α → β) (h : p.Explains) : (Parser.map f p).Explains :=
  fun context state => ensures_map.2 ((h context state).mono fun _ hresult => hresult.map f)

theorem Explains.labels {names : List String} (hnames : names ≠ []) (h : p.Explains) :
    (Parser.labels names p).Explains :=
  fun context state => ensures_map.2
    ((h context state).mono fun _ hresult => hresult.labeled hnames)

theorem Explains.attempt (h : p.Explains) : (Parser.attempt p).Explains :=
  fun context state => ensures_map.2 ((h context state).mono fun _ hresult => hresult.rewound)

theorem Explains.lookAhead (h : p.Explains) : (Parser.lookAhead p).Explains := by
  intro context state
  refine ensures_map.2 ((h context state).mono ?_)
  rintro ⟨tag, reply⟩ hresult
  cases reply with
  | success output next hint => exact explains_success _ _ _ _
  | failure error => exact hresult

/-- A match has a message of its own, whatever the failures of the parser say. -/
theorem explains_notFollowedBy (shown : α → String) (p : Parser σ υ α) :
    (notFollowedBy shown p).Explains := by
  intro context state
  refine ensures_map.2 ?_
  rintro ⟨tag, reply⟩ -
  cases reply with
  | success output next hint => exact explains_failure.2 rfl
  | failure error => exact explains_success _ _ _ _

theorem Explains.bind {f : α → Parser σ υ β} (h : p.Explains) (hf : ∀ output, (f output).Explains) :
    (Parser.bind p f).Explains := by
  intro context state
  refine (h context state).bind ?_
  rintro ⟨tag, reply⟩ hfirst
  cases reply with
  | success output next hint =>
    have hsecond := hf output context next
    exact ensures_map.2 (hsecond.mono fun _ hresult => hresult.behind tag hint)
  | failure error => exact ensures_returned.2 (explains_failure.2 (explains_failure.1 hfirst))

/-- The second alternative is merged with the first, so it has to speak for itself only where it has
read input. -/
theorem Explains.choice (h : p.Explains) (hq : q.ExplainsReading) :
    (Parser.choice p q).Explains := by
  intro context state
  refine (h context state).bind ?_
  rintro ⟨_ | _, reply⟩ hfirst
  · cases reply with
    | success output next hint =>
      refine ensures_map.2 ?_
      rintro ⟨_ | _, reply⟩ -
      · exact explains_success _ _ _ _
      · exact explains_success _ _ _ _
    | failure error =>
      have herror : error.isUnknown = false := explains_failure.1 hfirst
      exact ensures_map.2 ((hq context state).mono fun _ hresult => hresult.behind herror)
  · exact ensures_returned.2 hfirst

theorem explainsReading_choiceOf {ps : List (Parser σ υ α)} (h : ∀ p ∈ ps, p.Explains) :
    (choiceOf ps).ExplainsReading := by
  induction ps with
  | nil => exact explainsReading_zero
  | cons p ps ih =>
    rw [choiceOf_cons]
    have hrest := ih fun q hq => h q (List.mem_cons_of_mem p hq)
    exact ((h p List.mem_cons_self).choice hrest).reading

theorem explains_choiceOf {ps : List (Parser σ υ α)} (hne : ps ≠ []) (h : ∀ p ∈ ps, p.Explains) :
    (choiceOf ps).Explains := by
  cases ps with
  | nil => exact absurd rfl hne
  | cons p ps =>
    rw [choiceOf_cons]
    have hrest := explainsReading_choiceOf fun q hq => h q (List.mem_cons_of_mem p hq)
    exact (h p List.mem_cons_self).choice hrest

theorem Explains.optional (h : p.Explains) : (Parser.optional p).Explains := by
  rw [optional_eq_choice]
  exact (h.map _).choice (explains_accept _ id).reading

theorem Explains.nested (h : p.Explains) : (Parser.nested p).Explains := by
  intro context state
  unfold Parser.nested Context.nest
  split
  · exact ensures_returned.2 (explains_failure.2 rfl)
  · split
    · exact h _ state
    · exact ensures_fault _ _

/-- The failures of a repetition are those of its body. -/
theorem Explains.repetition (turns : σ → Nat) (push : β → α → β) (acc : β) (h : p.Explains) :
    (Parser.repetition turns push acc p).Explains := by
  intro context state
  obtain ⟨steps, last, -, hstops⟩ :=
    accumulate_stops push p context (turns state.input) acc none state
  unfold Parser.repetition
  generalize accumulate push p context (turns state.input) acc none state = outcome at hstops ⊢
  cases hstops with
  | exhausted => exact ensures_exhausted _
  | fault _ => exact ensures_fault _ _
  | failure hlast =>
    have hbody : Result.Explains _ := h context last _ hlast
    exact ensures_returned.2 (explains_failure.2 (explains_failure.1 hbody))
  | emptySuccess _ => exact ensures_fault _ _
  | emptyFailure _ tag acc hint => exact ensures_returned.2 (explains_success _ _ _ _)

theorem Explains.many (turns : σ → Nat) (h : p.Explains) : (Parser.many turns p).Explains := by
  rw [many_eq_map]
  exact (h.repetition turns _ _).map _

theorem Explains.sepBy1 (turns : σ → Nat) {separator : Parser σ υ β} (h : p.Explains)
    (hs : separator.Explains) : (Parser.sepBy1 turns p separator).Explains := by
  rw [sepBy1_eq_bind]
  have hturn : (Parser.discardLeft separator p).Explains := hs.bind fun _ => h
  exact h.bind fun _ => (hturn.many turns).map _

theorem explains_updateState (f : State σ υ → Except Fault (State σ υ)) :
    (updateState f).Explains := by
  intro context state
  unfold updateState
  cases f state with
  | ok next => exact ensures_returned.2 (explains_success _ _ _ _)
  | error fault => exact ensures_fault _ _

variable [Input σ τ]

theorem explains_token {shown : τ → String} {next : Position → τ → σ → Option Position}
    {test : τ → Option α} : (token shown next test : Parser σ υ α).Explains := by
  intro context state
  unfold token
  split
  · exact ensures_returned.2 (explains_failure.2 rfl)
  · split
    · exact ensures_returned.2 (explains_failure.2 rfl)
    · exact ensures_map.2 fun _ _ => explains_success _ _ _ _

theorem explains_tokens [DecidableEq τ] {shown : List τ → String}
    {next : Position → List τ → Option Position} {expected : List τ} :
    (tokens shown next expected : Parser σ υ (List τ)).Explains := by
  intro context state
  unfold tokens
  split
  · exact ensures_returned.2 (explains_success _ _ _ _)
  · split
    · exact ensures_map.2 fun _ _ => explains_success _ _ _ _
    · exact ensures_returned.2 (explains_failure.2 rfl)

theorem explains_eof {shown : τ → String} : (eof shown : Parser σ υ Unit).Explains := by
  intro context state
  unfold eof
  split
  · exact ensures_returned.2 (explains_success _ _ _ _)
  · exact ensures_returned.2 (explains_failure.2 rfl)

end Parser

/-! ## Errors as they are shown and reported -/

theorem Message.mem_textsOf_iff {kind : Message.Kind} {messages : List Message} {text : String} :
    text ∈ Message.textsOf kind messages ↔ ⟨kind, text⟩ ∈ messages ∧ text.isEmpty = false := by
  unfold Message.textsOf
  rw [List.mem_eraseDups, List.mem_filter, Bool.not_eq_true']
  refine and_congr_left fun _ => ⟨fun h => ?_, fun h => ?_⟩
  · obtain ⟨message, hmessage, rfl⟩ := List.mem_map.1 h
    obtain ⟨hmem, hkind⟩ := List.mem_filter.1 hmessage
    obtain rfl : message.kind = kind := of_decide_eq_true hkind
    exact hmem
  · exact List.mem_map.2 ⟨⟨kind, text⟩, List.mem_filter.2 ⟨h, decide_eq_true rfl⟩, rfl⟩

namespace ParseError

/-- The text that stands for the messages of an error without any. -/
def fallback : String := "unknown parse error"

theorem lines_nil : lines [] = [fallback] := rfl

/-- A line that begins with other words than the fallback is not the fallback. -/
theorem append_ne_fallback {words : String} (h : ¬ words.toList <+: fallback.toList)
    (phrase : String) : words ++ phrase ≠ fallback := by
  intro heq
  refine h ⟨phrase.toList, ?_⟩
  rw [← String.toList_append, heq]

/-- An error that has messages is shown by these, and the words of the fallback are among its lines
only if they are a remark. -/
theorem fallback_mem_lines_iff {messages : List Message} :
    fallback ∈ lines messages ↔ messages = [] ∨ ⟨.plain, fallback⟩ ∈ messages := by
  cases messages with
  | nil => simp [lines_nil]
  | cons message rest =>
    rw [lines, if_neg (by simp), List.mem_append, List.mem_append, Message.mem_textsOf_iff]
    constructor
    · rintro ((h | h) | h)
      · obtain ⟨phrase, -, heq⟩ := Option.map_eq_some_iff.1 (Option.mem_toList.1 h)
        exact absurd heq (append_ne_fallback (by decide) phrase)
      · obtain ⟨phrase, -, heq⟩ := Option.map_eq_some_iff.1 (Option.mem_toList.1 h)
        exact absurd heq (append_ne_fallback (by decide) phrase)
      · exact Or.inr h.1
    · rintro (h | h)
      · cases h
      · exact Or.inr ⟨h, by decide⟩

end ParseError

/-- One of the ways to run a parser on a whole input ends with the error. -/
inductive Parser.Reports : {υ α : Type} → Parser σ υ α → ParseError → Prop where
  | runWithin {υ α : Type} {p : Parser σ υ α} {limit : Option Nat} {input : σ} {user : υ}
      {name : String} {error : ParseError}
      (h : p.runWithin limit input user name = .returned (.error error)) : Reports p error
  | run {υ α : Type} {p : Parser σ υ α} {input : σ} {user : υ} {name : String} {error : ParseError}
      (h : p.run input user name = .returned (.error error)) : Reports p error
  | parseWithin {υ α : Type} {p : Parser σ υ α} {limit : Option Nat} {input : σ} {user : υ}
      {name : String} {error : ParseError}
      (h : p.parseWithin limit input user name = .returned (.error error)) : Reports p error
  | parse {υ α : Type} {p : Parser σ υ α} {input : σ} {user : υ} {name : String}
      {error : ParseError} (h : p.parse input user name = .returned (.error error)) :
      Reports p error
  | parseInput {α : Type} {p : Parser σ Unit α} {input : σ} {name : String} {error : ParseError}
      (h : p.parseInput input name = .returned (.error error)) : Reports p error

namespace Parser

variable {p : Parser σ υ α} {error : ParseError}

theorem failure_of_runWithin {limit : Option Nat} {input : σ} {user : υ} {name : String}
    (h : p.runWithin limit input user name = .returned (.error error)) :
    ∃ context state tag, p context state = .returned ⟨tag, .failure error⟩ := by
  obtain ⟨⟨tag, reply⟩, hp, hreply⟩ := Outcome.map_eq_returned_iff.1 h
  cases reply with
  | success output state hint => cases hreply
  | failure e =>
    cases hreply
    exact ⟨_, _, tag, hp⟩

theorem failure_of_parseWithin {limit : Option Nat} {input : σ} {user : υ} {name : String}
    (h : p.parseWithin limit input user name = .returned (.error error)) :
    ∃ context state tag, p context state = .returned ⟨tag, .failure error⟩ := by
  obtain ⟨answer, hrun, hanswer⟩ := Outcome.map_eq_returned_iff.1 h
  cases answer with
  | ok output => cases hanswer
  | error e =>
    cases hanswer
    exact failure_of_runWithin hrun

/-- What is reported is the error of a failure. -/
theorem Reports.failure (h : p.Reports error) :
    ∃ context state tag, p context state = .returned ⟨tag, .failure error⟩ := by
  cases h with
  | runWithin h => exact failure_of_runWithin h
  | run h => exact failure_of_runWithin h
  | parseWithin h => exact failure_of_parseWithin h
  | parse h => exact failure_of_parseWithin h
  | parseInput h => exact failure_of_parseWithin h

end Parser

/-! ## Grammars -/

namespace Grammar

variable {ι : Type} {ρ : ι → Type}

/-- What a node may be for its failures to have messages. -/
def Telling : {α : Type} → Grammar σ τ υ ρ α → Prop
  | _, .zero => False
  | _, .alternatives count _ => count ≠ 0
  | _, .labels names _ => names ≠ []
  | _, .ofParser _ => False
  | _, _ => True

variable [Input σ τ] [DecidableEq τ] {rules : Rules σ τ υ ρ}

theorem meaning_explains {turns : σ → Nat}
    {enter : {α : Type} → Grammar σ τ υ ρ α → Parser σ υ α}
    (hrules : ∀ i, (rules i).Everywhere Telling)
    (henter : ∀ {α : Type} (q : Grammar σ τ υ ρ α), q.Everywhere Telling → (enter q).Explains)
    (p : Grammar σ τ υ ρ α) (hp : p.Everywhere Telling) :
    (meaning rules turns enter p).Explains := by
  induction p with
  | pure output => exact Parser.explains_accept _ id
  | fail text => exact Parser.explains_failWith _
  | unexpected text => exact Parser.explains_failWith _
  | zero => exact hp.elim
  | map f p ih => exact (ih hp.2).map f
  | bind p f ihp ihf => exact (ihp hp.2.1).bind fun output => ihf output (hp.2.2 output)
  | discardLeft p q ihp ihq => exact (ihp hp.2.1).bind fun _ => ihq hp.2.2
  | discardRight p q ihp ihq => exact (ihp hp.2.1).bind fun _ => (ihq hp.2.2).map _
  | between opening closing p iho ihc ihp =>
    exact (iho hp.2.1).bind fun _ => (ihp hp.2.2.2).bind fun _ => (ihc hp.2.2.1).map _
  | choice p q ihp ihq => exact (ihp hp.2.1).choice (ihq hp.2.2).reading
  | alternatives count p ih =>
    refine Parser.explains_choiceOf (fun hnil => hp.1 (List.ofFn_eq_nil_iff.1 hnil)) fun q hq => ?_
    obtain ⟨i, rfl⟩ := List.mem_ofFn.1 hq
    exact ih i (hp.2 i)
  | optional p ih => exact (ih hp.2).optional
  | labels names p ih => exact (ih hp.2).labels hp.1
  | attempt p ih => exact (ih hp.2).attempt
  | lookAhead p ih => exact (ih hp.2).lookAhead
  | notFollowedBy shown p ih => exact Parser.explains_notFollowedBy shown _
  | token shown next test => exact Parser.explains_token
  | tokens shown next expected => exact Parser.explains_tokens
  | eof shown => exact Parser.explains_eof
  | many p ih => exact (ih hp.2).many turns
  | many1 p ih => exact (ih hp.2).bind fun _ => ((ih hp.2).repetition turns _ _).map _
  | skipMany p ih => exact (ih hp.2).repetition turns _ _
  | skipMany1 p ih => exact (ih hp.2).bind fun _ => (ih hp.2).repetition turns _ _
  | sepBy p separator ihp ihs =>
    exact ((ihp hp.2.1).sepBy1 turns (ihs hp.2.2)).choice (Parser.explains_accept _ id).reading
  | sepBy1 p separator ihp ihs => exact (ihp hp.2.1).sepBy1 turns (ihs hp.2.2)
  | lazy p => exact henter p hp.2
  | rule i => exact henter (rules i) (hrules i)
  | getState => exact Parser.explains_accept _ id
  | getPosition => exact Parser.explains_accept _ id
  | getInput => exact Parser.explains_accept _ id
  | getUser => exact Parser.explains_accept _ id
  | updateState f => exact Parser.explains_updateState f
  | modifyUser f => exact Parser.explains_accept _ fun state => { state with user := f state.user }
  | ofParser p => exact hp.elim

theorem parserAt_explains (hrules : ∀ i, (rules i).Everywhere Telling) (turns : σ → Nat)
    (depth : Nat) (p : Grammar σ τ υ ρ α) (hp : p.Everywhere Telling) :
    (parserAt rules turns depth p).Explains := by
  induction depth generalizing α with
  | zero => exact meaning_explains hrules (fun _ _ => Parser.explains_exhausted.nested) p hp
  | succ depth ih => exact meaning_explains hrules (fun q hq => (ih q hq).nested) p hp

/-- A failure of a grammar has a message, wherever and within whatever limit it is run. So the error
that a run on a whole input ends with is never shown as one without messages; these words are in its
description only where the grammar itself has remarked them. -/
theorem failures_explain_themselves (hrules : ∀ i, (rules i).Everywhere Telling)
    {p : Grammar σ τ υ ρ α} (hp : p.Everywhere Telling) (budget : Budget σ) :
    (∀ context state tag error,
      p.parser rules budget context state = .returned ⟨tag, .failure error⟩ →
        error.messages ≠ []) ∧
    ∀ error, (p.parser rules budget).Reports error → error.messages ≠ [] ∧
      ("unknown parse error" ∈ ParseError.lines error.messages ↔
        ⟨.plain, "unknown parse error"⟩ ∈ error.messages) := by
  have hfailure : ∀ context state tag error,
      p.parser rules budget context state = .returned ⟨tag, .failure error⟩ →
        error.messages ≠ [] := by
    intro context state tag error h
    have hexplains := parserAt_explains hrules budget.turns budget.depth p hp context state _ h
    have hknown : error.isUnknown = false := hexplains error rfl
    intro hnil
    rw [ParseError.isUnknown_iff.2 hnil] at hknown
    cases hknown
  refine ⟨hfailure, fun error hreports => ?_⟩
  obtain ⟨context, state, tag, h⟩ := hreports.failure
  have hne := hfailure context state tag error h
  exact ⟨hne, ParseError.fallback_mem_lines_iff.trans (or_iff_right hne)⟩

/-- The letter is neither a second opening parenthesis nor the closing one. The first of the two
messages comes from a success, and the failure behind it adds its own. -/
theorem letter_in_parens_explained :
    let parens : Grammar (List Char) Char Unit (fun _ : Unit => Nat) Nat := Chars.parens
    let rules : Rules (List Char) Char Unit (fun _ : Unit => Nat) := Chars.parensRules
    let budget : Budget (List Char) := ⟨fun _ => 3, 3⟩
    let error (position : Position) : ParseError :=
      ⟨position, [⟨.systemUnexpected, "'a'"⟩, ⟨.systemUnexpected, "'a'"⟩]⟩
    parens.Everywhere Telling ∧ ∃ position,
      (parens.parser rules budget).parseInput ['(', 'a'] "f" = .returned (.error (error position)) ∧
        (error position).messages ≠ [] ∧
          "unknown parse error" ∉ ParseError.lines (error position).messages := by
  intro parens rules budget error
  have hparens : parens.Everywhere Telling :=
    ⟨trivial, ⟨trivial, trivial, ⟨trivial, trivial, trivial⟩, trivial⟩, trivial⟩
  have hrules : ∀ i, (rules i).Everywhere Telling := fun _ => hparens
  obtain ⟨position, hrun⟩ : ∃ position, (parens.parser rules budget).parseInput ['(', 'a'] "f" =
      .returned (.error (error position)) := ⟨_, rfl⟩
  obtain ⟨-, hreports⟩ := failures_explain_themselves hrules hparens budget
  obtain ⟨hne, hlines⟩ := hreports (error position) (.parseInput hrun)
  exact ⟨hparens, position, hrun, hne, fun h => absurd (hlines.1 h) (by simp [error])⟩

end Grammar

end Parsing
