import Mathlib.Data.List.OfFn
import Parsing.Chars.Lexeme
import Parsing.Proofs.Derived
import Parsing.Proofs.Matching
import Parsing.Proofs.PositionRange

/-!
# What the parsers of characters take

A success takes a text from the front of the input: it has moved the position over it, has left the
user value alone, is tagged by whether it is empty, and reports its messages where it stops. Of two
steps in a row the second one decides what is reported, unless it has taken nothing; then the
messages of the first one come before its own.

A repetition of a parser that reads one character of a set takes the longest beginning of the input
that is made of such characters. It reports what that parser says of the first other one.
-/

namespace Parsing

variable {σ τ υ α β : Type}

theorem takeWhile_eq_nil_iff {accepts : τ → Bool} {items : List τ} :
    items.takeWhile accepts = [] ↔ ∀ item ∈ items.head?, accepts item = false := by
  cases items with
  | nil => simp
  | cons item items => cases h : accepts item <;> simp [h]

/-- Items begin with an accepted one, or they have none in front. -/
theorem begins_or_not (accepts : τ → Bool) (items : List τ) :
    (∃ item rest, items = item :: rest ∧ accepts item = true) ∨
      ∀ item ∈ items.head?, accepts item = false := by
  cases items with
  | nil => exact Or.inr (by simp)
  | cons item rest =>
    cases h : accepts item with
    | true => exact Or.inl ⟨item, rest, rfl, h⟩
    | false => exact Or.inr (by simpa using h)

/-- What passes a test does not go on behind its end. -/
theorem head?_dropWhile_eq_false (accepts : τ → Bool) (items : List τ) :
    ∀ item ∈ (items.dropWhile accepts).head?, accepts item = false := by
  intro item hitem
  have hends := List.head?_dropWhile_not accepts items
  rw [hitem] at hends
  exact hends

/-- The tag of a success that has taken these items. -/
def Tag.ofRead : List τ → Tag
  | [] => .empty
  | _ :: _ => .consumed

theorem Tag.ofRead_eq_consumed_iff {read : List τ} : ofRead read = .consumed ↔ read ≠ [] := by
  cases read with
  | nil => simp [ofRead]
  | cons item read => simp [ofRead]

theorem Tag.ofRead_append_cons (read : List τ) (item : τ) (more : List τ) :
    ofRead (read ++ item :: more) = .consumed :=
  ofRead_eq_consumed_iff.2 (by simp)

theorem Tag.ofRead_eq_ite (read : List τ) :
    ofRead read = if read.length = 0 then .empty else .consumed := by
  cases read <;> rfl

/-- Errors at one position are put together, whether they have messages or not. -/
theorem ParseError.merge_at (position : Position) (messages more : List Message) :
    (⟨position, messages⟩ : ParseError).merge ⟨position, more⟩ = ⟨position, messages ++ more⟩ := by
  have hsame : compare position position = .eq :=
    Position.compare_eq_eq.2 (Position.beq_iff.2 ⟨rfl, rfl⟩)
  cases messages <;> cases more <;> simp [merge, isUnknown, hsame]

theorem ParseError.unknown_merge_of_known {position : Position} {e : ParseError}
    (h : e.isUnknown = false) : (unknown position).merge e = e := by
  simp [merge, h]

theorem Input.exists_uncons? [Input σ τ] [LawfulInput σ] {input : σ} {item : τ} {items : List τ}
    (h : Input.items input = item :: items) :
    ∃ rest, Input.uncons? input = some (item, rest) ∧ Input.items rest = items := by
  cases huncons : Input.uncons? input with
  | none =>
    rw [Input.items_of_uncons?_none huncons] at h
    cases h
  | some next =>
    obtain ⟨found, rest⟩ := next
    rw [Input.items_of_uncons?_some huncons] at h
    obtain ⟨rfl, rfl⟩ := List.cons.inj h
    exact ⟨rest, rfl, rfl⟩

namespace State

variable [Input σ τ] {s t : State σ υ}

/-- What has been read being known, so is what is left. -/
theorem Reads.rest_eq [Spaced τ] {read rest : List τ} (h : s.Reads read t)
    (hitems : Input.items s.input = read ++ rest) : Input.items t.input = rest :=
  List.append_cancel_left (h.items.symm.trans hitems)

theorem Reads.left_lt [Spaced τ] {item : τ} {read : List τ} (h : s.Reads (item :: read) t) :
    t.left < s.left := by
  unfold State.left
  rw [h.items, List.length_append, List.length_cons]
  omega

/-- Behind the longest beginning that passes a test stands what does not. -/
theorem Reads.items_eq_dropWhile [Spaced τ] {accepts : τ → Bool}
    (h : s.Reads ((Input.items s.input).takeWhile accepts) t) :
    Input.items t.input = (Input.items s.input).dropWhile accepts :=
  h.rest_eq List.takeWhile_append_dropWhile.symm

theorem Fits.of_reads [Input σ Char] {s t : State σ υ} {text : List Char} (hs : s.Fits)
    (h : s.Reads text t) : t.Fits := by
  have hroom : text.length + (Input.items t.input).length ≤ s.left := by
    rw [State.left, h.items, List.length_append]
  obtain ⟨position, hposition, hfits⟩ := hs.advance hroom
  have hsame : some t.position = some position := h.position.symm.trans hposition
  cases hsame
  exact ⟨hfits.line, hfits.column⟩

end State

namespace Parser

/-- Where its body has nothing to take, a repetition stops. Whatever hint it comes with lies there,
and is lost in what the body says. -/
theorem accumulate_of_reject {push : β → α → β} {body : Parser σ υ α} {context : Context}
    {state : State σ υ} {messages : List Message}
    (h : body context state = .returned (.reject ⟨state.position, messages⟩))
    (turns : Nat) (acc : β)
    {hint : Option ParseError} (hhint : ∀ e ∈ hint, e = .unknown state.position) :
    accumulate push body context (turns + 1) acc hint state =
      .returned ⟨if hint.isNone then .empty else .consumed,
        .success acc state ⟨state.position, messages⟩⟩ := by
  unfold accumulate
  rw [h]
  cases hint with
  | none => rfl
  | some e =>
    have hmerge : e.merge ⟨state.position, messages⟩ = ⟨state.position, messages⟩ := by
      rw [hhint e rfl, ParseError.unknown, ParseError.merge_at, List.nil_append]
    show Outcome.returned (⟨.consumed, .success acc state (e.merge ⟨state.position, messages⟩)⟩ :
      Result σ υ β) = _
    rw [hmerge]
    rfl

/-! ## Steps -/

section Steps

variable [Input σ τ] [Spaced τ]

/-- At `s` the parser takes the items `read` and gets to `t` with `output`; there it reports
`messages`. -/
structure Takes (p : Parser σ υ α) (context : Context) (s : State σ υ) (read : List τ) (output : α)
    (t : State σ υ) (messages : List Message) : Prop where
  /-- The items are what stands at `s`, and the position has moved over them. -/
  reads : s.Reads read t
  /-- The user value is as it was. -/
  user : t.user = s.user
  /-- The success is tagged by whether anything was taken. -/
  run : p context s = .returned ⟨.ofRead read, .success output t ⟨t.position, messages⟩⟩

variable {p : Parser σ υ α} {f : α → Parser σ υ β} {context : Context} {s t u : State σ υ}
  {read more : List τ} {output : α} {output' : β} {messages messages' : List Message}

theorem takes_nothing (h : p context s = .returned (.accept output s)) :
    p.Takes context s ([] : List τ) output s [] :=
  ⟨s.reads_nil, rfl, h⟩

theorem map_of_failure {g : α → β} {tag : Tag} {error : ParseError}
    (h : p context s = .returned ⟨tag, .failure error⟩) :
    Parser.map g p context s = .returned ⟨tag, .failure error⟩ := by
  unfold Parser.map
  rw [h]
  rfl

theorem bind_of_failure {tag : Tag} {error : ParseError}
    (h : p context s = .returned ⟨tag, .failure error⟩) :
    Parser.bind p f context s = .returned ⟨tag, .failure error⟩ := by
  unfold Parser.bind
  rw [h]
  rfl

theorem Takes.map (h : p.Takes context s read output t messages) (g : α → β) :
    (Parser.map g p).Takes context s read (g output) t messages := by
  refine ⟨h.reads, h.user, ?_⟩
  unfold Parser.map
  rw [h.run]
  rfl

theorem Takes.attempt (h : p.Takes context s read output t messages) :
    (attempt p).Takes context s read output t messages := by
  refine ⟨h.reads, h.user, ?_⟩
  unfold Parser.attempt
  rw [h.run]
  cases read <;> rfl

theorem Takes.labels (h : p.Takes context s read output t messages) (names : List String) :
    (labels names p).Takes context s read output t
      (if read.isEmpty then names.map fun name => ⟨.expected, name⟩ else messages) := by
  refine ⟨h.reads, h.user, ?_⟩
  unfold Parser.labels
  rw [h.run]
  cases read <;> rfl

/-- A choice stays with what has read input. -/
theorem Takes.choice (h : p.Takes context s read output t messages) (hread : read ≠ [])
    (q : Parser σ υ α) : (choice p q).Takes context s read output t messages := by
  refine ⟨h.reads, h.user, ?_⟩
  unfold Parser.choice
  rw [h.run, Tag.ofRead_eq_consumed_iff.2 hread]
  rfl

/-- What may be left out reports why it is. -/
theorem takes_nothing_of_reject (h : p context s = .returned (.reject ⟨s.position, messages⟩))
    (output : α) :
    (choice p (Parser.pure output)).Takes context s ([] : List τ) output s messages := by
  refine ⟨s.reads_nil, rfl, ?_⟩
  have hmerge : (⟨s.position, messages⟩ : ParseError).merge (.unknown s.position) =
      ⟨s.position, messages⟩ := by
    rw [ParseError.unknown, ParseError.merge_at, List.append_nil]
  unfold Parser.choice
  rw [h]
  show Outcome.returned (⟨.empty, .success output s
    ((⟨s.position, messages⟩ : ParseError).merge (.unknown s.position))⟩ : Result σ υ α) = _
  rw [hmerge]
  rfl

/-- What comes behind a step, with the tag and the report of that step before its own. -/
theorem Takes.bind_eq (h : p.Takes context s read output t messages) :
    Parser.bind p f context s =
      (f output context t).map (Result.behind (.ofRead read) ⟨t.position, messages⟩) := by
  unfold Parser.bind
  rw [h.run]
  rfl

theorem Takes.bind (h : p.Takes context s read output t messages)
    (h' : (f output).Takes context t more output' u messages') :
    (Parser.bind p f).Takes context s (read ++ more) output' u
      (if more.isEmpty then messages ++ messages' else messages') := by
  refine ⟨h.reads.trans h'.reads, h'.user.trans h.user, ?_⟩
  rw [h.bind_eq, h'.run, Outcome.map_returned]
  cases more with
  | nil =>
    have hposition : u.position = t.position := Option.some.inj h'.reads.position.symm
    rw [List.append_nil, hposition, Result.behind_of_empty rfl, Reply.after_success,
      ParseError.merge_at]
    rfl
  | cons item more =>
    rw [Tag.ofRead_append_cons]
    rfl

/-- Behind a step that reports nothing, only the second step has anything to report. -/
theorem Takes.bind_of_silent (h : p.Takes context s read output t [])
    (h' : (f output).Takes context t more output' u messages') :
    (Parser.bind p f).Takes context s (read ++ more) output' u messages' := by
  have hboth := h.bind h'
  rwa [List.nil_append, ite_self] at hboth

/-- A failure right behind a step has what the step reports before its own messages. -/
theorem Takes.bind_reject (h : p.Takes context s read output t messages)
    (h' : f output context t = .returned (.reject ⟨t.position, messages'⟩)) :
    Parser.bind p f context s =
      .returned ⟨.ofRead read, .failure ⟨t.position, messages ++ messages'⟩⟩ := by
  rw [h.bind_eq, h', Outcome.map_returned, Result.behind_of_empty rfl, Result.reject,
    Reply.after_failure, ParseError.merge_at]

theorem Takes.bind_of_consumed {result : Result σ υ β}
    (h : p.Takes context s read output t messages)
    (h' : f output context t = .returned result) (htag : result.tag = .consumed) :
    Parser.bind p f context s = .returned result := by
  rw [h.bind_eq, h', Outcome.map_returned, Result.behind_of_consumed htag]

/-- A failure behind a step that reports nothing stands as it is. Input has been read if either of
the two has read any. -/
theorem Takes.bind_failure {met : List τ} {error : ParseError}
    (h : p.Takes context s read output t [])
    (h' : f output context t = .returned ⟨.ofRead met, .failure error⟩)
    (hknown : error.isUnknown = false) :
    Parser.bind p f context s = .returned ⟨.ofRead (read ++ met), .failure error⟩ := by
  cases met with
  | nil =>
    have hmerge : (⟨t.position, []⟩ : ParseError).merge error = error :=
      ParseError.unknown_merge_of_known hknown
    rw [List.append_nil, h.bind_eq, h', Outcome.map_returned, Result.behind_of_empty rfl,
      Reply.after_failure, hmerge]
  | cons item met =>
    rw [Tag.ofRead_append_cons]
    exact h.bind_of_consumed h' rfl

theorem Takes.discardLeft {q : Parser σ υ β} (h : p.Takes context s read output t messages)
    (h' : q.Takes context t more output' u messages') :
    (discardLeft p q).Takes context s (read ++ more) output' u
      (if more.isEmpty then messages ++ messages' else messages') := by
  rw [discardLeft_eq_bind]
  exact h.bind h'

theorem Takes.discardRight {q : Parser σ υ β} (h : p.Takes context s read output t messages)
    (h' : q.Takes context t more output' u messages') :
    (discardRight p q).Takes context s (read ++ more) output u
      (if more.isEmpty then messages ++ messages' else messages') := by
  rw [discardRight_eq_bind]
  exact h.bind (h'.map _)

/-- A failure behind a step lies where it lay, whether the step has a part in it or not. -/
theorem Takes.discardLeft_failure {q : Parser σ υ β} {tag : Tag}
    (h : p.Takes context s read output t messages)
    (h' : q context t = .returned ⟨tag, .failure ⟨t.position, messages'⟩⟩) :
    ∃ tag messages,
      Parser.discardLeft p q context s = .returned ⟨tag, .failure ⟨t.position, messages⟩⟩ := by
  rw [discardLeft_eq_bind]
  cases tag with
  | empty => exact ⟨_, _, h.bind_reject h'⟩
  | consumed => exact ⟨_, _, h.bind_of_consumed h' rfl⟩

theorem Takes.discardRight_reject {q : Parser σ υ β}
    (h : p.Takes context s read output t messages)
    (h' : q context t = .returned (.reject ⟨t.position, messages'⟩)) :
    Parser.discardRight p q context s =
      .returned ⟨.ofRead read, .failure ⟨t.position, messages ++ messages'⟩⟩ := by
  rw [discardRight_eq_bind]
  exact h.bind_reject (map_of_failure h')

theorem discardRight_of_failure {q : Parser σ υ β} {tag : Tag} {error : ParseError}
    (h : p context s = .returned ⟨tag, .failure error⟩) :
    Parser.discardRight p q context s = .returned ⟨tag, .failure error⟩ := by
  rw [discardRight_eq_bind]
  exact bind_of_failure h

theorem attempt_of_failure {tag : Tag} {error : ParseError}
    (h : p context s = .returned ⟨tag, .failure error⟩) :
    attempt p context s = .returned (.reject error) := by
  unfold attempt
  rw [h]
  cases tag <;> rfl

end Steps

/-! ## Single characters -/

variable [Input σ Char] {p : Parser σ υ Char} {accepts : Char → Bool}
  {complaint : List Char → List Message} {context : Context} {state : State σ υ}

/-- The parser takes one character of a set. Where there is none it fails, and what it has to say
depends on what is left of the input. -/
structure ReadsOne (p : Parser σ υ Char) (accepts : Char → Bool)
    (complaint : List Char → List Message) : Prop where
  takes (context : Context) {state : State σ υ} (hfits : state.Fits) {c : Char} {rest : List Char}
    (hitems : Input.items state.input = c :: rest) (hc : accepts c = true) :
    ∃ next, p.Takes context state [c] c next []
  rejects (context : Context) {state : State σ υ}
    (h : ∀ c ∈ (Input.items state.input).head?, accepts c = false) :
    p context state = .returned (.reject ⟨state.position, complaint (Input.items state.input)⟩)

theorem ReadsOne.labels (hp : p.ReadsOne accepts complaint) (names : List String) :
    (labels names p).ReadsOne accepts fun _ => names.map fun name => ⟨.expected, name⟩ where
  takes context state hfits c rest hitems hc := by
    obtain ⟨next, hnext⟩ := hp.takes context hfits hitems hc
    exact ⟨next, hnext.labels names⟩
  rejects context state h := by
    unfold Parser.labels
    rw [hp.rejects context h]
    rfl

theorem ReadsOne.accumulate (hp : p.ReadsOne accepts complaint) (context : Context)
    (push : β → Char → β) {turns : Nat} (hturns : state.left < turns) (hfits : state.Fits) (acc : β)
    (hint : Option ParseError) (hhint : ∀ e ∈ hint, e = .unknown state.position) :
    ∃ read last, read = (Input.items state.input).takeWhile accepts ∧ state.Reads read last ∧
      last.user = state.user ∧ accumulate push p context turns acc hint state =
        .returned ⟨if hint.isNone then .ofRead read else .consumed,
          .success (read.foldl push acc) last
            ⟨last.position, complaint (Input.items last.input)⟩⟩ := by
  induction turns generalizing acc hint state with
  | zero => omega
  | succ turns ih =>
    rcases begins_or_not accepts (Input.items state.input) with ⟨c, rest, hitems, hc⟩ | h
    · obtain ⟨next, hnext⟩ := hp.takes context hfits hitems hc
      have hrest : Input.items next.input = rest := hnext.reads.rest_eq hitems
      have hless := hnext.reads.left_lt
      obtain ⟨read, last, hread, hreads, huser, hrun⟩ :=
        ih (by omega) (hfits.of_reads hnext.reads) (push acc c)
          (some (.unknown next.position)) fun e he => (Option.some.inj he).symm
      refine ⟨c :: read, last, ?_, hnext.reads.trans hreads, huser.trans hnext.user, ?_⟩
      · rw [hitems, ← hrest, List.takeWhile_cons, if_pos hc, hread]
      · rw [Parser.accumulate, hnext.run]
        refine hrun.trans ?_
        cases hint <;> rfl
    · exact ⟨[], state, (takeWhile_eq_nil_iff.2 h).symm, state.reads_nil, rfl,
        accumulate_of_reject (hp.rejects context h) turns acc hhint⟩

/-- A repetition takes the longest beginning that is made of what its body reads, and reports what
the body says of the rest. -/
theorem ReadsOne.repetition (hp : p.ReadsOne accepts complaint) (context : Context)
    (push : β → Char → β) (acc : β) {turns : σ → Nat}
    (hturns : ∀ input : σ, (Input.items input).length < turns input) (hfits : state.Fits) :
    ∃ last, (repetition turns push acc p).Takes context state
      ((Input.items state.input).takeWhile accepts)
      (((Input.items state.input).takeWhile accepts).foldl push acc) last
      (complaint (Input.items last.input)) := by
  obtain ⟨read, last, rfl, hreads, huser, hrun⟩ :=
    hp.accumulate context push (hturns state.input) hfits acc none (by simp)
  exact ⟨last, hreads, huser, hrun⟩

theorem ReadsOne.notFollowedBy (hp : p.ReadsOne accepts complaint) (shown : Char → String)
    (context : Context)
    (h : ∀ c ∈ (Input.items state.input).head?, accepts c = false) :
    (notFollowedBy shown p).Takes context state ([] : List Char) () state [] := by
  refine takes_nothing ?_
  unfold Parser.notFollowedBy
  rw [hp.rejects context h]
  rfl

theorem ReadsOne.notFollowedBy_rejects (hp : p.ReadsOne accepts complaint) (shown : Char → String)
    (context : Context) (hfits : state.Fits) {c : Char} {rest : List Char}
    (hitems : Input.items state.input = c :: rest) (hc : accepts c = true) :
    Parser.notFollowedBy shown p context state =
      .returned (.reject ⟨state.position, [⟨.unexpected, shown c⟩]⟩) := by
  obtain ⟨next, hnext⟩ := hp.takes context hfits hitems hc
  unfold Parser.notFollowedBy
  rw [hnext.run]
  rfl

end Parser

/-! ## Texts that are known in advance -/

/-- A text that is there is taken as a whole, wherever there is a position behind it. -/
theorem Parser.tokens_takes [Input σ Char] [LawfulInput σ] {state : State σ υ} (context : Context)
    (shown : List Char → String) {wanted : List Char} {position : Position}
    (h : wanted <+: Input.items state.input)
    (hposition : state.position.advanceText wanted = some position) :
    (Parser.tokens shown (fun position _ => position.advanceText wanted) wanted).Takes context state
      wanted wanted ⟨Input.drop wanted.length state.input, state.user, position⟩ [] := by
  cases wanted with
  | nil =>
    obtain rfl : state.position = position := Option.some.inj hposition
    exact takes_nothing rfl
  | cons c wanted =>
    refine ⟨⟨?_, hposition⟩, rfl, ?_⟩
    · rw [Input.items_drop]
      exact (List.prefix_iff_eq_append.1 h).symm
    · rw [tokens_of_found (List.cons_ne_nil c wanted) h, hposition]
      rfl

namespace Chars

variable {ι : Type} {ρ : ι → Type} [Input σ Char] {rules : Rules σ Char υ ρ} {budget : Budget σ}

theorem parser_satisfy (accepts : Char → Bool) :
    (satisfy accepts : Grammar σ Char υ ρ Char).parser rules budget =
      Parser.token Quoted.char (fun position c _ => position.advance c)
        (fun c => if accepts c then some c else none) := by
  obtain ⟨turns, depth⟩ := budget
  cases depth <;> rfl

theorem parser_label {α : Type} (name : String) (p : Grammar σ Char υ ρ α) :
    (p.label name).parser rules budget = Parser.labels [name] (p.parser rules budget) := by
  obtain ⟨turns, depth⟩ := budget
  cases depth <;> rfl

theorem parser_spaces :
    (spaces : Grammar σ Char υ ρ Unit).parser rules budget =
      Parser.labels ["white space"]
        (Parser.repetition budget.turns (fun _ _ => ()) () (space.parser rules budget)) := by
  obtain ⟨turns, depth⟩ := budget
  cases depth <;> rfl

theorem parser_string (text : String) :
    (string text : Grammar σ Char υ ρ String).parser rules budget =
      Parser.map String.ofList
        (Parser.tokens Quoted.chars (fun position _ => position.advanceText text.toList)
          text.toList) := by
  obtain ⟨turns, depth⟩ := budget
  cases depth <;> rfl

theorem parser_choiceOf {α : Type} (ps : List (Grammar σ Char υ ρ α)) :
    (Grammar.choiceOf ps).parser rules budget =
      Parser.choiceOf (ps.map fun p => p.parser rules budget) := by
  rw [← List.ofFn_getElem_eq_map]
  obtain ⟨turns, depth⟩ := budget
  cases depth <;> rfl

variable [LawfulInput σ] {state : State σ υ} (rules : Rules σ Char υ ρ)

section

variable (budget : Budget σ)

/-- An accepted character is taken wherever there is a position behind it. -/
theorem satisfy_takes (context : Context) {accepts : Char → Bool} {c : Char} {rest : List Char}
    {position : Position} (hitems : Input.items state.input = c :: rest) (hc : accepts c = true)
    (hposition : state.position.advanceText [c] = some position) :
    ∃ next, next.position = position ∧
      ((satisfy accepts : Grammar σ Char υ ρ Char).parser rules budget).Takes context state
        [c] c next [] := by
  obtain ⟨next, huncons, hrest⟩ := Input.exists_uncons? hitems
  refine ⟨⟨next, state.user, position⟩, rfl, ⟨?_, hposition⟩, rfl, ?_⟩
  · rw [hitems, hrest, List.singleton_append]
  · rw [Position.advanceText_singleton] at hposition
    rw [parser_satisfy, Parser.token, huncons]
    simp only [hc, if_true, hposition]
    rfl

theorem readsOne_satisfy (accepts : Char → Bool) :
    ((satisfy accepts : Grammar σ Char υ ρ Char).parser rules budget).ReadsOne accepts
      fun rest => [⟨.systemUnexpected, (rest.head?.map Quoted.char).getD ""⟩] where
  takes context state hfits c rest hitems hc := by
    obtain ⟨next, -, hrest⟩ := Input.exists_uncons? hitems
    have hroom : [c].length + (Input.items next).length ≤ state.left := by
      rw [State.left, hitems, hrest, List.length_singleton, List.length_cons, Nat.add_comm]
    obtain ⟨position, hposition, -⟩ := hfits.advance hroom
    obtain ⟨next, -, hnext⟩ := satisfy_takes rules budget context hitems hc hposition
    exact ⟨next, hnext⟩
  rejects context state h := by
    rw [parser_satisfy, Parser.token]
    cases huncons : Input.uncons? state.input with
    | none =>
      rw [Input.items_of_uncons?_none huncons]
      rfl
    | some next =>
      obtain ⟨c, rest⟩ := next
      have hitems := Input.items_of_uncons?_some huncons
      rw [hitems] at h ⊢
      simp only [h c rfl]
      rfl

theorem readsOne_space :
    ((space : Grammar σ Char υ ρ Char).parser rules budget).ReadsOne Unicode.isWhiteSpace
      fun _ => [⟨.expected, "space"⟩] := by
  unfold space
  rw [parser_label]
  exact (readsOne_satisfy rules budget _).labels _

theorem readsOne_char (c : Char) :
    ((char c : Grammar σ Char υ ρ Char).parser rules budget).ReadsOne (· == c)
      fun _ => [⟨.expected, Quoted.char c⟩] := by
  unfold char
  rw [parser_label]
  exact (readsOne_satisfy rules budget _).labels _

theorem readsOne_alphanum :
    ((alphanum : Grammar σ Char υ ρ Char).parser rules budget).ReadsOne isAlphanum
      fun _ => [⟨.expected, "letter or digit"⟩] := by
  unfold alphanum
  rw [parser_label]
  exact (readsOne_satisfy rules budget _).labels _

theorem string_takes_found (context : Context) {text : String} {position : Position}
    (h : text.toList <+: Input.items state.input)
    (hposition : state.position.advanceText text.toList = some position) :
    ((string text : Grammar σ Char υ ρ String).parser rules budget).Takes context state text.toList
      text ⟨Input.drop text.toList.length state.input, state.user, position⟩ [] := by
  have hmap := (Parser.tokens_takes context Quoted.chars h hposition).map String.ofList
  rw [String.ofList_toList] at hmap
  rw [parser_string]
  exact hmap

theorem string_takes (context : Context) (hfits : state.Fits) {text : String} {rest : List Char}
    (hitems : Input.items state.input = text.toList ++ rest) :
    ∃ next, ((string text : Grammar σ Char υ ρ String).parser rules budget).Takes context state
      text.toList text next [] := by
  have hroom : text.toList.length +
      (Input.items (Input.drop text.toList.length state.input)).length ≤ state.left := by
    rw [Input.items_drop, List.length_drop, State.left, hitems, List.length_append]
    omega
  obtain ⟨position, hposition, -⟩ := hfits.advance hroom
  exact ⟨_, string_takes_found rules budget context ⟨rest, hitems.symm⟩ hposition⟩

/-- A text that is not there fails where it would have started, and has read input if it has
anything in common with what is there. -/
theorem string_fails (context : Context) {text : String}
    (h : ¬ text.toList <+: Input.items state.input) :
    ∃ messages, messages ≠ [] ∧
      (string text : Grammar σ Char υ ρ String).parser rules budget context state =
        .returned ⟨.ofRead (commonPrefix text.toList (Input.items state.input)),
          .failure ⟨state.position, messages⟩⟩ := by
  rw [parser_string, Parser.map, Parser.tokens_of_not_found h, Tag.ofRead_eq_ite]
  exact ⟨_, List.cons_ne_nil _ _, rfl⟩

end

/-- All blanks are skipped, and a blank is what could still have come; where there is none at all,
the label of the whole says so. -/
theorem spaces_takes (hturns : ∀ input : σ, (Input.items input).length < budget.turns input)
    (context : Context) (hfits : state.Fits) :
    let blanks := (Input.items state.input).takeWhile Unicode.isWhiteSpace
    ∃ next, ((spaces : Grammar σ Char υ ρ Unit).parser rules budget).Takes context state blanks ()
      next [⟨.expected, if blanks.isEmpty then "white space" else "space"⟩] := by
  intro blanks
  obtain ⟨next, hnext⟩ :=
    (readsOne_space rules budget).repetition context (fun _ _ => ()) () hturns hfits
  refine ⟨next, ?_⟩
  have hmessages : (if blanks.isEmpty then [⟨.expected, "white space"⟩]
        else [⟨.expected, "space"⟩]) =
      [(⟨.expected, if blanks.isEmpty then "white space" else "space"⟩ : Message)] := by
    cases blanks <;> rfl
  have hlabeled := hnext.labels ["white space"]
  rw [List.foldl_const, List.map_singleton, hmessages, ← parser_spaces] at hlabeled
  exact hlabeled

end Chars

end Parsing
