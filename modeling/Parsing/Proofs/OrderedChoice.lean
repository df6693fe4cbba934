import Parsing.Chars.Lexeme
import Parsing.Proofs.Ensures
import Parsing.Proofs.Everywhere
import Parsing.Proofs.Reader
import Parsing.Proofs.Sequencing

/-!
# Grammars whose choices are ordered

An alternative is not tried after a parser that consumed input, unless the parser is wrapped in
`attempt`. In a grammar that wraps whatever something else may follow, every choice is therefore the
ordered choice of a plain reader with backtracking, and every repetition is greedy. Where a run of
such a grammar returns, the reader ends as well, with the same output and the same state.

The tags decide what is tried next, and an empty success still runs the other alternative, for its
hint. What carries the proof is that an attempt only fails without consuming input.
-/

namespace Parsing

variable {σ τ υ α β : Type}

/-- The comparison finds the whole of the wanted items exactly when they can be stripped. -/
theorem Reader.strip?_eq_compare [Input σ τ] [DecidableEq τ] (wanted : List τ) (matched : Nat)
    (input : σ) : strip? wanted input =
      match Agreement.compare wanted matched input with
      | .whole rest => some rest
      | .partly _ _ => none := by
  induction wanted generalizing matched input with
  | nil => rfl
  | cons item wanted ih =>
    unfold strip? Agreement.compare
    cases Input.uncons? input with
    | none => rfl
    | some next =>
      obtain ⟨found, rest⟩ := next
      by_cases h : found = item
      · simp only [h, if_true]
        exact ih (matched + 1) rest
      · simp only [h, if_false]

namespace Parser

/-- Where a run of the parser returns, the reader ends with the same output and state, or with
neither. -/
def Refines (p : Parser σ υ α) (r : Reader σ υ α) : Prop :=
  ∀ context state, (p context state).Ensures fun result =>
    r context state = .returned result.reply.value?

/-- The parser fails only without consuming input. -/
def Backtracks (p : Parser σ υ α) : Prop :=
  ∀ context state, (p context state).Ensures fun result =>
    result.reply.value? = none → result.tag = .empty

variable {p q : Parser σ υ α} {r s : Reader σ υ α}

theorem attempt_backtracks (p : Parser σ υ α) : (attempt p).Backtracks := by
  intro context state
  refine Outcome.ensures_map.2 ?_
  rintro ⟨tag, reply⟩ -
  cases reply with
  | success => cases tag <;> intro h <;> cases h
  | failure => cases tag <;> intro _ <;> rfl

theorem Backtracks.map (f : α → β) (h : p.Backtracks) : (Parser.map f p).Backtracks := by
  intro context state
  have hrun := h context state
  refine Outcome.ensures_map.2 (hrun.mono ?_)
  rintro ⟨tag, reply⟩ htag
  cases reply with
  | success => intro h; cases h
  | failure => exact fun _ => htag rfl

/-! ## Parsers that read nothing -/

theorem refines_inspect (f : State σ υ → α) :
    Refines (fun _ state => .returned (.accept (f state) state)) (Reader.inspect f) :=
  fun _ _ => Outcome.ensures_returned.2 rfl

theorem refines_failWith (message : Message) :
    (failWith message : Parser σ υ α).Refines Reader.fail :=
  fun _ _ => Outcome.ensures_returned.2 rfl

theorem refines_zero : (zero : Parser σ υ α).Refines Reader.fail :=
  fun _ _ => Outcome.ensures_returned.2 rfl

theorem refines_exhausted : (exhausted : Parser σ υ α).Refines Reader.exhausted :=
  fun _ _ => Outcome.ensures_exhausted _

theorem refines_modifyUser (f : υ → υ) :
    (modifyUser f : Parser σ υ Unit).Refines (Reader.modifyUser f) :=
  fun _ _ => Outcome.ensures_returned.2 rfl

/-! ## Sequences -/

theorem Refines.map (f : α → β) (h : p.Refines r) : (Parser.map f p).Refines (Reader.map f r) := by
  intro context state
  have hrun := h context state
  refine Outcome.ensures_map.2 (hrun.mono ?_)
  rintro ⟨tag, reply⟩ hresult
  rw [Reader.map, hresult]
  cases reply with
  | success => rfl
  | failure => rfl

theorem Refines.bind {f : α → Parser σ υ β} {g : α → Reader σ υ β} (h : p.Refines r)
    (hf : ∀ output, (f output).Refines (g output)) :
    (Parser.bind p f).Refines (Reader.bind r g) := by
  intro context state
  refine (h context state).bind ?_
  rintro ⟨tag, reply⟩ hresult
  rw [Reader.bind, hresult]
  cases reply with
  | success output next hint =>
    have hnext := hf output context next
    refine Outcome.ensures_map.2 (hnext.mono ?_)
    intro last hlast
    rw [Result.value?_behind]
    exact hlast
  | failure error => exact Outcome.ensures_returned.2 rfl

/-! ## Alternatives -/

/-- After an empty success the second run has no say in the output and the state, and after an empty
failure the first one has none. A failure that consumed input does not occur. -/
theorem Refines.choice (hback : p.Backtracks) (hp : p.Refines r) (hq : q.Refines s) :
    (Parser.choice p q).Refines (r.orElse s) := by
  intro context state
  have hfirst : (p context state).Ensures fun result =>
      r context state = .returned result.reply.value? ∧
        (result.reply.value? = none → result.tag = .empty) :=
    fun result heq => ⟨hp context state result heq, hback context state result heq⟩
  refine hfirst.bind ?_
  rintro ⟨tag, reply⟩ ⟨hvalue, htag⟩
  rw [Reader.orElse, hvalue]
  cases reply with
  | success output next hint =>
    cases tag with
    | empty =>
      refine Outcome.ensures_map.2 ?_
      rintro ⟨tag', reply'⟩ -
      cases tag' <;> rfl
    | consumed => exact Outcome.ensures_returned.2 rfl
  | failure error =>
    cases htag rfl
    have hsecond := hq context state
    refine Outcome.ensures_map.2 (hsecond.mono ?_)
    intro other hother
    rw [Result.value?_behind]
    exact hother

/-- The last alternative may consume input and fail, since there is nothing to try after it. -/
theorem Refines.choice_zero (hp : p.Refines r) :
    (Parser.choice p zero).Refines (r.orElse Reader.fail) := by
  intro context state
  refine (hp context state).bind ?_
  rintro ⟨tag, reply⟩ hresult
  rw [Reader.orElse, hresult]
  cases reply with
  | success => cases tag <;> exact Outcome.ensures_returned.2 rfl
  | failure => cases tag <;> exact Outcome.ensures_returned.2 rfl

theorem refines_choiceOf_ofFn {count : Nat} {f : Fin count → Parser σ υ α}
    {g : Fin count → Reader σ υ α} (h : ∀ i, (f i).Refines (g i))
    (hback : ∀ i : Fin count, i.val + 1 < count → (f i).Backtracks) :
    (choiceOf (List.ofFn f)).Refines (Reader.firstOf (List.ofFn g)) := by
  induction count with
  | zero => exact refines_zero
  | succ count ih =>
    rw [List.ofFn_succ, List.ofFn_succ, choiceOf_cons]
    cases count with
    | zero => exact (h 0).choice_zero
    | succ count =>
      have hrest := ih (fun i => h i.succ) fun i hi => hback i.succ (Nat.succ_lt_succ hi)
      exact Refines.choice (hback 0 (by simp)) (h 0) hrest

theorem Refines.optional (hback : p.Backtracks) (h : p.Refines r) :
    (Parser.optional p).Refines
      (Reader.orElse (Reader.map (fun _ => ()) r) (Reader.inspect fun _ => ())) := by
  rw [optional_eq_choice]
  exact Refines.choice (hback.map _) (h.map _) (refines_inspect fun _ => ())

theorem Refines.labels (names : List String) (h : p.Refines r) :
    (Parser.labels names p).Refines r := by
  intro context state
  have hrun := h context state
  refine Outcome.ensures_map.2 (hrun.mono ?_)
  rintro ⟨tag, reply⟩ hresult
  rw [hresult]
  cases tag with
  | empty => exact congrArg Outcome.returned (Reply.value?_mapError _ reply).symm
  | consumed => rfl

theorem Refines.attempt (h : p.Refines r) : (Parser.attempt p).Refines r := by
  intro context state
  have hrun := h context state
  refine Outcome.ensures_map.2 (hrun.mono ?_)
  rintro ⟨tag, reply⟩ hresult
  rw [hresult]
  cases reply with
  | success => cases tag <;> rfl
  | failure => cases tag <;> rfl

/-! ## Looking ahead and nesting -/

theorem Refines.lookAhead (h : p.Refines r) : (Parser.lookAhead p).Refines r.lookAhead := by
  intro context state
  have hrun := h context state
  refine Outcome.ensures_map.2 (hrun.mono ?_)
  rintro ⟨tag, reply⟩ hresult
  rw [Reader.lookAhead, hresult]
  cases reply with
  | success => rfl
  | failure => rfl

theorem Refines.notFollowedBy (shown : α → String) (h : p.Refines r) :
    (Parser.notFollowedBy shown p).Refines r.notFollowedBy := by
  intro context state
  have hrun := h context state
  refine Outcome.ensures_map.2 (hrun.mono ?_)
  rintro ⟨tag, reply⟩ hresult
  rw [Reader.notFollowedBy, hresult]
  cases reply with
  | success => rfl
  | failure => rfl

theorem Refines.nested (h : p.Refines r) : (Parser.nested p).Refines r.nested := by
  intro context state
  unfold Parser.nested Reader.nested
  cases context.nest state.position with
  | returned entry =>
    cases entry with
    | error refusal => exact Outcome.ensures_returned.2 rfl
    | ok deeper => exact h deeper state
  | fault f => exact Outcome.ensures_fault f _
  | exhausted => exact Outcome.ensures_exhausted _

/-! ## Repetitions -/

/-- Where the turns of a repetition return, they have handed to `push` what the greedy reader puts
out, and have stopped in the state where it stops. -/
theorem accumulate_greedy {push : β → α → β} (hback : p.Backtracks) (h : p.Refines r)
    (context : Context) (turns : Nat) {acc : β} {hint : Option ParseError} {state : State σ υ} :
    (accumulate push p context turns acc hint state).Ensures fun result =>
      ∃ outputs last, Reader.greedy r context turns state = .returned (outputs, last) ∧
        result.reply.value? = some (outputs.foldl push acc, last) := by
  induction turns generalizing acc hint state with
  | zero => exact Outcome.ensures_exhausted _
  | succ turns ih =>
    have hvalue := h context state
    have htag := hback context state
    unfold accumulate Reader.greedy
    split
    · exact Outcome.ensures_fault _ _
    · exact Outcome.ensures_exhausted _
    · rename_i output next last heq
      rw [heq, Outcome.ensures_returned] at hvalue
      rw [hvalue]
      refine ih.mono ?_
      rintro result ⟨outputs, final, hgreedy, hreply⟩
      exact ⟨output :: outputs, final, by simp [hgreedy], hreply⟩
    · rename_i error heq
      rw [heq, Outcome.ensures_returned] at htag
      -- a turn that consumed input and failed would fail the repetition
      cases htag rfl
    · exact Outcome.ensures_fault _ _
    · rename_i error heq
      rw [heq, Outcome.ensures_returned] at hvalue
      rw [hvalue]
      cases hint with
      | none => exact Outcome.ensures_returned.2 ⟨[], state, rfl, rfl⟩
      | some last => exact Outcome.ensures_returned.2 ⟨[], state, rfl, rfl⟩

/-- A repetition puts out what its `push` makes of the outputs of the greedy reader. -/
theorem Refines.repetition (hback : p.Backtracks) (h : p.Refines r) (turns : σ → Nat)
    (push : β → α → β) (acc : β) :
    (Parser.repetition turns push acc p).Refines
      (Reader.map (fun outputs => outputs.foldl push acc) (Reader.many turns r)) := by
  intro context state
  refine (accumulate_greedy hback h context _).mono ?_
  rintro result ⟨outputs, last, hgreedy, hreply⟩
  rw [hreply, Reader.map, Reader.many, hgreedy]
  rfl

/-- The outputs are collected last output first, and turned round at the end. -/
theorem Refines.collected (hback : p.Backtracks) (h : p.Refines r) (turns : σ → Nat)
    (before : List α) :
    (Parser.map List.reverse
        (Parser.repetition turns (fun acc output => output :: acc) before p)).Refines
      (Reader.map (before.reverse ++ ·) (Reader.many turns r)) := by
  have hmap := (h.repetition hback turns (fun acc output => output :: acc) before).map List.reverse
  rw [Reader.map_map] at hmap
  simpa using hmap

theorem Refines.many (hback : p.Backtracks) (h : p.Refines r) (turns : σ → Nat) :
    (Parser.many turns p).Refines (Reader.many turns r) := by
  have hcollected := h.collected hback turns []
  rw [many_eq_map]
  simpa [Reader.map_id] using hcollected

theorem Refines.many1 (hback : p.Backtracks) (h : p.Refines r) (turns : σ → Nat) :
    (Parser.many1 turns p).Refines (Reader.many1 turns r) := by
  rw [many1_eq_bind]
  exact h.bind fun first => h.collected hback turns [first]

theorem Refines.skipMany (hback : p.Backtracks) (h : p.Refines r) (turns : σ → Nat) :
    (Parser.skipMany turns p).Refines (Reader.map (fun _ => ()) (Reader.many turns r)) :=
  h.repetition hback turns (fun _ _ => ()) ()

/-! ## Reading items -/

variable [Input σ τ]

theorem refines_token (shown : τ → String) (next : Position → τ → σ → Option Position)
    (test : τ → Option α) :
    (token shown next test : Parser σ υ α).Refines (Reader.token next test) := by
  intro context state
  unfold token Reader.token
  cases Input.uncons? state.input with
  | none => exact Outcome.ensures_returned.2 rfl
  | some found =>
    obtain ⟨item, rest⟩ := found
    dsimp only
    cases test item with
    | none => exact Outcome.ensures_returned.2 rfl
    | some output =>
      cases next state.position item rest with
      | none => exact Outcome.ensures_fault _ _
      | some position => exact Outcome.ensures_returned.2 rfl

theorem refines_tokens [DecidableEq τ] (shown : List τ → String)
    (next : Position → List τ → Option Position) (expected : List τ) :
    (tokens shown next expected : Parser σ υ (List τ)).Refines (Reader.tokens next expected) := by
  intro context state
  unfold tokens Reader.tokens
  rw [Reader.strip?_eq_compare expected 0]
  split
  · exact Outcome.ensures_returned.2 rfl
  · cases Agreement.compare expected 0 state.input with
    | whole rest =>
      cases next state.position expected with
      | none => exact Outcome.ensures_fault _ _
      | some position => exact Outcome.ensures_returned.2 rfl
    | partly matched found => exact Outcome.ensures_returned.2 rfl

theorem refines_eof (shown : τ → String) :
    (eof shown : Parser σ υ Unit).Refines Reader.eof := by
  intro context state
  unfold eof Reader.eof
  split
  · rename_i hpeek
    rw [hpeek]
    exact Outcome.ensures_returned.2 rfl
  · rename_i item hpeek
    rw [hpeek]
    exact Outcome.ensures_returned.2 rfl

end Parser

namespace Grammar

variable {ι : Type} {ρ : ι → Type}

/-- The grammar is an attempt. -/
def IsAttempt (p : Grammar σ τ υ ρ α) : Prop :=
  ∃ q, p = .attempt q

/-- A node does not fail where something else may follow, unless it gives back what it read: the
first operand of a choice, each alternative but the last, and the body of a repetition or of an
optional part are attempts. Separated lists, functions on the state and parsers given by hand are
left out. -/
def Backtracking : {α : Type} → Grammar σ τ υ ρ α → Prop
  | _, .choice p _ => p.IsAttempt
  | _, .alternatives count p => ∀ i : Fin count, i.val + 1 < count → (p i).IsAttempt
  | _, .optional p => p.IsAttempt
  | _, .many p => p.IsAttempt
  | _, .many1 p => p.IsAttempt
  | _, .skipMany p => p.IsAttempt
  | _, .skipMany1 p => p.IsAttempt
  | _, .sepBy _ _ => False
  | _, .sepBy1 _ _ => False
  | _, .updateState _ => False
  | _, .ofParser _ => False
  | _, _ => True

variable [Input σ τ] [DecidableEq τ]

theorem IsAttempt.backtracks {p : Grammar σ τ υ ρ α} (h : p.IsAttempt) (rules : Rules σ τ υ ρ)
    (turns : σ → Nat) (enter : {α : Type} → Grammar σ τ υ ρ α → Parser σ υ α) :
    (meaning rules turns enter p).Backtracks := by
  obtain ⟨q, rfl⟩ := h
  exact Parser.attempt_backtracks _

/-- The induction is on the tree. A choice and a repetition need of their part, beyond what the
induction says of it, that it only fails without consuming input. -/
theorem meaning_refines {rules : Rules σ τ υ ρ} {turns : σ → Nat}
    {enter : {α : Type} → Grammar σ τ υ ρ α → Parser σ υ α}
    {follow : {α : Type} → Grammar σ τ υ ρ α → Reader σ υ α}
    (hrules : ∀ i, (rules i).Everywhere Backtracking)
    (henter : ∀ {α : Type} (p : Grammar σ τ υ ρ α), p.Everywhere Backtracking →
      (enter p).Refines (follow p))
    {α : Type} (p : Grammar σ τ υ ρ α) (hp : p.Everywhere Backtracking) :
    (meaning rules turns enter p).Refines (reading rules turns follow p) := by
  induction p with
  | pure output => exact Parser.refines_inspect _
  | fail text => exact Parser.refines_failWith _
  | unexpected text => exact Parser.refines_failWith _
  | zero => exact Parser.refines_zero
  | map f p ih => exact (ih hp.2).map f
  | bind p f ihp ihf => exact (ihp hp.2.1).bind fun output => ihf output (hp.2.2 output)
  | discardLeft p q ihp ihq => exact (ihp hp.2.1).bind fun _ => ihq hp.2.2
  | discardRight p q ihp ihq => exact (ihp hp.2.1).bind fun _ => (ihq hp.2.2).map _
  | between opening closing p iho ihc ihp =>
    exact (iho hp.2.1).bind fun _ => (ihp hp.2.2.2).bind fun _ => (ihc hp.2.2.1).map _
  | choice p q ihp ihq =>
    exact Parser.Refines.choice (hp.1.backtracks rules turns enter) (ihp hp.2.1) (ihq hp.2.2)
  | alternatives count p ih =>
    exact Parser.refines_choiceOf_ofFn (fun i => ih i (hp.2 i)) fun i hi =>
      (hp.1 i hi).backtracks rules turns enter
  | optional p ih => exact (ih hp.2).optional (hp.1.backtracks rules turns enter)
  | labels names p ih => exact (ih hp.2).labels names
  | attempt p ih => exact (ih hp.2).attempt
  | lookAhead p ih => exact (ih hp.2).lookAhead
  | notFollowedBy shown p ih => exact (ih hp.2).notFollowedBy shown
  | token shown next test => exact Parser.refines_token shown next test
  | tokens shown next expected => exact Parser.refines_tokens shown next expected
  | eof shown => exact Parser.refines_eof shown
  | many p ih => exact (ih hp.2).many (hp.1.backtracks rules turns enter) turns
  | many1 p ih => exact (ih hp.2).many1 (hp.1.backtracks rules turns enter) turns
  | skipMany p ih => exact (ih hp.2).skipMany (hp.1.backtracks rules turns enter) turns
  | skipMany1 p ih =>
    exact (ih hp.2).bind fun _ => (ih hp.2).skipMany (hp.1.backtracks rules turns enter) turns
  | sepBy p separator ihp ihs => exact hp.1.elim
  | sepBy1 p separator ihp ihs => exact hp.1.elim
  | lazy p => exact henter p hp.2
  | rule i => exact henter (rules i) (hrules i)
  | getState => exact Parser.refines_inspect _
  | getPosition => exact Parser.refines_inspect _
  | getInput => exact Parser.refines_inspect _
  | getUser => exact Parser.refines_inspect _
  | updateState f => exact hp.elim
  | modifyUser f => exact Parser.refines_modifyUser f
  | ofParser p => exact hp.elim

theorem parser_refines {rules : Rules σ τ υ ρ} (hrules : ∀ i, (rules i).Everywhere Backtracking)
    (budget : Budget σ) {p : Grammar σ τ υ ρ α} (hp : p.Everywhere Backtracking) :
    (p.parser rules budget).Refines (p.reader rules budget) := by
  have hat : ∀ depth, ∀ {α : Type} (p : Grammar σ τ υ ρ α), p.Everywhere Backtracking →
      (parserAt rules budget.turns depth p).Refines (readerAt rules budget.turns depth p) := by
    intro depth
    induction depth with
    | zero => exact meaning_refines hrules fun _ _ => Parser.refines_exhausted.nested
    | succ depth ih => exact meaning_refines hrules fun q hq => (ih q hq).nested
  exact hat budget.depth p hp

/-- Where a run returns, it succeeds exactly if the plain reader with backtracking does, and then
with the same output and the same state. -/
theorem reads_by_ordered_choice {rules : Rules σ τ υ ρ}
    (hrules : ∀ i, (rules i).Everywhere Backtracking) {p : Grammar σ τ υ ρ α}
    (hp : p.Everywhere Backtracking) {budget : Budget σ} {context : Context} {state : State σ υ}
    {result : Result σ υ α} (hrun : p.parser rules budget context state = .returned result) :
    p.reader rules budget context state = .returned result.reply.value? :=
  parser_refines hrules budget hp context state result hrun

/-- The parentheses of which each level may be given up: where one of them stays open, nothing is
read, and the hint is all that is left of the attempt. -/
theorem open_parens_given_up :
    let parens : Grammar (List Char) Char Unit (fun _ : Unit => Nat) Nat :=
      .choice
        (.attempt (.map (· + 1) (.discardRight (.discardLeft (Chars.satisfy (· == '(')) (.rule ()))
          (Chars.satisfy (· == ')')))))
        (.pure 0)
    let start : State (List Char) Unit := ⟨['(', '(', ')', 'x'], (), .initial "f"⟩
    let hint : ParseError :=
      .single ⟨.systemUnexpected, "'x'"⟩ ⟨"f", .first, ⟨4, by decide, by decide⟩⟩
    parens.parser (fun _ => parens) ⟨List.length, 3⟩ (.start none) start =
        .returned ⟨.empty, .success 0 start hint⟩ ∧
      parens.reader (fun _ => parens) ⟨List.length, 3⟩ (.start none) start =
        .returned (some (0, start)) := by
  intro parens start hint
  have hparens : parens.Everywhere Backtracking :=
    ⟨⟨_, rfl⟩, ⟨trivial, trivial, trivial, ⟨trivial, trivial, trivial⟩, trivial⟩, trivial⟩
  have hrun : parens.parser (fun _ => parens) ⟨List.length, 3⟩ (.start none) start =
      .returned ⟨.empty, .success 0 start hint⟩ := rfl
  exact ⟨hrun, reads_by_ordered_choice (fun _ => hparens) hparens hrun⟩

end Grammar

end Parsing
