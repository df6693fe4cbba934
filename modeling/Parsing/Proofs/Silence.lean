import Parsing.Chars.Lexeme
import Parsing.Grammar.Meaning
import Parsing.Proofs.Link

/-!
# What is reported has no say in what is read

The labels of a grammar, the texts of its failures and the way in which it shows items decide what
errors and hints say. Taking all of this away leaves the silent grammar. A run of the one is like a
run of the other: the same fault, or the same tag, and on success the same output and state. So two
grammars that have the same silent grammar parse alike.
-/

namespace Parsing

variable {σ τ υ α : Type}

/-- Results that differ at most in their errors and hints. -/
def Result.Alike (result result' : Result σ υ α) : Prop :=
  result.tag = result'.tag ∧ result.reply.value? = result'.reply.value?

/-- Runs that are in the same states, and report what they want. -/
def Link.silence : Link σ υ σ υ where
  state s t := s = t
  error _ _ := True
  report _ _ := trivial
  merge _ _ := trivial
  relabel _ _ := trivial
  repetition h := congrArg (fun s => Fault.emptyRepetition s.position) h

theorem Result.Linked.alike {result result' : Result σ υ α} (h : result.Linked .silence result') :
    result.Alike result' := by
  cases h with
  | success hstate _ =>
    cases hstate
    exact ⟨rfl, rfl⟩
  | failure _ => exact ⟨rfl, rfl⟩

namespace Parser

variable {p q : Parser σ υ α}

/-- The parsers differ at most in what they report. -/
abbrev Silent (p q : Parser σ υ α) : Prop :=
  Linked .silence p q

theorem silent_refl (p : Parser σ υ α) : p.Silent p := by
  intro context s t hst
  cases hst
  refine Outcome.follows_refl (fun _ => rfl) (fun result => ?_) _
  obtain ⟨tag, reply⟩ := result
  cases reply with
  | success => exact .success rfl trivial
  | failure => exact .failure trivial

/-- Labels on one side only. -/
theorem Linked.silent_labels (names : List String) (h : p.Silent q) :
    (Parser.labels names p).Silent q := by
  intro context s t hst
  have hrun := h context hst
  simp only [Parser.labels]
  generalize p context s = o, q context t = o' at hrun
  cases hrun with
  | fault hfault => exact .fault hfault
  | exhausted => exact .exhausted
  | lost hlost => exact .lost hlost
  | returned hresult =>
    cases hresult with
    | @success tag _ _ _ _ _ hstate _ =>
      cases tag with
      | empty => exact .returned (.success hstate trivial)
      | consumed => exact .returned (.success hstate trivial)
    | @failure tag _ _ _ =>
      cases tag with
      | empty => exact .returned (.failure trivial)
      | consumed => exact .returned (.failure trivial)

variable [Input σ τ]

theorem silent_token (shown shown' : τ → String) (next : Position → τ → σ → Option Position)
    (test : τ → Option α) :
    (token shown next test : Parser σ υ α).Silent (token shown' next test) := by
  intro context s t hst
  cases hst
  unfold token
  split
  · exact .returned (.failure trivial)
  · split
    · exact .returned (.failure trivial)
    · rename_i item rest _ _ output _
      cases next s.position item rest with
      | none => exact .fault rfl
      | some position => exact .returned (.success rfl trivial)

theorem silent_tokens [DecidableEq τ] (shown shown' : List τ → String)
    (next : Position → List τ → Option Position) (expected : List τ) :
    (tokens shown next expected : Parser σ υ (List τ)).Silent (tokens shown' next expected) := by
  intro context s t hst
  cases hst
  unfold tokens
  split
  · exact .returned (.success rfl trivial)
  · split
    · cases next s.position expected with
      | none => exact .fault rfl
      | some position => exact .returned (.success rfl trivial)
    · exact .returned (.failure trivial)

theorem silent_eof (shown shown' : τ → String) :
    (eof shown : Parser σ υ Unit).Silent (eof shown') := by
  intro context s t hst
  cases hst
  unfold eof
  split
  · exact .returned (.success rfl trivial)
  · exact .returned (.failure trivial)

end Parser

namespace Grammar

variable {ι : Type} {ρ : ι → Type}

/-- The grammar without what it has for its reports alone: no labels, no texts, and nothing shown of
an item or an output. -/
def silent : {α : Type} → Grammar σ τ υ ρ α → Grammar σ τ υ ρ α
  | _, .pure output => .pure output
  | _, .fail _ => .fail ""
  | _, .unexpected _ => .unexpected ""
  | _, .zero => .zero
  | _, .map f p => .map f p.silent
  | _, .bind p f => .bind p.silent fun output => (f output).silent
  | _, .discardLeft p q => .discardLeft p.silent q.silent
  | _, .discardRight p q => .discardRight p.silent q.silent
  | _, .between opening closing p => .between opening.silent closing.silent p.silent
  | _, .choice p q => .choice p.silent q.silent
  | _, .alternatives count p => .alternatives count fun i => (p i).silent
  | _, .optional p => .optional p.silent
  | _, .labels _ p => p.silent
  | _, .attempt p => .attempt p.silent
  | _, .lookAhead p => .lookAhead p.silent
  | _, .notFollowedBy _ p => .notFollowedBy (fun _ => "") p.silent
  | _, .token _ next test => .token (fun _ => "") next test
  | _, .tokens _ next expected => .tokens (fun _ => "") next expected
  | _, .eof _ => .eof fun _ => ""
  | _, .many p => .many p.silent
  | _, .many1 p => .many1 p.silent
  | _, .skipMany p => .skipMany p.silent
  | _, .skipMany1 p => .skipMany1 p.silent
  | _, .sepBy p separator => .sepBy p.silent separator.silent
  | _, .sepBy1 p separator => .sepBy1 p.silent separator.silent
  | _, .lazy p => .lazy p.silent
  | _, .rule i => .rule i
  | _, .getState => .getState
  | _, .getPosition => .getPosition
  | _, .getInput => .getInput
  | _, .getUser => .getUser
  | _, .updateState f => .updateState f
  | _, .modifyUser f => .modifyUser f
  | _, .ofParser p => .ofParser p

variable [Input σ τ] [DecidableEq τ]

/-- The induction is on the tree. Labels are the only node that the silent grammar has no node for;
every other node makes the same of parts that differ at most in what they report. -/
theorem silent_meaning {rules : Rules σ τ υ ρ} {turns : σ → Nat}
    {enter enter' : {α : Type} → Grammar σ τ υ ρ α → Parser σ υ α}
    (henter : ∀ {α : Type} (p : Grammar σ τ υ ρ α), (enter p).Silent (enter' p.silent))
    {α : Type} (p : Grammar σ τ υ ρ α) :
    (meaning rules turns enter p).Silent
      (meaning (fun i => (rules i).silent) turns enter' p.silent) := by
  have hturns : ∀ {s t : State σ υ}, Link.silence.state s t → turns s.input = turns t.input :=
    fun h => congrArg (fun state : State σ υ => turns state.input) h
  induction p with
  | pure output => exact Parser.silent_refl _
  | fail text => exact Parser.linked_failWith fun _ => trivial
  | unexpected text => exact Parser.linked_failWith fun _ => trivial
  | zero => exact Parser.silent_refl _
  | map f p ih => exact ih.map f
  | bind p f ihp ihf => exact ihp.bind ihf
  | discardLeft p q ihp ihq => exact ihp.discardLeft ihq
  | discardRight p q ihp ihq => exact ihp.bind fun _ => ihq.map _
  | between opening closing p iho ihc ihp => exact iho.bind fun _ => ihp.bind fun _ => ihc.map _
  | choice p q ihp ihq => exact ihp.choice ihq
  | alternatives count p ih => exact Parser.linked_choiceOf_ofFn ih
  | optional p ih => exact ih.optional
  | labels names p ih => exact ih.silent_labels names
  | attempt p ih => exact ih.attempt
  | lookAhead p ih => exact ih.lookAhead
  | notFollowedBy shown p ih => exact ih.notFollowedBy fun _ _ _ _ => trivial
  | token shown next test => exact Parser.silent_token _ _ next test
  | tokens shown next expected => exact Parser.silent_tokens _ _ next expected
  | eof shown => exact Parser.silent_eof _ _
  | many p ih => exact ih.many hturns
  | many1 p ih => exact ih.bind fun _ => (ih.repetition hturns _ _).map _
  | skipMany p ih => exact ih.repetition hturns _ _
  | skipMany1 p ih => exact ih.bind fun _ => ih.repetition hturns _ _
  | sepBy p separator ihp ihs => exact (ihp.sepBy1 hturns ihs).choice (Parser.linked_pure [])
  | sepBy1 p separator ihp ihs => exact ihp.sepBy1 hturns ihs
  | lazy p => exact henter p
  | rule i => exact henter (rules i)
  | getState => exact Parser.silent_refl _
  | getPosition => exact Parser.silent_refl _
  | getInput => exact Parser.silent_refl _
  | getUser => exact Parser.silent_refl _
  | updateState f => exact Parser.silent_refl _
  | modifyUser f => exact Parser.silent_refl _
  | ofParser p => exact Parser.silent_refl p

theorem parser_silent (rules : Rules σ τ υ ρ) (budget : Budget σ) (p : Grammar σ τ υ ρ α)
    (context : Context) ⦃s t : State σ υ⦄ (h : s = t) :
    (p.parser rules budget context s).Both (Result.Linked .silence)
      (p.silent.parser (fun i => (rules i).silent) budget context t) := by
  have hat : ∀ depth, ∀ {α : Type} (p : Grammar σ τ υ ρ α),
      (parserAt rules budget.turns depth p).Silent
        (parserAt (fun i => (rules i).silent) budget.turns depth p.silent) := by
    intro depth
    induction depth with
    | zero => exact silent_meaning fun _ => Parser.linked_exhausted.nested
    | succ depth ih => exact silent_meaning fun q => (ih q).nested
  exact (hat budget.depth p context h).both

/-- Grammars that have the same silent grammar, with rules of which that is true as well, parse
alike: both runs stop at the same fault, or both return, with the same tag and, on success, the same
output and state. -/
theorem parses_alike_of_silent_eq {rules rules' : Rules σ τ υ ρ}
    (hrules : ∀ i, (rules i).silent = (rules' i).silent) {p q : Grammar σ τ υ ρ α}
    (h : p.silent = q.silent) (budget : Budget σ) (context : Context) (state : State σ υ) :
    (p.parser rules budget context state).Both Result.Alike
      (q.parser rules' budget context state) := by
  have hp := parser_silent rules budget p context (s := state) rfl
  have hq := parser_silent rules' budget q context (s := state) rfl
  rw [funext hrules, h] at hp
  refine hp.trans (hq.symm (S := fun r r' => r'.Linked .silence r) fun _ _ hr => hr) ?_
  intro first silent second hfirst hsecond
  obtain ⟨htag, hvalue⟩ := hfirst.alike
  obtain ⟨htag', hvalue'⟩ := hsecond.alike
  exact ⟨htag.trans htag'.symm, hvalue.trans hvalue'.symm⟩

/-- The nested parentheses under a label, which each level of the recursion adds again. -/
theorem labeled_parens_parse_alike :
    let labeled : Grammar (List Char) Char Unit (fun _ : Unit => Nat) Nat :=
      .label "parentheses" Chars.parens
    let start : State (List Char) Unit := ⟨['(', '(', ')', 'x'], (), .initial "f"⟩
    labeled.silent = Chars.parens.silent ∧
      (labeled.parser (fun _ => labeled) ⟨List.length, 3⟩ (.start (some 3)) start).Both Result.Alike
        (Chars.parens.parser Chars.parensRules ⟨List.length, 3⟩ (.start (some 3)) start) :=
  ⟨rfl, parses_alike_of_silent_eq (fun _ => rfl) rfl _ _ _⟩

end Grammar

end Parsing
