import Parsing.Chars.Lexeme
import Parsing.Proofs.Link
import Parsing.Proofs.Merge

/-!
# The same text elsewhere in a source

A grammar that does not ask where it is reads a text in the same way wherever the text stands, as
long as it is moved by whole lines and whole tabs, since that is what the tab stops repeat by. A
step from the one place and the same step from the other lead to places that are as far from each
other as before. So of two positions the same one comes first in both runs, and merging keeps the
same messages.

The run that starts further on may run out of lines or columns where the other one does not. Up to
that the two runs end in the same way.
-/

namespace Parsing

variable {σ τ υ α : Type}

/-- Two sources, and how much further on something stands in the second one. -/
structure Displacement where
  /-- The name of the first source. -/
  near : String
  /-- The name of the second source. -/
  far : String
  /-- The lines in between. -/
  lines : Nat
  /-- The tabs in between. -/
  tabs : Nat

namespace Displacement

variable {d : Displacement}

/-! ## Positions -/

/-- `q` is the position in the second source for the position `p` in the first one. -/
structure Moves (d : Displacement) (p q : Position) : Prop where
  near : p.name = d.near
  far : q.name = d.far
  line : q.line.val = p.line.val + d.lines
  column : q.column.val = p.column.val + 8 * d.tabs

variable {p p' q q' : Position}

theorem Moves.lt_iff (h : d.Moves p p') (h' : d.Moves q q') : p < q ↔ p' < q' := by
  obtain ⟨-, -, hline, hcolumn⟩ := h
  obtain ⟨-, -, hline', hcolumn'⟩ := h'
  rw [Position.lt_iff, Position.lt_iff]
  omega

theorem Moves.beq_iff (h : d.Moves p p') (h' : d.Moves q q') :
    (p == q) = true ↔ (p' == q') = true := by
  obtain ⟨-, -, hline, hcolumn⟩ := h
  obtain ⟨-, -, hline', hcolumn'⟩ := h'
  rw [Position.beq_iff, Position.beq_iff]
  omega

/-- Where there is a place after a character further on, there is one nearer by, and the two are
again as far from each other. -/
theorem Moves.advance {c : Char} (h : d.Moves p q) (hq : q.advance c = some q') :
    ∃ p', p.advance c = some p' ∧ d.Moves p' q' := by
  obtain ⟨hnear, hfar, hmoved, hright⟩ := h
  cases Position.step_of_advance hq with
  | @feed line hline =>
    have hmax : line.val ≤ Coordinate.max := line.le_max
    obtain ⟨line', hline'⟩ := Position.exists_next (c := p.line) (by omega)
    refine ⟨_, (Position.Step.feed hline').advance, hnear, hfar, ?_, hright⟩
    simp only
    omega
  | @tab column hroom hcolumn =>
    obtain ⟨column', hcolumn'⟩ := Position.exists_stop (c := p.column) (by omega)
    refine ⟨_, (Position.Step.tab (by omega) hcolumn').advance, hnear, hfar, hmoved, ?_⟩
    -- both columns are as far behind a stop, since they differ by whole tabs
    have hone := p.column.one_le
    unfold Coordinate.tabWidth at hcolumn hcolumn'
    simp only
    omega
  | @plain _ column hfeed htab hcolumn =>
    have hmax : column.val ≤ Coordinate.max := column.le_max
    obtain ⟨column', hcolumn'⟩ := Position.exists_next (c := p.column) (by omega)
    refine ⟨_, (Position.Step.plain hfeed htab hcolumn').advance, hnear, hfar, hmoved, ?_⟩
    simp only
    omega

theorem Moves.advanceText {text : List Char} (h : d.Moves p q)
    (hq : q.advanceText text = some q') : ∃ p', p.advanceText text = some p' ∧ d.Moves p' q' := by
  induction text generalizing p q with
  | nil =>
    cases hq
    exact ⟨p, rfl, h⟩
  | cons c text ih =>
    rw [Position.advanceText_cons] at hq
    obtain ⟨far, hfar, hrest⟩ := Option.bind_eq_some_iff.1 hq
    obtain ⟨near, hnear, hmoves⟩ := h.advance hfar
    obtain ⟨last, hlast, hmoved⟩ := ih hmoves hrest
    exact ⟨last, by rw [Position.advanceText_cons, hnear, Option.bind_some, hlast], hmoved⟩

/-! ## Errors -/

/-- The same messages, each where its source has them. -/
structure Errors (d : Displacement) (e e' : ParseError) : Prop where
  position : d.Moves e.position e'.position
  messages : e.messages = e'.messages

variable {a a' b b' : ParseError}

theorem Errors.isUnknown_eq (h : d.Errors a a') : a.isUnknown = a'.isUnknown := by
  rw [ParseError.isUnknown, ParseError.isUnknown, h.messages]

theorem Errors.rank_lt_iff (ha : d.Errors a a') (hb : d.Errors b b') :
    a.rank < b.rank ↔ a'.rank < b'.rank := by
  rw [ParseError.rank_lt_iff, ParseError.rank_lt_iff, ha.isUnknown_eq, hb.isUnknown_eq,
    ha.position.lt_iff hb.position]

theorem Errors.rank_eq_iff (ha : d.Errors a a') (hb : d.Errors b b') :
    a.rank = b.rank ↔ a'.rank = b'.rank := by
  rw [ParseError.rank_eq_iff, ParseError.rank_eq_iff, ha.isUnknown_eq, hb.isUnknown_eq,
    ha.position.beq_iff hb.position]

/-- The same error wins at both places, or the messages of both are kept. -/
theorem Errors.merge (ha : d.Errors a a') (hb : d.Errors b b') :
    d.Errors (a.merge b) (a'.merge b') := by
  rcases lt_trichotomy a.rank b.rank with h | h | h
  · have h' := (ha.rank_lt_iff hb).1 h
    rw [ParseError.merge_of_rank_lt h, ParseError.merge_of_rank_lt h']
    exact hb
  · have h' := (ha.rank_eq_iff hb).1 h
    rw [ParseError.merge_of_rank_eq h, ParseError.merge_of_rank_eq h', ha.messages, hb.messages]
    exact ⟨ha.position, rfl⟩
  · have h' := (hb.rank_lt_iff ha).1 h
    rw [ParseError.merge_of_rank_gt h, ParseError.merge_of_rank_gt h']
    exact ha

/-! ## Runs -/

/-- The same input and user value, each source being where it is. -/
structure States (d : Displacement) (s t : State σ υ) : Prop where
  input : s.input = t.input
  user : s.user = t.user
  position : d.Moves s.position t.position

/-- The faults that do not come from the range of positions: they are the same, each named where its
source has it. -/
inductive Faults (d : Displacement) : Fault → Fault → Prop where
  | emptyRepetition {p q : Position} (h : d.Moves p q) :
      Faults d (.emptyRepetition p) (.emptyRepetition q)
  | levelOverflow : Faults d .levelOverflow .levelOverflow

/-- Runs on the same text at two places. The one that is further on may leave the range of positions
first. -/
def link (d : Displacement) : Link σ υ σ υ where
  state := d.States
  error := d.Errors
  fault := d.Faults
  lost f := f = .positionOverflow
  report _ h := ⟨h.position, rfl⟩
  merge := Errors.merge
  relabel _ h := ⟨h.position, rfl⟩
  repetition h := .emptyRepetition h.position
  level := .levelOverflow

/-- Both runs pass the same text, unless there is no room for it further on. -/
theorem States.passed {s t : State σ υ} (h : d.States s t) (text : List Char) (output : α)
    (rest : σ) :
    (Parser.passed output rest s.user (s.position.advanceText text)).Follows
      (· = .positionOverflow) d.Faults (Result.Linked d.link)
      (Parser.passed output rest t.user (t.position.advanceText text)) := by
  unfold Parser.passed
  cases hfar : t.position.advanceText text with
  | none => exact .lost rfl
  | some far =>
    obtain ⟨near, hnear, hmoves⟩ := h.position.advanceText hfar
    rw [hnear]
    exact .returned (.success ⟨rfl, h.user, hmoves⟩ ⟨hmoves, rfl⟩)

end Displacement

/-! ## Grammars -/

namespace Grammar

variable {ι : Type} {ρ : ι → Type}

/-- What a node may be for its parser to work alike everywhere: it does not ask for the position, it
does not set it, and what it reads moves it over some text. Which text that is may depend on what is
read, and on what follows, but not on the place. -/
def Relocatable : {α : Type} → Grammar σ τ υ ρ α → Prop
  | _, .token _ next test => ∀ item rest, (test item).isSome → ∃ text : List Char,
    ∀ position, next position item rest = position.advanceText text
  | _, .tokens _ next expected => expected ≠ [] → ∃ text : List Char,
    ∀ position : Position, next position expected = position.advanceText text
  | _, .getState | _, .getPosition | _, .updateState _ | _, .ofParser _ => False
  | _, _ => True

variable [Input σ τ] [DecidableEq τ]

theorem relocatable_congruence (d : Displacement) (turns : σ → Nat) :
    Congruence (σ := σ) (τ := τ) (υ := υ) (ρ := ρ) Relocatable turns turns
      (Parser.Linked d.link) := by
  refine congruence_of_link turns (fun h => h.input) ?_ ?_ (fun h => h.elim) (fun h => h.elim)
    (fun _ _ _ h => h.user) (fun h => h.elim) ?_ fun h => h.elim
  · intro β shown next test hnext s t hst item rest output houtput
    obtain ⟨text, htext⟩ := hnext item rest (by rw [houtput, Option.isSome_some])
    rw [htext, htext]
    exact hst.passed text output rest
  · intro shown next expected hnext hne s t hst rest
    obtain ⟨text, htext⟩ := hnext hne
    rw [htext, htext]
    exact hst.passed text expected rest
  · intro f _
    exact Parser.linked_modifyUser fun h => ⟨h.input, congrArg f h.user, h.position⟩

/-- Of two runs on the same input with the same user value, of which one starts some lines and tabs
further on in a source with another name, the second one leaves the range of positions, or both end
in the same way. If they return, they have the same tag and output, the same input and user value
are left, and the same messages are reported, with every position as far from the other one as at
the start. -/
theorem parses_alike_elsewhere {rules : Rules σ τ υ ρ}
    (hrules : ∀ i, (rules i).Everywhere Relocatable) {p : Grammar σ τ υ ρ α}
    (hp : p.Everywhere Relocatable) (budget : Budget σ) (context : Context) (input : σ) (user : υ)
    {near far : Position} {lines tabs : Nat} (hline : far.line.val = near.line.val + lines)
    (hcolumn : far.column.val = near.column.val + 8 * tabs) :
    let d : Displacement := ⟨near.name, far.name, lines, tabs⟩
    (p.parser rules budget context ⟨input, user, near⟩).Follows (· = .positionOverflow) d.Faults
      (Result.Linked d.link) (p.parser rules budget context ⟨input, user, far⟩) := by
  intro d
  have hstart : d.States (⟨input, user, near⟩ : State σ υ) ⟨input, user, far⟩ :=
    ⟨rfl, rfl, rfl, rfl, hline, hcolumn⟩
  have hlinked : Parser.Linked d.link (p.parser rules budget) (p.parser rules budget) :=
    (relocatable_congruence d budget.turns).at_depth Parser.linked_exhausted
      Parser.Linked.nested hrules budget.depth p hp
  exact hlinked context hstart

theorem relocatable_satisfy (accepts : Char → Bool) [Input σ Char] :
    (Chars.satisfy accepts : Grammar σ Char υ ρ Char).Everywhere Relocatable := by
  intro item rest _
  exact ⟨[item], fun position => (Position.advanceText_singleton position item).symm⟩

/-- Parentheses behind white space, at the start of one source and in the middle of another one. The
tabs lead to stops in both of them. -/
theorem indented_parens_parse_alike_elsewhere :
    let blanks : Grammar (List Char) Char Unit (fun _ : Unit => Nat) (List Char) :=
      .many (Chars.satisfy fun c => c == '\t' || c == '\n')
    let indented := Grammar.discardLeft blanks Chars.parens
    let input := ['\t', '\n', '\t', '(', '(', 'x']
    let near : Position := ⟨"f", ⟨1, by decide, by decide⟩, ⟨3, by decide, by decide⟩⟩
    let far : Position := ⟨"g", ⟨5, by decide, by decide⟩, ⟨19, by decide, by decide⟩⟩
    indented.Everywhere Relocatable ∧ far.line.val = near.line.val + 4 ∧
      far.column.val = near.column.val + 8 * 2 ∧
      (indented.parser Chars.parensRules ⟨List.length, 3⟩ (.start none) ⟨input, (), near⟩).Follows
        (· = .positionOverflow) (Displacement.mk "f" "g" 4 2).Faults
        (Result.Linked (Displacement.mk "f" "g" 4 2).link)
        (indented.parser Chars.parensRules ⟨List.length, 3⟩ (.start none) ⟨input, (), far⟩) := by
  intro blanks indented input near far
  have hblanks : blanks.Everywhere Relocatable := ⟨trivial, relocatable_satisfy _⟩
  have hparens : (Chars.parens : Grammar (List Char) Char Unit (fun _ : Unit => Nat) Nat).Everywhere
      Relocatable :=
    ⟨trivial, ⟨trivial, trivial, ⟨trivial, relocatable_satisfy _, trivial⟩, relocatable_satisfy _⟩,
      trivial⟩
  have hindented : indented.Everywhere Relocatable := ⟨trivial, hblanks, hparens⟩
  have hline : far.line.val = near.line.val + 4 := rfl
  have hcolumn : far.column.val = near.column.val + 8 * 2 := rfl
  exact ⟨hindented, hline, hcolumn,
    parses_alike_elsewhere (fun _ => hparens) hindented _ _ input () hline hcolumn⟩

end Grammar

end Parsing
