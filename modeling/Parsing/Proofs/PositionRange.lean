import Parsing.Chars.Class
import Parsing.Proofs.Calls
import Parsing.Proofs.Shrinking

/-!
# Positions that stay in range

A line and a column have 32 bits, and a run stops at a fault where a step would leave them. The
largest step is that of a tab, which is asked to have the room of a whole one. So an input cannot
run out of lines or columns if there is a line and a tab left for each of its items. This is true
again of every state that a run gets to, since each item that is read takes one step at most, and it
is true of what a run does only to look ahead or to find out about a hint, since that starts from
such a state as well.
-/

namespace Parsing

variable {σ τ υ α β : Type} [Input σ τ]

/-- There is a line and a tab left for each item that is left to read. -/
structure State.Fits (s : State σ υ) : Prop where
  /-- The lines that are left. -/
  line : s.position.line.val + s.left ≤ Coordinate.max
  /-- The columns that are left. -/
  column : s.position.column.val + Coordinate.tabWidth * s.left ≤ Coordinate.max

/-- Where as many characters are passed as items are read, there is a next position, and what is
left of the room is enough for what is left to read. -/
theorem State.Fits.advance {s : State σ υ} (h : s.Fits) {text : List Char} {rest : σ}
    (hroom : text.length + (Input.items rest).length ≤ s.left) :
    ∃ position, s.position.advanceText text = some position ∧
      (⟨rest, s.user, position⟩ : State σ υ).Fits := by
  obtain ⟨hline, hcolumn⟩ := h
  have htabs : Coordinate.tabWidth * (text.length + (Input.items rest).length) ≤
      Coordinate.tabWidth * s.left := Nat.mul_le_mul_left _ hroom
  rw [Nat.mul_add] at htabs
  have htextLine : s.position.line.val + text.length ≤ Coordinate.max := by omega
  obtain ⟨position, hposition, hnextLine, hnextColumn⟩ :=
    Position.exists_advanceText htextLine (by omega)
  refine ⟨position, hposition, ?_, ?_⟩
  · rw [State.left_mk]
    simp only
    omega
  · rw [State.left_mk]
    simp only
    omega

open Outcome (map_ne_fault bind_ne_fault ensures_returned)

/-- A success leads from a state with enough room to such a state. -/
inductive Result.KeepsRoom : {α : Type} → State σ υ → Result σ υ α → Prop where
  | success {α : Type} {s t : State σ υ} {tag : Tag} {output : α} {hint : ParseError}
      (h : s.Fits → t.Fits) : KeepsRoom s ⟨tag, .success output t hint⟩
  | failure {α : Type} {s : State σ υ} {tag : Tag} {error : ParseError} :
      KeepsRoom s (⟨tag, .failure error⟩ : Result σ υ α)

namespace Result

theorem KeepsRoom.behind {s t : State σ υ} {result : Result σ υ α} (h : KeepsRoom t result)
    (hst : s.Fits → t.Fits) (tag : Tag) (hint : ParseError) :
    KeepsRoom s (behind tag hint result) := by
  cases h with
  | @success next tag' _ _ hnext => cases tag' <;> exact .success fun hs => hnext (hst hs)
  | @failure tag' _ => cases tag' <;> exact .failure

theorem keepsRoom_invariant : Invariant (σ := σ) (υ := υ) KeepsRoom where
  accept output s t hinput hposition := by
    have hleft : t.left = s.left := by rw [State.left, State.left, hinput]
    refine .success fun hs => ⟨?_, ?_⟩
    · rw [hleft, hposition]
      exact hs.line
    · rw [hleft, hposition]
      exact hs.column
  reject _ _ := .failure
  map f _ _ h := by
    cases h with
    | success h => exact .success h
    | failure => exact .failure
  failure _ := .failure
  behind h h' := by
    cases h with
    | success h => exact h'.behind h _ _
  instead _ h := h.behind id _ _
  hinted h _ := by
    cases h with
    | success h => exact .success h
  labeled names _ _ h := by
    cases h with
    | @success _ tag _ _ h => cases tag <;> exact .success h
    | @failure tag _ => cases tag <;> exact .failure
  rewound h := by
    cases h with
    | @success _ tag _ _ h => cases tag <;> exact .success h
    | @failure tag _ => cases tag <;> exact .failure
  stop acc _ := .success id

end Result

namespace Parser

/-- The parser does not leave the range of positions where there is enough room for its input, and
enough is left where it succeeds. -/
structure StaysInRange (p : Parser σ υ α) : Prop where
  /-- A success leaves enough room. -/
  keepsRoom : p.Keeps Result.KeepsRoom
  /-- No position is out of range. -/
  ne_overflow (context : Context) {state : State σ υ} (h : state.Fits) :
    p context state ≠ .fault .positionOverflow

variable {p q : Parser σ υ α}

theorem StaysInRange.fits (h : p.StaysInRange) {context : Context} {state next : State σ υ}
    (hstate : state.Fits) {tag : Tag} {output : α} {hint : ParseError}
    (hp : p context state = .returned ⟨tag, .success output next hint⟩) : next.Fits := by
  have hkeeps := h.keepsRoom context state
  rw [hp, ensures_returned] at hkeeps
  cases hkeeps with
  | success hnext => exact hnext hstate

theorem StaysInRange.kept (h : p.StaysInRange) : Watch.KeptBy (fun _ state => state.Fits) p := by
  rintro context state hstate ⟨tag, reply⟩ hp output next hvalue
  cases reply with
  | success output' next' hint =>
    cases hvalue
    exact h.fits hstate hp
  | failure error => cases hvalue

theorem staysInRange_of_returned {f : Context → State σ υ → Result σ υ α}
    (h : Keeps Result.KeepsRoom fun context state => .returned (f context state)) :
    StaysInRange fun context state => .returned (f context state) :=
  ⟨h, fun _ _ _ heq => by cases heq⟩

theorem staysInRange_exhausted : (exhausted : Parser σ υ α).StaysInRange :=
  ⟨keeps_exhausted, fun _ _ _ heq => by cases heq⟩

/-- What is done to the result of a run has no part in whether a position is out of range. -/
theorem StaysInRange.mapResult {f : State σ υ → Result σ υ α → Result σ υ β}
    (h : p.StaysInRange)
    (hf : Keeps Result.KeepsRoom fun context state => (p context state).map (f state)) :
    StaysInRange fun context state => (p context state).map (f state) :=
  ⟨hf, fun context _ hstate => map_ne_fault _ (h.ne_overflow context hstate)⟩

theorem StaysInRange.bind {f : α → Parser σ υ β} (h : p.StaysInRange)
    (hf : ∀ output, (f output).StaysInRange) : (Parser.bind p f).StaysInRange := by
  refine ⟨h.keepsRoom.bind Result.keepsRoom_invariant fun output => (hf output).keepsRoom,
    fun context state hstate => ?_⟩
  refine bind_ne_fault (h.ne_overflow context hstate) ?_
  rintro ⟨tag, reply⟩ hfirst
  cases reply with
  | success output next hint =>
    have hnext : next.Fits := h.fits hstate hfirst
    exact map_ne_fault _ ((hf output).ne_overflow context hnext)
  | failure error => exact fun heq => by cases heq

theorem StaysInRange.choice (h : p.StaysInRange) (hq : q.StaysInRange) :
    (Parser.choice p q).StaysInRange := by
  refine ⟨h.keepsRoom.choice Result.keepsRoom_invariant hq.keepsRoom,
    fun context state hstate => ?_⟩
  refine bind_ne_fault (h.ne_overflow context hstate) ?_
  have hsecond := hq.ne_overflow context hstate
  rintro ⟨_ | _, reply⟩ -
  · cases reply with
    -- after a success the second alternative runs too, and could be at fault
    | success output next hint => exact map_ne_fault _ hsecond
    | failure error => exact map_ne_fault _ hsecond
  · exact fun heq => by cases heq

theorem StaysInRange.nested (h : p.StaysInRange) : (Parser.nested p).StaysInRange := by
  refine ⟨h.keepsRoom.nested Result.keepsRoom_invariant, fun context state hstate => ?_⟩
  unfold Parser.nested Context.nest
  split
  · exact fun heq => by cases heq
  · split
    · exact h.ne_overflow _ hstate
    · exact fun heq => by cases heq

/-- Each turn leaves enough room for the next one, so there is enough where the repetition stops. -/
theorem StaysInRange.repetition {turns : σ → Nat} {push : β → α → β} {acc : β}
    (h : p.StaysInRange) : (Parser.repetition turns push acc p).StaysInRange := by
  refine ⟨h.keepsRoom.repetition Result.keepsRoom_invariant, fun context state hstate => ?_⟩
  obtain ⟨steps, last, hrun, hstops⟩ :=
    accumulate_stops push p context (turns state.input) acc none state
  have hlast : last.Fits := h.kept.run hrun hstate
  intro hoverflow
  have hfault : accumulate push p context (turns state.input) acc none state =
      .fault .positionOverflow := hoverflow
  rw [hfault] at hstops
  cases hstops with
  | fault hbody => exact h.ne_overflow context hlast hbody

/-! ## Tokens -/

/-- It is enough to look at the states with enough room. -/
theorem staysInRange_of_fits (h : ∀ context state, state.Fits → ∃ tag reply,
    p context state = .returned ⟨tag, reply⟩ ∧
      ∀ output next hint, reply = .success output next hint → next.Fits) : p.StaysInRange := by
  refine ⟨fun context state => ?_, fun context state hstate heq => ?_⟩
  · rintro ⟨tag, reply⟩ hp
    cases reply with
    | failure error => exact .failure
    | success output next hint =>
      refine .success fun hstate => ?_
      obtain ⟨tag', reply', hp', hfits⟩ := h context state hstate
      rw [hp] at hp'
      cases hp'
      exact hfits output next hint rfl
  · obtain ⟨tag, reply, hp, -⟩ := h context state hstate
    rw [heq] at hp
    cases hp

section Tokens

variable [LawfulInput σ]

theorem staysInRange_token {shown : τ → String} {next : Position → τ → σ → Option Position}
    {test : τ → Option α}
    (hnext : ∀ position item rest, (test item).isSome → ∃ text : List Char, text.length ≤ 1 ∧
      next position item rest = position.advanceText text) :
    (token shown next test : Parser σ υ α).StaysInRange := by
  refine staysInRange_of_fits fun context state hstate => ?_
  unfold token
  split
  · exact ⟨_, _, rfl, fun _ _ _ h => by cases h⟩
  · rename_i item rest huncons
    split
    · exact ⟨_, _, rfl, fun _ _ _ h => by cases h⟩
    · rename_i output htest
      obtain ⟨text, htext, hadvance⟩ := hnext state.position item rest (by rw [htest]; rfl)
      have hlength : state.left = (Input.items rest).length + 1 :=
        Input.length_items_of_uncons? huncons
      have hroom : text.length + (Input.items rest).length ≤ state.left := by omega
      obtain ⟨position, hposition, hfits⟩ := hstate.advance hroom
      rw [hadvance, hposition]
      refine ⟨_, _, rfl, fun _ _ _ h => ?_⟩
      cases h
      exact hfits

theorem staysInRange_tokens [DecidableEq τ] {shown : List τ → String}
    {next : Position → List τ → Option Position} {expected : List τ}
    (hnext : expected ≠ [] → ∀ position, ∃ text : List Char, text.length ≤ expected.length ∧
      next position expected = position.advanceText text) :
    (tokens shown next expected : Parser σ υ (List τ)).StaysInRange := by
  refine staysInRange_of_fits fun context state hstate => ?_
  unfold tokens
  split
  · refine ⟨_, _, rfl, fun _ _ _ h => ?_⟩
    cases h
    exact hstate
  · rename_i hexpected
    split
    · rename_i rest hwhole
      have hne : expected ≠ [] := fun h => hexpected (by rw [h]; rfl)
      obtain ⟨text, htext, hadvance⟩ := hnext hne state.position
      have hlength : state.left = expected.length + (Input.items rest).length := by
        rw [State.left, Agreement.items_of_compare_eq_whole hwhole, List.length_append]
      have hroom : text.length + (Input.items rest).length ≤ state.left := by omega
      obtain ⟨position, hposition, hfits⟩ := hstate.advance hroom
      rw [hadvance, hposition]
      refine ⟨_, _, rfl, fun _ _ _ h => ?_⟩
      cases h
      exact hfits
    · exact ⟨_, _, rfl, fun _ _ _ h => by cases h⟩

end Tokens

theorem staysInRange_eof {shown : τ → String} : (eof shown : Parser σ υ Unit).StaysInRange := by
  refine ⟨keeps_eof Result.keepsRoom_invariant shown, fun context state _ => ?_⟩
  unfold eof
  split <;> exact fun heq => by cases heq

end Parser

/-! ## Grammars -/

namespace Grammar

variable {ι : Type} {ρ : ι → Type}

/-- What a node may be for positions to keep step with the input: each item that is read moves the
position by one character at most, whichever one that is. Functions on the state and parsers by hand
are left out, which could go anywhere. -/
def Stepping : {α : Type} → Grammar σ τ υ ρ α → Prop
  | _, .token _ next test => ∀ position item rest, (test item).isSome →
    ∃ text : List Char, text.length ≤ 1 ∧ next position item rest = position.advanceText text
  | _, .tokens _ next expected => expected ≠ [] → ∀ position,
    ∃ text : List Char, text.length ≤ expected.length ∧
      next position expected = position.advanceText text
  | _, .updateState _ => False
  | _, .ofParser _ => False
  | _, _ => True

variable [LawfulInput σ] [DecidableEq τ]

theorem staysInRange_closed :
    Closed (σ := σ) (τ := τ) (υ := υ) (ρ := ρ) Stepping Parser.StaysInRange where
  inspects f := Parser.staysInRange_of_returned (Parser.keeps_inspect Result.keepsRoom_invariant f)
  failWith _ := Parser.staysInRange_of_returned fun _ _ => ensures_returned.2 .failure
  zero := Parser.staysInRange_of_returned fun _ _ => ensures_returned.2 .failure
  map h := h.mapResult fun context state => Outcome.ensures_map.2
    ((h.keepsRoom context state).mono fun _ => Result.keepsRoom_invariant.map _)
  bind := Parser.StaysInRange.bind
  choice := Parser.StaysInRange.choice
  labels h := h.mapResult fun context state => Outcome.ensures_map.2
    ((h.keepsRoom context state).mono fun _ => Result.keepsRoom_invariant.labeled _)
  attempt h := h.mapResult fun context state => Outcome.ensures_map.2
    ((h.keepsRoom context state).mono fun _ => Result.keepsRoom_invariant.rewound)
  lookAhead h := h.mapResult (h.keepsRoom.lookAhead Result.keepsRoom_invariant)
  notFollowedBy h := h.mapResult (Parser.keeps_notFollowedBy Result.keepsRoom_invariant _)
  repetition := Parser.StaysInRange.repetition
  modifyUser _ := Parser.staysInRange_of_returned fun _ _ =>
    ensures_returned.2 (Result.keepsRoom_invariant.accept () rfl rfl)
  token := Parser.staysInRange_token
  tokens := Parser.staysInRange_tokens
  eof := Parser.staysInRange_eof
  updateState h := h.elim
  ofParser h := h.elim

theorem parserAt_staysInRange {rules : Rules σ τ υ ρ} (hrules : ∀ i, (rules i).Everywhere Stepping)
    (turns : σ → Nat) (depth : Nat) (p : Grammar σ τ υ ρ α) (hp : p.Everywhere Stepping) :
    (parserAt rules turns depth p).StaysInRange :=
  staysInRange_closed.parser Parser.staysInRange_exhausted Parser.StaysInRange.nested hrules
    ⟨turns, depth⟩ hp

/-- Where a line and a tab are left for each item of the input, no run of a grammar leaves the range
of positions, and every call in the run is made from a state where a line and a tab are left for
each item that is still to be read, those calls included that only look ahead, that fail, or that
are made for a hint. -/
theorem no_overflow_while_input_fits {rules : Rules σ τ υ ρ}
    (hrules : ∀ i, (rules i).Everywhere Stepping) {p : Grammar σ τ υ ρ α}
    (hp : p.Everywhere Stepping) (budget : Budget σ) (context : Context) (state : State σ υ)
    (hline : state.position.line.val + state.left ≤ 4294967295)
    (hcolumn : state.position.column.val + 8 * state.left ≤ 4294967295) :
    p.parser rules budget context state ≠ .fault .positionOverflow ∧
    p.Throughout rules budget
      (fun _ _ state => state.position.line.val + state.left ≤ 4294967295 ∧
        state.position.column.val + 8 * state.left ≤ 4294967295) context state := by
  have hfits : state.Fits := ⟨hline, hcolumn⟩
  have hstays : ∀ depth {α : Type} (q : Grammar σ τ υ ρ α), q.Everywhere Stepping →
      (parserAt rules budget.turns depth q).StaysInRange := fun depth _ q hq =>
    parserAt_staysInRange hrules budget.turns depth q hq
  refine ⟨(hstays budget.depth p hp).ne_overflow context hfits, ?_⟩
  refine throughout_of_kept (J := fun _ state => state.Fits) hrules
    (fun depth _ q hq => (hstays depth q hq).kept) ?_ ?_ p hp hfits
  · intro context state deeper hfits hnest
    exact hfits
  · intro β q context state hfits
    exact ⟨hfits.line, hfits.column⟩

theorem stepping_satisfy (accepts : Char → Bool) [Input σ Char] {ρ : ι → Type} :
    (Chars.satisfy accepts : Grammar σ Char υ ρ Char).Everywhere Stepping := by
  intro position item rest _
  exact ⟨[item], Nat.le_refl _, (Position.advanceText_singleton position item).symm⟩

/-- Two tabs and a line feed, at the last line and the last column that have room for three items.
The tabs are passed twice, first only to look ahead. -/
theorem tabs_fit_at_end_of_line :
    let tabs : Grammar (List Char) Char Unit (fun _ : Empty => Unit) (List Char) :=
      .discardLeft (.lookAhead (.many (Chars.satisfy (· == '\t'))))
        (.many (Chars.satisfy fun _ => true))
    let rules : Rules (List Char) Char Unit (fun _ : Empty => Unit) := Empty.rec
    let budget : Budget (List Char) := ⟨fun _ => 4, 0⟩
    let start : State (List Char) Unit := ⟨['\t', '\t', '\n'], (),
      ⟨"f", ⟨4294967292, by decide, by decide⟩, ⟨4294967271, by decide, by decide⟩⟩⟩
    tabs.Everywhere Stepping ∧ start.position.line.val + start.left ≤ 4294967295 ∧
      start.position.column.val + 8 * start.left ≤ 4294967295 ∧
      tabs.parser rules budget (.start none) start ≠ .fault .positionOverflow := by
  intro tabs rules budget start
  have htabs : tabs.Everywhere Stepping :=
    ⟨trivial, ⟨trivial, trivial, stepping_satisfy _⟩, trivial, stepping_satisfy _⟩
  have hline : start.position.line.val + start.left ≤ 4294967295 := by decide
  have hcolumn : start.position.column.val + 8 * start.left ≤ 4294967295 := by decide
  have hrules : ∀ i, (rules i).Everywhere Stepping := fun i => i.elim
  exact ⟨htabs, hline, hcolumn,
    (no_overflow_while_input_fits hrules htabs budget (.start none) start hline hcolumn).1⟩

end Grammar

end Parsing
