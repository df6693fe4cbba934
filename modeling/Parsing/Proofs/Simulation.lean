import Parsing.Input.Items
import Parsing.Proofs.Link

/-!
# Inputs of different kinds

A grammar may be written for every kind of input. All that it can find out about an input then comes
from the operations on inputs, so it cannot tell two inputs apart that no sequence of operations
tells apart. A relation between two kinds of inputs is a `Simulation` if the operations give the
same on related inputs and lead to related inputs again; the largest simulation between lawful kinds
is to have the same items.

`p.Matches q` says that `p` and `q` are the same grammar on two kinds of inputs, and that the
functions in it do not see the difference, whatever simulation the inputs are in. Matching grammars
run alike on related inputs.
-/

namespace Parsing

variable {σ σ' τ υ α : Type}

/-! ## Simulations -/

/-- The operations do not tell related inputs apart, and lead to related inputs again. -/
structure Input.Simulation [Input σ τ] [Input σ' τ] (R : σ → σ' → Prop) : Prop where
  uncons? {a : σ} {b : σ'} : R a b →
    Option.Rel (fun x y => x.1 = y.1 ∧ R x.2 y.2) (Input.uncons? a) (Input.uncons? b)
  peek? {a : σ} {b : σ'} : R a b → Input.peek? a = Input.peek? b
  isEmpty {a : σ} {b : σ'} : R a b → Input.isEmpty a = Input.isEmpty b

/-- Inputs with the same items left. -/
def Input.SameItems [Input σ τ] [Input σ' τ] (a : σ) (b : σ') : Prop :=
  Input.items a = Input.items b

namespace Input

variable [Input σ τ] [Input σ' τ] {R : σ → σ' → Prop}

theorem sameItems_simulation [LawfulInput σ] [LawfulInput σ'] :
    Simulation (SameItems : σ → σ' → Prop) where
  uncons? {a b} h := by
    cases ha : Input.uncons? a with
    | none =>
      have hb : Input.uncons? b = none :=
        uncons?_eq_none_iff.2 (h.symm.trans (items_of_uncons?_none ha))
      rw [hb]
      exact .none
    | some next =>
      obtain ⟨item, rest⟩ := next
      have hitems : Input.items b = item :: Input.items rest :=
        h.symm.trans (items_of_uncons?_some ha)
      cases hb : Input.uncons? b with
      | none =>
        rw [items_of_uncons?_none hb] at hitems
        cases hitems
      | some next' =>
        obtain ⟨item', rest'⟩ := next'
        rw [items_of_uncons?_some hb] at hitems
        obtain ⟨hitem, hrest⟩ := List.cons_eq_cons.1 hitems
        exact .some ⟨hitem.symm, hrest.symm⟩
  peek? {a b} h := by rw [LawfulInput.peek?_eq, LawfulInput.peek?_eq, h]
  isEmpty {a b} h := by rw [LawfulInput.isEmpty_eq, LawfulInput.isEmpty_eq, h]

/-- Lawful inputs that no sequence of operations tells apart have the same items. -/
theorem Simulation.sameItems [LawfulInput σ] [LawfulInput σ'] (hR : Simulation R) {a : σ} {b : σ'}
    (h : R a b) : SameItems a b := by
  obtain ⟨items, hitems⟩ : ∃ items, Input.items a = items := ⟨_, rfl⟩
  induction items generalizing a b with
  | nil =>
    have hstep := hR.uncons? h
    rw [uncons?_eq_none_iff.2 hitems] at hstep
    generalize hb : Input.uncons? b = o at hstep
    cases hstep
    rw [SameItems, hitems, items_of_uncons?_none hb]
  | cons item items ih =>
    have hstep := hR.uncons? h
    generalize ha : Input.uncons? a = o, hb : Input.uncons? b = o' at hstep
    cases hstep with
    | none =>
      rw [items_of_uncons?_none ha] at hitems
      cases hitems
    | @some next next' hnext =>
      obtain ⟨found, rest⟩ := next
      obtain ⟨found', rest'⟩ := next'
      obtain ⟨hitem, hrest⟩ := hnext
      have hfound := items_of_uncons?_some ha
      rw [hitems] at hfound
      obtain ⟨-, hrestItems⟩ := List.cons_eq_cons.1 hfound
      have hsame : SameItems rest rest' := ih hrest hrestItems.symm
      rw [SameItems, items_of_uncons?_some ha, items_of_uncons?_some hb, hsame]
      exact congrArg (· :: Input.items rest') hitem

end Input

/-- Both inputs agree with all the items, and go on in related inputs, or they agree with as many
items and go on in the same way. -/
inductive Agreement.Alike (R : σ → σ' → Prop) : Agreement σ τ → Agreement σ' τ → Prop where
  | whole {rest : σ} {rest' : σ'} (h : R rest rest') : Alike R (.whole rest) (.whole rest')
  | partly (matched : Nat) (found : Option τ) :
      Alike R (.partly matched found) (.partly matched found)

theorem Agreement.compare_alike [Input σ τ] [Input σ' τ] [DecidableEq τ] {R : σ → σ' → Prop}
    (hR : Input.Simulation R) (wanted : List τ) (matched : Nat) {a : σ} {b : σ'} (h : R a b) :
    (compare wanted matched a).Alike R (compare wanted matched b) := by
  induction wanted generalizing matched a b with
  | nil => exact .whole h
  | cons item wanted ih =>
    have hstep := hR.uncons? h
    rw [compare, compare]
    generalize Input.uncons? a = o, Input.uncons? b = o' at hstep
    cases hstep with
    | none => exact .partly matched none
    | @some next next' hnext =>
      obtain ⟨found, rest⟩ := next
      obtain ⟨found', rest'⟩ := next'
      obtain ⟨rfl, hrest⟩ := hnext
      by_cases hfound : found = item
      · simp only [if_pos hfound]
        exact ih (matched + 1) hrest
      · simp only [if_neg hfound]
        exact .partly matched (some found)

/-! ## Parsers -/

/-- The inputs are related, and the states are the same apart from that. -/
structure State.Alike (R : σ → σ' → Prop) (s : State σ υ) (t : State σ' υ) : Prop where
  input : R s.input t.input
  user : s.user = t.user
  position : s.position = t.position

/-- Runs on related inputs, which report the same. -/
def Link.inputs (R : σ → σ' → Prop) : Link σ υ σ' υ :=
  .atOnePlace (State.Alike R) fun h => h.position

/-- The steps after an item do not see of what kind the rest of the input is. -/
def StepsAlike [Input σ τ] [Input σ' τ] (next : Position → τ → σ → Option Position)
    (next' : Position → τ → σ' → Option Position) : Prop :=
  ∀ R : σ → σ' → Prop, Input.Simulation R → ∀ position item rest rest', R rest rest' →
    next position item rest = next' position item rest'

namespace Parser

/-- The parsers do not see of what kind the input is. -/
def ActsAlike [Input σ τ] [Input σ' τ] (p : Parser σ υ α) (q : Parser σ' υ α) : Prop :=
  ∀ R : σ → σ' → Prop, Input.Simulation R → Linked (.inputs R) p q

variable [Input σ τ] [Input σ' τ] {R : σ → σ' → Prop}

theorem linked_inputs_token (hR : Input.Simulation R) {shown : τ → String}
    {next : Position → τ → σ → Option Position} {next' : Position → τ → σ' → Option Position}
    {test : τ → Option α} (hnext : StepsAlike next next') :
    Linked (.inputs R) (token shown next test : Parser σ υ α)
      (token shown next' test : Parser σ' υ α) := by
  intro context s t hst
  have hstep := hR.uncons? hst.input
  unfold token
  rw [hst.position]
  generalize Input.uncons? s.input = o, Input.uncons? t.input = o' at hstep
  cases hstep with
  | none => exact .returned (.failure rfl)
  | @some found found' hfound =>
    obtain ⟨item, rest⟩ := found
    obtain ⟨item', rest'⟩ := found'
    obtain ⟨rfl, hrest⟩ := hfound
    cases htest : test item with
    | none =>
      simp only [htest]
      exact .returned (.failure rfl)
    | some output =>
      simp only [htest, hnext R hR t.position item rest rest' hrest]
      cases next' t.position item rest' with
      | none => exact .fault rfl
      | some position => exact .returned (.success ⟨hrest, hst.user, rfl⟩ rfl)

theorem linked_inputs_tokens [DecidableEq τ] (hR : Input.Simulation R) {shown : List τ → String}
    {next : Position → List τ → Option Position} {expected : List τ} :
    Linked (.inputs R) (tokens shown next expected : Parser σ υ (List τ))
      (tokens shown next expected : Parser σ' υ (List τ)) := by
  intro context s t hst
  have hcompare := Agreement.compare_alike hR expected 0 hst.input
  unfold tokens
  rw [hst.position]
  by_cases hempty : expected.isEmpty
  · rw [if_pos hempty, if_pos hempty]
    exact .returned (Result.linked_accept [] hst)
  · rw [if_neg hempty, if_neg hempty]
    generalize Agreement.compare expected 0 s.input = agreement,
      Agreement.compare expected 0 t.input = agreement' at hcompare
    cases hcompare with
    | whole hrest =>
      cases next t.position expected with
      | none => exact .fault rfl
      | some position => exact .returned (.success ⟨hrest, hst.user, rfl⟩ rfl)
    | partly matched found => exact .returned (.failure rfl)

theorem linked_inputs_eof (hR : Input.Simulation R) (shown : τ → String) :
    Linked (.inputs R) (eof shown : Parser σ υ Unit) (eof shown : Parser σ' υ Unit) := by
  intro context s t hst
  unfold eof
  rw [hR.peek? hst.input, hst.position]
  split
  · exact .returned (Result.linked_accept () hst)
  · exact .returned (.failure rfl)

end Parser

/-! ## Grammars -/

namespace Grammar

variable {ι : Type} {ρ : ι → Type} [Input σ τ] [Input σ' τ]

/-- The two are the same grammar on two kinds of inputs, and its functions do not see of what kind
the input is. It neither puts out an input or a state nor replaces the state. -/
inductive Matches : {α : Type} → Grammar σ τ υ ρ α → Grammar σ' τ υ ρ α → Prop where
  | pure {α : Type} (output : α) : Matches (.pure output) (.pure output)
  | fail {α : Type} (text : String) : Matches (.fail text : Grammar σ τ υ ρ α) (.fail text)
  | unexpected {α : Type} (text : String) :
      Matches (.unexpected text : Grammar σ τ υ ρ α) (.unexpected text)
  | zero {α : Type} : Matches (.zero : Grammar σ τ υ ρ α) .zero
  | map {α β : Type} (f : α → β) {p : Grammar σ τ υ ρ α} {q : Grammar σ' τ υ ρ α} :
      Matches p q → Matches (.map f p) (.map f q)
  | bind {α β : Type} {p : Grammar σ τ υ ρ α} {q : Grammar σ' τ υ ρ α}
      {f : α → Grammar σ τ υ ρ β} {g : α → Grammar σ' τ υ ρ β} :
      Matches p q → (∀ output, Matches (f output) (g output)) → Matches (.bind p f) (.bind q g)
  | discardLeft {α β : Type} {p : Grammar σ τ υ ρ α} {q : Grammar σ' τ υ ρ α}
      {p₂ : Grammar σ τ υ ρ β} {q₂ : Grammar σ' τ υ ρ β} :
      Matches p q → Matches p₂ q₂ → Matches (.discardLeft p p₂) (.discardLeft q q₂)
  | discardRight {α β : Type} {p : Grammar σ τ υ ρ α} {q : Grammar σ' τ υ ρ α}
      {p₂ : Grammar σ τ υ ρ β} {q₂ : Grammar σ' τ υ ρ β} :
      Matches p q → Matches p₂ q₂ → Matches (.discardRight p p₂) (.discardRight q q₂)
  | between {α β γ : Type} {opening : Grammar σ τ υ ρ α} {opening' : Grammar σ' τ υ ρ α}
      {closing : Grammar σ τ υ ρ β} {closing' : Grammar σ' τ υ ρ β} {p : Grammar σ τ υ ρ γ}
      {q : Grammar σ' τ υ ρ γ} : Matches opening opening' → Matches closing closing' →
        Matches p q → Matches (.between opening closing p) (.between opening' closing' q)
  | choice {α : Type} {p p₂ : Grammar σ τ υ ρ α} {q q₂ : Grammar σ' τ υ ρ α} :
      Matches p q → Matches p₂ q₂ → Matches (.choice p p₂) (.choice q q₂)
  | alternatives {α : Type} {count : Nat} {p : Fin count → Grammar σ τ υ ρ α}
      {q : Fin count → Grammar σ' τ υ ρ α} :
      (∀ i, Matches (p i) (q i)) → Matches (.alternatives count p) (.alternatives count q)
  | optional {α : Type} {p : Grammar σ τ υ ρ α} {q : Grammar σ' τ υ ρ α} :
      Matches p q → Matches (.optional p) (.optional q)
  | labels {α : Type} (names : List String) {p : Grammar σ τ υ ρ α} {q : Grammar σ' τ υ ρ α} :
      Matches p q → Matches (.labels names p) (.labels names q)
  | attempt {α : Type} {p : Grammar σ τ υ ρ α} {q : Grammar σ' τ υ ρ α} :
      Matches p q → Matches (.attempt p) (.attempt q)
  | lookAhead {α : Type} {p : Grammar σ τ υ ρ α} {q : Grammar σ' τ υ ρ α} :
      Matches p q → Matches (.lookAhead p) (.lookAhead q)
  | notFollowedBy {α : Type} (shown : α → String) {p : Grammar σ τ υ ρ α}
      {q : Grammar σ' τ υ ρ α} :
      Matches p q → Matches (.notFollowedBy shown p) (.notFollowedBy shown q)
  | token {α : Type} (shown : τ → String) {next : Position → τ → σ → Option Position}
      {next' : Position → τ → σ' → Option Position} (test : τ → Option α) :
      StepsAlike next next' → Matches (.token shown next test) (.token shown next' test)
  | tokens (shown : List τ → String) (next : Position → List τ → Option Position)
      (expected : List τ) :
      Matches (.tokens shown next expected) (.tokens shown next expected)
  | eof (shown : τ → String) : Matches (.eof shown) (.eof shown)
  | many {α : Type} {p : Grammar σ τ υ ρ α} {q : Grammar σ' τ υ ρ α} :
      Matches p q → Matches (.many p) (.many q)
  | many1 {α : Type} {p : Grammar σ τ υ ρ α} {q : Grammar σ' τ υ ρ α} :
      Matches p q → Matches (.many1 p) (.many1 q)
  | skipMany {α : Type} {p : Grammar σ τ υ ρ α} {q : Grammar σ' τ υ ρ α} :
      Matches p q → Matches (.skipMany p) (.skipMany q)
  | skipMany1 {α : Type} {p : Grammar σ τ υ ρ α} {q : Grammar σ' τ υ ρ α} :
      Matches p q → Matches (.skipMany1 p) (.skipMany1 q)
  | sepBy {α β : Type} {p : Grammar σ τ υ ρ α} {q : Grammar σ' τ υ ρ α}
      {separator : Grammar σ τ υ ρ β} {separator' : Grammar σ' τ υ ρ β} :
      Matches p q → Matches separator separator' →
        Matches (.sepBy p separator) (.sepBy q separator')
  | sepBy1 {α β : Type} {p : Grammar σ τ υ ρ α} {q : Grammar σ' τ υ ρ α}
      {separator : Grammar σ τ υ ρ β} {separator' : Grammar σ' τ υ ρ β} :
      Matches p q → Matches separator separator' →
        Matches (.sepBy1 p separator) (.sepBy1 q separator')
  | lazy {α : Type} {p : Grammar σ τ υ ρ α} {q : Grammar σ' τ υ ρ α} :
      Matches p q → Matches (.lazy p) (.lazy q)
  | rule (i : ι) : Matches (.rule i) (.rule i)
  | getPosition : Matches .getPosition .getPosition
  | getUser : Matches .getUser .getUser
  | modifyUser (f : υ → υ) : Matches (.modifyUser f) (.modifyUser f)
  | ofParser {α : Type} {p : Parser σ υ α} {q : Parser σ' υ α} :
      p.ActsAlike q → Matches (.ofParser p) (.ofParser q)

/-- Each node of a grammar matches a node of the other one. -/
theorem Matches.everywhere {p : Grammar σ τ υ ρ α} {q : Grammar σ' τ υ ρ α} (h : p.Matches q) :
    q.Everywhere fun {β} (q' : Grammar σ' τ υ ρ β) => ∃ p' : Grammar σ τ υ ρ β, p'.Matches q' := by
  induction h with
  | pure output => exact ⟨_, .pure output⟩
  | fail text => exact ⟨_, .fail text⟩
  | unexpected text => exact ⟨_, .unexpected text⟩
  | zero => exact ⟨_, .zero⟩
  | map f h ih => exact ⟨⟨_, .map f h⟩, ih⟩
  | bind hp hf ihp ihf => exact ⟨⟨_, .bind hp hf⟩, ihp, ihf⟩
  | discardLeft hp hq ihp ihq => exact ⟨⟨_, .discardLeft hp hq⟩, ihp, ihq⟩
  | discardRight hp hq ihp ihq => exact ⟨⟨_, .discardRight hp hq⟩, ihp, ihq⟩
  | between ho hc hp iho ihc ihp => exact ⟨⟨_, .between ho hc hp⟩, iho, ihc, ihp⟩
  | choice hp hq ihp ihq => exact ⟨⟨_, .choice hp hq⟩, ihp, ihq⟩
  | alternatives h ih => exact ⟨⟨_, .alternatives h⟩, ih⟩
  | optional h ih => exact ⟨⟨_, .optional h⟩, ih⟩
  | labels names h ih => exact ⟨⟨_, .labels names h⟩, ih⟩
  | attempt h ih => exact ⟨⟨_, .attempt h⟩, ih⟩
  | lookAhead h ih => exact ⟨⟨_, .lookAhead h⟩, ih⟩
  | notFollowedBy shown h ih => exact ⟨⟨_, .notFollowedBy shown h⟩, ih⟩
  | token shown test hnext => exact ⟨_, .token shown test hnext⟩
  | tokens shown next expected => exact ⟨_, .tokens shown next expected⟩
  | eof shown => exact ⟨_, .eof shown⟩
  | many h ih => exact ⟨⟨_, .many h⟩, ih⟩
  | many1 h ih => exact ⟨⟨_, .many1 h⟩, ih⟩
  | skipMany h ih => exact ⟨⟨_, .skipMany h⟩, ih⟩
  | skipMany1 h ih => exact ⟨⟨_, .skipMany1 h⟩, ih⟩
  | sepBy hp hs ihp ihs => exact ⟨⟨_, .sepBy hp hs⟩, ihp, ihs⟩
  | sepBy1 hp hs ihp ihs => exact ⟨⟨_, .sepBy1 hp hs⟩, ihp, ihs⟩
  | lazy h ih => exact ⟨⟨_, .lazy h⟩, ih⟩
  | rule i => exact ⟨_, .rule i⟩
  | getPosition => exact ⟨_, .getPosition⟩
  | getUser => exact ⟨_, .getUser⟩
  | modifyUser f => exact ⟨_, .modifyUser f⟩
  | ofParser h => exact ⟨_, .ofParser h⟩

variable [DecidableEq τ] {rules : Rules σ τ υ ρ} {rules' : Rules σ' τ υ ρ} {turns : σ → Nat}
  {turns' : σ' → Nat} {R : σ → σ' → Prop}

/-- The induction is on how the grammars match, which goes down both trees at once. -/
theorem meaning_matches (hR : Input.Simulation R) (hturns : ∀ {a b}, R a b → turns a = turns' b)
    {enter : {α : Type} → Grammar σ τ υ ρ α → Parser σ υ α}
    {enter' : {α : Type} → Grammar σ' τ υ ρ α → Parser σ' υ α}
    (hrules : ∀ i, (rules i).Matches (rules' i))
    (henter : ∀ {α : Type} {p : Grammar σ τ υ ρ α} {q : Grammar σ' τ υ ρ α}, p.Matches q →
      Parser.Linked (.inputs R) (enter p) (enter' q))
    {p : Grammar σ τ υ ρ α} {q : Grammar σ' τ υ ρ α} (h : p.Matches q) :
    Parser.Linked (.inputs R) (meaning rules turns enter p) (meaning rules' turns' enter' q) := by
  have hsame : ∀ {s : State σ υ} {t : State σ' υ}, State.Alike R s t →
      turns s.input = turns' t.input := fun hst => hturns hst.input
  induction h with
  | pure output => exact Parser.linked_pure output
  | fail text => exact Parser.linked_failWith ((Link.inputs R).report [⟨.plain, text⟩])
  | unexpected text => exact Parser.linked_failWith ((Link.inputs R).report [⟨.unexpected, text⟩])
  | zero => exact Parser.linked_zero
  | map f _ ih => exact ih.map f
  | bind _ _ ihp ihf => exact ihp.bind ihf
  | discardLeft _ _ ihp ihq => exact ihp.discardLeft ihq
  | discardRight _ _ ihp ihq => exact ihp.bind fun _ => ihq.map _
  | between _ _ _ iho ihc ihp => exact iho.bind fun _ => ihp.bind fun _ => ihc.map _
  | choice _ _ ihp ihq => exact ihp.choice ihq
  | alternatives _ ih => exact Parser.linked_choiceOf_ofFn ih
  | optional _ ih => exact ih.optional
  | labels names _ ih => exact ih.labels names
  | attempt _ ih => exact ih.attempt
  | lookAhead _ ih => exact ih.lookAhead
  | notFollowedBy shown _ ih =>
    exact ih.notFollowedBy fun output => (Link.inputs R).report [⟨.unexpected, shown output⟩]
  | token shown test hnext => exact Parser.linked_inputs_token hR hnext
  | tokens shown next expected => exact Parser.linked_inputs_tokens hR
  | eof shown => exact Parser.linked_inputs_eof hR shown
  | many _ ih => exact ih.many hsame
  | many1 _ ih => exact ih.bind fun _ => (ih.repetition hsame _ _).map _
  | skipMany _ ih => exact ih.repetition hsame _ _
  | skipMany1 _ ih => exact ih.bind fun _ => ih.repetition hsame _ _
  | sepBy _ _ ihp ihs => exact (ihp.sepBy1 hsame ihs).choice (Parser.linked_pure [])
  | sepBy1 _ _ ihp ihs => exact ihp.sepBy1 hsame ihs
  | lazy h _ => exact henter h
  | rule i => exact henter (hrules i)
  | getPosition => exact Parser.linked_inspect fun hst => hst.position
  | getUser => exact Parser.linked_inspect fun hst => hst.user
  | modifyUser f =>
    exact Parser.linked_modifyUser fun hst => ⟨hst.input, congrArg f hst.user, hst.position⟩
  | ofParser h => exact h R hR

/-- Matching grammars run alike on related inputs, at every depth. The turns of a repetition are
bounded by the items, which related inputs have in common. -/
theorem Matches.linked [LawfulInput σ] [LawfulInput σ'] (hR : Input.Simulation R)
    (hrules : ∀ i, (rules i).Matches (rules' i)) {p : Grammar σ τ υ ρ α}
    {q : Grammar σ' τ υ ρ α} (h : p.Matches q) (turns : List τ → Nat) (depth : Nat) :
    Parser.Linked (.inputs R) (parserAt rules (fun input => turns (Input.items input)) depth p)
      (parserAt rules' (fun input => turns (Input.items input)) depth q) := by
  have hturns : ∀ {a : σ} {b : σ'}, R a b → turns (Input.items a) = turns (Input.items b) :=
    fun h => congrArg turns (hR.sameItems h)
  induction depth generalizing α with
  | zero => exact meaning_matches hR hturns hrules (fun _ => Parser.linked_exhausted.nested) h
  | succ depth ih => exact meaning_matches hR hturns hrules (fun hq => (ih hq).nested) h

end Grammar

end Parsing
