import Parsing.Grammar.Meaning
import Parsing.Proofs.Derived

/-!
# What holds everywhere in a grammar

A class of grammars is given by what it asks of each node of the tree: `p.Everywhere ok` says that
`ok` holds of `p` and of every grammar that `p` is made of, those that follow an output included.

A `Congruence` is a relation between parsers that is kept by the few ways of putting parsers
together from which the others are made, and that relates those that a node satisfying `ok` stands
for by itself. Then it relates the parsers of every such grammar, however the grammars that it
enters one nest level deeper are run on the two sides, as long as these are related.

`Closed ok Q` is the same for a property `Q` of parsers. It holds of the parser of every such
grammar, however deep its rules call each other.
-/

namespace Parsing.Grammar

variable {σ τ υ ι : Type} {ρ : ι → Type}

/-- `ok` holds of every node of a grammar. -/
def Everywhere (ok : {α : Type} → Grammar σ τ υ ρ α → Prop) :
    {α : Type} → Grammar σ τ υ ρ α → Prop
  | _, .pure output => ok (.pure output)
  | α, .fail text => ok (α := α) (.fail text)
  | α, .unexpected text => ok (α := α) (.unexpected text)
  | α, .zero => ok (α := α) .zero
  | _, .map f p => ok (.map f p) ∧ Everywhere ok p
  | _, .bind p f => ok (.bind p f) ∧ Everywhere ok p ∧ ∀ output, Everywhere ok (f output)
  | _, .discardLeft p q => ok (.discardLeft p q) ∧ Everywhere ok p ∧ Everywhere ok q
  | _, .discardRight p q => ok (.discardRight p q) ∧ Everywhere ok p ∧ Everywhere ok q
  | _, .between opening closing p =>
    ok (.between opening closing p) ∧ Everywhere ok opening ∧ Everywhere ok closing ∧
      Everywhere ok p
  | _, .choice p q => ok (.choice p q) ∧ Everywhere ok p ∧ Everywhere ok q
  | _, .alternatives count p => ok (.alternatives count p) ∧ ∀ i, Everywhere ok (p i)
  | _, .optional p => ok (.optional p) ∧ Everywhere ok p
  | _, .labels names p => ok (.labels names p) ∧ Everywhere ok p
  | _, .attempt p => ok (.attempt p) ∧ Everywhere ok p
  | _, .lookAhead p => ok (.lookAhead p) ∧ Everywhere ok p
  | _, .notFollowedBy shown p => ok (.notFollowedBy shown p) ∧ Everywhere ok p
  | _, .token shown next test => ok (.token shown next test)
  | _, .tokens shown next expected => ok (.tokens shown next expected)
  | _, .eof shown => ok (.eof shown)
  | _, .many p => ok (.many p) ∧ Everywhere ok p
  | _, .many1 p => ok (.many1 p) ∧ Everywhere ok p
  | _, .skipMany p => ok (.skipMany p) ∧ Everywhere ok p
  | _, .skipMany1 p => ok (.skipMany1 p) ∧ Everywhere ok p
  | _, .sepBy p separator =>
    ok (.sepBy p separator) ∧ Everywhere ok p ∧ Everywhere ok separator
  | _, .sepBy1 p separator =>
    ok (.sepBy1 p separator) ∧ Everywhere ok p ∧ Everywhere ok separator
  | _, .lazy p => ok (.lazy p) ∧ Everywhere ok p
  | _, .rule i => ok (.rule i)
  | _, .getState => ok .getState
  | _, .getPosition => ok .getPosition
  | _, .getInput => ok .getInput
  | _, .getUser => ok .getUser
  | _, .updateState f => ok (.updateState f)
  | _, .modifyUser f => ok (.modifyUser f)
  | _, .ofParser p => ok (.ofParser p)

theorem everywhere_of_forall {ok : {α : Type} → Grammar σ τ υ ρ α → Prop}
    (hok : ∀ {α : Type} (q : Grammar σ τ υ ρ α), ok q) {α : Type} (p : Grammar σ τ υ ρ α) :
    p.Everywhere ok := by
  induction p
  case bind ihp ihf => exact ⟨hok _, ihp, ihf⟩
  case alternatives ih => exact ⟨hok _, ih⟩
  case between iho ihc ihp => exact ⟨hok _, iho, ihc, ihp⟩
  case discardLeft ihp ihq | discardRight ihp ihq | choice ihp ihq | sepBy ihp ihq |
      sepBy1 ihp ihq =>
    exact ⟨hok _, ihp, ihq⟩
  case map ih | optional ih | labels ih | attempt ih | lookAhead ih | notFollowedBy ih | many ih |
      many1 ih | skipMany ih | skipMany1 ih | lazy ih =>
    exact ⟨hok _, ih⟩
  all_goals exact hok _

theorem Everywhere.here {ok : {α : Type} → Grammar σ τ υ ρ α → Prop} {α : Type}
    {p : Grammar σ τ υ ρ α} (h : p.Everywhere ok) : ok p := by
  cases p
  case map | bind | discardLeft | discardRight | between | choice | alternatives | optional |
      labels | attempt | lookAhead | notFollowedBy | many | many1 | skipMany | skipMany1 | sepBy |
      sepBy1 | lazy =>
    exact h.1
  all_goals exact h

/-- What a node may be is found out from all that it is made of. -/
theorem Everywhere.imp {ok ok' : {α : Type} → Grammar σ τ υ ρ α → Prop}
    (himp : ∀ {α : Type} (q : Grammar σ τ υ ρ α), q.Everywhere ok → ok' q) {α : Type}
    {p : Grammar σ τ υ ρ α} (h : p.Everywhere ok) : p.Everywhere ok' := by
  induction p
  case bind ihp ihf => exact ⟨himp _ h, ihp h.2.1, fun output => ihf output (h.2.2 output)⟩
  case alternatives ih => exact ⟨himp _ h, fun i => ih i (h.2 i)⟩
  case between iho ihc ihp => exact ⟨himp _ h, iho h.2.1, ihc h.2.2.1, ihp h.2.2.2⟩
  case discardLeft ihp ihq | discardRight ihp ihq | choice ihp ihq | sepBy ihp ihq |
      sepBy1 ihp ihq =>
    exact ⟨himp _ h, ihp h.2.1, ihq h.2.2⟩
  case map ih | optional ih | labels ih | attempt ih | lookAhead ih | notFollowedBy ih | many ih |
      many1 ih | skipMany ih | skipMany1 ih | lazy ih =>
    exact ⟨himp _ h, ih h.2⟩
  all_goals exact himp _ h

/-! ## Relations between parsers -/

/-- `R` is kept by the ways of putting parsers together, and relates the parsers of the nodes that
satisfy `ok` and have no parts to themselves. The turns of repetitions may differ. -/
structure Congruence (ok : {α : Type} → Grammar σ τ υ ρ α → Prop) (turns turns' : σ → Nat)
    (R : {α : Type} → Parser σ υ α → Parser σ υ α → Prop) [Input σ τ] [DecidableEq τ] : Prop where
  pure {α : Type} (output : α) : R (Parser.pure output) (Parser.pure output)
  failWith {α : Type} (message : Message) :
    R (Parser.failWith message : Parser σ υ α) (Parser.failWith message)
  zero {α : Type} : R (Parser.zero : Parser σ υ α) Parser.zero
  map {α β : Type} {f : α → β} {p q : Parser σ υ α} :
    R p q → R (Parser.map f p) (Parser.map f q)
  bind {α β : Type} {p q : Parser σ υ α} {f g : α → Parser σ υ β} :
    R p q → (∀ output, R (f output) (g output)) → R (Parser.bind p f) (Parser.bind q g)
  choice {α : Type} {p q p₂ q₂ : Parser σ υ α} :
    R p q → R p₂ q₂ → R (Parser.choice p p₂) (Parser.choice q q₂)
  labels {α : Type} {names : List String} {p q : Parser σ υ α} :
    R p q → R (Parser.labels names p) (Parser.labels names q)
  attempt {α : Type} {p q : Parser σ υ α} : R p q → R (Parser.attempt p) (Parser.attempt q)
  lookAhead {α : Type} {p q : Parser σ υ α} : R p q → R (Parser.lookAhead p) (Parser.lookAhead q)
  notFollowedBy {α : Type} {shown : α → String} {p q : Parser σ υ α} :
    R p q → R (Parser.notFollowedBy shown p) (Parser.notFollowedBy shown q)
  repetition {α β : Type} {push : β → α → β} {acc : β} {p q : Parser σ υ α} :
    R p q → R (Parser.repetition turns push acc p) (Parser.repetition turns' push acc q)
  token {α : Type} {shown : τ → String} {next : Position → τ → σ → Option Position}
    {test : τ → Option α} : ok (.token shown next test) →
      R (Parser.token shown next test) (Parser.token shown next test)
  tokens {shown : List τ → String} {next : Position → List τ → Option Position}
    {expected : List τ} : ok (.tokens shown next expected) →
      R (Parser.tokens shown next expected) (Parser.tokens shown next expected)
  eof {shown : τ → String} : R (Parser.eof shown : Parser σ υ Unit) (Parser.eof shown)
  getState : ok .getState → R Parser.getState Parser.getState
  getPosition : ok .getPosition → R Parser.getPosition Parser.getPosition
  getInput : ok .getInput → R Parser.getInput Parser.getInput
  getUser : ok .getUser → R Parser.getUser Parser.getUser
  updateState {f : State σ υ → Except Fault (State σ υ)} : ok (.updateState f) →
    R (Parser.updateState f) (Parser.updateState f)
  modifyUser {f : υ → υ} : ok (.modifyUser f) → R (Parser.modifyUser f) (Parser.modifyUser f)
  ofParser {α : Type} {p : Parser σ υ α} : ok (.ofParser p) → R p p

namespace Congruence

variable [Input σ τ] [DecidableEq τ] {ok : {α : Type} → Grammar σ τ υ ρ α → Prop}
  {turns turns' : σ → Nat} {R : {α : Type} → Parser σ υ α → Parser σ υ α → Prop}

theorem discardLeft (h : Congruence ok turns turns' R) {α β : Type} {p q : Parser σ υ α}
    {p₂ q₂ : Parser σ υ β} (hp : R p q) (hp₂ : R p₂ q₂) :
    R (Parser.discardLeft p p₂) (Parser.discardLeft q q₂) := by
  rw [Parser.discardLeft_eq_bind, Parser.discardLeft_eq_bind]
  exact h.bind hp fun _ => hp₂

theorem choiceOf_ofFn (h : Congruence ok turns turns' R) {α : Type} {count : Nat}
    {f g : Fin count → Parser σ υ α} (hfg : ∀ i, R (f i) (g i)) :
    R (Parser.choiceOf (List.ofFn f)) (Parser.choiceOf (List.ofFn g)) := by
  induction count with
  | zero => exact h.zero
  | succ count ih =>
    rw [List.ofFn_succ, List.ofFn_succ, Parser.choiceOf_cons, Parser.choiceOf_cons]
    exact h.choice (hfg 0) (ih fun i => hfg i.succ)

theorem optional (h : Congruence ok turns turns' R) {α : Type} {p q : Parser σ υ α}
    (hp : R p q) : R (Parser.optional p) (Parser.optional q) := by
  rw [Parser.optional_eq_choice, Parser.optional_eq_choice]
  exact h.choice (h.map hp) (h.pure ())

theorem many (h : Congruence ok turns turns' R) {α : Type} {p q : Parser σ υ α} (hp : R p q) :
    R (Parser.many turns p) (Parser.many turns' q) := by
  rw [Parser.many_eq_map, Parser.many_eq_map]
  exact h.map (h.repetition hp)

theorem sepBy1 (h : Congruence ok turns turns' R) {α β : Type} {p q : Parser σ υ α}
    {p₂ q₂ : Parser σ υ β} (hp : R p q) (hp₂ : R p₂ q₂) :
    R (Parser.sepBy1 turns p p₂) (Parser.sepBy1 turns' q q₂) := by
  rw [Parser.sepBy1_eq_bind, Parser.sepBy1_eq_bind]
  exact h.bind hp fun _ => h.map (h.many (h.discardLeft hp₂ hp))

/-- A congruence relates the parsers of every grammar of the class, if it relates those that are
entered one level deeper. The induction is on the tree; the rules are only entered. -/
theorem meaning (h : Congruence ok turns turns' R) {rules : Rules σ τ υ ρ}
    (enter enter' : {α : Type} → Grammar σ τ υ ρ α → Parser σ υ α)
    (hrules : ∀ i, (rules i).Everywhere ok)
    (henter : ∀ {α : Type} (p : Grammar σ τ υ ρ α), p.Everywhere ok → R (enter p) (enter' p))
    {α : Type} (p : Grammar σ τ υ ρ α) (hp : p.Everywhere ok) :
    R (Grammar.meaning rules turns enter p) (Grammar.meaning rules turns' enter' p) := by
  induction p with
  | pure output => exact h.pure output
  | fail text => exact h.failWith ⟨.plain, text⟩
  | unexpected text => exact h.failWith ⟨.unexpected, text⟩
  | zero => exact h.zero
  | map f p ih => exact h.map (ih hp.2)
  | bind p f ihp ihf => exact h.bind (ihp hp.2.1) fun output => ihf output (hp.2.2 output)
  | discardLeft p q ihp ihq => exact h.discardLeft (ihp hp.2.1) (ihq hp.2.2)
  | discardRight p q ihp ihq => exact h.bind (ihp hp.2.1) fun _ => h.map (ihq hp.2.2)
  | between opening closing p iho ihc ihp =>
    exact h.bind (iho hp.2.1) fun _ => h.bind (ihp hp.2.2.2) fun _ => h.map (ihc hp.2.2.1)
  | choice p q ihp ihq => exact h.choice (ihp hp.2.1) (ihq hp.2.2)
  | alternatives count p ih => exact h.choiceOf_ofFn fun i => ih i (hp.2 i)
  | optional p ih => exact h.optional (ih hp.2)
  | labels names p ih => exact h.labels (ih hp.2)
  | attempt p ih => exact h.attempt (ih hp.2)
  | lookAhead p ih => exact h.lookAhead (ih hp.2)
  | notFollowedBy shown p ih => exact h.notFollowedBy (ih hp.2)
  | token shown next test => exact h.token hp
  | tokens shown next expected => exact h.tokens hp
  | eof shown => exact h.eof
  | many p ih => exact h.many (ih hp.2)
  | many1 p ih => exact h.bind (ih hp.2) fun _ => h.map (h.repetition (ih hp.2))
  | skipMany p ih => exact h.repetition (ih hp.2)
  | skipMany1 p ih => exact h.bind (ih hp.2) fun _ => h.repetition (ih hp.2)
  | sepBy p separator ihp ihs => exact h.choice (h.sepBy1 (ihp hp.2.1) (ihs hp.2.2)) (h.pure [])
  | sepBy1 p separator ihp ihs => exact h.sepBy1 (ihp hp.2.1) (ihs hp.2.2)
  | lazy p => exact henter p hp.2
  | rule i => exact henter (rules i) (hrules i)
  | getState => exact h.getState hp
  | getPosition => exact h.getPosition hp
  | getInput => exact h.getInput hp
  | getUser => exact h.getUser hp
  | updateState f => exact h.updateState hp
  | modifyUser f => exact h.modifyUser hp
  | ofParser p => exact h.ofParser hp

/-- A congruence that is kept by going one level deeper relates the parsers of every grammar of the
class at every depth. -/
theorem at_depth (h : Congruence ok turns turns' R)
    (hexhausted : ∀ {α : Type}, R (Parser.exhausted : Parser σ υ α) Parser.exhausted)
    (hnested : ∀ {α : Type} {p q : Parser σ υ α}, R p q → R (Parser.nested p) (Parser.nested q))
    {rules : Rules σ τ υ ρ} (hrules : ∀ i, (rules i).Everywhere ok) (depth : Nat) {α : Type}
    (p : Grammar σ τ υ ρ α) (hp : p.Everywhere ok) :
    R (parserAt rules turns depth p) (parserAt rules turns' depth p) := by
  induction depth generalizing α with
  | zero => exact h.meaning _ _ hrules (fun _ _ => hnested hexhausted) p hp
  | succ depth ih => exact h.meaning _ _ hrules (fun q hq => hnested (ih q hq)) p hp

end Congruence

/-! ## Properties of parsers -/

/-- `Q` is kept by the ways of putting parsers together, and holds of the parsers of the nodes that
satisfy `ok` and have no parts. -/
structure Closed (ok : {α : Type} → Grammar σ τ υ ρ α → Prop)
    (Q : {α : Type} → Parser σ υ α → Prop) [Input σ τ] [DecidableEq τ] : Prop where
  inspects {α : Type} (f : State σ υ → α) : Q fun _ state => .returned (.accept (f state) state)
  failWith {α : Type} (message : Message) : Q (Parser.failWith message : Parser σ υ α)
  zero {α : Type} : Q (Parser.zero : Parser σ υ α)
  map {α β : Type} {f : α → β} {p : Parser σ υ α} : Q p → Q (Parser.map f p)
  bind {α β : Type} {p : Parser σ υ α} {f : α → Parser σ υ β} :
    Q p → (∀ output, Q (f output)) → Q (Parser.bind p f)
  choice {α : Type} {p q : Parser σ υ α} : Q p → Q q → Q (Parser.choice p q)
  labels {α : Type} {names : List String} {p : Parser σ υ α} : Q p → Q (Parser.labels names p)
  attempt {α : Type} {p : Parser σ υ α} : Q p → Q (Parser.attempt p)
  lookAhead {α : Type} {p : Parser σ υ α} : Q p → Q (Parser.lookAhead p)
  notFollowedBy {α : Type} {shown : α → String} {p : Parser σ υ α} :
    Q p → Q (Parser.notFollowedBy shown p)
  repetition {α β : Type} {turns : σ → Nat} {push : β → α → β} {acc : β} {p : Parser σ υ α} :
    Q p → Q (Parser.repetition turns push acc p)
  modifyUser (f : υ → υ) : Q (Parser.modifyUser f : Parser σ υ Unit)
  token {α : Type} {shown : τ → String} {next : Position → τ → σ → Option Position}
    {test : τ → Option α} : ok (.token shown next test) → Q (Parser.token shown next test)
  tokens {shown : List τ → String} {next : Position → List τ → Option Position}
    {expected : List τ} : ok (.tokens shown next expected) → Q (Parser.tokens shown next expected)
  eof {shown : τ → String} : Q (Parser.eof shown : Parser σ υ Unit)
  updateState {f : State σ υ → Except Fault (State σ υ)} :
    ok (.updateState f) → Q (Parser.updateState f)
  ofParser {α : Type} {p : Parser σ υ α} : ok (.ofParser p) → Q p

namespace Closed

variable [Input σ τ] [DecidableEq τ] {ok : {α : Type} → Grammar σ τ υ ρ α → Prop}
  {Q : {α : Type} → Parser σ υ α → Prop}

/-- A property of parsers is a relation that looks at one side only. -/
theorem congruence (h : Closed ok Q) (turns : σ → Nat) :
    Congruence ok turns turns fun p _ => Q p where
  pure output := h.inspects fun _ => output
  failWith := h.failWith
  zero := h.zero
  map := h.map
  bind := h.bind
  choice := h.choice
  labels := h.labels
  attempt := h.attempt
  lookAhead := h.lookAhead
  notFollowedBy := h.notFollowedBy
  repetition := h.repetition
  token := h.token
  tokens := h.tokens
  eof := h.eof
  getState _ := h.inspects fun state => state
  getPosition _ := h.inspects fun state => state.position
  getInput _ := h.inspects fun state => state.input
  getUser _ := h.inspects fun state => state.user
  updateState := h.updateState
  modifyUser _ := h.modifyUser _
  ofParser := h.ofParser

/-- What is closed, and kept by going one level deeper, holds of the parser of every grammar of the
class within every budget. -/
theorem parser (h : Closed ok Q) (hexhausted : ∀ {α : Type}, Q (Parser.exhausted : Parser σ υ α))
    (hnested : ∀ {α : Type} {p : Parser σ υ α}, Q p → Q (Parser.nested p)) {rules : Rules σ τ υ ρ}
    (hrules : ∀ i, (rules i).Everywhere ok) (budget : Budget σ) {α : Type}
    {p : Grammar σ τ υ ρ α} (hp : p.Everywhere ok) : Q (p.parser rules budget) :=
  (h.congruence budget.turns).at_depth hexhausted hnested hrules budget.depth p hp

end Closed

end Parsing.Grammar
