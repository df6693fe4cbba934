import Parsing.Grammar.Meaning

/-!
# Reading without reports

A reader either succeeds with an output and a state, or it does not. It has no tags, no errors and
no hints: of two alternatives the first one that succeeds counts, whatever was read on the way, and
a repetition goes on until its body does not succeed.

`Grammar.reader` is the plain way to run a grammar with backtracking, next to `Grammar.parser`. It
has the same budget, and the same limit on how deep grammars may call each other.
-/

namespace Parsing

/-- What reads an input with backtracking: from a context and a state to the output and the state
after it, if there is one. -/
abbrev Reader (σ υ α : Type) : Type :=
  Context → State σ υ → Outcome (Option (α × State σ υ))

namespace Reader

variable {σ τ υ α β : Type}

/-! ## Readers that read nothing -/

/-- Succeeds with something about the state, and leaves it as it is. -/
def inspect (f : State σ υ → α) : Reader σ υ α :=
  fun _ state => .returned (some (f state, state))

/-- Does not succeed. -/
def fail : Reader σ υ α :=
  fun _ _ => .returned none

/-- Uses up its budget. -/
def exhausted : Reader σ υ α :=
  fun _ _ => .exhausted

/-- Goes on from the state that `f` makes, and succeeds with it. -/
def update (f : State σ υ → Except Fault (State σ υ)) : Reader σ υ (State σ υ) :=
  fun _ state => (Outcome.ofExcept (f state)).map fun next => some (next, next)

/-- Changes the value that the grammar keeps. -/
def modifyUser (f : υ → υ) : Reader σ υ Unit :=
  fun _ state => .returned (some ((), { state with user := f state.user }))

/-- What a parser reads, without what it reports. -/
def ofParser (p : Parser σ υ α) : Reader σ υ α :=
  fun context state => (p context state).map (·.reply.value?)

/-! ## Sequences and alternatives -/

/-- Runs `r`, and makes another output of its output. -/
protected def map (f : α → β) (r : Reader σ υ α) : Reader σ υ β :=
  fun context state => (r context state).map (·.map fun (output, next) => (f output, next))

theorem map_map {γ : Type} (f : α → β) (g : β → γ) (r : Reader σ υ α) :
    Reader.map g (Reader.map f r) = Reader.map (fun output => g (f output)) r := by
  funext context state
  simp only [Reader.map]
  cases r context state with
  | returned found => cases found <;> rfl
  | fault f => rfl
  | exhausted => rfl

theorem map_id (r : Reader σ υ α) : Reader.map (fun output => output) r = r := by
  funext context state
  simp only [Reader.map]
  cases r context state with
  | returned found => cases found <;> rfl
  | fault f => rfl
  | exhausted => rfl

/-- Runs `r`, and then the reader that `f` makes of its output. -/
protected def bind (r : Reader σ υ α) (f : α → Reader σ υ β) : Reader σ υ β :=
  fun context state =>
    (r context state).bind fun
      | none => .returned none
      | some (output, next) => f output context next

/-- Runs `r`, and `s` from the same state if `r` does not succeed. -/
def orElse (r s : Reader σ υ α) : Reader σ υ α :=
  fun context state =>
    (r context state).bind fun
      | none => s context state
      | some found => .returned (some found)

/-- The first of the readers that succeeds. -/
def firstOf : List (Reader σ υ α) → Reader σ υ α
  | [] => fail
  | r :: rs => orElse r (firstOf rs)

/-- Runs `r`, and goes back to where it started. -/
def lookAhead (r : Reader σ υ α) : Reader σ υ α :=
  fun context state => (r context state).map (·.map fun (output, _) => (output, state))

/-- Succeeds where `r` does not, and reads nothing. -/
def notFollowedBy (r : Reader σ υ α) : Reader σ υ Unit :=
  fun context state =>
    (r context state).map fun
      | none => some ((), state)
      | some _ => none

/-- Runs `r` one nest level deeper, and does not succeed at the limit. -/
def nested (r : Reader σ υ α) : Reader σ υ α :=
  fun context state =>
    (context.nest state.position).bind fun
      | .error _ => .returned none
      | .ok deeper => r deeper state

/-! ## Repetitions -/

/-- The outputs of the body, applied until it does not succeed, and the state before that. -/
def greedy (body : Reader σ υ α) (context : Context) :
    (turns : Nat) → State σ υ → Outcome (List α × State σ υ)
  | 0, _ => .exhausted
  | turns + 1, state =>
    (body context state).bind fun
      | none => .returned ([], state)
      | some (output, next) =>
        (greedy body context turns next).map fun (outputs, last) => (output :: outputs, last)

/-- Zero or more `r`. -/
def many (turns : σ → Nat) (r : Reader σ υ α) : Reader σ υ (List α) :=
  fun context state => (greedy r context (turns state.input) state).map some

/-- One or more `r`. -/
def many1 (turns : σ → Nat) (r : Reader σ υ α) : Reader σ υ (List α) :=
  Reader.bind r fun first => Reader.map (first :: ·) (many turns r)

/-- One or more `r` with a separator between each two. -/
def sepBy1 (turns : σ → Nat) (r : Reader σ υ α) (separator : Reader σ υ β) : Reader σ υ (List α) :=
  Reader.bind r fun first =>
    Reader.map (first :: ·) (many turns (Reader.bind separator fun _ => r))

/-! ## Reading items -/

variable [Input σ τ]

/-- Reads an item that passes the test, and moves the position over it. -/
def token (next : Position → τ → σ → Option Position) (test : τ → Option α) : Reader σ υ α :=
  fun _ state =>
    match Input.uncons? state.input with
    | none => .returned none
    | some (item, rest) =>
      match test item with
      | none => .returned none
      | some output =>
        (Outcome.ofInRange? (next state.position item rest)).map fun position =>
          some (output, { input := rest, user := state.user, position })

/-- The input without the items `wanted`, if it begins with these. -/
def strip? [DecidableEq τ] : (wanted : List τ) → σ → Option σ
  | [], input => some input
  | item :: wanted, input =>
    match Input.uncons? input with
    | none => none
    | some (found, rest) => if found = item then strip? wanted rest else none

/-- Reads the items `expected`, and moves the position over all of them. -/
def tokens [DecidableEq τ] (next : Position → List τ → Option Position) (expected : List τ) :
    Reader σ υ (List τ) :=
  fun _ state =>
    if expected.isEmpty then .returned (some ([], state))
    else
      match strip? expected state.input with
      | none => .returned none
      | some rest =>
        (Outcome.ofInRange? (next state.position expected)).map fun position =>
          some (expected, { input := rest, user := state.user, position })

/-- Succeeds where no item is left. -/
def eof : Reader σ υ Unit :=
  fun _ state => .returned (if (Input.peek? state.input).isNone then some ((), state) else none)

end Reader

namespace Grammar

variable {σ τ υ ι : Type} {ρ : ι → Type} [Input σ τ] [DecidableEq τ]

/-- The reader of a grammar, with `enter` for the grammars that are entered one nest level
deeper. -/
def reading (rules : Rules σ τ υ ρ) (turns : σ → Nat)
    (enter : {α : Type} → Grammar σ τ υ ρ α → Reader σ υ α) :
    {α : Type} → Grammar σ τ υ ρ α → Reader σ υ α
  | _, .pure output => .inspect fun _ => output
  | _, .fail _ | _, .unexpected _ | _, .zero => .fail
  | _, .map f p => .map f (reading rules turns enter p)
  | _, .bind p f =>
    .bind (reading rules turns enter p) fun output => reading rules turns enter (f output)
  | _, .discardLeft p q => .bind (reading rules turns enter p) fun _ => reading rules turns enter q
  | _, .discardRight p q =>
    .bind (reading rules turns enter p) fun output =>
      .map (fun _ => output) (reading rules turns enter q)
  | _, .between opening closing p =>
    .bind (reading rules turns enter opening) fun _ =>
      .bind (reading rules turns enter p) fun output =>
        .map (fun _ => output) (reading rules turns enter closing)
  | _, .choice p q => .orElse (reading rules turns enter p) (reading rules turns enter q)
  | _, .alternatives _ p => .firstOf (List.ofFn fun i => reading rules turns enter (p i))
  | _, .optional p =>
    .orElse (.map (fun _ => ()) (reading rules turns enter p)) (.inspect fun _ => ())
  | _, .labels _ p => reading rules turns enter p
  | _, .attempt p => reading rules turns enter p
  | _, .lookAhead p => .lookAhead (reading rules turns enter p)
  | _, .notFollowedBy _ p => .notFollowedBy (reading rules turns enter p)
  | _, .token _ next test => .token next test
  | _, .tokens _ next expected => .tokens next expected
  | _, .eof _ => .eof
  | _, .many p => .many turns (reading rules turns enter p)
  | _, .many1 p => .many1 turns (reading rules turns enter p)
  | _, .skipMany p => .map (fun _ => ()) (.many turns (reading rules turns enter p))
  | _, .skipMany1 p =>
    .bind (reading rules turns enter p) fun _ =>
      .map (fun _ => ()) (.many turns (reading rules turns enter p))
  | _, .sepBy p separator =>
    .orElse (.sepBy1 turns (reading rules turns enter p) (reading rules turns enter separator))
      (.inspect fun _ => [])
  | _, .sepBy1 p separator =>
    .sepBy1 turns (reading rules turns enter p) (reading rules turns enter separator)
  | _, .lazy p => enter p
  | _, .rule i => enter (rules i)
  | _, .getState => .inspect fun state => state
  | _, .getPosition => .inspect fun state => state.position
  | _, .getInput => .inspect fun state => state.input
  | _, .getUser => .inspect fun state => state.user
  | _, .updateState f => .update f
  | _, .modifyUser f => .modifyUser f
  | _, .ofParser p => .ofParser p

/-- The reader of a grammar that is entered `depth` levels deep at most. Below the last level the
budget is used up. -/
def readerAt (rules : Rules σ τ υ ρ) (turns : σ → Nat) :
    (depth : Nat) → {α : Type} → Grammar σ τ υ ρ α → Reader σ υ α
  | 0, _, p => reading rules turns (fun _ => Reader.nested Reader.exhausted) p
  | depth + 1, _, p => reading rules turns (fun q => Reader.nested (readerAt rules turns depth q)) p

/-- The reader of a grammar within a budget. -/
def reader {α : Type} (rules : Rules σ τ υ ρ) (budget : Budget σ) (p : Grammar σ τ υ ρ α) :
    Reader σ υ α :=
  readerAt rules budget.turns budget.depth p

end Grammar

end Parsing
