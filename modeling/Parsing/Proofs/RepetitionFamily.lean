import Parsing.Input.Items
import Parsing.Parser.Token
import Parsing.Proofs.Budget
import Parsing.Proofs.Identity

/-!
# The family of repetitions

There is one loop, and the repetitions differ in what they make of its outputs and in how they
begin. What is made of the outputs commutes with the loop, so dropping them after it is dropping
them in every turn, and an output that was there before the loop is put in front of those that the
loop collects.

A repetition that begins with a turn of its own hands its hint to a sequence, while the loop keeps
the hint of a turn to itself. Both merge it with the failure that ends the repetition, and only if
no other turn came in between.
-/

namespace Parsing

variable {σ υ α β γ : Type}

theorem Result.map_map (f : α → β) (g : β → γ) (result : Result σ υ α) :
    (result.map f).map g = result.map fun output => g (f output) := by
  obtain ⟨tag, reply⟩ := result
  cases reply <;> rfl

namespace Parser

variable {p : Parser σ υ α} {context : Context}

theorem map_map (f : α → β) (g : β → γ) (p : Parser σ υ α) :
    Parser.map g (Parser.map f p) = Parser.map (fun output => g (f output)) p := by
  funext context state
  simp only [Parser.map, Outcome.map_map, Result.map_map]

/-! ## Outputs -/

/-- A function that commutes with every turn commutes with the loop. -/
theorem accumulate_hom {push : β → α → β} {push' : γ → α → γ} (f : β → γ)
    (hpush : ∀ acc output, push' (f acc) output = f (push acc output)) (p : Parser σ υ α)
    (context : Context) (turns : Nat) (acc : β) (hint : Option ParseError) (state : State σ υ) :
    accumulate push' p context turns (f acc) hint state =
      (accumulate push p context turns acc hint state).map (·.map f) := by
  induction turns generalizing acc hint state with
  | zero => rfl
  | succ turns ih =>
    rw [accumulate, accumulate]
    cases p context state with
    | fault e => rfl
    | exhausted => rfl
    | returned result =>
      obtain ⟨_ | _, reply⟩ := result
      · cases reply with
        | success output next last => rfl
        | failure error => cases hint <;> rfl
      · cases reply with
        | failure error => rfl
        | success output next last =>
          -- the only case with another turn, which starts from what `push` has made
          have hturn := ih (push acc output) (some last) next
          rw [← hpush acc output] at hturn
          exact hturn

theorem repetition_hom {push : β → α → β} {push' : γ → α → γ} (f : β → γ)
    (hpush : ∀ acc output, push' (f acc) output = f (push acc output)) (turns : σ → Nat) (acc : β)
    (p : Parser σ υ α) :
    repetition turns push' (f acc) p = Parser.map f (repetition turns push acc p) := by
  funext context state
  exact accumulate_hom f hpush p context (turns state.input) acc none state

/-- Outputs may be dropped one by one or all at once. -/
theorem skipMany_eq_map (turns : σ → Nat) (p : Parser σ υ α) :
    skipMany turns p = Parser.map (fun _ => ()) (many turns p) := by
  have hdrop : repetition turns (fun (_ : Unit) (_ : α) => ()) () p =
      Parser.map (fun _ => ()) (repetition turns (fun acc output => output :: acc) [] p) :=
    repetition_hom (fun _ => ()) (fun _ _ => rfl) turns [] p
  rw [skipMany_eq_repetition, hdrop, many_eq_map, map_map]

/-- An output that is there before the loop comes first in the end. -/
theorem collect_eq_map (turns : σ → Nat) (first : α) (p : Parser σ υ α) :
    Parser.map List.reverse (repetition turns (fun acc output => output :: acc) [first] p) =
      Parser.map (first :: ·) (many turns p) := by
  have hbehind : repetition turns (fun acc output => output :: acc) [first] p =
      Parser.map (· ++ [first]) (repetition turns (fun acc output => output :: acc) [] p) :=
    repetition_hom (· ++ [first]) (fun _ _ => rfl) turns [] p
  have hreverse : (fun acc : List α => (acc ++ [first]).reverse) =
      fun acc => first :: acc.reverse := by
    funext acc
    rw [List.reverse_append, List.reverse_singleton, List.singleton_append]
  rw [hbehind, many_eq_map, map_map, map_map, hreverse]

theorem many1_eq_bind_many (turns : σ → Nat) (p : Parser σ υ α) :
    many1 turns p = Parser.bind p fun first => Parser.map (first :: ·) (many turns p) := by
  have hcollect := fun first => collect_eq_map turns first p
  rw [many1_eq_bind, funext hcollect]

theorem map_bind (g : β → γ) (p : Parser σ υ α) (f : α → Parser σ υ β) :
    Parser.map g (Parser.bind p f) = Parser.bind p fun output => Parser.map g (f output) := by
  funext context state
  unfold Parser.map Parser.bind
  cases p context state with
  | fault e => rfl
  | exhausted => rfl
  | returned first =>
    obtain ⟨tag, reply⟩ := first
    cases reply with
    | failure error => rfl
    | success output next hint =>
      show (((f output context next).map (Result.behind tag hint)).map (·.map g)) =
        ((f output context next).map (·.map g)).map (Result.behind tag hint)
      simp only [Outcome.map_map, Result.map_behind]

theorem skipMany1_eq_map (turns : σ → Nat) (p : Parser σ υ α) :
    skipMany1 turns p = Parser.map (fun _ => ()) (many1 turns p) := by
  have hrest : ∀ first : α, Parser.map (fun _ => ()) (Parser.map (first :: ·) (many turns p)) =
      skipMany turns p := by
    intro first
    rw [map_map, skipMany_eq_map]
  rw [many1_eq_bind_many, map_bind, funext hrest, skipMany1_eq_bind, skipMany_eq_repetition]

/-! ## Beginning with a turn -/

/-- A body that reads input makes up a first turn, inside the loop or in front of it. -/
theorem many_succ_of_consumed {state : State σ υ} {reply : Reply σ υ α}
    (h : p context state = .returned ⟨.consumed, reply⟩) (count : Nat) :
    many (fun _ => count + 1) p context state = many1 (fun _ => count) p context state := by
  unfold many many1 collect
  rw [accumulate, h]
  cases reply with
  | failure error => rfl
  | success output next hint => exact collect_hint context count [output] hint next

/-- More turns change nothing in a repetition that ends. -/
theorem many1_approximates {turns turns' : σ → Nat} (h : ∀ input, turns input ≤ turns' input)
    (p : Parser σ υ α) : (many1 turns p).Approximates (many1 turns' p) := by
  refine Approximates.bind (.refl p) fun first context state => ?_
  exact (Approximates.repetition h (.refl p) context state).map _

/-- Where a body reads input, the two repetitions end alike, whatever turns each of them may
take. -/
theorem many_eq_many1 {state : State σ υ} {reply : Reply σ υ α} {turns turns' : σ → Nat}
    (h : p context state = .returned ⟨.consumed, reply⟩)
    (hmany : many turns p context state ≠ .exhausted)
    (hmany1 : many1 turns' p context state ≠ .exhausted) :
    many turns p context state = many1 turns' p context state := by
  obtain ⟨count, hcount⟩ : ∃ count, turns state.input = count + 1 := by
    cases hturns : turns state.input with
    | zero =>
      have hexhausted : many turns p context state = .exhausted := by
        unfold many collect
        rw [hturns]
        rfl
      exact absurd hexhausted hmany
    | succ count => exact ⟨count, rfl⟩
  have hfirst : many turns p context state = many1 (fun _ => count) p context state := by
    rw [← many_succ_of_consumed h]
    unfold many
    rw [hcount]
  have hleft :=
    many1_approximates (fun input => Nat.le_max_left count (turns' input)) p context state
  have hright :=
    many1_approximates (fun input => Nat.le_max_right count (turns' input)) p context state
  rw [hfirst] at hmany ⊢
  exact (hleft.eq_of_ne_exhausted hmany).symm.trans (hright.eq_of_ne_exhausted hmany1)

/-- The repetitions agree in their complete results. Those that skip are those that collect, with
the output dropped; those of one turn or more are a sequence of that turn and the repetition of any
number of turns, with a separator before each of these or without; and the repetition with
separators of any number of turns is that of one or more, or nothing. Where the body reads input, it
makes no difference whether one turn is asked for: the one repetition has used up its turns exactly
if the other one has, which has one turn less since its first one is not a turn of the loop. -/
theorem repetition_family_agrees (p : Parser σ υ α) (separator : Parser σ υ β) (turns : σ → Nat) :
    skipMany turns p = Parser.map (fun _ => ()) (many turns p) ∧
    skipMany1 turns p = Parser.map (fun _ => ()) (many1 turns p) ∧
    many1 turns p = Parser.bind p (fun first => Parser.map (first :: ·) (many turns p)) ∧
    sepBy1 turns p separator = Parser.bind p (fun first =>
      Parser.map (first :: ·) (many turns (discardLeft separator p))) ∧
    sepBy turns p separator = choice (sepBy1 turns p separator) (Parser.pure []) ∧
    ∀ context state reply, p context state = .returned ⟨.consumed, reply⟩ →
      (∀ count, many (fun _ => count + 1) p context state =
        many1 (fun _ => count) p context state) ∧
      ∀ turns', many turns p context state ≠ .exhausted →
        many1 turns' p context state ≠ .exhausted →
        many turns p context state = many1 turns' p context state := by
  refine ⟨skipMany_eq_map turns p, skipMany1_eq_map turns p, many1_eq_bind_many turns p,
    sepBy1_eq_bind turns p separator, sepBy_eq_choice turns p separator, ?_⟩
  intro context state reply hp
  exact ⟨fun count => many_succ_of_consumed hp count, fun turns' => many_eq_many1 hp⟩

/-- Two letters, each of which is counted before it is read, and a third one that is given back. -/
theorem counted_letters_repeat_alike :
    let letter : Parser (List Char) Nat Char :=
      discardLeft (modifyUser (· + 1))
        (token Quoted.char (fun position c _ => position.advance c)
          fun c => if c = 'a' then some c else none)
    let start : State (List Char) Nat := ⟨['a', 'a', 'b'], 0, .initial "f"⟩
    let second : Position := ⟨"f", .first, ⟨2, by decide, by decide⟩⟩
    (letter (.start none) start =
        .returned ⟨.consumed, .success 'a' ⟨['a', 'b'], 1, second⟩ (.unknown second)⟩ ∧
      many List.length letter (.start none) start ≠ .exhausted ∧
      many1 List.length letter (.start none) start ≠ .exhausted) ∧
    many List.length letter (.start none) start = many1 List.length letter (.start none) start := by
  intro letter start second
  have hletter : letter (.start none) start =
      .returned ⟨.consumed, .success 'a' ⟨['a', 'b'], 1, second⟩ (.unknown second)⟩ := rfl
  have hmany : many List.length letter (.start none) start ≠ .exhausted := by
    intro h
    cases h
  have hmany1 : many1 List.length letter (.start none) start ≠ .exhausted := by
    intro h
    cases h
  have hfamily := repetition_family_agrees letter (Parser.pure ()) List.length
  obtain ⟨-, -, -, -, -, hconsumed⟩ := hfamily
  exact ⟨⟨hletter, hmany, hmany1⟩,
    (hconsumed (.start none) start _ hletter).2 List.length hmany hmany1⟩

end Parser

end Parsing
