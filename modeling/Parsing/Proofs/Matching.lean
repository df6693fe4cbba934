import Parsing.Input.Items
import Parsing.Parser.Token

/-!
# Matching items that are known in advance

A list of items is compared with an input item by item, up to where either of them ends or they
differ. What has been met by then is the longest common beginning of the two. It decides how the
comparison ends: the list is found exactly if it is a beginning of the input, and otherwise the item
to be reported is the one behind the common beginning, if the input goes on there.

The main statement says what follows for the parser of a fixed list of items. Whatever has been met,
a mismatch is reported where the list would have started.
-/

namespace Parsing

variable {σ τ υ : Type}

/-! ## Common beginnings -/

section CommonPrefix

variable [DecidableEq τ] {l items others more : List τ}

/-- The longest common beginning of two lists. -/
def commonPrefix : List τ → List τ → List τ
  | item :: items, other :: others => if item = other then item :: commonPrefix items others else []
  | _, _ => []

/-- It is a common beginning, and there is no longer one. -/
theorem prefix_commonPrefix_iff : l <+: commonPrefix items others ↔ l <+: items ∧ l <+: others := by
  induction l generalizing items others with
  | nil => simp
  | cons first l ih =>
    cases items with
    | nil => simp [commonPrefix]
    | cons item items =>
      cases others with
      | nil => simp [commonPrefix]
      | cons other others =>
        by_cases h : item = other
        · subst h
          simp only [commonPrefix, if_true, List.cons_prefix_cons, ih]
          exact and_and_left
        · simp only [commonPrefix, if_neg h, List.cons_prefix_cons, List.prefix_nil]
          refine iff_of_false nofun ?_
          rintro ⟨⟨rfl, -⟩, rfl, -⟩
          exact h rfl

theorem length_commonPrefix_eq_iff :
    (commonPrefix items others).length = items.length ↔ items <+: others := by
  obtain ⟨hleft, hright⟩ := prefix_commonPrefix_iff.1 (List.prefix_refl (commonPrefix items others))
  constructor
  · intro h
    rwa [hleft.eq_of_length h] at hright
  · intro h
    have hlonger : items <+: commonPrefix items others :=
      prefix_commonPrefix_iff.2 ⟨List.prefix_refl items, h⟩
    exact Nat.le_antisymm hleft.length_le hlonger.length_le

theorem commonPrefix_append (l items others : List τ) :
    commonPrefix (l ++ items) (l ++ others) = l ++ commonPrefix items others := by
  induction l with
  | nil => rfl
  | cons first l ih => simp [commonPrefix, ih]

/-- What comes behind a list that is not found does not matter. -/
theorem commonPrefix_append_of_not_found (h : ¬ items <+: others) :
    commonPrefix (items ++ more) others = commonPrefix items others := by
  induction items generalizing others with
  | nil => exact absurd List.nil_prefix h
  | cons item items ih =>
    cases others with
    | nil => rfl
    | cons other others =>
      rw [List.cons_append, commonPrefix, commonPrefix]
      by_cases heq : item = other
      · rw [List.cons_prefix_cons] at h
        rw [if_pos heq, if_pos heq, ih fun hrest => h ⟨heq, hrest⟩]
      · rw [if_neg heq, if_neg heq]

end CommonPrefix

/-! ## Inputs without their first items -/

namespace Input

variable [Input σ τ]

/-- The input without its first `count` items, or what is left of it if it has fewer. -/
def drop : (count : Nat) → σ → σ
  | 0, input => input
  | count + 1, input =>
    match uncons? input with
    | none => input
    | some (_, rest) => drop count rest

theorem drop_of_uncons?_none {input : σ} (h : uncons? input = none) (count : Nat) :
    drop count input = input := by
  cases count with
  | zero => rfl
  | succ count => rw [drop, h]

theorem drop_add (count more : Nat) (input : σ) :
    drop (count + more) input = drop more (drop count input) := by
  induction count generalizing input with
  | zero => rw [Nat.zero_add, drop]
  | succ count ih =>
    rw [Nat.succ_add]
    cases h : uncons? input with
    | none => rw [drop_of_uncons?_none h, drop_of_uncons?_none h, drop_of_uncons?_none h]
    | some next =>
      obtain ⟨item, rest⟩ := next
      simp only [drop, h, ih]

theorem items_drop [LawfulInput σ] (count : Nat) (input : σ) :
    items (drop count input) = (items input).drop count := by
  induction count generalizing input with
  | zero => rfl
  | succ count ih =>
    cases h : uncons? input with
    | none => rw [drop_of_uncons?_none h, items_of_uncons?_none h, List.drop_nil]
    | some next =>
      obtain ⟨item, rest⟩ := next
      rw [items_of_uncons?_some h, List.drop_succ_cons, ← ih rest]
      simp only [drop, h]

end Input

/-! ## The comparison -/

namespace Agreement

variable [Input σ τ] [LawfulInput σ] [DecidableEq τ] {wanted : List τ} {input : σ}

theorem compare_eq_whole (h : wanted <+: Input.items input) (matched : Nat) :
    compare wanted matched input = .whole (Input.drop wanted.length input) := by
  induction wanted generalizing input matched with
  | nil => rfl
  | cons item wanted ih =>
    cases huncons : Input.uncons? input with
    | none =>
      rw [Input.items_of_uncons?_none huncons] at h
      cases List.prefix_nil.1 h
    | some next =>
      obtain ⟨found, rest⟩ := next
      rw [Input.items_of_uncons?_some huncons, List.cons_prefix_cons] at h
      obtain ⟨rfl, hrest⟩ := h
      simp only [compare, huncons, if_true, ih hrest, List.length_cons, Input.drop]

theorem compare_eq_partly (h : ¬ wanted <+: Input.items input) (matched : Nat) :
    let met := commonPrefix wanted (Input.items input)
    compare wanted matched input =
      .partly (matched + met.length) (Input.items input)[met.length]? := by
  induction wanted generalizing input matched with
  | nil => exact absurd List.nil_prefix h
  | cons item wanted ih =>
    intro met
    cases huncons : Input.uncons? input with
    | none =>
      have hitems := Input.items_of_uncons?_none huncons
      simp only [met, compare, huncons, hitems, commonPrefix]
      rfl
    | some next =>
      obtain ⟨found, rest⟩ := next
      have hitems := Input.items_of_uncons?_some huncons
      by_cases hfound : found = item
      · subst hfound
        rw [hitems, List.cons_prefix_cons, not_and] at h
        have hrest := ih (h rfl) (matched + 1)
        simp only [met, compare, huncons, hitems, commonPrefix, if_true, hrest, List.length_cons,
          List.getElem?_cons_succ, Nat.add_assoc, Nat.add_comm 1]
      · have hmet : met = [] := by
          simp only [met, hitems, commonPrefix, if_neg (Ne.symm hfound)]
        simp only [compare, huncons, if_neg hfound, hmet, hitems]
        rfl

end Agreement

/-! ## The parser of fixed items -/

namespace Parser

variable [Input σ τ] [LawfulInput σ] [DecidableEq τ] {shown : List τ → String}
  {next : Position → List τ → Option Position} {expected : List τ} {context : Context}
  {state : State σ υ}

theorem tokens_of_found (hne : expected ≠ []) (h : expected <+: Input.items state.input) :
    tokens shown next expected context state =
      (Outcome.ofInRange? (next state.position expected)).map fun position =>
        ⟨.consumed, .success expected
          ⟨Input.drop expected.length state.input, state.user, position⟩ (.unknown position)⟩ := by
  have hempty : expected.isEmpty = false := List.isEmpty_eq_false_iff.2 hne
  rw [tokens, hempty, Agreement.compare_eq_whole h]
  rfl

theorem tokens_of_not_found (h : ¬ expected <+: Input.items state.input) :
    let met := commonPrefix expected (Input.items state.input)
    tokens shown next expected context state = .returned
      ⟨if met.length = 0 then .empty else .consumed, .failure ⟨state.position,
        [⟨.systemUnexpected, ((Input.items state.input)[met.length]?.map fun item =>
          shown [item]).getD ""⟩, ⟨.expected, shown expected⟩]⟩⟩ := by
  intro met
  have hempty : expected.isEmpty = false := by
    rw [List.isEmpty_eq_false_iff]
    rintro rfl
    exact h List.nil_prefix
  rw [tokens, hempty, Agreement.compare_eq_partly h 0, Nat.zero_add]
  rfl

/-- A list of items is taken as a whole or not at all, and what the input and the list have in
common at their beginnings decides about it. If that is the whole list, it is the output, the input
goes on behind it, the position is the one that is asked for the list, and nothing is reported
there. If it is shorter, the failure lies at the start and names what the input has instead of the
next item, which is nothing at its end, and the whole list; input has been read exactly if anything
has been met. The empty list is met without reading, and the state stays as it is. -/
theorem tokens_match_beginning (shown : List τ → String)
    (next : Position → List τ → Option Position)
    (expected : List τ) (context : Context) (state : State σ υ) :
    let items := Input.items state.input
    let count := (commonPrefix expected items).length
    (expected = [] → tokens shown next expected context state =
      .returned ⟨.empty, .success [] state (.unknown state.position)⟩) ∧
    (expected ≠ [] → count = expected.length →
      ∃ rest, Input.items rest = items.drop count ∧
        tokens shown next expected context state =
          (Outcome.ofInRange? (next state.position expected)).map fun position =>
            ⟨.consumed, .success expected ⟨rest, state.user, position⟩ (.unknown position)⟩) ∧
    (expected ≠ [] → count ≠ expected.length →
      tokens shown next expected context state = .returned
        ⟨if count = 0 then .empty else .consumed, .failure ⟨state.position,
          [⟨.systemUnexpected, (items[count]?.map fun item => shown [item]).getD ""⟩,
            ⟨.expected, shown expected⟩]⟩⟩) := by
  intro items count
  refine ⟨?_, fun hne hcount => ?_, fun _ hcount => ?_⟩
  · rintro rfl
    rfl
  · have hprefix : expected <+: items := length_commonPrefix_eq_iff.1 hcount
    refine ⟨Input.drop expected.length state.input, ?_, tokens_of_found hne hprefix⟩
    rw [Input.items_drop, hcount]
  · have hnot : ¬ expected <+: items := fun h => hcount (length_commonPrefix_eq_iff.2 h)
    exact tokens_of_not_found hnot

/-- A word of three letters at a text that has only the first two of them, once with another letter
behind them and once with nothing. -/
theorem two_letters_of_three_met :
    let quoted (items : List Char) : String := Quoted.chars items
    let next (position : Position) (items : List Char) : Option Position :=
      position.advanceText items
    let word : Parser (List Char) Unit (List Char) := tokens quoted next ['a', 'b', 'd']
    let start (text : List Char) : State (List Char) Unit := ⟨text, (), .initial "f"⟩
    word (.start none) (start ['a', 'b', 'c']) = .returned ⟨.consumed, .failure
      ⟨.initial "f", [⟨.systemUnexpected, "\"c\""⟩, ⟨.expected, "\"abd\""⟩]⟩⟩ ∧
    word (.start none) (start ['a', 'b']) = .returned ⟨.consumed, .failure
      ⟨.initial "f", [⟨.systemUnexpected, ""⟩, ⟨.expected, "\"abd\""⟩]⟩⟩ := by
  intro quoted next word start
  have hother := (tokens_match_beginning quoted next ['a', 'b', 'd'] (.start none)
    (start ['a', 'b', 'c'])).2.2 (by decide) (by decide)
  have hend := (tokens_match_beginning quoted next ['a', 'b', 'd'] (.start none)
    (start ['a', 'b'])).2.2 (by decide) (by decide)
  exact ⟨hother, hend⟩

end Parser

end Parsing
