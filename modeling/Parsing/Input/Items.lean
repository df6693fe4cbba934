/-!
# Inputs

An input is a view of items that are still to be read. Taking the first item gives a new view and
leaves the old one as it was, so a parser can go back to any state it has kept. What an input means
is the list of its items; the lawful inputs are those whose operations agree with that list. A list
is such an input itself.
-/

namespace Parsing

/-- Views `σ` of a sequence of items `τ` that can be read from the front. -/
class Input (σ : Type) (τ : outParam Type) where
  /-- The first item and the input without it. -/
  uncons? : σ → Option (τ × σ)
  /-- The first item. -/
  peek? : σ → Option τ := fun input => (uncons? input).map (·.1)
  /-- Whether no item is left. -/
  isEmpty : σ → Bool := fun input => (peek? input).isNone
  /-- The items that are left. -/
  items : σ → List τ

/-- Inputs whose operations agree with the list of their items. -/
class LawfulInput (σ : Type) {τ : Type} [Input σ τ] : Prop where
  /-- Taking the first item is taking it from the list. -/
  items_eq (input : σ) : Input.items input =
    match Input.uncons? input with
    | none => []
    | some (item, rest) => item :: Input.items rest
  /-- The first item is that of the list. -/
  peek?_eq (input : σ) : Input.peek? input = (Input.items input).head?
  /-- Nothing is left exactly when the list is empty. -/
  isEmpty_eq (input : σ) : Input.isEmpty input = (Input.items input).isEmpty

namespace Input

variable {σ τ : Type} [Input σ τ]

section Lawful

variable [LawfulInput σ] {input rest : σ} {item : τ}

theorem items_of_uncons?_none (h : uncons? input = none) : items input = [] := by
  rw [LawfulInput.items_eq, h]

theorem items_of_uncons?_some (h : uncons? input = some (item, rest)) :
    items input = item :: items rest := by
  rw [LawfulInput.items_eq, h]

theorem uncons?_eq_none_iff : uncons? input = none ↔ items input = [] := by
  refine ⟨items_of_uncons?_none, fun h => ?_⟩
  cases hu : uncons? input with
  | none => rfl
  | some next =>
    have := items_of_uncons?_some hu
    simp [h] at this

/-- Each item taken makes the input shorter. -/
theorem length_items_of_uncons? (h : uncons? input = some (item, rest)) :
    (items input).length = (items rest).length + 1 := by
  rw [items_of_uncons?_some h, List.length_cons]

end Lawful

end Input

/-! ## Lists -/

variable {τ : Type}

/-- A list of items is read from its head. -/
instance : Input (List τ) τ where
  uncons? input :=
    match input with
    | [] => none
    | item :: rest => some (item, rest)
  isEmpty := List.isEmpty
  items input := input

instance : LawfulInput (List τ) where
  items_eq input := by cases input <;> rfl
  peek?_eq input := by cases input <;> rfl
  isEmpty_eq _ := rfl

end Parsing
