import Parsing.Grammar.Basic
import Parsing.Value

/-!
# Items of described grammars

How a described grammar speaks of the items of its input: which items a token parser accepts and
what they stand for, where the position goes after them, and how they show in messages. Items are
characters or numbers.
-/

namespace Parsing.Described

/-- What a described grammar may ask of an item. -/
class Item (τ : Type) extends Inspect τ, Spaced τ where
  /-- Items can be told apart. -/
  decEq : DecidableEq τ
  /-- The place of an item in the order of items. -/
  code : τ → Int
  /-- The value of an item as a digit to a base. -/
  digit? (base : Nat) : τ → Option Nat
  /-- The item as an output. -/
  value (σ : Type) : τ → Value σ
  /-- Several items written out as one. -/
  joined : List τ → String

instance {τ : Type} [Item τ] : DecidableEq τ := Item.decEq

/-- The value of a decimal digit or, from ten on, of a letter of either case. -/
def charDigit? (base : Nat) (c : Char) : Option Nat :=
  let value : Option Nat :=
    if '0' ≤ c ∧ c ≤ '9' then some (c.toNat - '0'.toNat)
    else if 'a' ≤ c ∧ c ≤ 'z' then some (c.toNat - 'a'.toNat + 10)
    else if 'A' ≤ c ∧ c ≤ 'Z' then some (c.toNat - 'A'.toNat + 10)
    else none
  value.filter (· < base)

instance : Item Char where
  decEq := inferInstance
  code c := c.toNat
  digit? := charDigit?
  value _ := .char
  joined := Quoted.chars

instance : Item Int where
  decEq := inferInstance
  code n := n
  digit? base n := if 0 ≤ n ∧ n < base then some n.toNat else none
  value _ := .int
  joined items := inspect items

variable {σ τ : Type} [Item τ]

/-! ## Tests -/

/-- A description of the items that a token parser accepts. -/
inductive ItemTest (τ : Type) where
  /-- Every item. -/
  | any
  /-- One item only. -/
  | eq (item : τ)
  /-- One of some items. -/
  | oneOf (items : List τ)
  /-- The items that another test rejects. -/
  | not (test : ItemTest τ)
  /-- The items from `first` to `last`, both included. -/
  | range (first last : τ)
  /-- The digits to a base. -/
  | digit (base : Nat)

/-- Whether an item passes the test. -/
def ItemTest.accepts : ItemTest τ → τ → Bool
  | any, _ => true
  | eq item, x => x = item
  | oneOf items, x => items.contains x
  | not test, x => !test.accepts x
  | range first last, x => Item.code first ≤ Item.code x && Item.code x ≤ Item.code last
  | digit base, x => (Item.digit? base x).isSome

/-- What an accepted item stands for: a digit for its value, any other item for itself. -/
def ItemTest.output (test : ItemTest τ) (x : τ) : Option (Value σ) :=
  match test with
  | digit base => (Item.digit? base x).map fun n => .int n
  | test => if test.accepts x then some (Item.value σ x) else none

/-! ## Positions -/

/-- A description of where the position goes after an item. -/
inductive StepRule where
  /-- As far as the item takes up room. -/
  | advance
  /-- Nowhere. -/
  | stay
  /-- To the next line. -/
  | line
  /-- Nowhere after a carriage return before a line feed, and otherwise as the item takes up
  room. -/
  | returnFeed
  /-- To the next line after the last item, and otherwise to the next tab stop. -/
  | last
  deriving DecidableEq

/-- The position after an item, with the rest of the input in view. -/
def StepRule.next [Input σ τ] (rule : StepRule) (p : Position) (item : τ) (rest : σ) :
    Option Position :=
  match rule with
  | advance => Spaced.after p item
  | stay => some p
  | line => p.advance '\n'
  | returnFeed =>
    if Item.code item = 13 ∧ (Input.peek? rest).map Item.code = some 10 then some p
    else Spaced.after p item
  | last => if Input.isEmpty rest then p.advance '\n' else p.advance '\t'

/-- The position after an item that stands in a fixed sequence, where no rest is in view. -/
def StepRule.nextAlone (rule : StepRule) (p : Position) (item : τ) : Option Position :=
  match rule with
  | advance | returnFeed => Spaced.after p item
  | stay => some p
  | line | last => p.advance '\n'

/-- The position after the items of a fixed sequence. -/
def StepRule.nextAll (rule : StepRule) (p : Position) (items : List τ) : Option Position :=
  items.foldlM rule.nextAlone p

/-! ## Messages -/

/-- A description of how items show in messages. -/
inductive Showing where
  /-- As a fixed text. -/
  | text (s : String)
  /-- Written out in full. -/
  | inspected
  /-- Written out as one. -/
  | joined
  deriving DecidableEq

/-- How a single item shows. -/
def Showing.item (showing : Showing) (x : τ) : String :=
  match showing with
  | text s => s
  | inspected => inspect x
  | joined => Item.joined [x]

/-- How a sequence of items shows. -/
def Showing.items (showing : Showing) (xs : List τ) : String :=
  match showing with
  | text s => s
  | inspected => inspect xs
  | joined => Item.joined xs

end Parsing.Described
