import Parsing.State

/-!
# Values of grammars that are data

A grammar that is read from a description, and not written as a program, needs one type for all its
outputs: the values of this module. They hold what the parsers put out, the items they read, and the
parts of the state that a grammar may ask for.
-/

namespace Parsing

/-- The outputs of a grammar over inputs `σ` that is given as data. -/
inductive Value (σ : Type) where
  /-- The output of a parser that only skips. -/
  | unit
  /-- A truth value. -/
  | bool (b : Bool)
  /-- A number. -/
  | int (n : Int)
  /-- A character. -/
  | char (c : Char)
  /-- A text. -/
  | string (s : String)
  /-- Values in order. -/
  | list (items : List (Value σ))
  /-- A place in a source. -/
  | position (p : Position)
  /-- An input that is still to be read. -/
  | input (i : σ)
  /-- A whole state. -/
  | state (input : σ) (user : Value σ) (position : Position)

namespace Value

variable {σ : Type}

mutual

/-- The value as plain text: numbers in decimal, characters and texts as they are, lists joined. The
other values have no text. -/
def text : Value σ → String
  | int n => toString n
  | char c => c.toString
  | string s => s
  | list items => textAll items
  | _ => ""

/-- The texts of all the values, joined. -/
def textAll : List (Value σ) → String
  | [] => ""
  | v :: vs => text v ++ textAll vs

end

section Inspected

variable [Inspect σ]

mutual

/-- The value, written out in full. -/
def inspected : Value σ → String
  | unit => inspect ()
  | bool b => inspect b
  | int n => inspect n
  | char c => inspect c
  | string s => inspect s
  | list items => Inspect.list (inspectedAll items)
  | position p => inspect p
  | input i => inspect i
  | state i u p => Inspect.record "ParseState"
    [("input", inspect i), ("user_state", inspected u), ("position", inspect p)]

/-- All the values, each written out in full. -/
def inspectedAll : List (Value σ) → List String
  | [] => []
  | v :: vs => inspected v :: inspectedAll vs

end

instance : Inspect (Value σ) := ⟨inspected⟩

end Inspected

section Equality

variable [BEq σ]

mutual

/-- Equality of values: positions by line and column, inputs by what is left of them. -/
def same : Value σ → Value σ → Bool
  | unit, unit => true
  | bool a, bool b => a == b
  | int a, int b => a == b
  | char a, char b => a == b
  | string a, string b => a == b
  | list a, list b => sameAll a b
  | position a, position b => a == b
  | input a, input b => a == b
  | state i u p, state j v q => i == j && same u v && p == q
  | _, _ => false

/-- Equality of lists of values. -/
def sameAll : List (Value σ) → List (Value σ) → Bool
  | [], [] => true
  | a :: as, b :: bs => same a b && sameAll as bs
  | _, _ => false

end

instance : BEq (Value σ) := ⟨same⟩

end Equality

/-! ## Functions on values -/

/-- The number of values in a list or of characters in a text, and zero for other values. -/
def length : Value σ → Value σ
  | list items => int items.length
  | string s => int s.length
  | _ => int 0

/-- A number with `n` added to it; other values as they are. -/
def add (n : Int) : Value σ → Value σ
  | int m => int (m + n)
  | v => v

/-- The text of a value, followed by `s`. -/
def append (s : String) (v : Value σ) : Value σ :=
  string (v.text ++ s)

/-- A list from back to front; other values as they are. -/
def reverse : Value σ → Value σ
  | list items => list items.reverse
  | v => v

/-- A list of two values. -/
def pair (v w : Value σ) : Value σ :=
  list [v, w]

end Value

end Parsing
