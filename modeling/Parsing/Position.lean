import Parsing.Inspect

/-!
# Positions in a source

A position is a line and a column of a named source. Lines and columns count from 1 and are kept in
32 bits, so a step that would leave that range has no result. The name is carried along for
messages only: positions compare by line and then by column.
-/

namespace Parsing

/-- A line or column number: at least 1, and small enough for 32 bits. -/
structure Coordinate where
  /-- The number itself. -/
  val : Nat
  /-- Counting starts at 1. -/
  one_le : 1 ≤ val
  /-- The number fits into 32 bits. -/
  le_max : val ≤ 4294967295
  deriving DecidableEq

namespace Coordinate

/-- The largest line or column number. -/
def max : Nat := 4294967295

/-- The columns from one tab stop to the next. -/
def tabWidth : Nat := 8

/-- The first line or column. -/
def first : Coordinate := ⟨1, by decide, by decide⟩

/-- The coordinate with the given number, if it is in range. -/
def ofNat? (n : Nat) : Option Coordinate :=
  if h : 1 ≤ n ∧ n ≤ 4294967295 then some ⟨n, h.1, h.2⟩ else none

/-- The next number, unless the current one is the largest. -/
def next? (c : Coordinate) : Option Coordinate :=
  ofNat? (c.val + 1)

/-- The next tab stop: the stops are 1, 9, 17, … The room for a whole tab is asked for even where
the stop is nearer. -/
def nextStop? (c : Coordinate) : Option Coordinate :=
  if c.val + tabWidth ≤ max then ofNat? (c.val + tabWidth - (c.val - 1) % tabWidth) else none

theorem ext_val {c d : Coordinate} (h : c.val = d.val) : c = d := by
  cases c; cases d; cases h; rfl

theorem ofNat?_val (c : Coordinate) : ofNat? c.val = some c := by
  simp [ofNat?, c.one_le, c.le_max]

theorem val_of_ofNat? {n : Nat} {c : Coordinate} (h : ofNat? n = some c) : c.val = n := by
  unfold ofNat? at h
  split at h
  · cases h; rfl
  · contradiction

end Coordinate

/-- A line and a column of a named source. -/
structure Position where
  /-- The name of the source, for messages only. -/
  name : String
  /-- The line, from 1. -/
  line : Coordinate
  /-- The column, from 1. -/
  column : Coordinate
  deriving DecidableEq

namespace Position

/-- The first column of the first line of the source `name`. -/
def initial (name : String) : Position :=
  ⟨name, .first, .first⟩

/-- The position with the given numbers, if both are in range. -/
def ofNat? (name : String) (line column : Nat) : Option Position := do
  let line ← Coordinate.ofNat? line
  let column ← Coordinate.ofNat? column
  return ⟨name, line, column⟩

/-- Positions are the same where line and column agree, whatever the names of the sources. -/
instance : BEq Position :=
  ⟨fun p q => p.line.val == q.line.val && p.column.val == q.column.val⟩

/-- The order of reading: by line, and within a line by column. -/
instance : Ord Position :=
  ⟨fun p q => (compare p.line.val q.line.val).then (compare p.column.val q.column.val)⟩

instance : LT Position :=
  ⟨fun p q => p.line.val < q.line.val ∨ p.line.val = q.line.val ∧ p.column.val < q.column.val⟩

instance : LE Position :=
  ⟨fun p q => p.line.val < q.line.val ∨ p.line.val = q.line.val ∧ p.column.val ≤ q.column.val⟩

instance (p q : Position) : Decidable (p < q) :=
  inferInstanceAs (Decidable (_ ∨ _))

instance (p q : Position) : Decidable (p ≤ q) :=
  inferInstanceAs (Decidable (_ ∨ _))

/-! ## Moving on -/

/-- The next line, in the same column. -/
def nextLine (p : Position) : Option Position :=
  p.line.next?.map fun line => { p with line }

/-- One column to the right. -/
def nextColumn (p : Position) : Option Position :=
  p.column.next?.map fun column => { p with column }

/-- The next tab stop of the line. -/
def nextStop (p : Position) : Option Position :=
  p.column.nextStop?.map fun column => { p with column }

/-- The position after the character `c`. A line feed leads to the next line and keeps the column, a
tab leads to the next tab stop, and any other character takes one column. -/
def advance (p : Position) (c : Char) : Option Position :=
  if c = '\n' then p.nextLine
  else if c = '\t' then p.nextStop
  else p.nextColumn

/-- The position after a text, character by character. -/
def advanceText (p : Position) (text : List Char) : Option Position :=
  text.foldlM advance p

/-! ## Text -/

/-- The position as messages give it; the name is left out where it is empty. -/
def describe (p : Position) : String :=
  (if p.name.isEmpty then "" else Quoted.string p.name ++ " ") ++
    "(line " ++ toString p.line.val ++ ", column " ++ toString p.column.val ++ ")"

instance : Inspect Position :=
  ⟨fun p => Inspect.record "SourcePosition"
    [("name", inspect p.name), ("line", inspect p.line.val), ("column", inspect p.column.val)]⟩

/-! ## Laws of the order -/

theorem lt_iff {p q : Position} :
    p < q ↔ p.line.val < q.line.val ∨ p.line.val = q.line.val ∧ p.column.val < q.column.val :=
  Iff.rfl

theorem le_iff {p q : Position} :
    p ≤ q ↔ p.line.val < q.line.val ∨ p.line.val = q.line.val ∧ p.column.val ≤ q.column.val :=
  Iff.rfl

theorem beq_iff {p q : Position} :
    (p == q) = true ↔ p.line.val = q.line.val ∧ p.column.val = q.column.val := by
  rw [← Nat.beq_eq_true_eq, ← Nat.beq_eq_true_eq, ← Bool.and_eq_true]
  rfl

theorem compare_def (p q : Position) : compare p q =
    (compare p.line.val q.line.val).then (compare p.column.val q.column.val) := rfl

theorem compare_eq_lt {p q : Position} : compare p q = .lt ↔ p < q := by
  rw [compare_def, lt_iff, Ordering.then_eq_lt, Nat.compare_eq_lt, Nat.compare_eq_eq,
    Nat.compare_eq_lt]

theorem compare_eq_eq {p q : Position} : compare p q = .eq ↔ (p == q) = true := by
  rw [compare_def, beq_iff, Ordering.then_eq_eq, Nat.compare_eq_eq, Nat.compare_eq_eq]

theorem compare_eq_gt {p q : Position} : compare p q = .gt ↔ q < p := by
  rw [compare_def, lt_iff, Ordering.then_eq_gt, Nat.compare_eq_gt, Nat.compare_eq_eq,
    Nat.compare_eq_gt, @eq_comm _ p.line.val]

@[simp]
theorem advanceText_nil (p : Position) : p.advanceText [] = some p := rfl

theorem advanceText_append (p : Position) (s t : List Char) :
    p.advanceText (s ++ t) = (p.advanceText s).bind (·.advanceText t) := by
  simp [advanceText]

end Position

/-- Items of an input that take up room in a source. -/
class Spaced (τ : Type) where
  /-- The position after an item. -/
  after : Position → τ → Option Position

/-- A character moves the position as `Position.advance` says. -/
instance : Spaced Char := ⟨Position.advance⟩

/-- A number stands for a token that takes one column. -/
instance : Spaced Int := ⟨fun p _ => p.nextColumn⟩

/-- The position after all the items, in their order. -/
def Position.afterAll {τ : Type} [Spaced τ] (p : Position) (items : List τ) : Option Position :=
  items.foldlM Spaced.after p

end Parsing
