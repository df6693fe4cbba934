import Parsing.Grammar.Basic
import Parsing.Unicode

/-!
# Character classes

A character class is a set of characters with a name. Its grammar reads one character of the class
and reports the name where there is none.
-/

namespace Parsing

variable {σ υ ι : Type} {ρ : ι → Type}

namespace Chars

/-- Reads one character that satisfies `accepts`. -/
def satisfy (accepts : Char → Bool) : Grammar σ Char υ ρ Char :=
  .token Quoted.char (fun position c _ => position.advance c)
    (fun c => if accepts c then some c else none)

end Chars

/-- A set of characters and the name under which messages know it. -/
structure CharClass where
  /-- What messages call a character of the class. -/
  label : String
  /-- The characters of the class. -/
  members : Unicode.Ranges

namespace CharClass

/-- The class of the characters in closed ranges. -/
def ofRanges (label : String) (ranges : List (Char × Char)) : CharClass :=
  ⟨label, ranges.map fun range => (range.1.toNat, range.2.toNat)⟩

/-- The class of some single characters. -/
def ofChars (label : String) (chars : List Char) : CharClass :=
  ofRanges label (chars.map fun c => (c, c))

/-- Whether a character belongs to the class. -/
def contains (k : CharClass) (c : Char) : Bool :=
  k.members.contains c

/-- Reads one character of the class. -/
def grammar (k : CharClass) : Grammar σ Char υ ρ Char :=
  (Chars.satisfy k.contains).label k.label

/-- The ASCII decimal digits. -/
def digit : CharClass :=
  ofRanges "digit" [('0', '9')]

/-- The ASCII hexadecimal digits of either case. -/
def hexDigit : CharClass :=
  ofRanges "hexadecimal digit" [('0', '9'), ('a', 'f'), ('A', 'F')]

/-- The ASCII letters. -/
def letter : CharClass :=
  ofRanges "letter" [('a', 'z'), ('A', 'Z')]

/-- The upper-case ASCII letters. -/
def upper : CharClass :=
  ofRanges "uppercase letter" [('A', 'Z')]

/-- The lower-case ASCII letters. -/
def lower : CharClass :=
  ofRanges "lowercase letter" [('a', 'z')]

/-- The line feed. -/
def newline : CharClass :=
  ofChars "lf new-line" ['\n']

/-- The tab. -/
def tab : CharClass :=
  ofChars "tab" ['\t']

theorem contains_ofRanges {label : String} {ranges : List (Char × Char)} {c : Char} :
    (ofRanges label ranges).contains c = true ↔
      ∃ range ∈ ranges, range.1.toNat ≤ c.toNat ∧ c.toNat ≤ range.2.toNat := by
  simp [contains, ofRanges, Unicode.Ranges.contains]

end CharClass

/-- Whether `c` is an ASCII letter or digit. -/
def isAlphanum (c : Char) : Bool :=
  CharClass.letter.contains c || CharClass.digit.contains c

end Parsing
