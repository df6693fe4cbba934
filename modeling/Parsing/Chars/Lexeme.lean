import Parsing.Chars.Class
import Parsing.Unicode

/-!
# Reading characters and words

The grammars for inputs of characters: single characters, fixed texts, white space, and the words
of a language, which may be surrounded by white space. The last one calls itself.
-/

namespace Parsing.Chars

variable {σ υ ι : Type} {ρ : ι → Type}

/-! ## Single characters -/

/-- Reads exactly `c`. -/
def char (c : Char) : Grammar σ Char υ ρ Char :=
  (satisfy (· == c)).label (Quoted.char c)

/-- Reads any character. -/
def anyChar : Grammar σ Char υ ρ Char :=
  satisfy fun _ => true

/-- Reads one of the characters of a text. -/
def oneOf (chars : String) : Grammar σ Char υ ρ Char :=
  satisfy (chars.toList.contains ·)

/-- Reads a character that is not in a text. -/
def noneOf (chars : String) : Grammar σ Char υ ρ Char :=
  satisfy (!chars.toList.contains ·)

/-- Reads a blank of any script. -/
def space : Grammar σ Char υ ρ Char :=
  (satisfy Unicode.isWhiteSpace).label "space"

/-- Reads an ASCII letter or digit. -/
def alphanum : Grammar σ Char υ ρ Char :=
  (satisfy isAlphanum).label "letter or digit"

/-! ## Texts -/

/-- Reads exactly the characters of `text`. A mismatch is reported where the text would have
started, and it has consumed input if the first character was met. -/
def string (text : String) : Grammar σ Char υ ρ String :=
  (Grammar.tokens Quoted.chars (fun position _ => position.advanceText text.toList)
    text.toList).map String.ofList

/-- Skips zero or more blanks. -/
def spaces : Grammar σ Char υ ρ Unit :=
  (Grammar.skipMany space).label "white space"

/-- Skips one or more blanks. -/
def skipSpaces1 : Grammar σ Char υ ρ Unit :=
  Grammar.skipMany1 space

/-- Reads one or more letters or digits. -/
def alphanums : Grammar σ Char υ ρ String :=
  (Grammar.many1 alphanum).map String.ofList

/-! ## Words -/

/-- Reads `word` between optional white space. No letter or digit may follow the word at once, and
everything up to its end is given back on failure, the white space before it included. -/
def keyword (word : String) : Grammar σ Char υ ρ String :=
  .discardRight
    (.attempt
      (.discardRight (.discardLeft spaces (string word)) (.notFollowedBy Quoted.char alphanum)))
    spaces

/-- Reads a letter and the letters and digits after it, between optional white space. -/
def identifier : Grammar σ Char υ ρ String :=
  .discardRight
    (.discardLeft spaces
      ((Grammar.attempt
        (.bind CharClass.letter.grammar fun first =>
          .map (fun rest => String.ofList (first :: rest)) (.many alphanum))).label "identifier"))
    spaces

/-!
## Parentheses

The depth to which an input opens parentheses that it closes again. The grammar is the only rule of
its table, and it enters itself one nest level deeper for each parenthesis.
-/

/-- An opening parenthesis, the depth of what it holds, and the closing one; or nothing, which has
depth zero. -/
def parens : Grammar σ Char υ (fun _ : Unit => Nat) Nat :=
  .choice
    (.map (· + 1) (.discardRight (.discardLeft (satisfy (· == '(')) (.rule ()))
      (satisfy (· == ')'))))
    (.pure 0)

/-- The table of the one rule. -/
def parensRules : Rules σ Char υ (fun _ : Unit => Nat) :=
  fun _ => parens

end Parsing.Chars
