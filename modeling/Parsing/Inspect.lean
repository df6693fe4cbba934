import Parsing.Unicode

/-!
# Inspecting values

`inspect` writes a value out in full, as messages about unexpected values and dumps of results show
it: texts and characters quoted, lists in brackets, records with their field names, variants with
their arguments in parentheses.
-/

/-!
## Quoted characters and texts

The form in which messages show a character or a text: between quotes, with a backslash before the
quote and before a backslash, a short form for the line ends, the tab and the zero character, and
the code point in hexadecimal for every other character that is not printable.
-/

namespace Parsing.Quoted

/-- The code point of `c` in lower-case hexadecimal digits without leading zeros, between braces. -/
def codePoint (c : Char) : List Char :=
  ['\\', 'u', '\x7b'] ++ Nat.toDigits 16 c.toNat ++ ['\x7d']

/-- The form of `c` between two `quote` characters. Only the quote that surrounds the text needs a
backslash, the other one stands as it is. -/
def escape (quote c : Char) : List Char :=
  if c = '\n' then ['\\', 'n']
  else if c = '\r' then ['\\', 'r']
  else if c = '\t' then ['\\', 't']
  else if c = '\x00' then ['\\', '0']
  else if c = '\\' ∨ c = quote then ['\\', c]
  else if Unicode.isPrintable c then [c]
  else codePoint c

/-- The characters of a text between two `quote` characters. -/
def between (quote : Char) (text : List Char) : String :=
  String.ofList (quote :: text.flatMap (escape quote) ++ [quote])

/-- A character in single quotes. -/
def char (c : Char) : String :=
  between '\'' [c]

/-- A text in double quotes. -/
def chars (text : List Char) : String :=
  between '"' text

/-- A text in double quotes. -/
def string (text : String) : String :=
  chars text.toList

end Parsing.Quoted

/-! ## Values -/

namespace Parsing

/-- Values that can be written out in full. -/
class Inspect (α : Type) where
  /-- The value, written out in full. -/
  inspect : α → String

export Inspect (inspect)

namespace Inspect

/-- Parts separated by a comma and a space. -/
def commaSeparated (parts : List String) : String :=
  ", ".intercalate parts

/-- A list of values that are already written out. -/
def list (parts : List String) : String :=
  "[" ++ commaSeparated parts ++ "]"

/-- A variant applied to arguments that are already written out. -/
def variant (name : String) (arguments : List String) : String :=
  name ++ "(" ++ commaSeparated arguments ++ ")"

/-- A record with its fields in the order given, each with its value written out. -/
def record (name : String) (fields : List (String × String)) : String :=
  name ++ " \x7b " ++ commaSeparated (fields.map fun field => field.1 ++ ": " ++ field.2) ++ " \x7d"

instance : Inspect Unit := ⟨fun _ => "()"⟩

instance : Inspect Bool := ⟨fun b => if b then "true" else "false"⟩

instance : Inspect Nat := ⟨fun n => toString n⟩

instance : Inspect Int := ⟨fun n => toString n⟩

instance : Inspect Char := ⟨Quoted.char⟩

instance : Inspect String := ⟨Quoted.string⟩

instance {α : Type} [Inspect α] : Inspect (List α) := ⟨fun items => list (items.map inspect)⟩

end Inspect

end Parsing
