import Parsing.Input.Items
import Parsing.Inspect

/-!
# Texts as inputs

A text is read through a cursor into a string that stays as it is. The cursor stands before a
character or at the end, never inside the encoding of a character.
-/

namespace Parsing

/-- A string with a cursor: the characters from the cursor on are still to be read. -/
structure Text where
  /-- The whole string. -/
  string : String
  /-- The place of the next character. -/
  cursor : string.Pos

namespace Text

/-- A string to be read from its start. -/
def ofString (string : String) : Text :=
  ⟨string, string.startPos⟩

/-- The characters that are left. -/
def rest (text : Text) : String :=
  (text.string.sliceFrom text.cursor).copy

/-- The next character, and the text after it. -/
def uncons? (text : Text) : Option (Char × Text) :=
  if h : text.cursor = text.string.endPos then none
  else some (text.cursor.get h, ⟨text.string, text.cursor.next h⟩)

/-- The next character. -/
def peek? (text : Text) : Option Char :=
  if h : text.cursor = text.string.endPos then none else some (text.cursor.get h)

/-- Whether the cursor is at the end. -/
def isEmpty (text : Text) : Bool :=
  text.cursor = text.string.endPos

/-- Texts are equal when the same characters are left. -/
instance : BEq Text := ⟨fun s t => s.rest == t.rest⟩

instance : Inspect Text := ⟨fun text => inspect text.rest⟩

instance : Input Text Char where
  uncons? := uncons?
  peek? := peek?
  isEmpty := isEmpty
  items text := text.rest.toList

theorem uncons?_of_eq_endPos {text : Text} (h : text.cursor = text.string.endPos) :
    text.uncons? = none := by
  simp [uncons?, h]

theorem uncons?_of_ne_endPos {text : Text} (h : text.cursor ≠ text.string.endPos) :
    text.uncons? = some (text.cursor.get h, ⟨text.string, text.cursor.next h⟩) := by
  simp [uncons?, h]

/-- At the end no character is left. -/
theorem rest_of_eq_endPos {text : Text} (h : text.cursor = text.string.endPos) :
    text.rest = "" := by
  have hs := text.cursor.splits
  rw [h] at hs
  unfold rest
  rw [h]
  exact (String.splits_endPos_iff.1 hs).2

/-- Before the end, what is left begins with the character at the cursor. -/
theorem rest_of_ne_endPos {text : Text} (h : text.cursor ≠ text.string.endPos) :
    text.rest = String.singleton (text.cursor.get h) ++
      (⟨text.string, text.cursor.next h⟩ : Text).rest :=
  (text.cursor.splits).eq_right (text.cursor.splits_next_right h)

/-- A string that is about to be read is left as a whole. -/
theorem rest_ofString (string : String) : (ofString string).rest = string :=
  (string.startPos.splits).eq_right string.splits_startPos

instance : LawfulInput Text where
  items_eq text := by
    by_cases h : text.cursor = text.string.endPos
    · simp [Input.items, Input.uncons?, uncons?_of_eq_endPos h, rest_of_eq_endPos h]
    · simp [Input.items, Input.uncons?, uncons?_of_ne_endPos h, rest_of_ne_endPos h]
  peek?_eq text := by
    by_cases h : text.cursor = text.string.endPos
    · simp [Input.items, Input.peek?, peek?, h, rest_of_eq_endPos h]
    · simp [Input.items, Input.peek?, peek?, h, rest_of_ne_endPos h]
  isEmpty_eq text := by
    by_cases h : text.cursor = text.string.endPos
    · simp [Input.items, Input.isEmpty, isEmpty, h, rest_of_eq_endPos h]
    · simp [Input.items, Input.isEmpty, isEmpty, h, rest_of_ne_endPos h]

end Text

end Parsing
