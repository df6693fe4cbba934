import Parsing.Input.Items
import Parsing.Inspect

/-!
# Buffers as inputs

A buffer holds all of its items at once, for input that is made at run time, by a scanner for
instance. It is read through an offset that counts the items already taken.
-/

namespace Parsing

/-- Items in memory, of which those from the offset on are still to be read. -/
structure Buffer (τ : Type) where
  /-- All the items, read and unread. -/
  contents : Array τ
  /-- The number of items that have been taken. -/
  offset : Nat

namespace Buffer

variable {τ : Type}

/-- A buffer of which nothing has been taken. -/
def ofList (items : List τ) : Buffer τ :=
  ⟨items.toArray, 0⟩

/-- The items that are left. -/
def remaining (buffer : Buffer τ) : List τ :=
  buffer.contents.toList.drop buffer.offset

/-- The item at the offset, and the buffer with that item taken. -/
def uncons? (buffer : Buffer τ) : Option (τ × Buffer τ) :=
  buffer.contents[buffer.offset]?.map fun item =>
    (item, { buffer with offset := buffer.offset + 1 })

/-- Whether all items have been taken. -/
def isEmpty (buffer : Buffer τ) : Bool :=
  buffer.contents.size ≤ buffer.offset

/-- Buffers are equal when the same items are left. -/
instance [BEq τ] : BEq (Buffer τ) := ⟨fun b c => b.remaining == c.remaining⟩

instance [Inspect τ] : Inspect (Buffer τ) :=
  ⟨fun buffer => Inspect.record "BufferStream"
    [("buffer", inspect buffer.contents.toList), ("offset", inspect buffer.offset)]⟩

instance : Input (Buffer τ) τ where
  uncons? := uncons?
  isEmpty := isEmpty
  items := remaining

theorem remaining_ofList (items : List τ) : (ofList items).remaining = items := by
  simp [ofList, remaining]

/-- Past the last item nothing is left. -/
theorem remaining_of_size_le {buffer : Buffer τ} (h : buffer.contents.size ≤ buffer.offset) :
    buffer.remaining = [] := by
  simpa [remaining] using h

/-- Before the end, what is left begins with the item at the offset. -/
theorem remaining_of_lt_size {buffer : Buffer τ} (h : buffer.offset < buffer.contents.size) :
    buffer.remaining = buffer.contents[buffer.offset] ::
      ({ buffer with offset := buffer.offset + 1 } : Buffer τ).remaining := by
  unfold remaining
  rw [List.drop_eq_getElem_cons (by simpa using h), Array.getElem_toList]

instance : LawfulInput (Buffer τ) where
  items_eq buffer := by
    by_cases h : buffer.offset < buffer.contents.size
    · simp [Input.items, Input.uncons?, uncons?, h, remaining_of_lt_size h]
    · simp [Input.items, Input.uncons?, uncons?, h, remaining_of_size_le (Nat.le_of_not_lt h)]
  peek?_eq buffer := by
    by_cases h : buffer.offset < buffer.contents.size
    · simp [Input.items, Input.peek?, uncons?, h, remaining_of_lt_size h]
    · simp [Input.items, Input.peek?, uncons?, h, remaining_of_size_le (Nat.le_of_not_lt h)]
  isEmpty_eq buffer := by
    by_cases h : buffer.offset < buffer.contents.size
    · simp [Input.items, Input.isEmpty, isEmpty, h, remaining_of_lt_size h]
    · simp [Input.items, Input.isEmpty, isEmpty, Nat.le_of_not_lt h,
        remaining_of_size_le (Nat.le_of_not_lt h)]

end Buffer

end Parsing
