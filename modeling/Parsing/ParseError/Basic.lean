import Parsing.Position

/-!
# Parse errors

An error is a position with the messages reported there. The same type serves as the hint that a
success carries: what else could have been read there. An error without messages says nothing but
where a parser stood.

Errors of parsers that looked at the same input are merged: an error with messages wins over one
without, then the error further into the input wins, and errors at the same position keep the
messages of both.
-/

namespace Parsing

/-- What a message tells about the input. -/
inductive Message.Kind where
  /-- Input that a token parser met and does not accept; the empty text stands for the end of the
  input. -/
  | systemUnexpected
  /-- Input that a grammar rejects in its own words. -/
  | unexpected
  /-- What could have been read instead. -/
  | expected
  /-- A remark of a grammar. -/
  | plain
  deriving DecidableEq

/-- One message of an error. -/
structure Message where
  /-- What the message tells. -/
  kind : Message.Kind
  /-- The text of the message. -/
  text : String
  deriving DecidableEq

/-- The name of a kind of message in dumps. -/
def Message.Kind.name : Message.Kind → String
  | .systemUnexpected => "SystemUnexpected"
  | .unexpected => "Unexpected"
  | .expected => "Expected"
  | .plain => "Message"

instance : Inspect Message :=
  ⟨fun m => Inspect.variant m.kind.name [inspect m.text]⟩

/-- A position and the messages reported there, oldest first. -/
structure ParseError where
  /-- Where the messages were reported. -/
  position : Position
  /-- The messages; none if nothing is known. -/
  messages : List Message
  deriving BEq

namespace ParseError

/-- The error without messages at a position. -/
def unknown (position : Position) : ParseError :=
  ⟨position, []⟩

/-- The error with one message. -/
def single (message : Message) (position : Position) : ParseError :=
  ⟨position, [message]⟩

/-- Whether an error has no messages. -/
def isUnknown (e : ParseError) : Bool :=
  e.messages.isEmpty

/-- Adds a message after those already there. -/
def add (e : ParseError) (message : Message) : ParseError :=
  { e with messages := e.messages ++ [message] }

/-- Replaces every message by one for each label. -/
def relabel (e : ParseError) (labels : List String) : ParseError :=
  { e with messages := labels.map fun label => ⟨.expected, label⟩ }

/-- Combines two errors: messages win over none, then the later position wins, and at the same
position the messages of both are kept, those of `a` first. -/
def merge (a b : ParseError) : ParseError :=
  if b.isUnknown && !a.isUnknown then a
  else if a.isUnknown && !b.isUnknown then b
  else
    match compare a.position b.position with
    | .lt => b
    | .eq => ⟨a.position, a.messages ++ b.messages⟩
    | .gt => a

instance : Inspect ParseError :=
  ⟨fun e => Inspect.record "ParseError"
    [("position", inspect e.position), ("messages", inspect e.messages)]⟩

theorem isUnknown_iff {e : ParseError} : e.isUnknown = true ↔ e.messages = [] := by
  simp [isUnknown]

@[simp]
theorem isUnknown_unknown (p : Position) : (unknown p).isUnknown = true := rfl

end ParseError

end Parsing
