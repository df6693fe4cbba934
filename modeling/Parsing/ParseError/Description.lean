import Parsing.ParseError.Basic

/-!
# The description of an error

The text that a reader of the source sees. After the position comes one line on what was met, one
line on what could have been read, and the remarks, each on a line of its own. A text is given once
per line, however often it was reported, and empty texts are left out.
-/

namespace Parsing

/-- The texts of a kind of message without the empty ones and without repetitions, each where it
occurred first. -/
def Message.textsOf (kind : Message.Kind) (messages : List Message) : List String :=
  (((messages.filter (·.kind = kind)).map (·.text)).filter (!·.isEmpty)).eraseDups

/-- The alternatives in one phrase, with `or` before the last. -/
def joinAlternatives : List String → String
  | [] => ""
  | [last] => last
  | [next, last] => next ++ " or " ++ last
  | first :: next :: last :: rest => first ++ ", " ++ joinAlternatives (next :: last :: rest)

namespace ParseError

/-- What was met, if anything is known about it. The words of a grammar hide what the token parsers
report, and of these only the first counts. -/
def unexpectedPhrase (messages : List Message) : Option String :=
  match Message.textsOf .unexpected messages with
  | [] =>
    (messages.find? (·.kind = .systemUnexpected)).map fun m =>
      if m.text.isEmpty then "end of input" else m.text
  | texts => some (joinAlternatives texts)

/-- What could have been read, if anything is known about it. -/
def expectedPhrase (messages : List Message) : Option String :=
  match Message.textsOf .expected messages with
  | [] => none
  | texts => some (joinAlternatives texts)

/-- The lines below the position. -/
def lines (messages : List Message) : List String :=
  if messages.isEmpty then ["unknown parse error"]
  else
    ((unexpectedPhrase messages).map ("unexpected " ++ ·)).toList ++
      ((expectedPhrase messages).map ("expecting " ++ ·)).toList ++
      Message.textsOf .plain messages

/-- The position, a colon, and the lines on what happened there. -/
def describe (e : ParseError) : String :=
  "\n".intercalate ((e.position.describe ++ ":") :: lines e.messages)

end ParseError

end Parsing
