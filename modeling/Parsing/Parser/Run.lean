import Parsing.Parser.Basic

/-!
# Running a parser

A run applies a parser to a whole input, from the first column of the first line and nest level
zero, and answers with the output or with the error. Input behind the end of what the parser reads
is left alone.
-/

namespace Parsing.Parser

variable {σ υ α : Type}

/-- The output and the user value at the end of a run, or the error, under a limit on nesting. -/
def runWithin (limit : Option Nat) (p : Parser σ υ α) (input : σ) (user : υ) (name : String) :
    Outcome (Except ParseError (α × υ)) :=
  (p (.start limit) { input, user, position := .initial name }).map fun result =>
    match result.reply with
    | .success output state _ => .ok (output, state.user)
    | .failure error => .error error

/-- The output and the user value at the end of a run, or the error. -/
def run (p : Parser σ υ α) (input : σ) (user : υ) (name : String) :
    Outcome (Except ParseError (α × υ)) :=
  runWithin none p input user name

/-- The output of a run, or the error, under a limit on nesting. -/
def parseWithin (limit : Option Nat) (p : Parser σ υ α) (input : σ) (user : υ) (name : String) :
    Outcome (Except ParseError α) :=
  (runWithin limit p input user name).map (·.map (·.1))

/-- The output of a run, or the error. -/
def parse (p : Parser σ υ α) (input : σ) (user : υ) (name : String) :
    Outcome (Except ParseError α) :=
  parseWithin none p input user name

/-- The output of a run of a parser that keeps nothing, or the error. -/
def parseInput (p : Parser σ Unit α) (input : σ) (name : String) :
    Outcome (Except ParseError α) :=
  parse p input () name

end Parsing.Parser
