import Parsing.ParseError.Description
import Parsing.Input.Items
import Parsing.Input.Text
import Parsing.Input.Buffer
import Parsing.Grammar.Meaning
import Parsing.Chars.Lexeme
import Parsing.Parser.Run
import Parsing.Value
import Parsing.Described.Basic
import Parsing.Proofs.Derived
import Parsing.Proofs.Merge
import Parsing.Proofs.Extent
import Parsing.Proofs.Sequencing
import Parsing.Proofs.Ensures
import Parsing.Proofs.Everywhere
import Parsing.Proofs.Accounting
import Parsing.Proofs.Silence
import Parsing.Proofs.OrderedChoice
import Parsing.Proofs.Repetition
import Parsing.Proofs.Budget
import Parsing.Proofs.Invariant
import Parsing.Proofs.Shrinking
import Parsing.Proofs.Termination
import Parsing.Proofs.Productive
import Parsing.Proofs.Forward
import Parsing.Proofs.Identity
import Parsing.Proofs.Alternatives
import Parsing.Proofs.Groupings
import Parsing.Proofs.Farthest
import Parsing.Proofs.Exclusive
import Parsing.Proofs.Calls
import Parsing.Proofs.NestLimit
import Parsing.Proofs.Explanation
import Parsing.Proofs.PositionRange
import Parsing.Proofs.RepetitionFamily
import Parsing.Proofs.Relocation
import Parsing.Proofs.UserValue
import Parsing.Proofs.Kinds
import Parsing.Proofs.Matching
import Parsing.Proofs.Lexemes
import Parsing.Proofs.Keywords
import Parsing.Proofs.Cuts
import Parsing.Proofs.Runs
import Parsing.Proofs.Identifiers
import Parsing.Proofs.Description
import Parsing.Proofs.WordLists
import Parsing.Proofs.ParensDepth
