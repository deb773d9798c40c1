/-
Why a list of tokens, or a source text, is not a program.
-/
import MiniC.Scanner.Error
import MiniC.Token.Basic

namespace MiniC

/-- The causes for which parsing fails.  Those that are about a token hold the
token; `expected` also says which kind had to stand there, and in which
context. -/
inductive ParseError
  | scan (error : ScanError)
  | missingPrefix (found : Token)
  | missingInfix (found : Token)
  | expected (kind : TokenKind) (context : String) (found : Token)
  | invalidNumber (literal : Token)
  | nestingTooDeep (limit : Nat) (location : Location)
deriving DecidableEq, Repr

namespace ParseError

/-- Where parsing failed. -/
def location : ParseError → Location
  | scan error => error.position.location
  | missingPrefix found => found.location
  | missingInfix found => found.location
  | expected _ _ found => found.location
  | invalidNumber literal => literal.location
  | nestingTooDeep _ location => location

/-- What went wrong, without the place. -/
def cause : ParseError → String
  | scan error => error.cause
  | missingPrefix found => s!"no prefix handler for {found.kind} '{found.text}'"
  | missingInfix found => s!"no infix handler for {found.kind} '{found.text}'"
  | expected kind context found =>
      s!"expected {kind} {context}, found {found.kind} '{found.text}'"
  | invalidNumber literal => s!"invalid {literal.kind} literal '{literal.text}'"
  | nestingTooDeep limit _ => s!"nesting exceeds {limit} levels"

/-- The whole message.  An error of the scanner keeps its own. -/
def message (error : ParseError) : String :=
  match error with
  | scan error => error.message
  | _ => s!"Parse error at {error.location}: {error.cause}"

end ParseError

end MiniC
