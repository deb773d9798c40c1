/-
Log records: what is said about a run while it goes on.
-/
import MiniC.Power
import MiniC.Token.Basic

namespace MiniC

/-- How much detail a record belongs to. -/
inductive Severity
  | debug | trace
deriving DecidableEq, Repr

/-- One record: a token was found; an expression goes on with an operator that
binds more tightly than `floor`; a statement of its own form begins; or a name
was declared, without an initial value or as a function. -/
inductive Record
  | lexed (token : Token)
  | continuing (kind : TokenKind) (power floor : Power)
  | statement (kind : TokenKind) (location : Location)
  | uninitialized (name : String)
  | function (name : String)
deriving DecidableEq, Repr

namespace Record

/-- Tokens and operators are detail of the finer sort. -/
def severity : Record → Severity
  | lexed _ | continuing _ _ _ => .trace
  | statement _ _ | uninitialized _ | function _ => .debug

/-- The text of a record. -/
def message : Record → String
  | lexed token => s!"lexed {token.describe} at {token.location}"
  | continuing kind power floor =>
      s!"parse_expression: continuing with {kind} (bp {power} > {floor})"
  | statement kind location => s!"parse_statement: {kind} at {location}"
  | uninitialized name =>
      s!"parse_declaration_stmt: '{name}' declared without initializer"
  | function name => s!"parse_declaration_stmt: '{name}' is a function"

end Record

end MiniC
