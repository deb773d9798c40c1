/-
Tokens: a kind, the text it was written with, and where it stands.
-/
import MiniC.Location
import MiniC.Token.Kind

namespace MiniC

/-- One token.  The text of a string literal is what stands between its quotes;
any other token keeps its lexeme as written. -/
structure Token where
  kind : TokenKind
  text : String
  location : Location
deriving DecidableEq, Repr

namespace Token

/-- The token that ends a list of tokens.  It stands for no text. -/
def endMarker (location : Location) : Token :=
  ⟨.eof, "", location⟩

/-- How a log names the token. -/
def describe (token : Token) : String :=
  match token.kind with
  | .eof => "end of file"
  | .string => s!"{token.kind} \"{token.text}\""
  | _ => s!"{token.kind} '{token.text}'"

/-- One line of a token dump: the index in at least three columns, the kind,
and in parentheses the text of those kinds that carry one. -/
def dumpLine (index : Nat) (token : Token) : String :=
  let number := toString index
  let padding := String.ofList (List.replicate (3 - number.length) ' ')
  let shown := if token.kind.carriesText then token.text else ""
  s!"{padding}{number}: {token.kind} ({shown})"

end Token

end MiniC
