/-
Why a text cannot be cut into lexemes, and where.
-/
import MiniC.Location

namespace MiniC

/-- The two ways in which scanning fails: nothing that stands at the position is
a lexeme, and then all of the text from there on is kept; or something opened at
the position is never closed. -/
inductive ScanError
  | noMatch (position : Position) (remainder : String)
  | unterminated (position : Position) (what : String)
deriving DecidableEq, Repr

namespace ScanError

/-- Where scanning stopped. -/
def position : ScanError → Position
  | noMatch position _ => position
  | unterminated position _ => position

/-- The first line of a text.  A line feed ends it, and a carriage return
directly before that line feed belongs to the line end; at the end of the text a
carriage return is a character like any other. -/
def firstLine (text : List Char) : List Char :=
  let line := text.takeWhile (· != '\n')
  if line.length < text.length && line.getLast? == some '\r' then line.dropLast
  else line

/-- How many characters of unscanned text a message shows. -/
def snippetLength : Nat := 24

/-- The start of the first line of what could not be scanned. -/
def snippet (remainder : String) : String :=
  String.ofList ((firstLine remainder.toList).take snippetLength)

/-- What went wrong, without the place. -/
def cause : ScanError → String
  | noMatch _ remainder => s!"unrecognized input near '{snippet remainder}'"
  | unterminated _ what => s!"unterminated {what}"

/-- The whole message. -/
def message (error : ScanError) : String :=
  let place := error.position
  s!"Lexer error at {place.location} (offset {place.offset}): {error.cause}"

example : firstLine ['a', '\r', '\n', 'b'] = ['a'] := by decide

example : firstLine ['a', '\r', 'b', '\r'] = ['a', '\r', 'b', '\r'] := by decide

end ScanError

end MiniC
