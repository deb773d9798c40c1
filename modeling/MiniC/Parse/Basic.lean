/-
Parses: computations that read tokens from a cursor, note what they do in a log,
and may fail.  A parse that fails leaves the cursor where it was at that moment,
so a later parse can go on from there.
-/
import MiniC.Parse.Error
import MiniC.Parse.Record
import MiniC.Token.Cursor

namespace MiniC

/-- What parses share: the cursor, and the records made so far. -/
structure ParseState where
  cursor : Cursor
  log : Array Record

/-- At the start of a list of tokens, with nothing noted. -/
def ParseState.ofTokens (tokens : List Token) : ParseState :=
  ⟨.ofTokens tokens, #[]⟩

/-- A computation that reads tokens. -/
abbrev Parse (α : Type) := EStateM ParseError ParseState α

namespace Parse

/-- The token at the cursor. -/
def current : Parse Token := fun s => .ok s.cursor.current s

/-- Whether the token at the cursor is of the given kind. -/
def check (kind : TokenKind) : Parse Bool := fun s =>
  .ok (s.cursor.kind = kind) s

/-- Take the token at the cursor.  The end marker is taken without being
passed. -/
def advance : Parse Token := fun s =>
  .ok s.cursor.current { s with cursor := s.cursor.advance }

/-- Take all tokens at the cursor whose kinds are in `p`, at most up to the end
marker. -/
def takeWhile (p : TokenKind → Bool) : Parse (List Token) := fun s =>
  let taken := s.cursor.rest.takeWhile fun token =>
    !Cursor.isEnd token && p token.kind
  .ok taken { s with cursor := s.cursor.drop taken.length }

/-- Take a token of the given kind, or fail over the one that is there. -/
def expect (kind : TokenKind) (context : String) : Parse Token := do
  if ← check kind then advance
  else throw (.expected kind context (← current))

/-- Add to the log. -/
def note (record : Record) : Parse Unit := fun s =>
  .ok () { s with log := s.log.push record }

/-- Take a step again and again for as long as it gives a new value.  A step
that gives one passes at least one of the tokens in `bound`, so when none of
these is left the step has nothing to go on with. -/
def repeatWithin (step : β → Parse (Option β)) : List Token → β → Parse β
  | [], value => do return (← step value).getD value
  | _ :: bound, value => do
      match ← step value with
      | none => return value
      | some next => repeatWithin step bound next

/-- Take a step again and again for as long as it gives a new value.  No more
steps can give one than there are tokens. -/
def loop (step : β → Parse (Option β)) (start : β) : Parse β := fun s =>
  repeatWithin step s.cursor.rest start s

/-- All values of `parse` up to where the test says stop. -/
def collectUntil (stop : Parse Bool) (parse : Parse α) : Parse (List α) := do
  let found ← loop (fun found : Array α => do
    if ← stop then return none
    else return some (found.push (← parse))) #[]
  return found.toList

/-- The result of a parse and the state it leaves, whether it fails or not. -/
def run (parse : Parse α) (s : ParseState) : Except ParseError α × ParseState :=
  match parse s with
  | .ok a s' => (.ok a, s')
  | .error e s' => (.error e, s')

end Parse

end MiniC
