/-
Programs: reading all of a list of tokens, or all of a source text.
-/
import MiniC.Expr.Parse
import MiniC.Registry.Standard
import MiniC.Scanner.Basic
import MiniC.Stmt.Parse

namespace MiniC

/-- The parses of what stands inside when `levels` more levels may be opened.
Each statement and each expression opens one. -/
def Inner.ofLevels (registry : Registry) : (levels : Nat) → Inner
  | 0 => .closed
  | levels + 1 =>
      let inner := ofLevels registry levels
      ⟨Stmt.parse registry inner, Expr.parse registry inner⟩

namespace Registry

/-- The parses where nothing is open yet. -/
def outermost (registry : Registry) : Inner :=
  .ofLevels registry maxNesting

/-- Read statements up to the end of the tokens.  Together they are a block. -/
def parseProgram (registry : Registry) : Parse Stmt := do
  let body ← Parse.collectUntil (Parse.check .eof) registry.outermost.statement
  return .block body

end Registry

/-- Read a list of tokens as a program in the standard grammar. -/
def parseTokens (tokens : List Token) : Except ParseError Stmt :=
  (Registry.standard.parseProgram.run (.ofTokens tokens)).1

/-- Read a source text as a program. -/
def parseSource (keepComments : Bool) (source : String) :
    Except ParseError Stmt :=
  match tokenize keepComments source with
  | .ok tokens => parseTokens tokens
  | .error e => .error (.scan e)

/-- Read a source text as a program, and say what was noted on the way: first by
the scanner, also before an error of its own, and then by the parse. -/
def traceSource (keepComments : Bool) (source : String) :
    List Record × Except ParseError Stmt :=
  let scan := (Scanner.ofSource source).scan keepComments
  match scan.tokenList with
  | .error e => (scan.log.toList, .error (.scan e))
  | .ok tokens =>
      let (result, state) := Registry.standard.parseProgram.run (.ofTokens tokens)
      (scan.log.toList ++ state.log.toList, result)

end MiniC
