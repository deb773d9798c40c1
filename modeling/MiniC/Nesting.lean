/-
Nesting: how statements and expressions inside one another are counted.
-/
import MiniC.Parse.Basic
import MiniC.Stmt.Basic

namespace MiniC

/-- The most statements and expressions that may be open at once. -/
def maxNesting : Nat := 256

/-- The parses of what stands one level further in: a statement, and an
expression whose operators all bind more tightly than a floor. -/
structure Inner where
  statement : Parse Stmt
  expression : (floor : Power) → Parse Expr

/-- Fail because one more level would be too many. -/
def tooDeep : Parse α := do
  throw (.nestingTooDeep maxNesting (← Parse.current).location)

/-- The parses where no level is left. -/
def Inner.closed : Inner := ⟨tooDeep, fun _ => tooDeep⟩

end MiniC
