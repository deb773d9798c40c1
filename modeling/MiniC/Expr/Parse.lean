/-
Reading expressions by precedence.
-/
import MiniC.Expr.Basic
import MiniC.Nesting
import MiniC.Numeral.Decimal
import MiniC.Registry.Basic

namespace MiniC

/-- The expression that a token stands for by itself.  A token of another kind
opens no expression, and a number has to be within its range. -/
def Expr.ofToken (token : Token) : Except ParseError Expr :=
  let number (value : Option Expr) : Except ParseError Expr :=
    match value with
    | some e => .ok e
    | none => .error (.invalidNumber token)
  match token.kind with
  | .integer => number ((Numeral.integer? token.text.toList).map .integer)
  | .unsignedInteger =>
      number ((Numeral.unsigned? token.text.toList).map .unsigned)
  | .floating => number ((Numeral.floating? token.text.toList).map .floating)
  | .character => .ok (.character token.text)
  | .string => .ok (.string token.text)
  | .identifier => .ok (.symbol token.text)
  | _ => .error (.missingPrefix token)

/-- Read what an expression begins with.  A single token is passed even when it
is no expression; parentheses take in an expression of any power. -/
def PrefixForm.parse (inner : Inner) : PrefixForm → Parse Expr
  | .primary => do
      match Expr.ofToken (← Parse.advance) with
      | .ok e => return e
      | .error e => throw e
  | .grouping => do
      let _ ← Parse.expect .leftParen "to open grouped expression"
      let e ← inner.expression .default
      let _ ← Parse.expect .rightParen "to close grouped expression"
      return e

/-- The floor for the right operand of an operator.  An operator of the binary
form leaves operators of its own power to the left operand; one that assigns
takes others of its sort into the right operand. -/
def InfixForm.rightFloor (registry : Registry) (operator : TokenKind) :
    InfixForm → Power
  | .binary => registry.power operator
  | .assignment => .comma

/-- Read an operator and its right operand, `left` being the left one. -/
def InfixForm.parse (registry : Registry) (inner : Inner) (left : Expr)
    (form : InfixForm) : Parse Expr := do
  let operator ← Parse.advance
  let right ← inner.expression (form.rightFloor registry operator.kind)
  return .binary left operator right

namespace Expr

/-- One step of an expression that has `left` so far: if the token at the cursor
binds more tightly than the floor it has to go on with the expression. -/
def extend? (registry : Registry) (inner : Inner) (floor : Power) (left : Expr) :
    Parse (Option Expr) := do
  let token ← Parse.current
  let power := registry.power token.kind
  if power ≤ floor then return none
  else
    Parse.note (.continuing token.kind power floor)
    match (registry.entry token.kind).infixForm? with
    | none => throw (.missingInfix token)
    | some form => return some (← form.parse registry inner left)

/-- Go on with an expression for as long as operators above the floor follow. -/
def extend (registry : Registry) (inner : Inner) (floor : Power) (left : Expr) :
    Parse Expr :=
  Parse.loop (extend? registry inner floor) left

/-- Read an expression whose operators all bind more tightly than the floor. -/
def parse (registry : Registry) (inner : Inner) (floor : Power) : Parse Expr := do
  let token ← Parse.current
  match (registry.entry token.kind).prefixForm? with
  | none => throw (.missingPrefix token)
  | some form => extend registry inner floor (← form.parse inner)

end Expr

end MiniC
