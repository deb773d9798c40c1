/-
Reading declarations: variables, and functions with their parameters.
-/
import MiniC.DeclType
import MiniC.Nesting

namespace MiniC

namespace Parse

/-- Read specifiers and the name that they declare. -/
def declarator : Parse (DeclType × String) := do
  let specifiers ← takeWhile DeclType.isSpecifier
  let name ← expect .identifier "in declaration"
  return (.ofSpecifiers (specifiers.map Token.kind), name.text)

/-- Read one parameter. -/
def param : Parse Param := do
  let (type, name) ← declarator
  return ⟨name, type⟩

/-- Read the parameters between two parentheses: none, the word `void` alone for
none, or some separated by commas. -/
def params : Parse (List Param) := do
  if ← check .rightParen then return []
  else if (← check .kwVoid) && (← get).cursor.nextKind = .rightParen then
    let _ ← advance
    return []
  else
    let found ← loop (fun found : Array Param => do
      if ← check .comma then
        let _ ← advance
        return some (found.push (← param))
      else return none) #[← param]
    return found.toList

end Parse

namespace Stmt

/-- Read statements up to a closing brace, or to the end of the tokens. -/
def parseBody (inner : Inner) : Parse (List Stmt) :=
  Parse.collectUntil
    (return (← Parse.check .rightBrace) || (← Parse.check .eof))
    inner.statement

/-- Read the rest of a function after its name. -/
def parseFunction (inner : Inner) (type : DeclType) (name : String) :
    Parse Stmt := do
  let _ ← Parse.expect .leftParen "after function name"
  let params ← Parse.params
  let _ ← Parse.expect .rightParen "after parameters"
  let _ ← Parse.expect .leftBrace "before function body"
  let body ← parseBody inner
  let _ ← Parse.expect .rightBrace "after function body"
  return .function name type params body

/-- Read a declaration.  What follows the name decides: a semicolon ends it, a
parenthesis makes it a function, and otherwise there has to be an initial value,
which ends before a comma. -/
def parseDeclaration (inner : Inner) : Parse Stmt := do
  let (type, name) ← Parse.declarator
  match (← Parse.current).kind with
  | .semicolon =>
      let _ ← Parse.advance
      Parse.note (.uninitialized name)
      return .varDecl name type none
  | .leftParen =>
      Parse.note (.function name)
      parseFunction inner type name
  | _ =>
      let _ ← Parse.expect .assign "after declared name"
      let value ← inner.expression .assignment
      let _ ← Parse.expect .semicolon "after variable declaration"
      return .varDecl name type (some value)

end Stmt

end MiniC
