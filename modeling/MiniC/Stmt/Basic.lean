/-
Statements.
-/
import MiniC.DeclType
import MiniC.Expr.Basic

namespace MiniC

/-- A parameter of a function. -/
structure Param where
  name : String
  type : DeclType
deriving DecidableEq, Repr

/-- The two ways to write a comment. -/
inductive CommentKind
  | singleLine | multiLine
deriving DecidableEq, Repr

/-- An include directive: the whole of it as written, the name of the header,
and whether the name stands between angle brackets. -/
structure Include where
  text : String
  target : String
  isSystem : Bool
deriving DecidableEq, Repr

/-- A statement.  A program is a block. -/
inductive Stmt
  | block (body : List Stmt)
  | expression (value : Expr)
  | varDecl (name : String) (type : DeclType) (initial : Option Expr)
  | function (name : String) (type : DeclType) (params : List Param)
      (body : List Stmt)
  | returning (value : Option Expr)
  | comment (kind : CommentKind) (text : String)
  | includeDirective (directive : Include)

namespace Stmt

/-- The statements of a block. -/
def asBlock? : Stmt → Option (List Stmt)
  | block body => some body
  | _ => none

/-- Equality of expressions that may be absent. -/
def sameValue : Option Expr → Option Expr → Bool
  | some e, some f => e.same f
  | none, none => true
  | _, _ => false

mutual

/-- Equality of statements, by the equality of their expressions. -/
def same : Stmt → Stmt → Bool
  | block body, block body' => sameAll body body'
  | expression e, expression f => e.same f
  | varDecl name type initial, varDecl name' type' initial' =>
      name == name' && type == type' && sameValue initial initial'
  | function name type params body, function name' type' params' body' =>
      name == name' && type == type' && params == params' && sameAll body body'
  | returning value, returning value' => sameValue value value'
  | comment kind text, comment kind' text' => kind == kind' && text == text'
  | includeDirective d, includeDirective d' => d == d'
  | _, _ => false

/-- Equality of statements in a row. -/
def sameAll : List Stmt → List Stmt → Bool
  | [], [] => true
  | s :: rest, s' :: rest' => same s s' && sameAll rest rest'
  | _, _ => false

end

end Stmt

end MiniC
