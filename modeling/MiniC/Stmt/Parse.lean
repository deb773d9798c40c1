/-
Reading statements.
-/
import MiniC.Registry.Basic
import MiniC.Stmt.Declaration
import MiniC.Text.Blank

namespace MiniC

namespace Include

/-- Remove the directive's own word from the front of a text, every time it
stands there. -/
def dropKeyword (text : List Char) : List Char :=
  match text with
  | '#' :: 'i' :: 'n' :: 'c' :: 'l' :: 'u' :: 'd' :: 'e' :: rest =>
      dropKeyword rest
  | _ => text

/-- The text between the first and the last character of a header name.  A
delimiter takes one byte; where something longer stands instead, there is no
name between. -/
def betweenEnds (header : List Char) : List Char :=
  match header.head?, header.tail.getLast? with
  | some first, some last =>
      if first.utf8Size = 1 ∧ last.utf8Size = 1 then header.tail.dropLast
      else []
  | _, _ => []

/-- Take a directive apart. -/
def ofText (text : String) : Include :=
  let header := trimBlanks (dropKeyword text.toList)
  ⟨text, String.ofList (betweenEnds header), header.head? == some '<'⟩

example : ofText "#include \t<a b>" = ⟨"#include \t<a b>", "a b", true⟩ := by
  decide

end Include

/-- Read a statement of a form that a token of its own announces. -/
def StatementForm.parse (inner : Inner) : StatementForm → Parse Stmt
  | .block => do
      let _ ← Parse.expect .leftBrace "to open block"
      let body ← Stmt.parseBody inner
      let _ ← Parse.expect .rightBrace "to close block"
      return .block body
  | .comment => do
      let token ← Parse.advance
      let kind : CommentKind :=
        if token.kind = .blockComment then .multiLine else .singleLine
      return .comment kind token.text
  | .includeDirective => do
      let token ← Parse.expect .includeDirective "to begin include"
      return .includeDirective (.ofText token.text)
  | .returning => do
      let _ ← Parse.expect .kwReturn "to begin return statement"
      let value ←
        if ← Parse.check .semicolon then pure none
        else some <$> inner.expression .default
      let _ ← Parse.expect .semicolon "after return value"
      return .returning value
  | .declaration => Stmt.parseDeclaration inner

/-- Read a statement.  If the token at the cursor announces no form, the
statement is an expression and a semicolon. -/
def Stmt.parse (registry : Registry) (inner : Inner) : Parse Stmt := do
  let token ← Parse.current
  match (registry.entry token.kind).statementForm? with
  | some form =>
      Parse.note (.statement token.kind token.location)
      form.parse inner
  | none =>
      let value ← inner.expression .default
      let _ ← Parse.expect .semicolon "after expression"
      return .expression value

end MiniC
