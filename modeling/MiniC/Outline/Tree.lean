/-
The outline of a syntax tree.
-/
import MiniC.Numeral.Printed
import MiniC.Outline.Basic
import MiniC.Stmt.Basic
import MiniC.Text.Quoted

namespace MiniC

namespace Outline

/-- A text in quotes. -/
def quoted (s : String) : Outline := leaf (Quoted.encode s)

/-- A whole number. -/
def number (n : Int) : Outline := leaf (toString n)

/-- A truth value. -/
def flag (b : Bool) : Outline := leaf (if b then "true" else "false")

/-- Something that may be absent. -/
def option (f : α → Outline) : Option α → Outline
  | some a => tuple "Some" [f a]
  | none => leaf "None"

end Outline

open Outline

/-- The outline of a token. -/
def Token.outline (token : Token) : Outline :=
  record "Token"
    [("kind", leaf token.kind.label), ("text", quoted token.text),
     ("line", number token.location.line),
     ("column", number token.location.column)]

/-- The outline of a type. -/
def DeclType.outline (type : DeclType) : Outline :=
  record "Type"
    [("var_type", leaf type.base.label), ("is_const", flag type.isConst),
     ("is_signed", flag type.isSigned),
     ("pointer_level", number type.pointerLevel)]

/-- The outline of a parameter. -/
def Param.outline (param : Param) : Outline :=
  record "Param"
    [("name", quoted param.name), ("param_type", param.type.outline)]

/-- The outline of an include directive. -/
def Include.outline (directive : Include) : Outline :=
  record "Include"
    [("text", quoted directive.text), ("target", quoted directive.target),
     ("system", flag directive.isSystem)]

/-- The outline of an expression. -/
def Expr.outline : Expr → Outline
  | integer value => tuple "Integer" [number value]
  | unsigned value => tuple "UnsignedInteger" [number value]
  | floating value =>
      tuple "Floating" [leaf (value.write Binary64.outlineLayout)]
  | character s => tuple "Character" [quoted s]
  | string s => tuple "String" [quoted s]
  | symbol name => tuple "Symbol" [quoted name]
  | binary left operator right =>
      record "Binary"
        [("left", left.outline), ("operator", operator.outline),
         ("right", right.outline)]

namespace Stmt

/-- The name of a comment's kind inside an outline. -/
def commentLabel : CommentKind → String
  | .singleLine => "SingleLine"
  | .multiLine => "MultiLine"

mutual

/-- The outline of a statement. -/
def outline : Stmt → Outline
  | block body => tuple "Block" [list (outlines body)]
  | expression value => tuple "Expression" [value.outline]
  | varDecl name type initial =>
      tuple "VarDecl"
        [record "VarDecl"
          [("name", quoted name), ("var_type", type.outline),
           ("assigned_expr", option Expr.outline initial)]]
  | function name type params body =>
      tuple "FunctionDecl"
        [record "FunctionDecl"
          [("name", quoted name), ("params", list (params.map Param.outline)),
           ("return_type", type.outline), ("body", list (outlines body))]]
  | returning value => tuple "Return" [option Expr.outline value]
  | comment kind s =>
      record "Comment" [("text", quoted s), ("kind", leaf (commentLabel kind))]
  | includeDirective directive => tuple "Include" [directive.outline]

/-- The outlines of statements in a row. -/
def outlines : List Stmt → List Outline
  | [] => []
  | s :: rest => outline s :: outlines rest

end

end Stmt

end MiniC
