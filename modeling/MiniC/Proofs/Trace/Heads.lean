/-
The statements of a tree in the order in which they begin, and the tokens that they
begin with.
-/
import MiniC.Parse.Record
import MiniC.Proofs.Grammar.Statement

namespace MiniC

/-- The operators of an expression, from left to right. -/
def Expr.operators : Expr → List TokenKind
  | binary left operator right => left.operators ++ operator.kind :: right.operators
  | _ => []

namespace Stmt

mutual

/-- The statement and all statements inside it, each before those that are inside it. -/
def preorder : Stmt → List Stmt
  | block body => block body :: preorderAll body
  | function name type params body =>
      function name type params body :: preorderAll body
  | s => [s]

/-- The statements of a row and all inside them. -/
def preorderAll : List Stmt → List Stmt
  | [] => []
  | s :: rest => preorder s ++ preorderAll rest

end

/-- The operators of the expression that is part of the statement itself. -/
def operators : Stmt → List TokenKind
  | expression value | returning (some value) | varDecl _ _ (some value) => value.operators
  | _ => []

/-- Whether the statement is an expression. -/
def isExpression : Stmt → Bool
  | expression _ => true
  | _ => false

/-- The record of a declared name: of every function, and of every variable without an
initial value. -/
def declaration? : Stmt → Option Record
  | function name _ _ _ => some (.function name)
  | varDecl name _ none => some (.uninitialized name)
  | _ => none

/-- The statement has no statement inside it and is no expression. -/
def IsPlain : Stmt → Prop
  | block _ | function _ _ _ _ | expression _ => False
  | _ => True

theorem IsPlain.preorder {s : Stmt} (h : s.IsPlain) :
    s.preorder = [s] ∧ s.isExpression = false := by
  cases s with
  | block | function | expression => exact h.elim
  | _ => exact ⟨rfl, rfl⟩

theorem preorderAll_append (body more : List Stmt) :
    preorderAll (body ++ more) = preorderAll body ++ preorderAll more := by
  induction body with
  | nil => rfl
  | cons s body ih =>
      rw [List.cons_append, preorderAll, preorderAll, ih, List.append_assoc]

end Stmt

namespace Grammar

/-- `tokens` are the statements `body` in a row, and `heads` are all statements in the row
and inside it that are no expressions, each before those that are inside it and with the
token that it begins with. -/
inductive Headed : (tokens : List Token) → (body : List Stmt) →
    (heads : List (Token × Stmt)) → Prop
  | nil : Headed [] [] []
  | expression {tokens rest : List Token} {value : Expr} {n : Nat} {body : List Stmt}
      {heads : List (Token × Stmt)} :
      Statement tokens (.expression value) n → Headed rest body heads →
      Headed (tokens ++ rest) (.expression value :: body) heads
  | plain {first : Token} {more rest : List Token} {s : Stmt} {n : Nat} {body : List Stmt}
      {heads : List (Token × Stmt)} :
      Statement (first :: more) s n → s.IsPlain → Headed rest body heads →
      Headed (first :: (more ++ rest)) (s :: body) ((first, s) :: heads)
  | block {opening closing : Token} {inside rest : List Token} {body body' : List Stmt}
      {heads heads' : List (Token × Stmt)} :
      opening.kind = .leftBrace → Headed inside body heads → closing.kind = .rightBrace →
      Headed rest body' heads' →
      Headed (opening :: (inside ++ closing :: rest)) (.block body :: body')
        ((opening, .block body) :: (heads ++ heads'))
  | function {first opening closing openBrace closeBrace : Token}
      {more between inside rest : List Token} {type : DeclType} {name : String}
      {params : List Param} {body body' : List Stmt} {heads heads' : List (Token × Stmt)} :
      Declaration (first :: more) type name → opening.kind = .leftParen →
      Parameters between params → closing.kind = .rightParen →
      openBrace.kind = .leftBrace → Headed inside body heads →
      closeBrace.kind = .rightBrace → Headed rest body' heads' →
      Headed
        (first :: (more ++ opening ::
          (between ++ closing :: openBrace :: (inside ++ closeBrace :: rest))))
        (.function name type params body :: body')
        ((first, .function name type params body) :: (heads ++ heads'))

namespace Headed

variable {tokens rest : List Token} {body body' : List Stmt}
  {heads heads' : List (Token × Stmt)}

theorem append (h : Headed tokens body heads) (h' : Headed rest body' heads') :
    Headed (tokens ++ rest) (body ++ body') (heads ++ heads') := by
  induction h with
  | nil => exact h'
  | expression hstatement _ ih =>
      rw [List.append_assoc]
      exact .expression hstatement ih
  | plain hstatement hplain _ ih =>
      rw [List.cons_append, List.append_assoc]
      exact .plain hstatement hplain ih
  | block hopening hinside hclosing _ _ ih =>
      rw [List.cons_append, List.append_assoc, List.cons_append, List.cons_append,
        List.cons_append, List.append_assoc]
      exact .block hopening hinside hclosing ih
  | function hdeclaration hopening hparams hclosing hopenBrace hinside hcloseBrace _ _ ih =>
      have hfunction := Headed.function hdeclaration hopening hparams hclosing hopenBrace
        hinside hcloseBrace ih
      simpa using hfunction

/-- The heads are the statements of the tree that are no expressions. -/
theorem map_snd (h : Headed tokens body heads) :
    heads.map Prod.snd = (Stmt.preorderAll body).filter fun s => !s.isExpression := by
  induction h with
  | nil => rfl
  | expression _ _ ih => simpa [Stmt.preorderAll, Stmt.preorder, Stmt.isExpression] using ih
  | plain _ hplain _ ih =>
      obtain ⟨hpreorder, hexpression⟩ := hplain.preorder
      simp [Stmt.preorderAll, hpreorder, hexpression, ih]
  | block _ _ _ _ ih ih' | function _ _ _ _ _ _ _ _ ih ih' =>
      simp [Stmt.preorderAll, Stmt.preorder, Stmt.isExpression, ih, ih']

end Headed

end Grammar

end MiniC
