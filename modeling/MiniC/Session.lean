/-
Sessions: several operations in turn on the same tokens.
-/
import MiniC.Program

namespace MiniC

/-- What a session can be asked for: a program, a statement or an expression, or
one particular form, in which case an infix form is given its left operand. -/
inductive Operation
  | program
  | statement
  | expression (floor : Power)
  | prefixForm (form : PrefixForm)
  | infixForm (form : InfixForm) (left : Expr)
  | statementForm (form : StatementForm)

/-- What an operation gives. -/
inductive Node
  | statement (s : Stmt)
  | expression (e : Expr)

namespace Operation

/-- Carry out an operation.  It begins with nothing open, whatever came
before. -/
def parse (registry : Registry) : Operation → Parse Node
  | program => .statement <$> registry.parseProgram
  | statement => .statement <$> registry.outermost.statement
  | expression floor => .expression <$> registry.outermost.expression floor
  | prefixForm form => .expression <$> form.parse registry.outermost
  | infixForm form left =>
      .expression <$> form.parse registry registry.outermost left
  | statementForm form => .statement <$> form.parse registry.outermost

end Operation

/-- Carry out operations in turn.  Each goes on where the one before it stopped,
whether that one failed or not. -/
def Registry.session (registry : Registry) :
    ParseState → List Operation → List (Except ParseError Node)
  | _, [] => []
  | state, operation :: operations =>
      let (result, next) := (operation.parse registry).run state
      result :: registry.session next operations

end MiniC
