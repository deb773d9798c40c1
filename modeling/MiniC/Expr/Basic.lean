/-
Expressions.
-/
import MiniC.Numeral.Binary64
import MiniC.Token.Basic

namespace MiniC

/-- An expression.  A character literal keeps its quotes, a string its escapes
as written.  An operation keeps its operator token, so a tree says where each of
its operators stands; parentheses leave no node. -/
inductive Expr
  | integer (value : Int)
  | unsigned (value : Nat)
  | floating (value : Binary64)
  | character (text : String)
  | string (text : String)
  | symbol (name : String)
  | binary (left : Expr) (operator : Token) (right : Expr)
deriving DecidableEq, Repr

namespace Expr

/-- Equality of expressions.  Floating values compare as numbers, operators with
their text and place. -/
def same : Expr → Expr → Bool
  | integer m, integer n => m == n
  | unsigned m, unsigned n => m == n
  | floating x, floating y => x.same y
  | character s, character t => s == t
  | string s, string t => s == t
  | symbol s, symbol t => s == t
  | binary l op r, binary l' op' r' => l.same l' && op == op' && r.same r'
  | _, _ => false

end Expr

end MiniC
