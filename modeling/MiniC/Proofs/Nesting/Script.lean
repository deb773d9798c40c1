/-
Scripts: parses in which it is left open how a statement or an expression one level
further in is read.  Every parse of the grammar performs its script, and the same
script can be performed with what stands inside counted.
-/
import MiniC.Proofs.Progress
import MiniC.Proofs.Session.Barrier

namespace MiniC

/-- A parse that stops wherever a statement or an expression stands inside, and goes on
with what is read there. -/
inductive Script (α : Type) : Type 1
  | done (a : α) : Script α
  | step {β : Type} (p : Parse β) (next : β → Script α) : Script α
  | statement (next : Stmt → Script α) : Script α
  | expression (floor : Power) (next : Expr → Script α) : Script α

/-- How a statement and an expression that stand inside are read. -/
structure Calls (m : Type → Type) where
  statement : m Stmt
  expression : (floor : Power) → m Expr

/-- The calls that a parse makes of the parses of the next level. -/
def Inner.calls (inner : Inner) : Calls Parse :=
  ⟨inner.statement, inner.expression⟩

namespace Script

variable {α β : Type}

/-- One script after another. -/
def bind : Script α → (α → Script β) → Script β
  | done a, f => f a
  | step p next, f => step p fun b => (next b).bind f
  | statement next, f => statement fun s => (next s).bind f
  | expression floor next, f => expression floor fun e => (next e).bind f

instance : Monad Script where
  pure := done
  bind := bind

instance : MonadLift Parse Script := ⟨fun p => step p done⟩

/-- Perform a script where tokens can be read and the calls are known. -/
def perform {m : Type → Type} [Monad m] [MonadLiftT Parse m] (calls : Calls m) :
    Script α → m α
  | done a => pure a
  | step p next => do (next (← p)).perform calls
  | statement next => do (next (← calls.statement)).perform calls
  | expression floor next => do (next (← calls.expression floor)).perform calls

section Perform

variable {m : Type → Type} [Monad m] [MonadLiftT Parse m] (calls : Calls m)

@[simp] theorem perform_pure (a : α) : (pure a : Script α).perform calls = pure a := rfl

variable [LawfulMonad m]

@[simp] theorem perform_bind (script : Script α) (f : α → Script β) :
    (script >>= f).perform calls =
      script.perform calls >>= fun a => (f a).perform calls := by
  change (script.bind f).perform calls = _
  induction script with
  | done a => rw [bind, perform, pure_bind]
  | step p next ih => simp only [bind, perform, bind_assoc, ih]
  | statement next ih => simp only [bind, perform, bind_assoc, ih]
  | expression floor next ih => simp only [bind, perform, bind_assoc, ih]

@[simp] theorem perform_map (script : Script α) (f : α → β) :
    (f <$> script).perform calls = f <$> script.perform calls := by
  change (script >>= fun a => pure (f a)).perform calls = _
  rw [perform_bind, map_eq_pure_bind]
  rfl

@[simp] theorem perform_lift (p : Parse α) :
    (liftM p : Script α).perform calls = liftM p :=
  bind_pure (liftM p)

@[simp] theorem perform_statement :
    (statement done).perform calls = calls.statement :=
  bind_pure _

@[simp] theorem perform_expression (floor : Power) :
    (expression floor done).perform calls = calls.expression floor :=
  bind_pure _

end Perform

/-- The script of repetition. -/
def repeatWithin (turn : β → Script (Option β)) : List Token → β → Script β
  | [], value => do return (← turn value).getD value
  | _ :: bound, value => do
      match ← turn value with
      | none => return value
      | some next => repeatWithin turn bound next

/-- The script of a loop. -/
def loop (turn : β → Script (Option β)) (start : β) : Script β := do
  repeatWithin turn (← (get : Parse ParseState)).cursor.rest start

/-- The script of collecting. -/
def collectUntil (stop : Parse Bool) (parse : Script α) : Script (List α) := do
  let found ← loop (fun found : Array α => do
    if ← stop then return none
    else return some (found.push (← parse))) #[]
  return found.toList

variable {inner : Inner}

theorem perform_repeatWithin (turn : β → Script (Option β)) (bound : List Token)
    (value : β) :
    (repeatWithin turn bound value).perform inner.calls =
      Parse.repeatWithin (fun value => (turn value).perform inner.calls) bound value := by
  induction bound generalizing value with
  | nil => exact perform_bind _ _ _
  | cons token bound ih =>
      rw [repeatWithin, Parse.repeatWithin, perform_bind]
      congr 1
      funext next
      cases next with
      | none => rfl
      | some next => exact ih next

theorem perform_loop (turn : β → Script (Option β)) (start : β) :
    (loop turn start).perform inner.calls =
      Parse.loop (fun value => (turn value).perform inner.calls) start := by
  funext s
  change (repeatWithin turn s.cursor.rest start).perform inner.calls s = _
  rw [perform_repeatWithin]
  rfl

theorem perform_collectUntil (stop : Parse Bool) (parse : Script α) :
    (collectUntil stop parse).perform inner.calls =
      Parse.collectUntil stop (parse.perform inner.calls) := by
  have hturn : ∀ found : Array α,
      (do
        if ← stop then return none
        else return some (found.push (← parse)) : Script (Option (Array α))).perform
          inner.calls =
        Parse.collectTurn stop (parse.perform inner.calls) found := by
    intro found
    rw [perform_bind, perform_lift, Parse.collectTurn]
    congr 1
    funext b
    cases b with
    | true => rfl
    | false => exact perform_bind _ _ _
  rw [collectUntil, perform_bind, perform_loop, Parse.collectUntil_eq, funext hturn]
  rfl

end Script

/-- The script of what an expression begins with.  A single token makes no calls. -/
def PrefixForm.script : PrefixForm → Script Expr
  | .primary => PrefixForm.parse .closed .primary
  | .grouping => do
      let _ ← Parse.expect .leftParen "to open grouped expression"
      let e ← Script.expression .default .done
      let _ ← Parse.expect .rightParen "to close grouped expression"
      return e

/-- The script of an operator and its right operand. -/
def InfixForm.script (registry : Registry) (left : Expr) (form : InfixForm) :
    Script Expr := do
  let operator ← Parse.advance
  let right ← .expression (form.rightFloor registry operator.kind) .done
  return .binary left operator right

namespace Expr

/-- The script of one step of an expression. -/
def extendScript? (registry : Registry) (floor : Power) (left : Expr) :
    Script (Option Expr) := do
  let token ← Parse.current
  let power := registry.power token.kind
  if power ≤ floor then return none
  else
    Parse.note (.continuing token.kind power floor)
    match (registry.entry token.kind).infixForm? with
    | none => (throw (.missingInfix token) : Parse (Option Expr))
    | some form => return some (← form.script registry left)

/-- The script of an expression. -/
def script (registry : Registry) (floor : Power) : Script Expr := do
  let token ← Parse.current
  match (registry.entry token.kind).prefixForm? with
  | none => (throw (.missingPrefix token) : Parse Expr)
  | some form => Script.loop (extendScript? registry floor) (← form.script)

end Expr

variable {inner : Inner}

open Script

theorem PrefixForm.perform_script (form : PrefixForm) :
    form.script.perform inner.calls = form.parse inner := by
  cases form with
  | primary => exact perform_lift _ _
  | grouping => simp [PrefixForm.script, PrefixForm.parse, Inner.calls]

theorem InfixForm.perform_script (registry : Registry) (left : Expr) (form : InfixForm) :
    (form.script registry left).perform inner.calls = form.parse registry inner left := by
  simp [InfixForm.script, InfixForm.parse, Inner.calls]

theorem Expr.perform_extendScript? (registry : Registry) (floor : Power) (left : Expr) :
    (extendScript? registry floor left).perform inner.calls =
      extend? registry inner floor left := by
  rw [extendScript?, extend?, perform_bind, perform_lift]
  congr 1
  funext token
  dsimp only
  by_cases hle : registry.power token.kind ≤ floor
  · rw [if_pos hle, if_pos hle, perform_pure]
  · rw [if_neg hle, if_neg hle, perform_bind, perform_lift]
    congr 1
    funext _
    cases (registry.entry token.kind).infixForm? with
    | none => rfl
    | some form => exact (perform_bind _ _ _).trans (by rw [form.perform_script]; rfl)

theorem Expr.perform_script (registry : Registry) (floor : Power) :
    (script registry floor).perform inner.calls = parse registry inner floor := by
  rw [script, parse, perform_bind, perform_lift]
  congr 1
  funext token
  cases (registry.entry token.kind).prefixForm? with
  | none => rfl
  | some form =>
      rw [perform_bind, form.perform_script]
      congr 1
      funext left
      rw [perform_loop, funext (perform_extendScript? registry floor)]
      rfl

namespace Stmt

/-- The script of the statements between braces. -/
def bodyScript : Script (List Stmt) :=
  Script.collectUntil atBodyEnd (.statement .done)

/-- The script of the rest of a function after its name. -/
def functionScript (type : DeclType) (name : String) : Script Stmt := do
  let _ ← Parse.expect .leftParen "after function name"
  let params ← Parse.params
  let _ ← Parse.expect .rightParen "after parameters"
  let _ ← Parse.expect .leftBrace "before function body"
  let body ← bodyScript
  let _ ← Parse.expect .rightBrace "after function body"
  return .function name type params body

/-- The script of a declaration. -/
def declarationScript : Script Stmt := do
  let (type, name) ← Parse.declarator
  match (← Parse.current).kind with
  | .semicolon =>
      let _ ← Parse.advance
      Parse.note (.uninitialized name)
      return .varDecl name type none
  | .leftParen =>
      Parse.note (.function name)
      functionScript type name
  | _ =>
      let _ ← Parse.expect .assign "after declared name"
      let value ← Script.expression .assignment .done
      let _ ← Parse.expect .semicolon "after variable declaration"
      return .varDecl name type (some value)

end Stmt

/-- The script of a statement of a form that a token of its own announces.  Comments
and directives make no calls. -/
def StatementForm.script : StatementForm → Script Stmt
  | .block => do
      let _ ← Parse.expect .leftBrace "to open block"
      let body ← Stmt.bodyScript
      let _ ← Parse.expect .rightBrace "to close block"
      return .block body
  | .comment => StatementForm.parse .closed .comment
  | .includeDirective => StatementForm.parse .closed .includeDirective
  | .returning => do
      let _ ← Parse.expect .kwReturn "to begin return statement"
      let value ←
        if ← Parse.check .semicolon then pure none
        else some <$> Script.expression .default .done
      let _ ← Parse.expect .semicolon "after return value"
      return .returning value
  | .declaration => Stmt.declarationScript

/-- The script of a statement. -/
def Stmt.script (registry : Registry) : Script Stmt := do
  let token ← Parse.current
  match (registry.entry token.kind).statementForm? with
  | some form =>
      Parse.note (.statement token.kind token.location)
      form.script
  | none =>
      let value ← Script.expression .default .done
      let _ ← Parse.expect .semicolon "after expression"
      return .expression value

/-- The script of an operation of a session. -/
def Operation.script (registry : Registry) : Operation → Script Node
  | program => .statement <$> do
      return .block (← Script.collectUntil (Parse.check .eof) (.statement .done))
  | statement => .statement <$> Script.statement .done
  | expression floor => .expression <$> Script.expression floor .done
  | prefixForm form => .expression <$> form.script
  | infixForm form left => .expression <$> form.script registry left
  | statementForm form => .statement <$> form.script

theorem Stmt.perform_bodyScript :
    bodyScript.perform inner.calls = parseBody inner := by
  rw [bodyScript, perform_collectUntil, perform_statement]
  rfl

theorem Stmt.perform_functionScript (type : DeclType) (name : String) :
    (functionScript type name).perform inner.calls = parseFunction inner type name := by
  simp [functionScript, parseFunction, perform_bodyScript]

theorem Stmt.perform_declarationScript :
    declarationScript.perform inner.calls = parseDeclaration inner := by
  rw [declarationScript, parseDeclaration, perform_bind, perform_lift]
  congr 1
  funext ⟨type, name⟩
  dsimp only
  rw [perform_bind, perform_lift]
  congr 1
  funext token
  generalize token.kind = kind
  by_cases hsemicolon : kind = .semicolon
  · subst hsemicolon
    rfl
  by_cases hparen : kind = .leftParen
  · subst hparen
    simp [perform_functionScript]
  · simp [Inner.calls]

theorem StatementForm.perform_script (form : StatementForm) :
    form.script.perform inner.calls = form.parse inner := by
  cases form with
  | block => simp [StatementForm.script, StatementForm.parse, Stmt.perform_bodyScript]
  | comment => exact perform_lift _ _
  | includeDirective => exact perform_lift _ _
  | returning =>
      simp only [StatementForm.script, StatementForm.parse, perform_bind, perform_lift]
      congr 1
      funext _
      congr 1
      funext b
      cases b <;> simp [Inner.calls]
  | declaration => exact Stmt.perform_declarationScript

/-- Every parse of the grammar performs its script. -/
theorem Stmt.perform_script (registry : Registry) :
    (script registry).perform inner.calls = parse registry inner := by
  rw [script, parse, perform_bind, perform_lift]
  congr 1
  funext token
  cases (registry.entry token.kind).statementForm? with
  | some form => simp [form.perform_script]
  | none => simp [Inner.calls]

theorem Operation.perform_script (registry : Registry) (operation : Operation) :
    (operation.script registry).perform inner.calls =
      operation.parseWithin registry inner := by
  cases operation with
  | program =>
      simp only [script, parseWithin, perform_map, perform_bind, perform_collectUntil,
        perform_statement]
      rfl
  | statement => simp [script, parseWithin, Inner.calls]
  | expression floor => simp [script, parseWithin, Inner.calls]
  | prefixForm form => simp [script, parseWithin, form.perform_script]
  | infixForm form left => simp [script, parseWithin, form.perform_script]
  | statementForm form => simp [script, parseWithin, form.perform_script]

end MiniC
