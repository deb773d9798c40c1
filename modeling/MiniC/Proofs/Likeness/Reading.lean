/-
Whatever the registry is, reading takes the same course over tokens that are
alike: declarators, expressions, statements, programs and whole sessions.  Two
registries may take part, as long as they know the same about these tokens.
-/
import MiniC.Proofs.Likeness.Basic
import MiniC.Proofs.Progress
import MiniC.Session

namespace MiniC

open Parse

namespace Likeness

variable {L : Likeness}

theorem alike_tooDeep {α : Type} {V : α → α → Prop} :
    L.Alike V (tooDeep : Parse α) tooDeep :=
  alike_current.bind fun _ _ ht => alike_throw (L.nestingTooDeep ht)

variable (L)

/-- Names that are declared with one type. -/
def Declared (declared declared' : DeclType × String) : Prop :=
  declared'.1 = declared.1 ∧ L.text declared.2 declared'.2

variable {L}

theorem alike_declarator : L.Alike L.Declared declarator declarator := by
  refine (alike_takeWhile _).bind fun taken taken' htaken => ?_
  refine (alike_expect _ _).bind fun name name' hname => alike_pure ?_
  rw [map_kind_eq htaken]
  exact ⟨rfl, L.text_of hname⟩

theorem alike_param : L.Alike L.parameter param param :=
  alike_declarator.bind fun _ _ h => alike_pure ⟨h.2, h.1⟩

/-- Parameters found so far. -/
def parameters (L : Likeness) (found found' : Array Param) : Prop :=
  List.Forall₂ L.parameter found.toList found'.toList

theorem parameters_push {found found' : Array Param} {p p' : Param}
    (hfound : L.parameters found found') (hp : L.parameter p p') :
    L.parameters (found.push p) (found'.push p') := by
  rw [parameters, Array.toList_push, Array.toList_push]
  exact List.rel_append hfound (.cons hp .nil)

theorem alike_moreParams {found found' : Array Param}
    (hfound : L.parameters found found') :
    L.Alike (Option.Rel L.parameters) (moreParams found) (moreParams found') := by
  refine (alike_check _).bind fun b b' hb => ?_
  subst hb
  refine Alike.ite ?_ (alike_pure .none)
  refine alike_advance.bind fun _ _ _ => ?_
  exact alike_param.bind fun _ _ hp => alike_pure (.some (parameters_push hfound hp))

theorem alike_someParams :
    L.Alike (List.Forall₂ L.parameter) someParams someParams := by
  refine alike_param.bind fun p p' hp => ?_
  have hstart : L.parameters #[p] #[p'] := .cons hp .nil
  refine (alike_loop moreParams_progressing moreParams_progressing
    (fun _ _ => alike_moreParams) hstart).bind fun _ _ hfound => alike_pure hfound

/-- The word for no parameters is never an end marker, so what stands behind it
is alike as well. -/
theorem atVoid_iff {c c' : Cursor} (h : L.cursor c c') : c'.AtVoid ↔ c.AtVoid := by
  unfold Cursor.AtVoid
  rw [kind_current h]
  apply and_congr_right
  intro hword
  rw [kind_nextKind h (by rw [hword]; decide)]

theorem alike_voidOrSomeParams :
    L.Alike (List.Forall₂ L.parameter) voidOrSomeParams voidOrSomeParams := by
  intro s s' h
  rw [voidOrSomeParams_eq, voidOrSomeParams_eq]
  by_cases hvoid : s.cursor.AtVoid
  · rw [if_pos hvoid, if_pos ((atVoid_iff h).2 hvoid)]
    exact ⟨.nil, cursor_advance h⟩
  · rw [if_neg hvoid, if_neg (mt (atVoid_iff h).1 hvoid)]
    exact alike_someParams s s' h

theorem alike_params : L.Alike (List.Forall₂ L.parameter) Parse.params Parse.params := by
  rw [params_eq]
  refine (alike_check _).bind fun b b' hb => ?_
  subst hb
  exact (alike_pure .nil).ite alike_voidOrSomeParams

variable (L)

/-- The two registries know the same about tokens that are alike. -/
def AlikeRegistry (registry registry' : Registry) : Prop :=
  ∀ t t', L.token t t' → registry'.entry t'.kind = registry.entry t.kind

/-- The parses of the next level take the same course over alike tokens, and
neither moves the cursor back. -/
structure AlikeInner (inner inner' : Inner) : Prop where
  expression : ∀ floor,
    L.Alike L.expr (inner.expression floor) (inner'.expression floor)
  statement : L.Alike L.stmt inner.statement inner'.statement
  advances : inner.Advances
  advances' : inner'.Advances

variable {L} {registry registry' : Registry} {inner inner' : Inner}

theorem AlikeRegistry.refl (registry : Registry) :
    L.AlikeRegistry registry registry :=
  fun _ _ h => congrArg registry.entry (L.kind_eq h)

theorem AlikeRegistry.power_eq (h : L.AlikeRegistry registry registry')
    {t t' : Token} (ht : L.token t t') :
    registry'.power t'.kind = registry.power t.kind :=
  congrArg Entry.power (h t t' ht)

theorem alike_ofToken {t t' : Token} (h : L.token t t') :
    L.Alike L.expr
      (match Expr.ofToken t with
        | .ok e => pure e
        | .error e => throw e : Parse Expr)
      (match Expr.ofToken t' with
        | .ok e => pure e
        | .error e => throw e) := by
  have hvalue := L.ofToken h
  cases hfirst : Expr.ofToken t <;> cases hsecond : Expr.ofToken t' <;>
    rw [hfirst, hsecond] at hvalue
  · exact alike_throw hvalue
  · exact hvalue.elim
  · exact hvalue.elim
  · exact alike_pure hvalue

theorem alike_prefixForm (hinner : L.AlikeInner inner inner') (form : PrefixForm) :
    L.Alike L.expr (form.parse inner) (form.parse inner') := by
  cases form with
  | primary => exact alike_advance.bind fun _ _ => alike_ofToken
  | grouping =>
      refine (alike_expect _ _).bind fun _ _ _ => ?_
      refine (hinner.expression _).bind fun _ _ he => ?_
      exact (alike_expect _ _).bind fun _ _ _ => alike_pure he

theorem alike_infixForm (hregistry : L.AlikeRegistry registry registry')
    (hinner : L.AlikeInner inner inner') {left left' : Expr}
    (hleft : L.expr left left') (form : InfixForm) :
    L.Alike L.expr (form.parse registry inner left)
      (form.parse registry' inner' left') := by
  refine alike_advance.bind fun operator operator' hoperator => ?_
  have hfloor : form.rightFloor registry' operator'.kind =
      form.rightFloor registry operator.kind := by
    cases form with
    | binary => exact hregistry.power_eq hoperator
    | assignment => rfl
  rw [hfloor]
  exact (hinner.expression _).bind fun _ _ hright =>
    alike_pure (L.binary hleft hoperator hright)

/-- Whether an expression goes on depends on what is known about the kind of the
next token, and on which side of the floor its power is. -/
theorem ends_extend? (hregistry : L.AlikeRegistry registry registry')
    (hinner : L.AlikeInner inner inner') {floor floor' : Power} {left left' : Expr}
    (hleft : L.expr left left') {s s' : ParseState} (h : L.cursor s.cursor s'.cursor)
    (hfloor : registry.power s.cursor.kind ≤ floor' ↔
      registry.power s.cursor.kind ≤ floor) :
    L.Ends (Option.Rel L.expr) (Expr.extend? registry inner floor left s)
      (Expr.extend? registry' inner' floor' left' s') := by
  refine (alike_current s s' h).bind fun token token' t t' hrun htoken hcursor => ?_
  obtain ⟨rfl, rfl⟩ : s.cursor.current = token ∧ s = t := by
    cases hrun
    exact ⟨rfl, rfl⟩
  rw [hregistry.power_eq htoken, hregistry _ token' htoken]
  change registry.power s.cursor.current.kind ≤ floor' ↔ _ at hfloor
  by_cases hle : registry.power s.cursor.current.kind ≤ floor
  · simp only [hle, hfloor.2 hle, if_true]
    exact alike_pure .none s t' hcursor
  · simp only [hle, mt hfloor.1 hle, if_false]
    refine (alike_note _ _ s t' hcursor).bind fun _ _ t₁ t₁' _ _ hcursor => ?_
    cases (registry.entry s.cursor.current.kind).infixForm? with
    | none => exact alike_throw (L.missingInfix htoken) t₁ t₁' hcursor
    | some form =>
        exact (alike_infixForm hregistry hinner hleft form t₁ t₁' hcursor).bind
          fun _ _ t₂ t₂' _ he => alike_pure (.some he) t₂ t₂'

theorem alike_extend? (hregistry : L.AlikeRegistry registry registry')
    (hinner : L.AlikeInner inner inner') (floor : Power)
    {left left' : Expr} (hleft : L.expr left left') :
    L.Alike (Option.Rel L.expr) (Expr.extend? registry inner floor left)
      (Expr.extend? registry' inner' floor left') :=
  fun _ _ h => ends_extend? hregistry hinner hleft h Iff.rfl

theorem alike_extend (hregistry : L.AlikeRegistry registry registry')
    (hinner : L.AlikeInner inner inner') (floor : Power)
    {left left' : Expr} (hleft : L.expr left left') :
    L.Alike L.expr (Expr.extend registry inner floor left)
      (Expr.extend registry' inner' floor left') :=
  alike_loop (Expr.extend?_progressing hinner.advances floor)
    (Expr.extend?_progressing hinner.advances' floor)
    (fun _ _ => alike_extend? hregistry hinner floor) hleft

theorem alike_expression (hregistry : L.AlikeRegistry registry registry')
    (hinner : L.AlikeInner inner inner') (floor : Power) :
    L.Alike L.expr (Expr.parse registry inner floor)
      (Expr.parse registry' inner' floor) := by
  refine alike_current.bind fun token token' htoken => ?_
  rw [hregistry token token' htoken]
  cases (registry.entry token.kind).prefixForm? with
  | none => exact alike_throw (L.missingPrefix htoken)
  | some form =>
      exact (alike_prefixForm hinner form).bind fun _ _ =>
        alike_extend hregistry hinner floor

/-- Statements found so far, where some that are not compared were found
before. -/
def statements (L : Likeness) (before : List Stmt) (found found' : Array Stmt) :
    Prop :=
  ∃ body, found'.toList = before ++ body ∧ List.Forall₂ L.stmt found.toList body

theorem statements_push {before : List Stmt} {found found' : Array Stmt}
    {s s' : Stmt} (hfound : L.statements before found found') (hs : L.stmt s s') :
    L.statements before (found.push s) (found'.push s') := by
  obtain ⟨body, hbefore, hbody⟩ := hfound
  refine ⟨body ++ [s'], ?_, ?_⟩
  · rw [Array.toList_push, hbefore, List.append_assoc]
  · rw [Array.toList_push]
    exact List.rel_append hbody (.cons hs .nil)

/-- Where each statement of a row takes up tokens, the row takes the same course,
whatever was found before. -/
theorem alike_statements (hinner : L.AlikeInner inner inner') {stop : Parse Bool}
    (hprogress : Progressing (collectTurn stop inner.statement))
    (hprogress' : Progressing (collectTurn stop inner'.statement))
    (hstop : L.Alike Eq stop stop) {before : List Stmt} {found found' : Array Stmt}
    (hfound : L.statements before found found') :
    L.Alike (L.statements before)
      (loop (collectTurn stop inner.statement) found)
      (loop (collectTurn stop inner'.statement) found') := by
  apply alike_loop hprogress hprogress' _ hfound
  intro found found' hfound
  exact alike_collectTurn hstop hinner.statement fun _ _ => statements_push hfound

theorem alike_collectUntil (hinner : L.AlikeInner inner inner') {stop : Parse Bool}
    (hprogress : Progressing (collectTurn stop inner.statement))
    (hprogress' : Progressing (collectTurn stop inner'.statement))
    (hstop : L.Alike Eq stop stop) :
    L.Alike (List.Forall₂ L.stmt) (collectUntil stop inner.statement)
      (collectUntil stop inner'.statement) := by
  have hstart : L.statements [] #[] #[] := ⟨[], rfl, .nil⟩
  refine (alike_statements hinner hprogress hprogress' hstop hstart).bind ?_
  intro found found' hfound
  obtain ⟨body, hbody, halike⟩ := hfound
  rw [List.nil_append] at hbody
  exact alike_pure (hbody ▸ halike)

theorem alike_body (hinner : L.AlikeInner inner inner') :
    L.Alike (List.Forall₂ L.stmt) (Stmt.parseBody inner) (Stmt.parseBody inner') := by
  apply alike_collectUntil hinner
    (progressing_of_turns (bodyTurn_advances hinner.advances))
    (progressing_of_turns (bodyTurn_advances hinner.advances'))
  refine (alike_check _).bind fun b b' hb => ?_
  refine (alike_check _).bind fun e e' he => alike_pure ?_
  rw [hb, he]

theorem alike_function (hinner : L.AlikeInner inner inner')
    (type : DeclType) {name name' : String} (hname : L.text name name') :
    L.Alike L.stmt (Stmt.parseFunction inner type name)
      (Stmt.parseFunction inner' type name') := by
  refine (alike_expect _ _).bind fun _ _ _ => ?_
  refine alike_params.bind fun _ _ hparams => ?_
  refine (alike_expect _ _).bind fun _ _ _ => ?_
  refine (alike_expect _ _).bind fun _ _ _ => ?_
  refine (alike_body hinner).bind fun _ _ hbody => ?_
  exact (alike_expect _ _).bind fun _ _ _ =>
    alike_pure (L.function hname hparams hbody)

theorem alike_declaration (hinner : L.AlikeInner inner inner') :
    L.Alike L.stmt (Stmt.parseDeclaration inner) (Stmt.parseDeclaration inner') := by
  refine alike_declarator.bind ?_
  rintro ⟨type, name⟩ ⟨type', name'⟩ ⟨htype, hname⟩
  obtain rfl : type' = type := htype
  refine alike_current.bind fun token token' htoken => ?_
  rw [L.kind_eq htoken]
  split
  · refine alike_advance.bind fun _ _ _ => ?_
    refine (alike_note _ _).bind fun _ _ _ => alike_pure ?_
    exact L.varDecl hname .none
  · refine (alike_note _ _).bind fun _ _ _ => ?_
    exact alike_function hinner _ hname
  · refine (alike_expect _ _).bind fun _ _ _ => ?_
    refine (hinner.expression _).bind fun _ _ hvalue => ?_
    exact (alike_expect _ _).bind fun _ _ _ =>
      alike_pure (L.varDecl hname (.some hvalue))

theorem alike_returning (hinner : L.AlikeInner inner inner') :
    L.Alike L.stmt (StatementForm.parse inner .returning)
      (StatementForm.parse inner' .returning) := by
  have hlast : ∀ value value' : Option Expr, Option.Rel L.expr value value' →
      L.Alike L.stmt
        (do
          let _ ← expect .semicolon "after return value"
          return Stmt.returning value)
        (do
          let _ ← expect .semicolon "after return value"
          return Stmt.returning value') := fun _ _ hvalue =>
    (alike_expect _ _).bind fun _ _ _ => alike_pure (L.returning hvalue)
  refine (alike_expect _ _).bind fun _ _ _ => ?_
  refine (alike_check _).bind fun b b' hb => ?_
  subst hb
  refine Alike.ite ?_ ?_
  · exact (alike_pure .none).bind hlast
  · exact ((hinner.expression _).map fun _ _ => .some).bind hlast

theorem alike_statementForm (hinner : L.AlikeInner inner inner')
    (form : StatementForm) :
    L.Alike L.stmt (form.parse inner) (form.parse inner') := by
  cases form with
  | block =>
      refine (alike_expect _ _).bind fun _ _ _ => ?_
      refine (alike_body hinner).bind fun _ _ hbody => ?_
      exact (alike_expect _ _).bind fun _ _ _ => alike_pure (L.block hbody)
  | comment =>
      refine alike_advance.bind fun token token' htoken => alike_pure ?_
      rw [L.kind_eq htoken]
      exact L.comment (L.text_of htoken)
  | includeDirective =>
      exact (alike_expect _ _).bind fun _ _ htoken =>
        alike_pure (L.includeDirective (L.text_of htoken))
  | returning => exact alike_returning hinner
  | declaration => exact alike_declaration hinner

theorem alike_statement (hregistry : L.AlikeRegistry registry registry')
    (hinner : L.AlikeInner inner inner') :
    L.Alike L.stmt (Stmt.parse registry inner) (Stmt.parse registry' inner') := by
  refine alike_current.bind fun token token' htoken => ?_
  rw [hregistry token token' htoken]
  cases (registry.entry token.kind).statementForm? with
  | some form =>
      refine (alike_note _ _).bind fun _ _ _ => ?_
      exact alike_statementForm hinner form
  | none =>
      refine (hinner.expression _).bind fun _ _ hvalue => ?_
      exact (alike_expect _ _).bind fun _ _ _ =>
        alike_pure (L.expression hvalue)

/-- With any number of levels left, reading takes the same course over alike
tokens. -/
theorem alike_ofLevels (hregistry : L.AlikeRegistry registry registry')
    (levels : Nat) :
    L.AlikeInner (Inner.ofLevels registry levels)
      (Inner.ofLevels registry' levels) := by
  have hadvances := Inner.ofLevels_advances registry
  have hadvances' := Inner.ofLevels_advances registry'
  induction levels with
  | zero => exact ⟨fun _ => alike_tooDeep, alike_tooDeep, hadvances 0, hadvances' 0⟩
  | succ levels ih =>
      exact ⟨alike_expression hregistry ih, alike_statement hregistry ih,
        hadvances _, hadvances' _⟩

theorem alike_outermost (hregistry : L.AlikeRegistry registry registry') :
    L.AlikeInner registry.outermost registry'.outermost :=
  alike_ofLevels hregistry maxNesting

/-- The statements of a program, where some were found before. -/
theorem alike_programLoop (hregistry : L.AlikeRegistry registry registry')
    {before : List Stmt} {found found' : Array Stmt}
    (hfound : L.statements before found found') :
    L.Alike (L.statements before) (loop registry.programTurn found)
      (loop registry'.programTurn found') :=
  alike_statements (alike_outermost hregistry) registry.programTurn_progressing
    registry'.programTurn_progressing (alike_check _) hfound

theorem alike_program (hregistry : L.AlikeRegistry registry registry') :
    L.Alike L.stmt registry.parseProgram registry'.parseProgram :=
  (alike_collectUntil (alike_outermost hregistry) registry.programTurn_progressing
    registry'.programTurn_progressing (alike_check _)).bind
      fun _ _ hbody => alike_pure (L.block hbody)

variable (L)

/-- What two operations give is alike. -/
def node : Node → Node → Prop
  | .statement s, .statement s' => L.stmt s s'
  | .expression e, .expression e' => L.expr e e'
  | _, _ => False

/-- What two operations come to is alike. -/
def result : Except ParseError Node → Except ParseError Node → Prop
  | .ok n, .ok n' => L.node n n'
  | .error e, .error e' => L.error e e'
  | _, _ => False

variable {L}

theorem result_of_outcome {r r' : Except ParseError Node} (h : L.Outcome L.node r r') :
    L.result r r' := by
  cases r <;> cases r' <;> exact h

/-- An operation takes the same course, if a left operand that it is given is
like itself. -/
theorem alike_operation (hregistry : L.AlikeRegistry registry registry')
    (operation : Operation)
    (hleft : ∀ form left, operation = .infixForm form left → L.expr left left) :
    L.Alike L.node (operation.parse registry) (operation.parse registry') := by
  have hinner := alike_outermost hregistry
  cases operation with
  | program => exact (alike_program hregistry).map fun _ _ h => h
  | statement => exact hinner.statement.map fun _ _ h => h
  | expression floor => exact (hinner.expression floor).map fun _ _ h => h
  | prefixForm form => exact (alike_prefixForm hinner form).map fun _ _ h => h
  | infixForm form left =>
      exact (alike_infixForm hregistry hinner (hleft form left rfl) form).map
        fun _ _ h => h
  | statementForm form => exact (alike_statementForm hinner form).map fun _ _ h => h

/-- Over alike tokens a session goes the same way step by step. -/
theorem alike_session (hregistry : L.AlikeRegistry registry registry')
    {operations : List Operation}
    (hleft : ∀ form left, .infixForm form left ∈ operations → L.expr left left)
    {s s' : ParseState} (h : L.cursor s.cursor s'.cursor) :
    List.Forall₂ L.result (registry.session s operations)
      (registry'.session s' operations) := by
  induction operations generalizing s s' with
  | nil => exact .nil
  | cons operation operations ih =>
      have hfirst := alike_operation hregistry operation
        (fun form left hmem => hleft form left (hmem ▸ List.mem_cons_self))
      obtain ⟨houtcome, hcursor⟩ := (hfirst s s' h).run
      have hrest := ih (fun form left hmem =>
        hleft form left (List.mem_cons_of_mem _ hmem)) hcursor
      exact .cons (result_of_outcome houtcome) hrest

end Likeness

end MiniC
