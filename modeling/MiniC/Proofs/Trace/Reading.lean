/-
Reading and its log: what is noted while an expression, a statement or a row of
statements is read is the account of its tree.
-/
import MiniC.Proofs.Statement.Sound
import MiniC.Proofs.Trace.Heads
import MiniC.Proofs.Trace.Notes

namespace MiniC

open Grammar Parse Registry

theorem Expr.operators_of_ofToken {token : Token} {value : Expr}
    (h : Expr.ofToken token = .ok value) : value.operators = [] := by
  cases value with
  | binary => exact absurd h Expr.ofToken_ne_binary
  | _ => rfl

/-- While an expression is read, its operators are noted and nothing else. -/
def NotesExpressions (inner : Inner) : Prop :=
  ∀ floor s, Yields (inner.expression floor) s fun e s' => Notes s s' e.operators [] []

variable {inner : Inner} {levels : Nat}

/-- A token that is asked for is passed, and nothing is noted. -/
theorem Parse.yields_expect {kind : TokenKind} (hkind : kind ≠ .eof) (context : String)
    (s : ParseState) :
    Yields (expect kind context) s fun token s' =>
      token.kind = kind ∧ s.cursor.Passes [token] s'.cursor ∧ s'.log = s.log :=
  (expect_spec hkind context s).yields

theorem PrefixForm.parse_notes (hinner : NotesExpressions inner) (form : PrefixForm)
    (s : ParseState) :
    Yields (form.parse inner) s fun e s' => Notes s s' e.operators [] [] := by
  cases form with
  | primary =>
      rw [Yields, PrefixForm.parse, ensures_bind, ensures_advance]
      cases hvalue : Expr.ofToken s.cursor.current with
      | error e => trivial
      | ok value =>
          rw [ensures_pure, Expr.operators_of_ofToken hvalue]
          exact .of_log_eq rfl
  | grouping =>
      unfold PrefixForm.parse
      refine (quiet_expect _ _ s).bind fun _ s₁ hlog₁ => ?_
      refine (hinner .default s₁).bind fun e s₂ hnotes => ?_
      refine (quiet_expect _ _ s₂).bind fun _ s₃ hlog₃ => ?_
      rw [yields_pure]
      exact hnotes.within hlog₁ hlog₃

/-- An operator is noted behind those of its left operand and before those of its right
operand. -/
theorem Expr.extend?_notes (hinner : NotesExpressions inner) (floor : Power) {start : ParseState}
    {left : Expr} {s : ParseState} (hleft : Notes start s left.operators [] []) :
    Yields (Expr.extend? standard inner floor left) s fun next s' =>
      Notes start s' (next.getD left).operators [] [] := by
  rw [Yields, Expr.extend?, ensures_bind, ensures_current, ensures_ite]
  split
  · exact hleft
  next hfloor =>
  rw [ensures_bind, ensures_note]
  cases hform : (standard.entry s.cursor.current.kind).infixForm? with
  | none => trivial
  | some form =>
      rw [ensures_bind, InfixForm.parse, ensures_bind, ensures_advance]
      refine (hinner _ _).bind fun right s' hright => ?_
      have hlt : floor < standard.power s.cursor.current.kind := Nat.lt_of_not_le hfloor
      have hrecord : (Record.continuing s.cursor.current.kind
          (standard.power s.cursor.current.kind) floor).Sound := ⟨rfl, hlt⟩
      have hall := (hleft.trans (.push hrecord)).trans hright
      rw [List.append_assoc] at hall
      exact hall

theorem Expr.parse_notes (hinner : NotesExpressions inner) (floor : Power) (s : ParseState) :
    Yields (Expr.parse standard inner floor) s fun e s' => Notes s s' e.operators [] [] := by
  rw [Yields, Expr.parse, ensures_bind, ensures_current]
  cases (standard.entry s.cursor.current.kind).prefixForm? with
  | none => trivial
  | some form =>
      refine (form.parse_notes hinner s).bind fun left s₁ hleft => ?_
      exact yields_loop (fun (e : Expr) s' => Notes s s' e.operators [] [])
        (fun _ _ h => Expr.extend?_notes hinner floor h) hleft

theorem expression_notes (levels : Nat) : NotesExpressions (.ofLevels standard levels) := by
  induction levels with
  | zero => exact fun _ _ => trivial
  | succ levels ih => exact Expr.parse_notes ih

/-- The record that announces a statement by the token that it begins with. -/
def Record.announcing (head : Token × Stmt) : Record :=
  .statement head.1.kind head.1.location

/-- Since `start` the statements were passed, and the log grew by their account. -/
def Recounts (start : ParseState) (body : List Stmt) (s : ParseState) : Prop :=
  ∃ tokens heads, start.cursor.Passes tokens s.cursor ∧ Headed tokens body heads ∧
    Notes start s ((Stmt.preorderAll body).flatMap Stmt.operators)
      (heads.map Record.announcing) ((Stmt.preorderAll body).filterMap Stmt.declaration?)

theorem Recounts.nil (s : ParseState) : Recounts s [] s :=
  ⟨[], [], .refl _, .nil, .of_log_eq rfl⟩

theorem Recounts.append {start s s' : ParseState} {body more : List Stmt}
    (h : Recounts start body s) (h' : Recounts s more s') :
    Recounts start (body ++ more) s' := by
  obtain ⟨tokens, heads, hpasses, hheaded, hnotes⟩ := h
  obtain ⟨tokens', heads', hpasses', hheaded', hnotes'⟩ := h'
  refine ⟨_, _, hpasses.trans hpasses', hheaded.append hheaded', ?_⟩
  rw [Stmt.preorderAll_append, List.flatMap_append, List.map_append, List.filterMap_append]
  exact hnotes.trans hnotes'

/-- What reading comes to, and what it notes, while `levels` more levels may be opened. -/
structure RecountsInner (inner : Inner) (levels : Nat) : Prop where
  sound : SoundInner inner levels
  expression : NotesExpressions inner
  statement : ∀ s, Yields inner.statement s fun statement => Recounts s [statement]

theorem Parse.collectUntil_recounts (hinner : RecountsInner inner levels) {stop : Parse Bool}
    {test : ParseState → Bool} (hstop : ∀ s, stop s = .ok (test s) s) (s : ParseState) :
    Yields (collectUntil stop inner.statement) s (Recounts s) :=
  yields_collectUntil hstop (Recounts s)
    (fun _ s₁ h => (hinner.statement s₁).mono fun _ _ h' => h.append h') (.nil s)

theorem Stmt.parseBody_recounts (hinner : RecountsInner inner levels) (s : ParseState) :
    Yields (Stmt.parseBody inner) s (Recounts s) := by
  have hstop : ∀ s, (do return (← check .rightBrace) || (← check .eof)) s =
      .ok (s.cursor.kind = .rightBrace || s.cursor.kind = .eof : Bool) s := fun _ => rfl
  exact collectUntil_recounts hinner hstop s

/-- The same for a statement of its own form, when it has been announced already. -/
def RecountsAnnounced (start : ParseState) (statement : Stmt) (s : ParseState) : Prop :=
  ∃ tokens heads, start.cursor.Passes tokens s.cursor ∧
    Headed tokens [statement] ((start.cursor.current, statement) :: heads) ∧
    Notes start s (statement.preorder.flatMap Stmt.operators) (heads.map Record.announcing)
      (statement.preorder.filterMap Stmt.declaration?)

/-- A statement without statements inside it notes its operators and what it declares. -/
def NotesPlain (start : ParseState) (statement : Stmt) (s : ParseState) : Prop :=
  statement.IsPlain ∧
    Notes start s statement.operators [] ([statement].filterMap Stmt.declaration?)

theorem NotesPlain.recountsAnnounced {start s : ParseState} {statement : Stmt}
    (h : NotesPlain start statement s) {tokens : List Token} {n : Nat}
    (hstatement : Statement tokens statement n)
    (hpasses : start.cursor.Passes tokens s.cursor) : RecountsAnnounced start statement s := by
  obtain ⟨hplain, hnotes⟩ := h
  obtain ⟨first, more, rfl⟩ := List.exists_cons_of_ne_nil hstatement.ne_nil
  obtain ⟨hpreorder, _⟩ := hplain.preorder
  have hheaded := Headed.plain hstatement hplain .nil
  rw [List.append_nil] at hheaded
  refine ⟨_, [], hpasses, ?_, ?_⟩
  · rwa [hpasses.current_eq]
  · rw [hpreorder, List.flatMap_singleton]
    exact hnotes

theorem StatementForm.parse_block_recounts (hinner : RecountsInner inner levels)
    (s : ParseState) :
    Yields (StatementForm.parse inner .block) s (RecountsAnnounced s) := by
  unfold StatementForm.parse
  refine (yields_expect (by decide) _ s).bind fun opening s₁ hread => ?_
  obtain ⟨hopening, hpasses₁, hlog₁⟩ := hread
  refine (Stmt.parseBody_recounts hinner s₁).bind fun body s₂ hread => ?_
  obtain ⟨inside, heads, hpasses₂, hheaded, hnotes⟩ := hread
  refine (yields_expect (by decide) _ s₂).bind fun closing s₃ hread => ?_
  obtain ⟨hclosing, hpasses₃, hlog₃⟩ := hread
  have hblock := Headed.block hopening hheaded hclosing .nil
  rw [List.append_nil] at hblock
  rw [← hpasses₁.current_eq] at hblock hpasses₁
  exact ⟨_, heads, hpasses₁.trans (hpasses₂.trans hpasses₃), hblock,
    hnotes.within hlog₁ hlog₃⟩

theorem StatementForm.parse_returning_notes (hinner : NotesExpressions inner)
    (s : ParseState) : Yields (StatementForm.parse inner .returning) s (NotesPlain s) := by
  unfold StatementForm.parse
  refine (quiet_expect _ _ s).bind fun _ s₁ hlog₁ => ?_
  have hsemicolon : ∀ value s₂, Notes s₁ s₂ (Stmt.returning value).operators [] [] →
      Yields (do
        let _ ← expect .semicolon "after return value"
        return .returning value) s₂ (NotesPlain s) := by
    intro value s₂ hnotes
    refine (quiet_expect _ _ s₂).bind fun _ s₃ hlog₃ => ?_
    exact ⟨trivial, hnotes.within hlog₁ hlog₃⟩
  rw [Yields, ensures_bind, ensures_check]
  split
  · exact hsemicolon none s₁ (.of_log_eq rfl)
  · rw [ensures_bind, ensures_map]
    exact (hinner .default s₁).mono fun value s₂ hnotes => hsemicolon (some value) s₂ hnotes

/-- Behind its name, a function notes what its body notes. -/
theorem Stmt.parseFunction_recounts (hinner : RecountsInner inner levels) (type : DeclType)
    (name : String) {start s : ParseState} {first : Token} {more : List Token}
    (hdeclaration : Declaration (first :: more) type name)
    (hpasses : start.cursor.Passes (first :: more) s.cursor)
    (hnotes : Notes start s [] [] [.function name]) :
    Yields (Stmt.parseFunction inner type name) s (RecountsAnnounced start) := by
  unfold Stmt.parseFunction
  refine (yields_expect (by decide) _ s).bind fun opening s₁ hread => ?_
  obtain ⟨hopening, hpasses₁, hlog₁⟩ := hread
  refine ((params_spec s₁).yields.and (quiet_params s₁)).bind fun params s₂ hread => ?_
  obtain ⟨⟨between, hparams, hpasses₂⟩, hlog₂⟩ := hread
  refine (yields_expect (by decide) _ s₂).bind fun closing s₃ hread => ?_
  obtain ⟨hclosing, hpasses₃, hlog₃⟩ := hread
  refine (yields_expect (by decide) _ s₃).bind fun openBrace s₄ hread => ?_
  obtain ⟨hopenBrace, hpasses₄, hlog₄⟩ := hread
  refine (Stmt.parseBody_recounts hinner s₄).bind fun body s₅ hread => ?_
  obtain ⟨inside, heads, hpasses₅, hheaded, hnotes₅⟩ := hread
  refine (yields_expect (by decide) _ s₅).bind fun closeBrace s₆ hread => ?_
  obtain ⟨hcloseBrace, hpasses₆, hlog₆⟩ := hread
  have hfunction := Headed.function hdeclaration hopening hparams hclosing hopenBrace hheaded
    hcloseBrace .nil
  have hlog := hlog₄.trans (hlog₃.trans (hlog₂.trans hlog₁))
  have hall := hnotes.trans (hnotes₅.within hlog hlog₆)
  rw [List.append_nil] at hfunction
  have hthrough := hpasses.trans (hpasses₁.trans (hpasses₂.trans
    (hpasses₃.trans (hpasses₄.trans (hpasses₅.trans hpasses₆)))))
  rw [← hpasses.current_eq] at hfunction hthrough
  exact ⟨_, heads, by simpa using hthrough, hfunction, hall⟩

theorem Stmt.parseDeclaration_recounts (hinner : RecountsInner inner levels) (s : ParseState)
    (hkind : s.cursor.kind ∈ declarationKinds) :
    Yields (Stmt.parseDeclaration inner) s fun statement s' =>
      NotesPlain s statement s' ∨ RecountsAnnounced s statement s' := by
  unfold Stmt.parseDeclaration
  refine ((declarator_spec s).yields.and (quiet_declarator s)).bind ?_
  rintro ⟨type, name⟩ s₁ ⟨⟨tokens, hdeclarator, hpasses⟩, hlog⟩
  have hdeclaration := hdeclarator.declaration hpasses hkind
  rw [Yields, ensures_bind, ensures_current]
  split
  · rw [ensures_bind, ensures_advance, ensures_bind, ensures_note, ensures_pure]
    exact .inl ⟨trivial, (Notes.of_log_eq hlog).trans (.push trivial)⟩
  · rw [ensures_bind, ensures_note]
    obtain ⟨first, more, rfl, _⟩ := hdeclarator.exists_cons
    have hfunction := Stmt.parseFunction_recounts
      (s := ⟨s₁.cursor, s₁.log.push (.function name)⟩) hinner type name hdeclaration hpasses
      ((Notes.of_log_eq hlog).trans (.push trivial))
    exact hfunction.mono fun _ _ h => .inr h
  · refine (quiet_expect _ _ s₁).bind fun _ s₂ hlog₂ => ?_
    refine (hinner.expression .assignment s₂).bind fun value s₃ hnotes => ?_
    refine (quiet_expect _ _ s₃).bind fun _ s₄ hlog₄ => ?_
    exact .inl ⟨trivial, hnotes.within (hlog₂.trans hlog) hlog₄⟩

theorem StatementForm.parse_recounts (hinner : RecountsInner inner levels)
    {form : StatementForm} {s : ParseState}
    (hform : (standard.entry s.cursor.kind).statementForm? = some form) :
    Yields (form.parse inner) s (RecountsAnnounced s) := by
  have hnotes : Yields (form.parse inner) s fun statement s' =>
      NotesPlain s statement s' ∨ RecountsAnnounced s statement s' := by
    cases form with
    | block => exact (parse_block_recounts hinner s).mono fun _ _ => .inr
    | comment => exact .inl ⟨trivial, .of_log_eq rfl⟩
    | includeDirective =>
        unfold StatementForm.parse
        exact (quiet_expect _ _ s).bind fun _ _ hlog => .inl ⟨trivial, .of_log_eq hlog⟩
    | returning => exact (parse_returning_notes hinner.expression s).mono fun _ _ => .inl
    | declaration =>
        exact Stmt.parseDeclaration_recounts hinner s
          (mem_declarationKinds_of_declaration hform)
  refine (hnotes.and (parse_sound hinner.sound hform).yields).mono ?_
  rintro statement s' ⟨hplain | hannounced, tokens, n, hstatement, _, hpasses⟩
  · exact hplain.recountsAnnounced hstatement hpasses
  · exact hannounced

/-- A statement of its own form is announced before all that it notes itself. -/
theorem Stmt.parse_recounts (hinner : RecountsInner inner levels) (s : ParseState) :
    Yields (Stmt.parse standard inner) s fun statement => Recounts s [statement] := by
  rw [Yields, Stmt.parse, ensures_bind, ensures_current]
  cases hform : (standard.entry s.cursor.current.kind).statementForm? with
  | some form =>
      rw [ensures_bind, ensures_note]
      have hrecord : (Record.statement s.cursor.current.kind
          s.cursor.current.location).Sound := trivial
      refine (form.parse_recounts hinner (s := ⟨s.cursor, s.log.push
        (.statement s.cursor.current.kind s.cursor.current.location)⟩) hform).mono ?_
      intro statement s' hread
      obtain ⟨tokens, heads, hpasses, hheaded, hnotes⟩ := hread
      refine ⟨tokens, _, hpasses, hheaded, ?_⟩
      rw [preorderAll, preorderAll, List.append_nil]
      exact (Notes.push hrecord).trans hnotes
  | none =>
      refine ((hinner.sound.expression .default s).yields.and
        (hinner.expression .default s)).bind fun value s₁ hread => ?_
      obtain ⟨⟨tokens, n, hvalue, _, hpasses₁, _⟩, hnotes⟩ := hread
      refine (yields_expect (by decide) _ s₁).bind fun semicolon s₂ hread => ?_
      obtain ⟨hsemicolon, hpasses₂, hlog₂⟩ := hread
      have hheaded := Headed.expression (.expression hvalue hsemicolon) .nil
      rw [List.append_nil] at hheaded
      refine ⟨_, _, hpasses₁.trans hpasses₂, hheaded, ?_⟩
      exact hnotes.trans (.of_log_eq hlog₂)

theorem inner_recounts (levels : Nat) :
    RecountsInner (.ofLevels standard levels) levels := by
  induction levels with
  | zero => exact ⟨inner_sound 0, expression_notes 0, fun _ => trivial⟩
  | succ levels ih =>
      exact ⟨inner_sound (levels + 1), expression_notes (levels + 1),
        fun s => Stmt.parse_recounts ih s⟩

end MiniC
