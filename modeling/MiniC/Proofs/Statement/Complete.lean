/-
Every statement of the grammar is read, as far as the levels for it suffice.
-/
import MiniC.Proofs.Expression.Complete
import MiniC.Proofs.Statement.Sound

namespace MiniC

open Grammar Parse Registry

namespace Grammar

/-- An expression begins with what is an expression by itself, or with a
parenthesis. -/
theorem Phrase.WellFormed.exists_cons {phrase : Phrase} (h : phrase.WellFormed) :
    ∃ first rest, phrase.yield = first :: rest ∧
      (first.kind ∈ primaryKinds ∨ first.kind = .leftParen) := by
  induction h with
  | leaf hvalue =>
      exact ⟨_, [], rfl, Or.inl (Expr.mem_primaryKinds_of_ofToken hvalue)⟩
  | grouped hopening _ _ _ => exact ⟨_, _, rfl, Or.inr hopening⟩
  | leftward _ _ _ _ _ ihleft _ =>
      obtain ⟨first, rest, hyield, hfirst⟩ := ihleft
      exact ⟨first, _, by rw [Phrase.yield, hyield]; rfl, hfirst⟩
  | assigning _ _ _ _ _ ihleft _ =>
      obtain ⟨first, rest, hyield, hfirst⟩ := ihleft
      exact ⟨first, _, by rw [Phrase.yield, hyield]; rfl, hfirst⟩

theorem Expression.exists_cons {floor : Power} {tokens : List Token} {e : Expr}
    {n : Nat} (h : Expression floor tokens e n) :
    ∃ first rest, tokens = first :: rest ∧
      (first.kind ∈ primaryKinds ∨ first.kind = .leftParen) := by
  obtain ⟨phrase, hphrase, _, rfl, _, _⟩ := h
  exact hphrase.exists_cons

/-- No statement begins with the brace that closes a block. -/
theorem Statement.exists_cons {tokens : List Token} {statement : Stmt} {n : Nat}
    (h : Statement tokens statement n) :
    ∃ first rest, tokens = first :: rest ∧ first.kind ≠ .rightBrace := by
  have hdeclaration : ∀ {tokens type name}, Declaration tokens type name →
      ∀ more, ∃ first rest, tokens ++ more = first :: rest ∧
        first.kind ≠ .rightBrace := by
    intro tokens type name h more
    obtain ⟨_, first, rest, rfl, hfirst, _⟩ := h
    refine ⟨first, rest ++ more, rfl, ?_⟩
    intro hbrace
    rw [hbrace] at hfirst
    exact absurd hfirst (by decide)
  cases h with
  | block hopening _ _ => exact ⟨_, _, rfl, by rw [hopening]; decide⟩
  | leaving hword _ => exact ⟨_, _, rfl, by rw [hword]; decide⟩
  | returning hword _ _ => exact ⟨_, _, rfl, by rw [hword]; decide⟩
  | lineComment htoken => exact ⟨_, _, rfl, by rw [htoken]; decide⟩
  | blockComment htoken => exact ⟨_, _, rfl, by rw [htoken]; decide⟩
  | includeDirective htoken _ _ => exact ⟨_, _, rfl, by rw [htoken]; decide⟩
  | declared h _ => exact hdeclaration h _
  | initialized h _ _ _ => exact hdeclaration h _
  | function h _ _ _ _ _ _ => exact hdeclaration h _
  | expression hvalue _ =>
      obtain ⟨first, rest, rfl, hfirst⟩ := hvalue.exists_cons
      refine ⟨first, _, rfl, ?_⟩
      intro hbrace
      rw [hbrace] at hfirst
      exact absurd hfirst (by decide)

/-- A statement opens a level for itself. -/
theorem Statement.levels_pos {tokens : List Token} {statement : Stmt} {n : Nat}
    (h : Statement tokens statement n) : 0 < n := by
  cases h <;> exact Nat.succ_pos _

end Grammar

/-- What reading an expression or a statement of the grammar comes to while
`levels` more levels may be opened. -/
structure CompleteInner (inner : Inner) (levels : Nat) : Prop where
  expression : CompleteExpressions inner levels
  statement : ∀ {tokens statement n}, Statement tokens statement n →
    ∀ {s : ParseState} {stop}, s.cursor.Passes tokens stop →
      Ensures inner.statement s
        (fun statement' s' => n ≤ levels ∧ statement' = statement ∧
          s'.cursor = stop)
        (Deep levels n)

variable {inner : Inner} {levels : Nat}

/-- Some of a row of statements has been read, and what is left of it leads to
the last place.  The rest is within the levels exactly when all of the row is. -/
def Parse.Underway (levels n : Nat) (body : List Stmt) (last : Cursor)
    (found : List Stmt) (s : ParseState) : Prop :=
  ∃ rest items n', Sequence Statement rest items n' ∧
    s.cursor.Passes rest last ∧ found ++ items = body ∧
    (n' ≤ levels ↔ n ≤ levels)

/-- Where statements have to stop, nothing is left of the row. -/
theorem Parse.Underway.done {n : Nat} {body found : List Stmt} {last : Cursor}
    {s : ParseState} (h : Underway levels n body last found s)
    (hend : s.cursor.kind = .rightBrace ∨ s.cursor.kind = .eof) :
    n ≤ levels ∧ found = body ∧ s.cursor = last := by
  obtain ⟨rest, items, n', hrest, hpasses, rfl, hlevels⟩ := h
  cases hrest with
  | nil =>
      exact ⟨hlevels.1 (Nat.zero_le _), (List.append_nil _).symm,
        (Cursor.passes_nil_iff.1 hpasses).symm⟩
  | cons hitem _ =>
      obtain ⟨first, rest', rfl, hfirst⟩ := hitem.exists_cons
      have hkind := hpasses.kind_eq
      have heof := hpasses.kind_ne_eof List.mem_cons_self
      rcases hend with h | h
      · exact absurd (hkind.symm.trans h) hfirst
      · exact absurd (hkind.symm.trans h) heof

/-- Short of the last place, the next statement of the row is read. -/
theorem Parse.Underway.next (hinner : CompleteInner inner levels) {n : Nat}
    {body found : List Stmt} {last : Cursor} {s : ParseState}
    (h : Underway levels n body last found s) (hgo : s.cursor ≠ last) :
    Ensures inner.statement s
      (fun statement s' => Underway levels n body last (found ++ [statement]) s' ∧
        s'.cursor.ahead.length < s.cursor.ahead.length)
      (Deep levels n) := by
  obtain ⟨rest, items, n', hrest, hpasses, rfl, hlevels⟩ := h
  cases hrest with
  | nil => exact absurd (Cursor.passes_nil_iff.1 hpasses).symm hgo
  | cons hitem hitems =>
      obtain ⟨middle, hbefore, hafter⟩ := hpasses.split
      obtain ⟨first, rest', rfl, _⟩ := hitem.exists_cons
      rw [Nat.max_le] at hlevels
      apply (hinner.statement hitem hbefore).mono
      · intro _ s' hread
        obtain ⟨hn, rfl, rfl⟩ := hread
        refine ⟨⟨_, _, _, hitems, hafter, ?_, ?_⟩, hbefore.length_lt⟩
        · rw [List.append_assoc, List.singleton_append]
        · rw [← hlevels]
          exact ⟨fun h => ⟨hn, h⟩, fun h => h.2⟩
      · intro e s' herror
        obtain ⟨hn, hdeep⟩ := herror
        refine ⟨Nat.lt_of_not_le fun h => ?_, hdeep⟩
        exact Nat.not_le_of_lt hn (hlevels.2 h).1

/-- Statements in a row are read to the last, up to where they have to stop. -/
theorem Parse.statements_complete (hinner : CompleteInner inner levels)
    (stop : Parse Bool) (test : ParseState → Bool)
    (hstop : ∀ s, stop s = .ok (test s) s)
    (htest : ∀ s, test s = true →
      s.cursor.kind = .rightBrace ∨ s.cursor.kind = .eof)
    {tokens : List Token} {body : List Stmt} {n : Nat}
    (h : Sequence Statement tokens body n) {s : ParseState} {last : Cursor}
    (hpasses : s.cursor.Passes tokens last)
    (hlast : ∀ s : ParseState, s.cursor = last → test s = true) :
    Ensures (collectUntil stop inner.statement) s
      (fun body' s' => n ≤ levels ∧ body' = body ∧ s'.cursor = last)
      (Deep levels n) := by
  apply ensures_collectUntil hstop (Underway levels n body last)
  · intro found s₁ hunderway hend
    exact hunderway.done (htest s₁ hend)
  · intro found s₁ hunderway hgo
    apply hunderway.next hinner
    intro hcursor
    rw [hlast s₁ hcursor] at hgo
    cases hgo
  · exact ⟨tokens, body, n, h, hpasses, rfl, Iff.rfl⟩

theorem Stmt.parseBody_complete (hinner : CompleteInner inner levels)
    {tokens : List Token} {body : List Stmt} {n : Nat}
    (h : Sequence Statement tokens body n) {s : ParseState} {last : Cursor}
    (hpasses : s.cursor.Passes tokens last) (hlast : last.kind = .rightBrace) :
    Ensures (Stmt.parseBody inner) s
      (fun body' s' => n ≤ levels ∧ body' = body ∧ s'.cursor = last)
      (Deep levels n) := by
  apply statements_complete hinner _
    (fun s => s.cursor.kind = .rightBrace || s.cursor.kind = .eof)
    (fun s => rfl) _ h hpasses
  · rintro s rfl
    simp [hlast]
  · intro s hend
    simpa using hend

theorem Parse.Deep.succ {n : Nat} {e : ParseError} {s : ParseState}
    (h : Deep levels n e s) : Deep (levels + 1) (n + 1) e s :=
  ⟨Nat.succ_lt_succ h.1, h.2⟩

/-- The token that closes a statement is taken, and the tree is returned. -/
theorem Parse.ensures_closing {α : Type} {kind : TokenKind} {context : String}
    {value : α} {token : Token} {s : ParseState} {stop : Cursor} {n : Nat}
    (hpasses : s.cursor.Passes [token] stop) (hkind : token.kind = kind)
    (hn : n ≤ levels) :
    Ensures (expect kind context >>= fun _ => pure value) s
      (fun value' s' => n ≤ levels ∧ value' = value ∧ s'.cursor = stop)
      (Deep levels n) := by
  rw [ensures_bind, ensures_expect_of_passes hpasses hkind, ensures_pure]
  exact ⟨hn, rfl, hpasses.advance_eq⟩

/-- What follows the name of a function is read. -/
theorem Stmt.parseFunction_complete (hinner : CompleteInner inner levels)
    {type : DeclType} {name : String} {between inside : List Token}
    {opening closing openBrace closeBrace : Token} {params : List Param}
    {body : List Stmt} {n : Nat} (hopening : opening.kind = .leftParen)
    (hparams : Parameters between params) (hclosing : closing.kind = .rightParen)
    (hopenBrace : openBrace.kind = .leftBrace)
    (hbody : Sequence Statement inside body n)
    (hcloseBrace : closeBrace.kind = .rightBrace) {s : ParseState} {stop : Cursor}
    (hpasses : s.cursor.Passes (opening ::
      (between ++ closing :: openBrace :: (inside ++ [closeBrace]))) stop) :
    Ensures (Stmt.parseFunction inner type name) s
      (fun statement s' => n + 1 ≤ levels + 1 ∧
        statement = .function name type params body ∧ s'.cursor = stop)
      (Deep (levels + 1) (n + 1)) := by
  obtain ⟨middle, hbetween, hafter⟩ := hpasses.advance.split
  have hmiddle : middle.kind = .rightParen := hafter.kind_eq.trans hclosing
  unfold Stmt.parseFunction
  rw [ensures_bind, ensures_expect_of_passes hpasses hopening]
  refine (params_reads hparams hbetween hmiddle).bind ?_ ?_
  · exact fun _ _ h => h.elim
  intro _ s₁ hread
  obtain ⟨rfl, rfl⟩ := hread
  obtain ⟨last, hinside, hend⟩ := hafter.advance.advance.split
  have hlast : last.kind = .rightBrace := hend.kind_eq.trans hcloseBrace
  rw [ensures_bind, ensures_expect_of_passes hafter hclosing, ensures_bind,
    ensures_expect_of_passes hafter.advance hopenBrace]
  refine (Stmt.parseBody_complete hinner hbody hinside hlast).bind ?_ ?_
  · exact fun _ _ h => h.succ
  intro _ s₂ hread
  obtain ⟨hn, rfl, rfl⟩ := hread
  exact ensures_closing hend hcloseBrace (Nat.succ_le_succ hn)

/-- A declarator is read where it stands, whatever is read behind it. -/
theorem Grammar.Declaration.ensures_bind {tokens rest : List Token}
    {type : DeclType} {name : String} (h : Declaration tokens type name)
    {s : ParseState} {stop : Cursor} (hpasses : s.cursor.Passes (tokens ++ rest) stop)
    {f : DeclType × String → Parse Stmt} {Q : Stmt → ParseState → Prop}
    {E : ParseError → ParseState → Prop}
    (hnext : ∀ s', s'.cursor.Passes rest stop → Ensures (f (type, name)) s' Q E) :
    Ensures (declarator >>= f) s Q E := by
  obtain ⟨middle, hbefore, hafter⟩ := hpasses.split
  refine (declarator_reads h.1 hbefore).bind ?_ ?_
  · exact fun _ _ h => h.elim
  · intro _ s' hread
    obtain ⟨rfl, rfl⟩ := hread
    exact hnext s' hafter

theorem Stmt.parseDeclaration_declared {tokens : List Token} {type : DeclType}
    {name : String} {semicolon : Token} (hdeclaration : Declaration tokens type name)
    (hsemicolon : semicolon.kind = .semicolon) {s : ParseState} {stop : Cursor}
    (hpasses : s.cursor.Passes (tokens ++ [semicolon]) stop) :
    Ensures (Stmt.parseDeclaration inner) s
      (fun statement s' => 1 ≤ levels + 1 ∧ statement = .varDecl name type none ∧
        s'.cursor = stop)
      (Deep (levels + 1) 1) := by
  unfold Stmt.parseDeclaration
  apply hdeclaration.ensures_bind hpasses
  intro s₁ hafter
  rw [ensures_bind, ensures_current, hafter.current_eq, hsemicolon]
  dsimp only
  rw [ensures_bind, ensures_advance, ensures_bind, ensures_note, ensures_pure]
  exact ⟨Nat.succ_le_succ (Nat.zero_le _), rfl, hafter.advance_eq⟩

theorem Stmt.parseDeclaration_initialized (hinner : CompleteInner inner levels)
    {tokens initial : List Token} {type : DeclType} {name : String}
    {equals semicolon : Token} {value : Expr} {n : Nat}
    (hdeclaration : Declaration tokens type name) (hequals : equals.kind = .assign)
    (hvalue : Expression .assignment initial value n)
    (hsemicolon : semicolon.kind = .semicolon) {s : ParseState} {stop : Cursor}
    (hpasses : s.cursor.Passes (tokens ++ equals :: (initial ++ [semicolon]))
      stop) :
    Ensures (Stmt.parseDeclaration inner) s
      (fun statement s' => n + 1 ≤ levels + 1 ∧
        statement = .varDecl name type (some value) ∧ s'.cursor = stop)
      (Deep (levels + 1) (n + 1)) := by
  unfold Stmt.parseDeclaration
  apply hdeclaration.ensures_bind hpasses
  intro s₁ hafter
  obtain ⟨last, hinitial, hend⟩ := hafter.advance.split
  have hpower : standard.power last.kind ≤ .assignment := by
    rw [hend.kind_eq, hsemicolon]
    decide
  rw [ensures_bind, ensures_current, hafter.current_eq, hequals]
  dsimp only
  rw [ensures_bind, ensures_expect_of_passes hafter hequals]
  refine (hinner.expression hvalue hinitial hpower).bind ?_ ?_
  · exact fun _ _ h => h.succ
  intro _ s₂ hread
  obtain ⟨hn, rfl, rfl⟩ := hread
  exact ensures_closing hend hsemicolon (Nat.succ_le_succ hn)

theorem Stmt.parseDeclaration_function (hinner : CompleteInner inner levels)
    {tokens between inside : List Token} {type : DeclType} {name : String}
    {opening closing openBrace closeBrace : Token} {params : List Param}
    {body : List Stmt} {n : Nat} (hdeclaration : Declaration tokens type name)
    (hopening : opening.kind = .leftParen) (hparams : Parameters between params)
    (hclosing : closing.kind = .rightParen)
    (hopenBrace : openBrace.kind = .leftBrace)
    (hbody : Sequence Statement inside body n)
    (hcloseBrace : closeBrace.kind = .rightBrace) {s : ParseState} {stop : Cursor}
    (hpasses : s.cursor.Passes (tokens ++ opening ::
      (between ++ closing :: openBrace :: (inside ++ [closeBrace]))) stop) :
    Ensures (Stmt.parseDeclaration inner) s
      (fun statement s' => n + 1 ≤ levels + 1 ∧
        statement = .function name type params body ∧ s'.cursor = stop)
      (Deep (levels + 1) (n + 1)) := by
  unfold Stmt.parseDeclaration
  apply hdeclaration.ensures_bind hpasses
  intro s₁ hafter
  rw [ensures_bind, ensures_current, hafter.current_eq, hopening]
  dsimp only
  rw [ensures_bind, ensures_note]
  exact Stmt.parseFunction_complete hinner hopening hparams hclosing hopenBrace
    hbody hcloseBrace hafter

theorem StatementForm.parse_block_complete (hinner : CompleteInner inner levels)
    {opening closing : Token} {tokens : List Token} {body : List Stmt} {n : Nat}
    (hopening : opening.kind = .leftBrace)
    (hbody : Sequence Statement tokens body n)
    (hclosing : closing.kind = .rightBrace) {s : ParseState} {stop : Cursor}
    (hpasses : s.cursor.Passes (opening :: (tokens ++ [closing])) stop) :
    Ensures (StatementForm.parse inner .block) s
      (fun statement s' => n + 1 ≤ levels + 1 ∧ statement = .block body ∧
        s'.cursor = stop)
      (Deep (levels + 1) (n + 1)) := by
  obtain ⟨last, hinside, hend⟩ := hpasses.advance.split
  have hlast : last.kind = .rightBrace := hend.kind_eq.trans hclosing
  unfold StatementForm.parse
  rw [Parse.ensures_bind, ensures_expect_of_passes hpasses hopening]
  refine (Stmt.parseBody_complete hinner hbody hinside hlast).bind ?_ ?_
  · exact fun _ _ h => h.succ
  intro _ s₁ hread
  obtain ⟨hn, rfl, rfl⟩ := hread
  exact ensures_closing hend hclosing (Nat.succ_le_succ hn)

theorem StatementForm.parse_returning_complete
    (hinner : CompleteInner inner levels) {word semicolon : Token}
    {tokens : List Token} {value : Expr} {n : Nat}
    (hword : word.kind = .kwReturn) (hvalue : Expression .default tokens value n)
    (hsemicolon : semicolon.kind = .semicolon) {s : ParseState} {stop : Cursor}
    (hpasses : s.cursor.Passes (word :: (tokens ++ [semicolon])) stop) :
    Ensures (StatementForm.parse inner .returning) s
      (fun statement s' => n + 1 ≤ levels + 1 ∧
        statement = .returning (some value) ∧ s'.cursor = stop)
      (Deep (levels + 1) (n + 1)) := by
  obtain ⟨last, hinside, hend⟩ := hpasses.advance.split
  have hpower : standard.power last.kind ≤ .default := by
    rw [hend.kind_eq, hsemicolon]
    decide
  have hkind : s.cursor.advance.kind ≠ .semicolon := by
    obtain ⟨first, rest, rfl, hfirst⟩ := hvalue.exists_cons
    rw [hinside.kind_eq]
    intro hsemi
    rw [hsemi] at hfirst
    exact absurd hfirst (by decide)
  unfold StatementForm.parse
  rw [Parse.ensures_bind, ensures_expect_of_passes hpasses hword,
    Parse.ensures_bind, ensures_check]
  rw [if_neg (by simpa using hkind), Parse.ensures_bind, ensures_map]
  apply (hinner.expression hvalue hinside hpower).mono
  · intro _ s₁ hread
    obtain ⟨hn, rfl, rfl⟩ := hread
    exact ensures_closing hend hsemicolon (Nat.succ_le_succ hn)
  · exact fun _ _ h => h.succ

theorem StatementForm.parse_leaving {word semicolon : Token}
    (hword : word.kind = .kwReturn) (hsemicolon : semicolon.kind = .semicolon)
    {s : ParseState} {stop : Cursor}
    (hpasses : s.cursor.Passes [word, semicolon] stop) :
    Ensures (StatementForm.parse inner .returning) s
      (fun statement s' => 1 ≤ levels + 1 ∧ statement = .returning none ∧
        s'.cursor = stop)
      (Deep (levels + 1) 1) := by
  have hkind : s.cursor.advance.kind = .semicolon :=
    hpasses.advance.kind_eq.trans hsemicolon
  unfold StatementForm.parse
  rw [Parse.ensures_bind, ensures_expect_of_passes hpasses hword,
    Parse.ensures_bind, ensures_check]
  rw [if_pos (by simpa using hkind), Parse.ensures_bind, ensures_pure]
  exact ensures_closing hpasses.advance hsemicolon (Nat.succ_le_succ (Nat.zero_le _))

/-- What a token announces is read when it is announced. -/
theorem Stmt.parse_of_form {form : StatementForm} {token : Token}
    {rest : List Token} {s : ParseState} {stop : Cursor}
    (hform : (standard.entry token.kind).statementForm? = some form)
    (hpasses : s.cursor.Passes (token :: rest) stop)
    {Q : Stmt → ParseState → Prop} {E : ParseError → ParseState → Prop}
    (h : ∀ s', s'.cursor.Passes (token :: rest) stop →
      Ensures (form.parse inner) s' Q E) :
    Ensures (Stmt.parse standard inner) s Q E := by
  unfold Stmt.parse
  rw [ensures_bind, ensures_current, hpasses.current_eq, hform]
  dsimp only
  rw [ensures_bind, ensures_note]
  exact h _ hpasses

/-- A declaration is announced by its first token. -/
theorem Stmt.parse_of_declaration {tokens rest : List Token} {type : DeclType}
    {name : String} (hdeclaration : Declaration tokens type name)
    {s : ParseState} {stop : Cursor}
    (hpasses : s.cursor.Passes (tokens ++ rest) stop)
    {Q : Stmt → ParseState → Prop} {E : ParseError → ParseState → Prop}
    (h : ∀ s', s'.cursor.Passes (tokens ++ rest) stop →
      Ensures (Stmt.parseDeclaration inner) s' Q E) :
    Ensures (Stmt.parse standard inner) s Q E := by
  obtain ⟨_, first, rest', rfl, hfirst, hstar⟩ := hdeclaration
  exact Stmt.parse_of_form (statementForm?_of_specifier hfirst hstar) hpasses h

/-- A comment is read with its text. -/
theorem StatementForm.parse_comment_complete {token : Token} {kind : CommentKind}
    (hkind : (if token.kind = .blockComment then .multiLine else .singleLine) =
      kind) {s : ParseState} {stop : Cursor} (hpasses : s.cursor.Passes [token] stop) :
    Ensures (StatementForm.parse inner .comment) s
      (fun statement s' => 1 ≤ levels + 1 ∧ statement = .comment kind token.text ∧
        s'.cursor = stop)
      (Deep (levels + 1) 1) := by
  unfold StatementForm.parse
  rw [Parse.ensures_bind, ensures_advance, hpasses.current_eq, ensures_pure, hkind]
  exact ⟨Nat.succ_le_succ (Nat.zero_le _), rfl, hpasses.advance_eq⟩

/-- No form of statement is announced by the first token of an expression. -/
theorem Stmt.parse_expression_complete (hinner : CompleteInner inner levels)
    {tokens : List Token} {semicolon : Token} {value : Expr} {n : Nat}
    (hvalue : Expression .default tokens value n)
    (hsemicolon : semicolon.kind = .semicolon) {s : ParseState} {stop : Cursor}
    (hpasses : s.cursor.Passes (tokens ++ [semicolon]) stop) :
    Ensures (Stmt.parse standard inner) s
      (fun statement s' => n + 1 ≤ levels + 1 ∧ statement = .expression value ∧
        s'.cursor = stop)
      (Deep (levels + 1) (n + 1)) := by
  obtain ⟨first, rest, rfl, hfirst⟩ := hvalue.exists_cons
  have hform := statementForm?_of_prefix hfirst
  obtain ⟨last, hbefore, hafter⟩ := hpasses.split
  have hpower : standard.power last.kind ≤ .default := by
    rw [hafter.kind_eq, hsemicolon]
    decide
  unfold Stmt.parse
  rw [ensures_bind, ensures_current, hbefore.current_eq, hform]
  refine (hinner.expression hvalue hbefore hpower).bind ?_ ?_
  · exact fun _ _ h => h.succ
  intro _ s₁ hread
  obtain ⟨hn, rfl, rfl⟩ := hread
  exact ensures_closing hafter hsemicolon (Nat.succ_le_succ hn)

/-- Every statement of the grammar is read, where one level has been opened for
it, or it goes too deep. -/
theorem Stmt.parse_complete (hinner : CompleteInner inner levels)
    {tokens : List Token} {statement : Stmt} {n : Nat}
    (h : Statement tokens statement n) {s : ParseState} {stop : Cursor}
    (hpasses : s.cursor.Passes tokens stop) :
    Ensures (Stmt.parse standard inner) s
      (fun statement' s' => n ≤ levels + 1 ∧ statement' = statement ∧
        s'.cursor = stop)
      (Deep (levels + 1) n) := by
  have hone : 1 ≤ levels + 1 := Nat.succ_le_succ (Nat.zero_le _)
  cases h with
  | block hopening hbody hclosing =>
      apply Stmt.parse_of_form (by rw [hopening]; rfl) hpasses
      exact fun s' => StatementForm.parse_block_complete hinner hopening hbody
        hclosing
  | leaving hword hsemicolon =>
      apply Stmt.parse_of_form (by rw [hword]; rfl) hpasses
      exact fun s' => StatementForm.parse_leaving hword hsemicolon
  | returning hword hvalue hsemicolon =>
      apply Stmt.parse_of_form (by rw [hword]; rfl) hpasses
      exact fun s' => StatementForm.parse_returning_complete hinner hword hvalue
        hsemicolon
  | lineComment htoken =>
      apply Stmt.parse_of_form (by rw [htoken]; rfl) hpasses
      exact fun s' => StatementForm.parse_comment_complete (by rw [htoken]; rfl)
  | blockComment htoken =>
      apply Stmt.parse_of_form (by rw [htoken]; rfl) hpasses
      exact fun s' => StatementForm.parse_comment_complete (by rw [htoken]; rfl)
  | includeDirective htoken htext hparts =>
      apply Stmt.parse_of_form (by rw [htoken]; rfl) hpasses
      intro s' hpasses
      unfold StatementForm.parse
      rw [ensures_bind, ensures_expect_of_passes hpasses htoken, ensures_pure,
        hparts.eq_ofText, htext]
      exact ⟨hone, rfl, hpasses.advance_eq⟩
  | declared hdeclaration hsemicolon =>
      apply Stmt.parse_of_declaration hdeclaration hpasses
      exact fun s' => Stmt.parseDeclaration_declared hdeclaration hsemicolon
  | initialized hdeclaration hequals hvalue hsemicolon =>
      apply Stmt.parse_of_declaration hdeclaration hpasses
      exact fun s' => Stmt.parseDeclaration_initialized hinner hdeclaration hequals
        hvalue hsemicolon
  | function hdeclaration hopening hparams hclosing hopenBrace hbody hcloseBrace =>
      apply Stmt.parse_of_declaration hdeclaration hpasses
      exact fun s' => Stmt.parseDeclaration_function hinner hdeclaration hopening
        hparams hclosing hopenBrace hbody hcloseBrace
  | expression hvalue hsemicolon =>
      exact Stmt.parse_expression_complete hinner hvalue hsemicolon hpasses

/-- Every expression and every statement of the grammar is read, or it goes too
deep. -/
theorem inner_complete (levels : Nat) :
    CompleteInner (.ofLevels standard levels) levels := by
  induction levels with
  | zero =>
      refine ⟨expression_complete 0, ?_⟩
      intro tokens statement n h s stop hpasses
      exact ensures_tooDeep.2 ⟨h.levels_pos, _, rfl⟩
  | succ levels ih =>
      exact ⟨expression_complete (levels + 1), fun h _ _ => Stmt.parse_complete ih h⟩

/-- A program of the grammar is read to its end, or it goes too deep. -/
theorem Registry.parseProgram_complete {tokens : List Token} {body : List Stmt}
    {n : Nat} (h : Program tokens body n) {s : ParseState} {last : Cursor}
    (hpasses : s.cursor.Passes tokens last) (hlast : last.kind = .eof) :
    Ensures standard.parseProgram s
      (fun result s' => n ≤ maxNesting ∧ result = .block body ∧ s'.cursor = last)
      (Deep maxNesting n) := by
  have hread := statements_complete (inner_complete maxNesting)
    (check .eof) (fun s => s.cursor.kind = .eof) (fun s => rfl)
    (fun s hend => Or.inr (of_decide_eq_true hend)) h hpasses
    (by rintro s rfl; simpa using hlast)
  unfold Registry.parseProgram
  apply hread.bind
  · exact fun _ _ h => h
  · intro _ s' hread
    obtain ⟨hn, rfl, hcursor⟩ := hread
    rw [ensures_pure]
    exact ⟨hn, rfl, hcursor⟩

end MiniC
