/-
Every statement that is read is one of the grammar.  Where reading fails over a
token, the tokens before it begin a statement of the grammar.
-/
import MiniC.Proofs.Expression.Sound

namespace MiniC

open Grammar Parse Registry

namespace Grammar

/-- Tokens that are a statement which opens no more than the given levels. -/
def StatementWithin (levels : Nat) (tokens : List Token) : Prop :=
  ∃ statement n, Statement tokens statement n ∧ n ≤ levels

/-- Tokens that are statements in a row which open no more than the given
levels. -/
def StatementsWithin (levels : Nat) (tokens : List Token) : Prop :=
  ∃ body n, Sequence Statement tokens body n ∧ n ≤ levels

theorem Statement.ne_nil {tokens : List Token} {statement : Stmt} {n : Nat}
    (h : Statement tokens statement n) : tokens ≠ [] := by
  cases h <;> simp

end Grammar

/-- What reading comes to while `levels` more levels may be opened. -/
structure SoundInner (inner : Inner) (levels : Nat) : Prop where
  expression : SoundExpressions inner levels
  statement : ∀ s, Ensures inner.statement s
    (fun statement s' => ∃ tokens n, Statement tokens statement n ∧ n ≤ levels ∧
      s.cursor.Passes tokens s'.cursor)
    (Fails (StatementWithin levels) s.cursor)

variable {inner : Inner} {levels : Nat}

/-- Statements that are read in a row are a row of statements. -/
theorem Parse.statements_sound (hinner : SoundInner inner levels)
    (stop : Parse Bool) (test : ParseState → Bool)
    (hstop : ∀ s, stop s = .ok (test s) s) (s : ParseState) :
    Ensures (collectUntil stop inner.statement) s
      (fun body s' => ∃ tokens n, Sequence Statement tokens body n ∧ n ≤ levels ∧
        s.cursor.Passes tokens s'.cursor ∧ test s' = true)
      (Fails (StatementsWithin levels) s.cursor) := by
  apply ensures_collectUntil hstop
    (fun body s' => ∃ tokens n, Sequence Statement tokens body n ∧
      n ≤ levels ∧ s.cursor.Passes tokens s'.cursor)
  · intro body s₁ hinv htest
    obtain ⟨tokens, n, hbody, hn, hpasses⟩ := hinv
    exact ⟨tokens, n, hbody, hn, hpasses, htest⟩
  · intro body s₁ hinv _
    obtain ⟨tokens, n, hbody, hn, hpasses⟩ := hinv
    apply (hinner.statement s₁).mono
    · intro statement s₂ hread
      obtain ⟨last, n', hlast, hn', hpasses'⟩ := hread
      obtain ⟨token, rest, rfl⟩ := List.exists_cons_of_ne_nil hlast.ne_nil
      exact ⟨⟨_, _, hbody.snoc hlast, Nat.max_le.2 ⟨hn, hn'⟩,
        hpasses.trans hpasses'⟩, hpasses'.length_lt⟩
    · intro e s₂ hfails
      apply hfails.prepend hpasses
      intro last hviable
      obtain ⟨statement, n', hlast, hn'⟩ := hviable
      have hsequence := hbody.snoc hlast
      rw [← List.append_nil (tokens ++ last)] at hsequence
      exact ⟨[], _, _, hsequence, Nat.max_le.2 ⟨hn, hn'⟩⟩
  · exact ⟨[], 0, .nil, Nat.zero_le _, .refl _⟩

theorem Stmt.parseBody_sound (hinner : SoundInner inner levels) (s : ParseState) :
    Ensures (Stmt.parseBody inner) s
      (fun body s' => ∃ tokens n, Sequence Statement tokens body n ∧ n ≤ levels ∧
        s.cursor.Passes tokens s'.cursor)
      (Fails (StatementsWithin levels) s.cursor) := by
  have hbody := statements_sound hinner
    (do return (← check .rightBrace) || (← check .eof))
    (fun s => s.cursor.kind = .rightBrace || s.cursor.kind = .eof)
    (fun s => rfl) s
  apply hbody.mono
  · intro body s' hread
    obtain ⟨tokens, n, hsequence, hn, hpasses, _⟩ := hread
    exact ⟨tokens, n, hsequence, hn, hpasses⟩
  · exact fun _ _ h => h

/-- `rest` makes a statement of every declaration of the name. -/
def Grammar.Declares (type : DeclType) (name : String) (rest : List Token)
    (statement : Stmt) (n : Nat) : Prop :=
  ∀ tokens, Declaration tokens type name → Statement (tokens ++ rest) statement n

/-- Tokens that make a statement of every declaration of the name. -/
def Grammar.DeclaresWithin (levels : Nat) (type : DeclType) (name : String)
    (rest : List Token) : Prop :=
  ∃ statement n, Declares type name rest statement n ∧ n ≤ levels

theorem Grammar.declaresWithin_function {type : DeclType} {name : String}
    {between inside rest : List Token}
    {opening closing openBrace closeBrace : Token} {params : List Param}
    {body : List Stmt} {n : Nat}
    (hopening : opening.kind = .leftParen) (hparams : Parameters between params)
    (hclosing : closing.kind = .rightParen)
    (hopenBrace : openBrace.kind = .leftBrace)
    (hbody : Sequence Statement inside body n) (hn : n ≤ levels)
    (hcloseBrace : closeBrace.kind = .rightBrace)
    (hrest : rest = opening ::
      (between ++ closing :: openBrace :: (inside ++ [closeBrace]))) :
    DeclaresWithin (levels + 1) type name rest := by
  subst hrest
  refine ⟨.function name type params body, n + 1, ?_, Nat.succ_le_succ hn⟩
  intro tokens hdeclaration
  exact .function hdeclaration hopening hparams hclosing hopenBrace hbody
    hcloseBrace

/-- After its name, a function needs parentheses and a body in braces.  Whatever
is missing could have followed. -/
theorem Stmt.parseFunction_sound (hinner : SoundInner inner levels)
    (type : DeclType) (name : String) (s : ParseState) :
    Ensures (Stmt.parseFunction inner type name) s
      (fun statement s' => ∃ rest n, Declares type name rest statement n ∧
        n ≤ levels + 1 ∧ s.cursor.Passes rest s'.cursor)
      (Fails (DeclaresWithin (levels + 1) type name) s.cursor) := by
  unfold Stmt.parseFunction
  refine ensures_expect_bind (by decide) ?_ ?_
  · exact Fails.expected (.refl _) [.sample .leftParen,
      .sample .rightParen, .sample .leftBrace, .sample .rightBrace]
      (declaresWithin_function rfl .none rfl rfl .nil (Nat.zero_le _) rfl rfl)
  intro opening s₁ hopening hpasses₁
  refine (params_spec s₁).bind ?_ ?_
  · intro e s₂ hfails
    apply hfails.prepend hpasses₁
    intro between hviable
    obtain ⟨params, hparams⟩ := hviable
    exact ⟨[.sample .rightParen, .sample .leftBrace, .sample .rightBrace],
      declaresWithin_function hopening hparams rfl rfl .nil (Nat.zero_le _) rfl
        rfl⟩
  intro params s₂ hread
  obtain ⟨between, hparams, hpasses₂⟩ := hread
  have hpasses := hpasses₁.trans hpasses₂
  refine ensures_expect_bind (by decide) ?_ ?_
  · exact Fails.expected hpasses [.sample .rightParen,
      .sample .leftBrace, .sample .rightBrace]
      (declaresWithin_function hopening hparams rfl rfl .nil (Nat.zero_le _) rfl
        rfl)
  intro closing s₃ hclosing hpasses₃
  have hpasses := hpasses.trans hpasses₃
  refine ensures_expect_bind (by decide) ?_ ?_
  · exact Fails.expected hpasses
      [.sample .leftBrace, .sample .rightBrace]
      (declaresWithin_function hopening hparams hclosing
        (Token.sample_kind .leftBrace) .nil (Nat.zero_le _)
        (Token.sample_kind .rightBrace) (by simp))
  intro openBrace s₄ hopenBrace hpasses₄
  have hpasses := hpasses.trans hpasses₄
  refine (Stmt.parseBody_sound hinner s₄).bind ?_ ?_
  · intro e s₅ hfails
    apply hfails.prepend hpasses
    intro inside hviable
    obtain ⟨body, n, hbody, hn⟩ := hviable
    exact ⟨[.sample .rightBrace], declaresWithin_function hopening hparams
      hclosing hopenBrace hbody hn (Token.sample_kind .rightBrace)
      (by simp)⟩
  intro body s₅ hread
  obtain ⟨inside, n, hbody, hn, hpasses₅⟩ := hread
  have hpasses := hpasses.trans hpasses₅
  refine ensures_expect_bind (by decide) ?_ ?_
  · exact Fails.expected hpasses [.sample .rightBrace]
      (declaresWithin_function hopening hparams hclosing hopenBrace hbody hn
        (Token.sample_kind .rightBrace) (by simp))
  intro closeBrace s₆ hcloseBrace hpasses₆
  rw [ensures_pure]
  refine ⟨_, _, fun tokens hdeclaration => .function hdeclaration hopening hparams
    hclosing hopenBrace hbody hcloseBrace, Nat.succ_le_succ hn, ?_⟩
  simpa using hpasses.trans hpasses₆

/-- Every kind that a declaration is announced by is a specifier but a star. -/
theorem Registry.declarationKinds_subset {kind : TokenKind}
    (h : kind ∈ declarationKinds) : kind ∈ specifierKinds ∧ kind ≠ .star := by
  have hall : ∀ kind ∈ declarationKinds, kind ∈ specifierKinds ∧ kind ≠ .star := by
    decide
  exact hall kind h

/-- A declarator that begins with an announcing kind is a declaration. -/
theorem Grammar.Declarator.declaration {tokens : List Token} {type : DeclType}
    {name : String} (h : Declarator tokens type name) {start stop : Cursor}
    (hpasses : start.Passes tokens stop) (hkind : start.kind ∈ declarationKinds) :
    Declaration tokens type name := by
  obtain ⟨first, rest, rfl, _⟩ := h.exists_cons
  rw [hpasses.kind_eq] at hkind
  exact ⟨h, first, rest, rfl, declarationKinds_subset hkind⟩

/-- Where a name is missing, a declaration could have stood. -/
theorem Grammar.exists_declaration {specifiers : List Token}
    (h : ∀ token ∈ specifiers, token.kind ∈ specifierKinds) {start stop : Cursor}
    (hpasses : start.Passes specifiers stop) (hkind : start.kind ∈ declarationKinds) :
    ∃ more type name, Declaration (specifiers ++ more) type name := by
  cases specifiers with
  | nil =>
      have hspecifier : ∀ token ∈ [Token.sample .kwInt],
          token.kind ∈ specifierKinds := by decide
      obtain ⟨type, name, hdeclarator⟩ := declarator_of_specifiers hspecifier
      exact ⟨_, type, name, hdeclarator, _, _, rfl, by decide⟩
  | cons first rest =>
      obtain ⟨type, name, hdeclarator⟩ := declarator_of_specifiers h
      rw [hpasses.kind_eq] at hkind
      exact ⟨_, type, name, hdeclarator, first, _, rfl,
        declarationKinds_subset hkind⟩

theorem Grammar.statementWithin_declared {tokens rest : List Token}
    {type : DeclType} {name : String} {semicolon : Token}
    (hdeclaration : Declaration tokens type name)
    (hsemicolon : semicolon.kind = .semicolon)
    (hrest : rest = tokens ++ [semicolon]) : StatementWithin (levels + 1) rest := by
  subst hrest
  exact ⟨_, 1, .declared hdeclaration hsemicolon,
    Nat.succ_le_succ (Nat.zero_le _)⟩

theorem Grammar.statementWithin_initialized {tokens initial rest : List Token}
    {type : DeclType} {name : String} {equals semicolon : Token} {value : Expr}
    {n : Nat} (hdeclaration : Declaration tokens type name)
    (hequals : equals.kind = .assign)
    (hvalue : Expression .assignment initial value n) (hn : n ≤ levels)
    (hsemicolon : semicolon.kind = .semicolon)
    (hrest : rest = tokens ++ equals :: (initial ++ [semicolon])) :
    StatementWithin (levels + 1) rest := by
  subst hrest
  exact ⟨_, n + 1, .initialized hdeclaration hequals hvalue hsemicolon,
    Nat.succ_le_succ hn⟩

/-- A declaration goes on with a semicolon, with what a function needs, or with
an initial value.  Where none of these follows the name, a semicolon could
have. -/
theorem Stmt.parseDeclaration_sound (hinner : SoundInner inner levels)
    (s : ParseState) (hkind : s.cursor.kind ∈ declarationKinds) :
    Ensures (Stmt.parseDeclaration inner) s
      (fun statement s' => ∃ tokens n, Statement tokens statement n ∧
        n ≤ levels + 1 ∧ s.cursor.Passes tokens s'.cursor)
      (Fails (StatementWithin (levels + 1)) s.cursor) := by
  unfold Stmt.parseDeclaration
  refine (declarator_spec s).bind ?_ ?_
  · intro e s₁ herror
    obtain ⟨specifiers, hpasses, hspecifiers, _, rfl⟩ := herror
    obtain ⟨more, type, name, hdeclaration⟩ :=
      exists_declaration hspecifiers hpasses hkind
    exact Fails.expected hpasses (more ++ [.sample .semicolon])
      (statementWithin_declared hdeclaration (Token.sample_kind .semicolon)
        (List.append_assoc _ _ _).symm)
  rintro ⟨type, name⟩ s₁ ⟨tokens, hdeclarator, hpasses⟩
  have hdeclaration := hdeclarator.declaration hpasses hkind
  rw [ensures_bind, ensures_current]
  split
  · next hsemicolon =>
    have hadvance : s₁.cursor.Passes [s₁.cursor.current] s₁.cursor.advance := by
      apply Cursor.passes_advance
      change s₁.cursor.current.kind ≠ _
      rw [hsemicolon]
      decide
    rw [ensures_bind, ensures_advance, ensures_bind, ensures_note, ensures_pure]
    exact ⟨_, 1, .declared hdeclaration hsemicolon,
      Nat.succ_le_succ (Nat.zero_le _), hpasses.trans hadvance⟩
  · next hparen =>
    rw [ensures_bind, ensures_note]
    apply (Stmt.parseFunction_sound hinner type name _).mono
    · intro statement s₂ hread
      obtain ⟨rest, n, hdeclares, hn, hpasses₂⟩ := hread
      exact ⟨_, n, hdeclares tokens hdeclaration, hn, hpasses.trans hpasses₂⟩
    · intro e s₂ hfails
      apply hfails.prepend hpasses
      intro rest hviable
      obtain ⟨statement, n, hdeclares, hn⟩ := hviable
      exact ⟨[], statement, n, by simpa using hdeclares tokens hdeclaration, hn⟩
  · refine ensures_expect_bind (by decide) ?_ ?_
    · exact Fails.expected hpasses [.sample .semicolon]
        (statementWithin_declared hdeclaration (Token.sample_kind .semicolon) rfl)
    intro equals s₂ hequals hpasses₂
    have hpasses := hpasses.trans hpasses₂
    refine (hinner.expression .assignment s₂).bind ?_ ?_
    · intro e s₃ hfails
      apply hfails.prepend hpasses
      intro initial hviable
      obtain ⟨value, n, hvalue, hn⟩ := hviable
      exact ⟨[.sample .semicolon], statementWithin_initialized hdeclaration
        hequals hvalue hn (Token.sample_kind .semicolon) (by simp)⟩
    intro value s₃ hread
    obtain ⟨initial, n, hvalue, hn, hpasses₃, _⟩ := hread
    have hpasses := hpasses.trans hpasses₃
    refine ensures_expect_bind (by decide) ?_ ?_
    · exact Fails.expected hpasses [.sample .semicolon]
        (statementWithin_initialized hdeclaration hequals hvalue hn
          (Token.sample_kind .semicolon) (by simp))
    intro semicolon s₄ hsemicolon hpasses₄
    rw [ensures_pure]
    refine ⟨_, n + 1, .initialized hdeclaration hequals hvalue hsemicolon,
      Nat.succ_le_succ hn, ?_⟩
    simpa using hpasses.trans hpasses₄

theorem Grammar.statementWithin_block {tokens rest : List Token}
    {opening closing : Token} {body : List Stmt} {n : Nat}
    (hopening : opening.kind = .leftBrace)
    (hbody : Sequence Statement tokens body n) (hn : n ≤ levels)
    (hclosing : closing.kind = .rightBrace)
    (hrest : rest = opening :: (tokens ++ [closing])) :
    StatementWithin (levels + 1) rest := by
  subst hrest
  exact ⟨_, n + 1, .block hopening hbody hclosing, Nat.succ_le_succ hn⟩

theorem Grammar.statementWithin_returning {tokens rest : List Token}
    {word semicolon : Token} {value : Expr} {n : Nat}
    (hword : word.kind = .kwReturn)
    (hvalue : Expression .default tokens value n) (hn : n ≤ levels)
    (hsemicolon : semicolon.kind = .semicolon)
    (hrest : rest = word :: (tokens ++ [semicolon])) :
    StatementWithin (levels + 1) rest := by
  subst hrest
  exact ⟨_, n + 1, .returning hword hvalue hsemicolon, Nat.succ_le_succ hn⟩

/-- A block is closed where its statements stop, or it could have been. -/
theorem StatementForm.parse_block_sound (hinner : SoundInner inner levels)
    (s : ParseState) :
    Ensures (StatementForm.parse inner .block) s
      (fun statement s' => ∃ tokens n, Statement tokens statement n ∧
        n ≤ levels + 1 ∧ s.cursor.Passes tokens s'.cursor)
      (Fails (StatementWithin (levels + 1)) s.cursor) := by
  unfold StatementForm.parse
  refine ensures_expect_bind (by decide) ?_ ?_
  · exact Fails.expected (.refl _)
      [.sample .leftBrace, .sample .rightBrace]
      (statementWithin_block (Token.sample_kind .leftBrace) .nil
        (Nat.zero_le _) (Token.sample_kind .rightBrace) rfl)
  intro opening s₁ hopening hpasses
  refine (Stmt.parseBody_sound hinner s₁).bind ?_ ?_
  · intro e s₂ hfails
    apply hfails.prepend hpasses
    intro tokens hviable
    obtain ⟨body, n, hbody, hn⟩ := hviable
    exact ⟨[.sample .rightBrace], statementWithin_block hopening hbody hn
      (Token.sample_kind .rightBrace) (by simp)⟩
  intro body s₂ hread
  obtain ⟨tokens, n, hbody, hn, hpasses₂⟩ := hread
  have hpasses := hpasses.trans hpasses₂
  refine ensures_expect_bind (by decide) ?_ ?_
  · exact Fails.expected hpasses [.sample .rightBrace]
      (statementWithin_block hopening hbody hn
        (Token.sample_kind .rightBrace) (by simp))
  intro closing s₃ hclosing hpasses₃
  rw [ensures_pure]
  exact ⟨_, n + 1, .block hopening hbody hclosing, Nat.succ_le_succ hn,
    hpasses.trans hpasses₃⟩

/-- Behind the word there is a value or none, and then a semicolon. -/
theorem StatementForm.parse_returning_sound (hinner : SoundInner inner levels)
    (s : ParseState) :
    Ensures (StatementForm.parse inner .returning) s
      (fun statement s' => ∃ tokens n, Statement tokens statement n ∧
        n ≤ levels + 1 ∧ s.cursor.Passes tokens s'.cursor)
      (Fails (StatementWithin (levels + 1)) s.cursor) := by
  have hshort : ∀ word : Token, word.kind = .kwReturn →
      ∀ semicolon : Token, semicolon.kind = .semicolon →
        StatementWithin (levels + 1) [word, semicolon] :=
    fun word hword semicolon hsemicolon =>
      ⟨_, 1, .leaving hword hsemicolon, Nat.succ_le_succ (Nat.zero_le _)⟩
  unfold StatementForm.parse
  refine ensures_expect_bind (by decide) ?_ ?_
  · exact Fails.expected (.refl _)
      [.sample .kwReturn, .sample .semicolon] (hshort _ rfl _ rfl)
  intro word s₁ hword hpasses
  rw [ensures_bind, ensures_check]
  split
  · rw [ensures_bind, ensures_pure]
    refine ensures_expect_bind (by decide) ?_ ?_
    · exact Fails.expected hpasses [.sample .semicolon]
        (hshort _ hword _ rfl)
    intro semicolon s₂ hsemicolon hpasses₂
    rw [ensures_pure]
    exact ⟨_, 1, .leaving hword hsemicolon, Nat.succ_le_succ (Nat.zero_le _),
      hpasses.trans hpasses₂⟩
  · rw [ensures_bind, ensures_map]
    apply (hinner.expression .default s₁).mono
    · intro value s₂ hread
      obtain ⟨tokens, n, hvalue, hn, hpasses₂, _⟩ := hread
      have hpasses := hpasses.trans hpasses₂
      refine ensures_expect_bind (by decide) ?_ ?_
      · exact Fails.expected hpasses [.sample .semicolon]
          (statementWithin_returning hword hvalue hn
            (Token.sample_kind .semicolon) (by simp))
      intro semicolon s₃ hsemicolon hpasses₃
      rw [ensures_pure]
      exact ⟨_, n + 1, .returning hword hvalue hsemicolon, Nat.succ_le_succ hn,
        hpasses.trans hpasses₃⟩
    · intro e s₂ hfails
      apply hfails.prepend hpasses
      intro tokens hviable
      obtain ⟨value, n, hvalue, hn⟩ := hviable
      exact ⟨[.sample .semicolon], statementWithin_returning hword hvalue hn
        (Token.sample_kind .semicolon) (by simp)⟩

/-- What a token announces is read as the grammar has it. -/
theorem StatementForm.parse_sound (hinner : SoundInner inner levels)
    {form : StatementForm} {s : ParseState}
    (hform : (standard.entry s.cursor.kind).statementForm? = some form) :
    Ensures (form.parse inner) s
      (fun statement s' => ∃ tokens n, Statement tokens statement n ∧
        n ≤ levels + 1 ∧ s.cursor.Passes tokens s'.cursor)
      (Fails (StatementWithin (levels + 1)) s.cursor) := by
  have hone : 1 ≤ levels + 1 := Nat.succ_le_succ (Nat.zero_le _)
  cases form with
  | block => exact StatementForm.parse_block_sound hinner s
  | comment =>
      have hkind := kind_of_comment hform
      have hadvance : s.cursor.Passes [s.cursor.current] s.cursor.advance := by
        apply Cursor.passes_advance
        rcases hkind with hkind | hkind <;> rw [hkind] <;> decide
      unfold StatementForm.parse
      rw [ensures_bind, ensures_advance, ensures_pure]
      change s.cursor.current.kind = _ ∨ s.cursor.current.kind = _ at hkind
      rcases hkind with hkind | hkind
      · rw [if_neg (by rw [hkind]; decide)]
        exact ⟨_, 1, .lineComment hkind, hone, hadvance⟩
      · rw [if_pos hkind]
        exact ⟨_, 1, .blockComment hkind, hone, hadvance⟩
  | includeDirective =>
      unfold StatementForm.parse
      refine ensures_expect_bind (by decide) ?_ ?_
      · exact Fails.expected (.refl _) [.sample .includeDirective]
          ⟨_, 1, .includeDirective (Token.sample_kind .includeDirective) rfl
            (Include.takenApart_ofText _), hone⟩
      intro token s₁ htoken hpasses
      rw [ensures_pure]
      exact ⟨_, 1, .includeDirective htoken rfl (Include.takenApart_ofText _), hone,
        hpasses⟩
  | returning => exact StatementForm.parse_returning_sound hinner s
  | declaration =>
      exact Stmt.parseDeclaration_sound hinner s
        (mem_declarationKinds_of_declaration hform)

/-- A statement is read, where one level has been opened for it, as the grammar
has it. -/
theorem Stmt.parse_sound (hinner : SoundInner inner levels) (s : ParseState) :
    Ensures (Stmt.parse standard inner) s
      (fun statement s' => ∃ tokens n, Statement tokens statement n ∧
        n ≤ levels + 1 ∧ s.cursor.Passes tokens s'.cursor)
      (Fails (StatementWithin (levels + 1)) s.cursor) := by
  unfold Stmt.parse
  rw [ensures_bind, ensures_current]
  cases hform : (standard.entry s.cursor.current.kind).statementForm? with
  | some form =>
      rw [ensures_bind, ensures_note]
      exact StatementForm.parse_sound hinner hform
  | none =>
      refine (hinner.expression .default s).bind ?_ ?_
      · intro e s₁ hfails
        apply hfails.prepend (.refl _)
        intro tokens hviable
        obtain ⟨value, n, hvalue, hn⟩ := hviable
        exact ⟨[.sample .semicolon], _, n + 1, .expression hvalue rfl,
          Nat.succ_le_succ hn⟩
      intro value s₁ hread
      obtain ⟨tokens, n, hvalue, hn, hpasses, _⟩ := hread
      refine ensures_expect_bind (by decide) ?_ ?_
      · exact Fails.expected hpasses [.sample .semicolon]
          ⟨_, n + 1, .expression hvalue rfl, Nat.succ_le_succ hn⟩
      intro semicolon s₂ hsemicolon hpasses₂
      rw [ensures_pure]
      exact ⟨_, n + 1, .expression hvalue hsemicolon, Nat.succ_le_succ hn,
        hpasses.trans hpasses₂⟩

/-- Every statement and every expression that is read is one of the grammar, and
it opens no more levels than there are. -/
theorem inner_sound (levels : Nat) :
    SoundInner (.ofLevels standard levels) levels := by
  induction levels with
  | zero => exact ⟨expression_sound 0, fun s => ensures_tooDeep.2 (Or.inl ⟨_, rfl⟩)⟩
  | succ levels ih =>
      exact ⟨expression_sound (levels + 1), fun s => Stmt.parse_sound ih s⟩

/-- A program that is read is one of the grammar.  Where reading fails over a
token, the tokens before it begin a program. -/
theorem Registry.parseProgram_sound (s : ParseState) :
    Ensures standard.parseProgram s
      (fun result s' => ∃ tokens body n, result = .block body ∧
        Program tokens body n ∧ n ≤ maxNesting ∧
        s.cursor.Passes tokens s'.cursor ∧ s'.cursor.kind = .eof)
      (Fails (StatementsWithin maxNesting) s.cursor) := by
  unfold Registry.parseProgram
  refine (statements_sound (inner_sound maxNesting) (check .eof)
    (fun s => s.cursor.kind = .eof) (fun _ => rfl) s).bind ?_ ?_
  · exact fun _ _ h => h
  · intro body s' hread
    obtain ⟨tokens, n, hbody, hn, hpasses, hend⟩ := hread
    rw [ensures_pure]
    exact ⟨tokens, body, n, rfl, hbody, hn, hpasses, of_decide_eq_true hend⟩

end MiniC
