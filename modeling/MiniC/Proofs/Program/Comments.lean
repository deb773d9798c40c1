/-
Comments in a program: dropping them before reading is dropping them from what
was read.
-/
import MiniC.Proofs.Program.Recognition
import MiniC.Proofs.Scanner.Comments

namespace MiniC

open Grammar Parse Registry

namespace Stmt

/-- Whether a statement is a comment. -/
def isComment : Stmt → Bool
  | comment _ _ => true
  | _ => false

mutual

/-- A statement without the comments inside it. -/
def withoutComments : Stmt → Stmt
  | block body => block (dropComments body)
  | expression value => expression value
  | varDecl name type initial => varDecl name type initial
  | function name type params body => function name type params (dropComments body)
  | returning value => returning value
  | comment kind text => comment kind text
  | includeDirective directive => includeDirective directive

/-- The statements that are no comments, each without the comments inside it. -/
def dropComments : List Stmt → List Stmt
  | [] => []
  | s :: rest =>
      if s.isComment then dropComments rest
      else s.withoutComments :: dropComments rest

end

end Stmt

namespace Token

/-- Where no comment can stand, none is dropped. -/
theorem dropComments_of_inward {tokens : List Token} (h : Inward tokens) :
    dropComments tokens = tokens := by
  apply List.filter_eq_self.2
  intro token htoken
  have hkind := h token htoken
  simp only [outerKinds, List.mem_cons, List.not_mem_nil, or_false, not_or] at hkind
  simp [isComment, hkind]

theorem dropComments_cons_of_not_mem {token : Token} (tokens : List Token)
    (h : token.kind ∉ outerKinds) :
    dropComments (token :: tokens) = token :: dropComments tokens := by
  have hsingle : dropComments [token] = [token] :=
    dropComments_of_inward (inward_cons.2 ⟨h, inward_nil⟩)
  have happend := dropComments_append [token] tokens
  rwa [hsingle] at happend

/-- What stands before the end marker is dropped or not, and the end marker is
not. -/
theorem takeWhile_dropComments (tokens : List Token) :
    (dropComments tokens).takeWhile (fun token => decide (token.kind ≠ .eof)) =
      dropComments (tokens.takeWhile fun token => decide (token.kind ≠ .eof)) := by
  induction tokens with
  | nil => rfl
  | cons token tokens ih =>
      by_cases hcomment : token.isComment = true
      · have hkind : token.kind ≠ .eof := by
          rintro heof
          simp [isComment, heof] at hcomment
        simpa [dropComments, hcomment, hkind] using ih
      · by_cases hkind : token.kind = .eof
        · simp [dropComments, hcomment, hkind]
        · simpa [dropComments, hcomment, hkind] using ih

end Token

namespace Grammar

/-- What dropping the comments makes of the tokens of a statement: nothing if it
is a comment, and else a statement that opens no more levels. -/
def Dropped (tokens : List Token) (statement : Stmt) (levels : Nat) : Prop :=
  if statement.isComment then Token.dropComments tokens = []
  else ∃ m ≤ levels,
    Statement (Token.dropComments tokens) statement.withoutComments m

theorem Dropped.of_comment {tokens : List Token} {statement : Stmt} {n : Nat}
    (hcomment : statement.isComment = true) (h : Token.dropComments tokens = []) :
    Dropped tokens statement n := by
  rwa [Dropped, if_pos hcomment]

theorem Dropped.of_statement {tokens : List Token} {statement : Stmt} {m n : Nat}
    (hcomment : statement.isComment = false) (hm : m ≤ n)
    (h : Statement (Token.dropComments tokens) statement.withoutComments m) :
    Dropped tokens statement n := by
  rw [Dropped, if_neg (by simp [hcomment])]
  exact ⟨m, hm, h⟩

/-- Statements in a row are dropped or kept one by one. -/
theorem Sequence.dropComments {levels : Nat}
    (hitem : ∀ tokens statement n, Statement tokens statement n → n ≤ levels →
      Dropped tokens statement n)
    {tokens : List Token} {body : List Stmt} {n : Nat}
    (h : Sequence Statement tokens body n) (hn : n ≤ levels) :
    ∃ m ≤ n, Sequence Statement (Token.dropComments tokens) (Stmt.dropComments body)
      m := by
  induction h with
  | nil => exact ⟨0, Nat.le_refl 0, .nil⟩
  | @cons _ _ statement _ _ _ hfirst _ ih =>
      obtain ⟨hfirstLevels, hrestLevels⟩ := Nat.max_le.1 hn
      obtain ⟨k, hk, hrest⟩ := ih hrestLevels
      have hdropped := hitem _ _ _ hfirst hfirstLevels
      rw [Token.dropComments_append, Stmt.dropComments]
      by_cases hcomment : statement.isComment = true
      · rw [Dropped, if_pos hcomment] at hdropped
        rw [if_pos hcomment, hdropped, List.nil_append]
        exact ⟨k, by omega, hrest⟩
      · rw [Dropped, if_neg hcomment] at hdropped
        obtain ⟨m, hm, hstatement⟩ := hdropped
        rw [if_neg hcomment]
        exact ⟨max m k, by omega, .cons hstatement hrest⟩

/-- Where no comment can stand, a statement stays as it is. -/
theorem Dropped.of_inward {tokens : List Token} {statement : Stmt} {n : Nat}
    (h : Statement tokens statement n) (hinward : Inward tokens)
    (hcomment : statement.isComment = false)
    (hsame : statement.withoutComments = statement) :
    Dropped tokens statement n := by
  apply Dropped.of_statement hcomment (Nat.le_refl n)
  rwa [Token.dropComments_of_inward hinward, hsame]

theorem inward_singleton {token : Token} {kind : TokenKind}
    (htoken : token.kind = kind) (hkind : kind ∉ outerKinds) : Inward [token] :=
  inward_cons.2 ⟨htoken ▸ hkind, inward_nil⟩

/-- The induction is on the levels: what stands inside a statement opens fewer
of them. -/
theorem Statement.dropped_of_le {levels : Nat} {tokens : List Token}
    {statement : Stmt} {n : Nat} (h : Statement tokens statement n)
    (hn : n ≤ levels) : Dropped tokens statement n := by
  induction levels generalizing tokens statement n with
  | zero => cases h <;> exact absurd hn (Nat.not_succ_le_zero _)
  | succ levels ih =>
      have hbody : ∀ {tokens body n}, Sequence Statement tokens body n →
          n + 1 ≤ levels + 1 → ∃ m ≤ n, Sequence Statement
            (Token.dropComments tokens) (Stmt.dropComments body) m :=
        fun hbody hn => hbody.dropComments (fun _ _ _ h hn => ih h hn)
          (Nat.le_of_succ_le_succ hn)
      have hsemi : ∀ {semicolon : Token}, semicolon.kind = .semicolon →
          Inward [semicolon] := fun h => inward_singleton h (by decide)
      have hstatement := h
      cases h with
      | block hopening hinside hclosing =>
          obtain ⟨m, hm, hinside⟩ := hbody hinside hn
          have hlast := inward_singleton hclosing (by decide)
          apply Dropped.of_statement rfl (Nat.succ_le_succ hm)
          rw [Token.dropComments_cons_of_not_mem _ (by rw [hopening]; decide),
            Token.dropComments_append, Token.dropComments_of_inward hlast]
          exact .block hopening hinside hclosing
      | leaving hword hsemicolon =>
          have hinward := inward_append.2
            ⟨inward_singleton hword (by decide), hsemi hsemicolon⟩
          exact .of_inward hstatement hinward rfl rfl
      | returning hword hvalue hsemicolon =>
          have hinward := inward_append.2
            ⟨inward_singleton hword (by decide),
              inward_append.2 ⟨hvalue.inward, hsemi hsemicolon⟩⟩
          exact .of_inward hstatement hinward rfl rfl
      | lineComment htoken =>
          apply Dropped.of_comment rfl
          simp [Token.dropComments, Token.isComment, htoken]
      | blockComment htoken =>
          apply Dropped.of_comment rfl
          simp [Token.dropComments, Token.isComment, htoken]
      | includeDirective htoken _ _ =>
          exact .of_inward hstatement (inward_singleton htoken (by decide)) rfl rfl
      | declared hdeclaration hsemicolon =>
          have hinward := inward_append.2
            ⟨hdeclaration.1.inward, hsemi hsemicolon⟩
          exact .of_inward hstatement hinward rfl rfl
      | initialized hdeclaration hequals hvalue hsemicolon =>
          have hinward := inward_append.2 ⟨hdeclaration.1.inward, inward_append.2
            ⟨inward_singleton hequals (by decide),
              inward_append.2 ⟨hvalue.inward, hsemi hsemicolon⟩⟩⟩
          exact .of_inward hstatement hinward rfl rfl
      | function hdeclaration hopening hparams hclosing hopenBrace hinside
          hcloseBrace =>
          obtain ⟨m, hm, hinside⟩ := hbody hinside hn
          have hlast := inward_singleton hcloseBrace (by decide)
          apply Dropped.of_statement rfl (Nat.succ_le_succ hm)
          rw [Token.dropComments_append,
            Token.dropComments_of_inward hdeclaration.1.inward,
            Token.dropComments_cons_of_not_mem _ (by rw [hopening]; decide),
            Token.dropComments_append,
            Token.dropComments_of_inward hparams.inward,
            Token.dropComments_cons_of_not_mem _ (by rw [hclosing]; decide),
            Token.dropComments_cons_of_not_mem _ (by rw [hopenBrace]; decide),
            Token.dropComments_append, Token.dropComments_of_inward hlast]
          exact .function hdeclaration hopening hparams hclosing hopenBrace hinside
            hcloseBrace
      | expression hvalue hsemicolon =>
          have hinward := inward_append.2 ⟨hvalue.inward, hsemi hsemicolon⟩
          exact .of_inward hstatement hinward rfl rfl

theorem Program.dropComments {tokens : List Token} {body : List Stmt} {n : Nat}
    (h : Program tokens body n) :
    ∃ m ≤ n, Program (Token.dropComments tokens) (Stmt.dropComments body) m :=
  Sequence.dropComments (fun _ _ _ h hn => h.dropped_of_le hn) h (Nat.le_refl n)

end Grammar

/-- A list of tokens that is read is read without its comments too. -/
theorem parseTokens_dropComments {tokens : List Token} {root : Stmt}
    (h : parseTokens tokens = .ok root) :
    parseTokens (Token.dropComments tokens) = .ok root.withoutComments := by
  obtain ⟨body, levels, rfl, hprogram, hlevels⟩ := program_of_parseTokens h
  obtain ⟨m, hm, hdropped⟩ := hprogram.dropComments
  have hahead : (Cursor.ofTokens (Token.dropComments tokens)).ahead =
      Token.dropComments (Cursor.ofTokens tokens).ahead := by
    rw [Cursor.ahead_ofTokens, Cursor.ahead_ofTokens, Token.takeWhile_dropComments]
  exact parseTokens_of_le (hahead ▸ hdropped) (Nat.le_trans hm hlevels)

/-- Comments make no difference to the rest.  Scanning without them finds the
other tokens or fails in the same way, and so the end marker alone is found
exactly in the texts that are blank but for comments.  A program that is read
with its comments is read without them, and only they are missing from it. -/
theorem comments_dropped (source : String) :
    tokenize false source = (tokenize true source).map Token.dropComments ∧
    ((∃ location, tokenize false source = .ok [.endMarker location]) ↔
      Gap false source.toList []) ∧
    ∀ root, parseSource true source = .ok root →
      parseSource false source = .ok root.withoutComments := by
  refine ⟨tokenize_false source, tokenize_false_eq_endMarker_iff source, ?_⟩
  intro root h
  unfold parseSource at h ⊢
  rw [tokenize_false]
  cases htokens : tokenize true source with
  | error e =>
      rw [htokens] at h
      cases h
  | ok tokens =>
      rw [htokens] at h
      exact parseTokens_dropComments h

/-- A comment is dropped from a program, and another from a block in it. -/
theorem comments_dropped_nested :
    parseSource true "{/**/a;}//" = .ok (.block [.block [.comment .multiLine "/**/",
        .expression (.symbol "a")], .comment .singleLine "//"]) ∧
      parseSource false "{/**/a;}//" =
        .ok (.block [.block [.expression (.symbol "a")]]) := by
  have hread : parseSource true "{/**/a;}//" = .ok (.block [.block
      [.comment .multiLine "/**/", .expression (.symbol "a")],
      .comment .singleLine "//"]) := by rfl
  exact ⟨hread, (comments_dropped _).2.2 _ hread⟩

end MiniC
