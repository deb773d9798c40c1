/-
The log of a source text: the tokens that were found, and then an account of the tree.
-/
import MiniC.Proofs.Program.Concatenation
import MiniC.Proofs.Scanner.Shorter
import MiniC.Proofs.Trace.Reading

namespace MiniC

open Grammar Parse Registry

/-- What was found was noted, token by token. -/
def Findings.Noted (found : Findings) : Prop :=
  found.log.toList = found.tokens.toList.map .lexed

theorem Findings.noted_none : Noted .none := rfl

theorem Findings.Noted.elim_push {found : Findings} (h : found.Noted)
    (token? : Option Token) : (token?.elim found found.push).Noted := by
  cases token? with
  | none => exact h
  | some token =>
      unfold Noted at h ⊢
      simp [Findings.push, h]

/-- A walk notes the tokens in the order in which it finds them, and nothing else,
however it ends. -/
theorem Scanner.walk_noted {keepComments : Bool} (text : List Char) (pending : Nat)
    (here : Position) {found : Findings} (h : found.Noted) :
    (walk keepComments pending here found text).toFindings.Noted := by
  induction text generalizing pending here found with
  | nil => exact h
  | cons c text ih =>
      cases pending with
      | succ n => exact ih n _ h
      | zero =>
          rw [walk]
          cases Front.of (c :: text) with
          | lexeme category length => exact ih _ _ (h.elim_push _)
          | unterminated what => exact h
          | unknown => exact h

/-- The log of a scan has a record for each of its tokens. -/
theorem Scanner.log_scan (keepComments : Bool) (scanner : Scanner) :
    (scanner.scan keepComments).log.toList =
      (scanner.scan keepComments).tokens.toList.map .lexed :=
  walk_noted scanner.rest 0 scanner.position Findings.noted_none

theorem Registry.parseProgram_recounts (s : ParseState) :
    Yields standard.parseProgram s fun root s' => ∃ body, root = .block body ∧
      Recounts s body s' ∧ s'.cursor.kind = .eof := by
  have hstop : ∀ s, check .eof s = .ok (decide (s.cursor.kind = .eof)) s := fun _ => rfl
  have hrecounts : Yields standard.parseProgram s fun root s' => ∃ body,
      root = .block body ∧ Recounts s body s' :=
    (collectUntil_recounts (inner_recounts maxNesting) hstop s).bind
      fun body _ h => ⟨body, rfl, h⟩
  refine (hrecounts.and (parseProgram_sound s).yields).mono ?_
  rintro root s' ⟨⟨body, hroot, hbody⟩, _, _, _, _, _, _, _, hend⟩
  exact ⟨body, hroot, hbody, hend⟩

/-- A text that is cut into tokens is logged token by token, and then it is read. -/
theorem traceSource_of_tokenize {keepComments : Bool} {source : String} {tokens : List Token}
    (h : tokenize keepComments source = .ok tokens) :
    ∃ found location, tokens = found ++ [.endMarker location] ∧
      (∀ token ∈ found, token.kind ≠ .eof) ∧
      traceSource keepComments source =
        let (result, state) := standard.parseProgram.run (.ofTokens tokens)
        (found.map .lexed ++ state.log.toList, result) := by
  obtain ⟨_, hscan⟩ := Scan.tokenList_eq_ok h
  obtain ⟨found, location, hfound, hkinds, _⟩ := tokenize_append h ""
  obtain ⟨rfl, _⟩ := List.append_inj' (hscan.symm.trans hfound) rfl
  refine ⟨_, location, hfound, hkinds, ?_⟩
  have htokens : ((Scanner.ofSource source).scan keepComments).tokenList = .ok tokens := h
  rw [traceSource]
  dsimp only
  rw [htokens, Scanner.log_scan]

/-- The log of a source text that is read is faithful to the tree.  There is a record for
every token, and behind these the parse gives an account: of the operators, statement by
statement; of the statements that are no expressions, each with its first token; and of
the names that are declared as functions or without an initial value. -/
theorem trace_follows_tree {keepComments : Bool} {source : String} {records : List Record}
    {root : Stmt} (h : traceSource keepComments source = (records, .ok root)) :
    ∃ tokens location body heads noted,
      tokenize keepComments source = .ok (tokens ++ [.endMarker location]) ∧
      (∀ token ∈ tokens, token.kind ≠ .eof) ∧ root = .block body ∧
      records = tokens.map .lexed ++ noted ∧ Headed tokens body heads ∧
      heads.map Prod.snd = (Stmt.preorderAll body).filter (fun s => !s.isExpression) ∧
      Account noted ((Stmt.preorderAll body).flatMap Stmt.operators)
        (heads.map Record.announcing)
        ((Stmt.preorderAll body).filterMap Stmt.declaration?) := by
  cases htokens : tokenize keepComments source with
  | error e =>
      have hscan : ((Scanner.ofSource source).scan keepComments).tokenList = .error e := htokens
      rw [traceSource] at h
      dsimp only at h
      rw [hscan] at h
      cases h
  | ok tokens =>
      obtain ⟨found, location, rfl, hkinds, htrace⟩ := traceSource_of_tokenize htokens
      rw [htrace] at h
      cases hrun : standard.parseProgram.run (.ofTokens (found ++ [.endMarker location])) with
      | mk result s' =>
          rw [hrun] at h
          obtain ⟨rfl, rfl⟩ := Prod.mk.inj h
          obtain ⟨body, hroot, ⟨passed, heads, hpasses, hheaded, noted, hlog, haccount⟩, hend⟩ :=
            (parseProgram_recounts (.ofTokens _)).of_run hrun
          have hahead : (ParseState.ofTokens (found ++ [.endMarker location])).cursor.ahead =
              found := Cursor.ahead_ofTokens_append hkinds location
          obtain rfl : passed = found := (hpasses.eq_ahead hend).trans hahead
          refine ⟨passed, location, body, heads, noted, rfl, hkinds, hroot, ?_, hheaded,
            hheaded.map_snd, haccount⟩
          rw [hlog]
          rfl

/-- A block with a variable and a difference in it. -/
theorem trace_follows_tree_block :
    ∃ tokens location body heads noted,
      tokenize false "\x7bchar c;a-b;\x7d" = .ok (tokens ++ [.endMarker location]) ∧
      (∀ token ∈ tokens, token.kind ≠ .eof) ∧
      Stmt.block [.block [.varDecl "c" (.ofSpecifiers [.kwChar]) none,
        .expression (.binary (.symbol "a") ⟨.minus, "-", ⟨1, 10⟩⟩ (.symbol "b"))]] =
        .block body ∧
      [.lexed ⟨.leftBrace, "\x7b", ⟨1, 1⟩⟩, .lexed ⟨.kwChar, "char", ⟨1, 2⟩⟩,
        .lexed ⟨.identifier, "c", ⟨1, 7⟩⟩, .lexed ⟨.semicolon, ";", ⟨1, 8⟩⟩,
        .lexed ⟨.identifier, "a", ⟨1, 9⟩⟩, .lexed ⟨.minus, "-", ⟨1, 10⟩⟩,
        .lexed ⟨.identifier, "b", ⟨1, 11⟩⟩, .lexed ⟨.semicolon, ";", ⟨1, 12⟩⟩,
        .lexed ⟨.rightBrace, "\x7d", ⟨1, 13⟩⟩, .statement .leftBrace ⟨1, 1⟩,
        .statement .kwChar ⟨1, 2⟩, .uninitialized "c",
        .continuing .minus .additive .default] = tokens.map .lexed ++ noted ∧
      Headed tokens body heads ∧
      heads.map Prod.snd = (Stmt.preorderAll body).filter (fun s => !s.isExpression) ∧
      Account noted ((Stmt.preorderAll body).flatMap Stmt.operators)
        (heads.map Record.announcing)
        ((Stmt.preorderAll body).filterMap Stmt.declaration?) :=
  trace_follows_tree rfl

end MiniC
