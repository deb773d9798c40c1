/-
Lexemes scanned again: a lexeme that was found in a text is found again when it
stands alone, whatever stood behind it in that text.
-/
import MiniC.Proofs.Scanner.Join
import MiniC.Proofs.Scanner.Shorter

namespace MiniC

/-- The characters of the token are one lexeme, which is not dropped and stands for a
token of its kind. -/
def Token.IsLexeme (keepComments : Bool) (token : Token) : Prop :=
  ∃ category : Category,
    Front.of token.lexeme = .lexeme category token.lexeme.length ∧
      category.dropped keepComments = false ∧ category.Denotes token.lexeme token.kind

/-- What is kept where comments are dropped is kept where they are not. -/
theorem Category.dropped_true {category : Category} {keepComments : Bool}
    (h : category.dropped keepComments = false) : category.dropped true = false := by
  cases category with
  | blank => cases h
  | _ => rfl

theorem Token.IsLexeme.keepComments {keepComments : Bool} {token : Token}
    (h : token.IsLexeme keepComments) : token.IsLexeme true := by
  obtain ⟨category, hfront, hkept, hdenotes⟩ := h
  exact ⟨category, hfront, Category.dropped_true hkept, hdenotes⟩

/-- Each token of a text is a lexeme, also without the text behind it. -/
theorem Munched.isLexeme {keepComments : Bool} {before text left : List Char}
    {tokens : List Token} (h : Munched keepComments before tokens text left) :
    ∀ token ∈ tokens, token.IsLexeme keepComments := by
  induction h with
  | stop => simp
  | drop _ _ _ _ ih => exact ih
  | @token before lexeme rest left category token tokens hclosed hlongest hkept hdenotes
      hwritten _ _ ih =>
      rw [List.forall_mem_cons]
      refine ⟨⟨category, ?_, ?_⟩, ih⟩
      · have halone := Front.of_append_of_prefix (Front.of_eq_lexeme_iff.2
          ⟨hclosed, hlongest⟩) List.nil_prefix
        rwa [List.append_nil, ← hwritten] at halone
      · rw [hwritten]
        exact ⟨hkept, hdenotes⟩

theorem Scanner.isLexeme_of_scan (keepComments : Bool) (source : String) :
    ∀ token ∈ ((ofSource source).scan keepComments).tokens.toList,
      token.IsLexeme keepComments := by
  have hstart : (ofSource source).position.location = .behind [] := rfl
  obtain ⟨found, hfound, hmunched, _⟩ :=
    walk_munches source.toList hstart .none
  obtain rfl : ((ofSource source).scan keepComments).tokens.toList = found := hfound
  exact hmunched.isLexeme

namespace Token

/-- The same token at the start of a text. -/
def atStart (token : Token) : Token :=
  { token with location := .start }

/-- A lexeme that makes up a whole text is cut into its token and the end marker. -/
theorem IsLexeme.tokenize {keepComments : Bool} {token : Token}
    (h : token.IsLexeme keepComments) :
    tokenize keepComments (String.ofList token.lexeme) =
      .ok [token.atStart, .endMarker (.behind token.lexeme)] := by
  obtain ⟨category, hfront, hkept, hdenotes⟩ := h
  have halone : Front.of (token.lexeme ++ []) = .lexeme category token.lexeme.length := by
    rwa [List.append_nil]
  have hlongest := (Front.of_eq_lexeme_iff.1 halone).2
  have htoken : category.token? keepComments .start token.lexeme = some token.atStart :=
    (Category.token?_eq_some_iff ((hlongest.mem_iff category).2 rfl)).2
      ⟨hkept, hdenotes, rfl, rfl⟩
  have hwalk : Scanner.walk keepComments 0 .start .none (token.lexeme ++ []) =
      ⟨Findings.none.push token.atStart, .ok (),
        ⟨Position.start.after token.lexeme, []⟩⟩ := by
    rw [Scanner.walk_lexeme halone hlongest.ne_nil]
    change Scanner.walk _ _ _ ((category.token? keepComments .start _).elim _ _) _ = _
    rw [htoken]
    rfl
  rw [List.append_nil] at hwalk
  exact tokenize_of_walk hwalk

end Token

/-- The lexemes of the tokens, each ended by a line feed. -/
def onLines : List Token → String
  | [] => ""
  | token :: tokens => String.ofList token.lexeme ++ "\n" ++ onLines tokens

theorem tokenize_onLines {keepComments : Bool} {tokens : List Token}
    (h : ∀ token ∈ tokens, token.IsLexeme keepComments) :
    ∃ again location,
      tokenize keepComments (onLines tokens) = .ok (again ++ [.endMarker location]) ∧
        again.map Token.kind = tokens.map Token.kind ∧
        again.map Token.text = tokens.map Token.text := by
  induction tokens with
  | nil => exact ⟨[], .start, rfl, rfl, rfl⟩
  | cons token tokens ih =>
      rw [List.forall_mem_cons] at h
      obtain ⟨again, location, hagain, hkinds, htexts⟩ := ih h.2
      obtain ⟨found, _, hfound, _, hwhole⟩ := tokenize_append h.1.tokenize (onLines tokens)
      have halone : [token.atStart] ++ [_] = found ++ [_] := hfound
      obtain ⟨rfl, _⟩ := List.append_inj' halone rfl
      rw [hagain] at hwhole
      dsimp only at hwhole
      -- The first lexeme may itself go over several lines.
      generalize 1 + (String.ofList token.lexeme).toList.count '\n' = lines at hwhole
      refine ⟨token.atStart :: again.map (.moved lines), location.moved lines, ?_, ?_, ?_⟩
      · rw [onLines, hwhole, List.map_append]
        rfl
      · rw [List.map_cons, List.map_cons, List.map_map, ← hkinds]
        rfl
      · rw [List.map_cons, List.map_cons, List.map_map, ← htexts]
        rfl

/-- What was found in a text is found again: in a text that has each lexeme on a line of
its own, and one by one in the texts that the lexemes make up alone. -/
theorem lexemes_scan_again {keepComments : Bool} {source : String} {tokens : List Token}
    (h : tokenize keepComments source = .ok tokens) :
    ∃ found location, tokens = found ++ [.endMarker location] ∧
      (∃ again location,
        tokenize true (onLines found) = .ok (again ++ [.endMarker location]) ∧
          again.map Token.kind = found.map Token.kind ∧
          again.map Token.text = found.map Token.text) ∧
      ∀ token ∈ found, ∀ keep ∈ [true, keepComments],
        tokenize keep (String.ofList token.lexeme) =
          .ok [token.atStart, .endMarker (.behind token.lexeme)] := by
  obtain ⟨_, rfl⟩ := Scan.tokenList_eq_ok h
  have hlexemes := Scanner.isLexeme_of_scan keepComments source
  refine ⟨_, _, rfl, tokenize_onLines fun token htoken => (hlexemes token htoken).keepComments,
    ?_⟩
  intro token htoken keep hkeep
  rcases List.mem_pair.1 hkeep with rfl | rfl
  · exact (hlexemes token htoken).keepComments.tokenize
  · exact (hlexemes token htoken).tokenize

/-- The `0` was taken from before letters that do not make it a number in base sixteen,
and the comment goes over two lines. -/
theorem lexemes_scan_again_splitNumber :
    ∃ found location,
      [⟨.integer, "0", ⟨1, 1⟩⟩, ⟨.identifier, "xg", ⟨1, 2⟩⟩, ⟨.string, "\\\"", ⟨1, 4⟩⟩,
        ⟨.blockComment, "/*\n*/", ⟨1, 8⟩⟩, .endMarker ⟨2, 3⟩] =
        found ++ [.endMarker location] ∧
      (∃ again location,
        tokenize true (onLines found) = .ok (again ++ [.endMarker location]) ∧
          again.map Token.kind = found.map Token.kind ∧
          again.map Token.text = found.map Token.text) ∧
      ∀ token ∈ found, ∀ keep ∈ [true, true],
        tokenize keep (String.ofList token.lexeme) =
          .ok [token.atStart, .endMarker (.behind token.lexeme)] := by
  have hread : tokenize true "0xg\"\\\"\"/*\n*/" =
      .ok [⟨.integer, "0", ⟨1, 1⟩⟩, ⟨.identifier, "xg", ⟨1, 2⟩⟩, ⟨.string, "\\\"", ⟨1, 4⟩⟩,
        ⟨.blockComment, "/*\n*/", ⟨1, 8⟩⟩, .endMarker ⟨2, 3⟩] := by rfl
  exact lexemes_scan_again hread

end MiniC
