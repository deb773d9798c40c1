/-
What reading a program recognizes: exactly the programs of the grammar that open
no more levels than may be open at once.
-/
import MiniC.Proofs.Statement.Complete

namespace MiniC

open Grammar Parse Registry

/-- What is ahead at the start of a list of tokens stands before its first end
marker. -/
theorem Cursor.ahead_ofTokens (tokens : List Token) :
    (ofTokens tokens).ahead =
      tokens.takeWhile fun token => decide (token.kind ≠ .eof) := by
  have hsame : (fun token => !isEnd token) =
      fun token : Token => decide (token.kind ≠ .eof) := by
    funext token
    simp [isEnd]
  rw [ahead, hsame]
  change (Token.terminated tokens).takeWhile _ = _
  unfold Token.terminated
  split
  · rfl
  · rw [List.takeWhile_append]
    split
    case isTrue hall =>
      have hsplit := (List.takeWhile_prefix fun token : Token =>
        decide (token.kind ≠ .eof)).eq_of_length hall
      rw [hsplit, List.takeWhile_cons_of_neg (by simp [Token.endMarker]),
        List.append_nil]
    case isFalse => rfl

namespace Cursor

/-- A list is closed where its last part is. -/
theorem terminated_append (before : List Token) (token : Token)
    (more : List Token) :
    Token.terminated (before ++ token :: more) =
      before ++ Token.terminated (token :: more) := by
  have hlast : (before ++ token :: more).getLast? = (token :: more).getLast? := by
    rw [List.getLast?_append, List.getLast?_cons]
    rfl
  unfold Token.terminated
  rw [hlast]
  split
  · rfl
  · rw [List.append_assoc]

/-- Tokens without an end marker lead to whatever list stands behind them. -/
theorem passes_ofTokens {before : List Token} (h : Endless before) (token : Token)
    (more : List Token) :
    (ofTokens (before ++ token :: more)).Passes before (ofTokens (token :: more)) :=
  ⟨terminated_append before token more, h⟩

end Cursor

/-- Tokens without an end marker all stand before one. -/
theorem Grammar.Endless.takeWhile_eq {tokens : List Token} (h : Endless tokens) :
    tokens.takeWhile (fun token => decide (token.kind ≠ .eof)) = tokens := by
  induction tokens with
  | nil => rfl
  | cons token tokens ih =>
      obtain ⟨htoken, htokens⟩ := endless_cons.1 h
      rw [List.takeWhile_cons_of_pos, ih htokens]
      exact decide_eq_true htoken

/-- Where all that is ahead is a program, it is read to the end marker. -/
theorem Registry.parseProgram_of_ahead {s : ParseState} {body : List Stmt}
    {levels : Nat} (h : Program s.cursor.ahead body levels) :
    Ensures standard.parseProgram s
      (fun result s' => levels ≤ maxNesting ∧ result = .block body ∧
        s'.cursor.kind = .eof)
      (Deep maxNesting levels) := by
  obtain ⟨last, hpasses, hlast⟩ := s.cursor.passes_ahead
  apply (parseProgram_complete h hpasses hlast).mono
  · intro result s' hread
    obtain ⟨hlevels, hresult, rfl⟩ := hread
    exact ⟨hlevels, hresult, hlast⟩
  · exact fun _ _ h => h

/-- What a run that reads a program ends with is the result for the tokens. -/
theorem Parse.Ensures.of_parseTokens {tokens : List Token}
    {Q : Stmt → ParseState → Prop} {E : ParseError → ParseState → Prop}
    (h : Ensures standard.parseProgram (.ofTokens tokens) Q E) :
    match parseTokens tokens with
    | .ok result => ∃ s', Q result s'
    | .error e => ∃ s', E e s' := by
  unfold parseTokens
  cases hrun : standard.parseProgram.run (.ofTokens tokens) with
  | mk result s' =>
      have hresult := h.of_run hrun
      cases result with
      | ok value => exact ⟨s', hresult⟩
      | error e => exact ⟨s', hresult⟩

/-- What is read is a program of the grammar. -/
theorem program_of_parseTokens {tokens : List Token} {root : Stmt}
    (h : parseTokens tokens = .ok root) :
    ∃ body levels, root = .block body ∧
      Program (Cursor.ofTokens tokens).ahead body levels ∧ levels ≤ maxNesting := by
  have hsound := (parseProgram_sound (.ofTokens tokens)).of_parseTokens
  rw [h] at hsound
  obtain ⟨s', _, body, levels, hroot, hprogram, hlevels, hpasses, hend⟩ := hsound
  obtain rfl := hpasses.eq_ahead hend
  exact ⟨body, levels, hroot, hprogram, hlevels⟩

theorem parseTokens_of_le {tokens : List Token} {body : List Stmt} {levels : Nat}
    (h : Program (Cursor.ofTokens tokens).ahead body levels)
    (hlevels : levels ≤ maxNesting) : parseTokens tokens = .ok (.block body) := by
  have hread := (parseProgram_of_ahead (s := .ofTokens tokens) h).of_parseTokens
  cases hresult : parseTokens tokens with
  | error e =>
      rw [hresult] at hread
      obtain ⟨_, hdeep, _⟩ := hread
      exact absurd hlevels (Nat.not_le_of_lt hdeep)
  | ok result =>
      rw [hresult] at hread
      obtain ⟨_, _, rfl, _⟩ := hread
      rfl

theorem parseTokens_of_lt {tokens : List Token} {body : List Stmt} {levels : Nat}
    (h : Program (Cursor.ofTokens tokens).ahead body levels)
    (hlevels : maxNesting < levels) :
    ∃ location,
      parseTokens tokens = .error (.nestingTooDeep maxNesting location) := by
  have hread := (parseProgram_of_ahead (s := .ofTokens tokens) h).of_parseTokens
  cases hresult : parseTokens tokens with
  | error e =>
      rw [hresult] at hread
      obtain ⟨_, _, location, rfl⟩ := hread
      exact ⟨location, rfl⟩
  | ok result =>
      rw [hresult] at hread
      obtain ⟨_, hwithin, _⟩ := hread
      exact absurd hwithin (Nat.not_le_of_lt hlevels)

/-- A program that opens no more levels than may be open is read without an end marker
behind it. -/
theorem parseTokens_of_program {tokens : List Token} {body : List Stmt} {levels : Nat}
    (h : Program tokens body levels) (hlevels : levels ≤ maxNesting) :
    parseTokens tokens = .ok (.block body) := by
  have hahead : (Cursor.ofTokens tokens).ahead = tokens := by
    rw [Cursor.ahead_ofTokens, h.endless.takeWhile_eq]
  rw [← hahead] at h
  exact parseTokens_of_le h hlevels

/-- A list of tokens is read as a block exactly when what stands before its
first end marker is a program of the grammar, and the statements of the block
are those of the program.  A program that opens too many levels fails for that
reason. -/
theorem program_read_iff (tokens : List Token) :
    (∀ result, parseTokens tokens = .ok result ↔
      ∃ body levels, result = .block body ∧
        Program (tokens.takeWhile fun token => decide (token.kind ≠ .eof)) body
          levels ∧
        levels ≤ 256) ∧
    ∀ body levels,
      Program (tokens.takeWhile fun token => decide (token.kind ≠ .eof)) body
        levels →
      256 < levels →
      ∃ location, parseTokens tokens = .error (.nestingTooDeep 256 location) := by
  rw [← Cursor.ahead_ofTokens]
  constructor
  · intro result
    constructor
    · intro hresult
      have hsound := (parseProgram_sound (.ofTokens tokens)).of_parseTokens
      rw [hresult] at hsound
      obtain ⟨s', tokens', body, levels, hblock, hprogram, hlevels, hpasses,
        hend⟩ := hsound
      obtain rfl := hpasses.eq_ahead hend
      exact ⟨body, levels, hblock, hprogram, hlevels⟩
    · intro hread
      obtain ⟨body, levels, rfl, hprogram, hlevels⟩ := hread
      exact parseTokens_of_le hprogram hlevels
  · intro body levels hprogram hlevels
    exact parseTokens_of_lt hprogram hlevels

/-- Blocks around an empty block, `n` of them. -/
def Stmt.nestedBlocks : Nat → Stmt
  | 0 => .block []
  | n + 1 => .block [nestedBlocks n]

/-- The braces of blocks around an empty block, `n` of them. -/
def Token.nestedBraces : Nat → List Token
  | 0 => [.sample .leftBrace, .sample .rightBrace]
  | n + 1 => .sample .leftBrace :: (nestedBraces n ++ [.sample .rightBrace])

theorem Grammar.program_nestedBraces (n : Nat) :
    Program (Token.nestedBraces n) [Stmt.nestedBlocks n] (n + 1) := by
  apply Sequence.single
  induction n with
  | zero => exact .block rfl .nil rfl
  | succ n ih => exact .block rfl (.single ih) rfl

/-- The tokens of `unsigned char const *f(short a, long *b) { signed x = b; }`. -/
def Token.sampleFunction : List Token :=
  [⟨.kwUnsigned, "unsigned", .start⟩, ⟨.kwChar, "char", .start⟩, ⟨.kwConst, "const", .start⟩,
    ⟨.star, "*", .start⟩, ⟨.identifier, "f", .start⟩, ⟨.leftParen, "(", .start⟩,
    ⟨.kwShort, "short", .start⟩, ⟨.identifier, "a", .start⟩, ⟨.comma, ",", .start⟩,
    ⟨.kwLong, "long", .start⟩, ⟨.star, "*", .start⟩, ⟨.identifier, "b", .start⟩,
    ⟨.rightParen, ")", .start⟩, ⟨.leftBrace, "\x7b", .start⟩,
    ⟨.kwSigned, "signed", .start⟩, ⟨.identifier, "x", .start⟩, ⟨.assign, "=", .start⟩,
    ⟨.identifier, "b", .start⟩, ⟨.semicolon, ";", .start⟩, ⟨.rightBrace, "\x7d", .start⟩]

/-- The tree of the function. -/
def Stmt.sampleFunction : Stmt :=
  .function "f" ⟨.char, true, false, 1⟩
    [⟨"a", ⟨.short, false, true, 0⟩⟩, ⟨"b", ⟨.long, false, true, 1⟩⟩]
    [.varDecl "x" ⟨.int, false, true, 0⟩ (some (.symbol "b"))]

/-- The tokens of `#include <a.h>`, of the function, and of `long y = 0x10u - 2;`. -/
def Token.sampleProgram : List Token :=
  ⟨.includeDirective, "#include <a.h>", .start⟩ :: (sampleFunction ++
    [⟨.kwLong, "long", .start⟩, ⟨.identifier, "y", .start⟩, ⟨.assign, "=", .start⟩,
      ⟨.unsignedInteger, "0x10u", .start⟩, ⟨.minus, "-", .start⟩, ⟨.integer, "2", .start⟩,
      ⟨.semicolon, ";", .start⟩])

/-- The statements of the program. -/
def Stmt.sampleProgram : List Stmt :=
  [.includeDirective ⟨"#include <a.h>", "a.h", true⟩, sampleFunction,
    .varDecl "y" ⟨.long, false, true, 0⟩
      (some (.binary (.unsigned 16) ⟨.minus, "-", .start⟩ (.integer 2)))]

namespace Grammar

/-- A token that stands for an expression is one above any floor. -/
theorem Expression.of_token {token : Token} {value : Expr}
    (h : Expr.ofToken token = .ok value) (floor : Power) : Expression floor [token] value 1 :=
  ⟨.leaf token value, .leaf h, nofun, rfl, rfl, rfl⟩

/-- The function is put together from its declarators and its body. -/
theorem statement_sampleFunction :
    Statement Token.sampleFunction Stmt.sampleFunction 3 := by
  have hname : Declarator ([⟨.kwUnsigned, "unsigned", .start⟩, ⟨.kwChar, "char", .start⟩,
      ⟨.kwConst, "const", .start⟩, ⟨.star, "*", .start⟩] ++ [⟨.identifier, "f", .start⟩])
      ⟨.char, true, false, 1⟩ "f" := .mk (by decide) rfl
  have hfirst : Declarator ([⟨.kwShort, "short", .start⟩] ++ [⟨.identifier, "a", .start⟩])
      ⟨.short, false, true, 0⟩ "a" := .mk (by decide) rfl
  have hsecond : Declarator ([⟨.kwLong, "long", .start⟩, ⟨.star, "*", .start⟩] ++
      [⟨.identifier, "b", .start⟩]) ⟨.long, false, true, 1⟩ "b" := .mk (by decide) rfl
  have hvariable : Declarator ([⟨.kwSigned, "signed", .start⟩] ++ [⟨.identifier, "x", .start⟩])
      ⟨.int, false, true, 0⟩ "x" := .mk (by decide) rfl
  have hvalue : Expression .assignment [⟨.identifier, "b", .start⟩] (.symbol "b") 1 :=
    .of_token rfl _
  have hcomma : Token.kind ⟨.comma, ",", .start⟩ = .comma := rfl
  have hassign : Token.kind ⟨.assign, "=", .start⟩ = .assign := rfl
  have hsemicolon : Token.kind ⟨.semicolon, ";", .start⟩ = .semicolon := rfl
  have hopening : Token.kind ⟨.leftParen, "(", .start⟩ = .leftParen := rfl
  have hclosing : Token.kind ⟨.rightParen, ")", .start⟩ = .rightParen := rfl
  have hopenBrace : Token.kind ⟨.leftBrace, "\x7b", .start⟩ = .leftBrace := rfl
  have hcloseBrace : Token.kind ⟨.rightBrace, "\x7d", .start⟩ = .rightBrace := rfl
  have hparams := Parameters.some (.more hfirst hcomma (.one hsecond))
  have hbody := Sequence.single (Statement.initialized
    ⟨hvariable, _, _, rfl, by decide, by decide⟩ hassign hvalue hsemicolon)
  exact Statement.function ⟨hname, _, _, rfl, by decide, by decide⟩ hopening hparams
    hclosing hopenBrace hbody hcloseBrace

theorem program_sample : Program Token.sampleProgram Stmt.sampleProgram 3 := by
  have hinclude : Statement [⟨.includeDirective, "#include <a.h>", .start⟩]
      (.includeDirective ⟨"#include <a.h>", "a.h", true⟩) 1 :=
    .includeDirective rfl rfl
      (Include.Written.takenApart ⟨⟨" ", by simp, by decide⟩, by decide, by decide⟩)
  have hvariable : Declarator ([⟨.kwLong, "long", .start⟩] ++ [⟨.identifier, "y", .start⟩])
      ⟨.long, false, true, 0⟩ "y" := .mk (by decide) rfl
  have hvalue : Expression .assignment
      [⟨.unsignedInteger, "0x10u", .start⟩, ⟨.minus, "-", .start⟩, ⟨.integer, "2", .start⟩]
      (.binary (.unsigned 16) ⟨.minus, "-", .start⟩ (.integer 2)) 2 := by
    refine ⟨.binary (.leaf _ _) _ (.leaf _ _),
      .leftward rfl (.leaf (by decide)) nofun (.leaf (by decide)) nofun, ?_, rfl, rfl, rfl⟩
    intro kind level hkind hlevel
    cases hkind
    cases hlevel
    decide
  have hassign : Token.kind ⟨.assign, "=", .start⟩ = .assign := rfl
  have hsemicolon : Token.kind ⟨.semicolon, ";", .start⟩ = .semicolon := rfl
  have hdeclaration := Statement.initialized
    ⟨hvariable, _, _, rfl, by decide, by decide⟩ hassign hvalue hsemicolon
  exact .cons hinclude (.cons statement_sampleFunction (.single hdeclaration))

end Grammar

/-- A program with an include directive, a function and a variable is read.  256 blocks
may stand inside one another, and 257 may not. -/
theorem program_read_samples :
    parseTokens Token.sampleProgram = .ok (.block Stmt.sampleProgram) ∧
      parseTokens (Token.nestedBraces 255) = .ok (.block [.nestedBlocks 255]) ∧
      ∃ location, parseTokens (Token.nestedBraces 256) =
        .error (.nestingTooDeep 256 location) := by
  refine ⟨?_, ?_, ?_⟩
  · rw [(program_read_iff _).1, program_sample.endless.takeWhile_eq]
    exact ⟨_, 3, rfl, program_sample, by decide⟩
  · rw [(program_read_iff _).1, (program_nestedBraces _).endless.takeWhile_eq]
    exact ⟨_, 256, rfl, program_nestedBraces 255, Nat.le_refl 256⟩
  · apply (program_read_iff _).2 [.nestedBlocks 256] 257
    · rw [(program_nestedBraces _).endless.takeWhile_eq]
      exact program_nestedBraces 256
    · decide

end MiniC
