/-
Numbers in source texts: every numeral that is found in a text is read as the number
that it denotes or refused as out of range, and every floating literal as a number.
-/
import MiniC.Proofs.Likeness.SelfEqual
import MiniC.Proofs.Numeral.Floating
import MiniC.Proofs.Scanner.Kind

namespace MiniC

open Numeral Parse

/-- Wherever the token stands, to read it as an expression by itself comes to `result`,
and the cursor goes on. -/
def Token.ReadAs (token : Token) (result : Except ParseError Expr) : Prop :=
  ∀ (inner : Inner) (s : ParseState), s.cursor.current = token →
    (PrefixForm.primary.parse inner).run s =
      (result, { s with cursor := s.cursor.advance })

theorem Token.readAs_ofToken (token : Token) : token.ReadAs (Expr.ofToken token) := by
  rintro inner s rfl
  have hadvance : advance s = .ok s.cursor.current { s with cursor := s.cursor.advance } := rfl
  rw [Parse.run, PrefixForm.parse, bind_of_ok hadvance]
  cases Expr.ofToken s.cursor.current <;> rfl

/-- What the token is read as where it is a number: the number that its text denotes,
as long as a word can hold it; and a number, whatever its text is, where it is
floating. -/
structure Token.ReadExactly (token : Token) : Prop where
  integer : token.kind = .integer →
    (∃! n, Spells token.text.toList n) ∧
      ∀ n, Spells token.text.toList n → token.ReadAs
        (if n ≤ 2 ^ 63 - 1 then .ok (.integer n) else .error (.invalidNumber token))
  unsigned : token.kind = .unsignedInteger →
    (∃! n, SpellsUnsigned token.text.toList n) ∧
      ∀ n, SpellsUnsigned token.text.toList n → token.ReadAs
        (if n ≤ 2 ^ 64 - 1 then .ok (.unsigned n) else .error (.invalidNumber token))
  floating : token.kind = .floating →
    ∃ x, x.isNaN = false ∧ token.ReadAs (.ok (.floating x))

theorem Token.IsLexeme.mem_floating {keepComments : Bool} {token : Token}
    (h : token.IsLexeme keepComments) (hkind : token.kind = .floating) :
    token.text.toList ∈ Category.floating.lexemes :=
  h.text_mem_lexemes (by rw [hkind]; rfl) (by decide)

theorem Token.IsLexeme.readExactly {keepComments : Bool} {token : Token}
    (h : token.IsLexeme keepComments) : token.ReadExactly := by
  constructor
  · intro hkind
    have hmem : token.text.toList ∈ Category.integer.lexemes :=
      h.text_mem_lexemes (by rw [hkind]; rfl) (by decide)
    obtain ⟨n, hn⟩ := Pattern.exists_spells hmem
    refine ⟨⟨n, hn, fun _ hm => hm.unique hn⟩, fun m hm => ?_⟩
    have hvalue : Expr.ofToken token =
        if m ≤ 2 ^ 63 - 1 then .ok (.integer m) else .error (.invalidNumber token) := by
      by_cases hle : m ≤ 2 ^ 63 - 1 <;>
        simp only [Expr.ofToken, hkind, hm.integer?_eq, hle, if_true, if_false,
          Option.map_some, Option.map_none]
    exact hvalue ▸ token.readAs_ofToken
  · intro hkind
    have hmem : token.text.toList ∈ Category.unsignedInteger.lexemes :=
      h.text_mem_lexemes (by rw [hkind]; rfl) (by decide)
    obtain ⟨n, hn⟩ := Pattern.exists_spellsUnsigned hmem
    refine ⟨⟨n, hn, fun _ hm => hm.unique hn⟩, fun m hm => ?_⟩
    have hvalue : Expr.ofToken token =
        if m ≤ 2 ^ 64 - 1 then .ok (.unsigned m) else .error (.invalidNumber token) := by
      by_cases hle : m ≤ 2 ^ 64 - 1 <;>
        simp only [Expr.ofToken, hkind, hm.unsigned?_eq, hle, if_true, if_false,
          Option.map_some, Option.map_none]
    exact hvalue ▸ token.readAs_ofToken
  · intro hkind
    obtain ⟨x, hx, hnumber⟩ := exists_floating? (h.mem_floating hkind)
    have hvalue : Expr.ofToken token = .ok (.floating x) := by
      simp only [Expr.ofToken, hkind, hx, Option.map_some]
    exact ⟨x, hnumber, hvalue ▸ token.readAs_ofToken⟩

/-- Only floating tokens stand for floating values. -/
theorem Expr.floating_of_ofToken {token : Token} {x : Binary64}
    (h : Expr.ofToken token = .ok (.floating x)) :
    token.kind = .floating ∧ floating? token.text.toList = some x := by
  simp only [Expr.ofToken] at h
  split at h
  · cases hvalue : integer? token.text.toList <;> simp [hvalue] at h
  · cases hvalue : unsigned? token.text.toList <;> simp [hvalue] at h
  · next hkind =>
    cases hvalue : floating? token.text.toList with
    | none => simp [hvalue] at h
    | some y =>
        simp only [hvalue, Option.map_some, Except.ok.injEq, Expr.floating.injEq] at h
        exact ⟨hkind, congrArg some h⟩
  all_goals cases h

/-- A lexeme stands for no expression but one that equals itself. -/
theorem Token.IsLexeme.selfEqual {keepComments : Bool} {token : Token}
    (h : token.IsLexeme keepComments) : token.SelfEqual := by
  intro e he
  cases e with
  | floating x =>
      obtain ⟨hkind, hx⟩ := Expr.floating_of_ofToken he
      obtain ⟨y, hy, hnumber⟩ := exists_floating? (h.mem_floating hkind)
      obtain rfl : y = x := Option.some.inj (hy.symm.trans hx)
      exact Binary64.same_self hnumber
  | binary => exact absurd he Expr.ofToken_ne_binary
  | _ => simp [Expr.same]

/-- Every token of a text stands for itself, the end marker included. -/
theorem tokenize_selfEqual {keepComments : Bool} {source : String} {tokens : List Token}
    (h : tokenize keepComments source = .ok tokens) :
    ∀ token ∈ tokens, token.SelfEqual := by
  obtain ⟨_, rfl⟩ := Scan.tokenList_eq_ok h
  rw [List.forall_mem_append]
  refine ⟨fun token htoken => ?_, ?_⟩
  · exact (Scanner.isLexeme_of_scan keepComments source token htoken).selfEqual
  · rw [List.forall_mem_singleton]
    exact nofun

/-- To read a text as a program is to ask for a program in a session. -/
theorem mem_session_of_parseSource {keepComments : Bool} {source : String} {tree : Stmt}
    (h : parseSource keepComments source = .ok tree) :
    ∃ tokens, tokenize keepComments source = .ok tokens ∧
      .ok (.statement tree) ∈ Registry.standard.session (.ofTokens tokens) [.program] := by
  unfold parseSource at h
  split at h
  · next tokens htokens =>
    refine ⟨tokens, htokens, ?_⟩
    rcases hrun : Registry.standard.parseProgram.run (.ofTokens tokens) with ⟨result, s⟩
    rw [parseTokens, hrun] at h
    obtain rfl : result = .ok tree := h
    rw [Registry.session, Operation.parse, map_eq_bind, run_bind, hrun]
    exact List.mem_cons_self
  · cases h

/-- Numbers are read exactly or refused.  Of the tokens of any text, those that are
whole numbers denote one number each, however many digits there are and whatever zeros
stand in front; they are read as this number where a word of 64 bits can hold it, and
are refused by an error about just this token where none can.  Floating tokens are
always read, and as a number.  So whatever is parsed from a text, with any registry,
equals itself. -/
theorem numerals_read_exactly (keepComments : Bool) (source : String) :
    (∀ token ∈ ((Scanner.ofSource source).scan keepComments).tokens.toList,
      token.ReadExactly) ∧
    (∀ tokens, tokenize keepComments source = .ok tokens →
      ∀ (registry : Registry) (operations : List Operation),
        (∀ form left, .infixForm form left ∈ operations → left.same left = true) →
        ∀ node, .ok node ∈ registry.session (.ofTokens tokens) operations →
          node.SelfEqual) ∧
    ∀ tree, parseSource keepComments source = .ok tree → tree.same tree = true := by
  have hsession : ∀ tokens, tokenize keepComments source = .ok tokens →
      ∀ (registry : Registry) (operations : List Operation),
        (∀ form left, .infixForm form left ∈ operations → left.same left = true) →
        ∀ node, .ok node ∈ registry.session (.ofTokens tokens) operations →
          node.SelfEqual := fun tokens htokens registry operations =>
    registry.selfEqual_session (tokenize_selfEqual htokens)
  refine ⟨fun token htoken => ?_, hsession, fun tree htree => ?_⟩
  · exact (Scanner.isLexeme_of_scan keepComments source token htoken).readExactly
  · obtain ⟨tokens, htokens, hmem⟩ := mem_session_of_parseSource htree
    exact hsession tokens htokens Registry.standard [.program] (by simp) _ hmem

/-- The largest number of a signed word in base sixteen, the number behind it in base
ten with a zero in front, and a number so large that it counts as infinite. -/
theorem numerals_read_exactly_bounds :
    (⟨.integer, "0X7fffFFFFffffFFFF", ⟨1, 1⟩⟩ : Token).ReadAs
      (.ok (.integer 9223372036854775807)) ∧
    (⟨.integer, "09223372036854775808", ⟨1, 20⟩⟩ : Token).ReadAs
      (.error (.invalidNumber ⟨.integer, "09223372036854775808", ⟨1, 20⟩⟩)) ∧
    (Stmt.block [.expression (.floating (.infinity false))]).same
      (.block [.expression (.floating (.infinity false))]) = true := by
  obtain ⟨htokens, _, _⟩ :=
    numerals_read_exactly false "0X7fffFFFFffffFFFF 09223372036854775808"
  obtain ⟨_, _, htree⟩ := numerals_read_exactly false "1e999f;"
  have hlargest : Spells "0X7fffFFFFffffFFFF".toList 9223372036854775807 :=
    .hexadecimal (.inr rfl) (by decide) (List.all_eq_true.1 rfl)
  have hbeyond : Spells "09223372036854775808".toList 9223372036854775808 :=
    .decimal (by decide) (List.all_eq_true.1 rfl)
  refine ⟨?_, ?_, htree _ rfl⟩
  · exact ((htokens ⟨.integer, "0X7fffFFFFffffFFFF", ⟨1, 1⟩⟩ (by decide)).integer rfl).2 _
      hlargest
  · exact ((htokens ⟨.integer, "09223372036854775808", ⟨1, 20⟩⟩ (by decide)).integer rfl).2
      _ hbeyond

end MiniC
