/-
Trees and errors further down: where all tokens of a list stand some lines
further down, so do the operators in what is read from it.
-/
import MiniC.Proofs.Likeness.Basic
import MiniC.Proofs.Scanner.Join

namespace MiniC

/-- An expression whose operators stand so many lines further down. -/
def Expr.moved (lines : Nat) : Expr → Expr
  | binary left operator right =>
      binary (left.moved lines) (operator.moved lines) (right.moved lines)
  | e => e

namespace Stmt

mutual

/-- A statement whose operators stand so many lines further down. -/
def moved (lines : Nat) : Stmt → Stmt
  | block body => block (movedAll lines body)
  | expression value => expression (value.moved lines)
  | varDecl name type initial => varDecl name type (initial.map (.moved lines))
  | function name type params body => function name type params (movedAll lines body)
  | returning value => returning (value.map (.moved lines))
  | comment kind text => comment kind text
  | includeDirective directive => includeDirective directive

/-- Statements whose operators stand so many lines further down. -/
def movedAll (lines : Nat) : List Stmt → List Stmt
  | [] => []
  | s :: rest => s.moved lines :: movedAll lines rest

end

theorem movedAll_eq_map (lines : Nat) (body : List Stmt) :
    movedAll lines body = body.map (moved lines) := by
  induction body with
  | nil => rfl
  | cons s body ih => rw [movedAll, ih, List.map_cons]

end Stmt

/-- An error so many lines and bytes further on.  Only the scanner counts
bytes. -/
def ParseError.moved (lines bytes : Nat) : ParseError → ParseError
  | scan error => scan (error.moved lines bytes)
  | missingPrefix found => missingPrefix (found.moved lines)
  | missingInfix found => missingInfix (found.moved lines)
  | expected kind context found => expected kind context (found.moved lines)
  | invalidNumber literal => invalidNumber (literal.moved lines)
  | nestingTooDeep limit location => nestingTooDeep limit (location.moved lines)

/-- What a token stands for does not depend on its place. -/
theorem Expr.ofToken_moved (lines bytes : Nat) (token : Token) :
    Expr.ofToken (token.moved lines) =
      match Expr.ofToken token with
      | .ok e => .ok (e.moved lines)
      | .error e => .error (e.moved lines bytes) := by
  obtain ⟨kind, text, location⟩ := token
  cases kind with
  | integer =>
      simp only [ofToken, Token.moved]
      cases Numeral.integer? text.toList <;> rfl
  | unsignedInteger =>
      simp only [ofToken, Token.moved]
      cases Numeral.unsigned? text.toList <;> rfl
  | floating =>
      simp only [ofToken, Token.moved]
      cases Numeral.floating? text.toList <;> rfl
  | _ => rfl

theorem Stmt.movedAll_eq_of_forall₂ {lines : Nat} {body body' : List Stmt}
    (h : List.Forall₂ (fun s s' => s.moved lines = s') body body') :
    movedAll lines body = body' := by
  have hmap := List.forall₂_map_left_iff.2 h
  rwa [List.forall₂_eq_eq_eq, ← movedAll_eq_map] at hmap

namespace Likeness

/-- The likeness of what stands some lines further down. -/
def moved (lines bytes : Nat) : Likeness where
  token t t' := t.moved lines = t'
  text := Eq
  expr e e' := e.moved lines = e'
  stmt s s' := s.moved lines = s'
  error e e' := e.moved lines bytes = e'
  kind_eq := by
    rintro t _ rfl
    rfl
  text_of := by
    rintro t _ rfl
    rfl
  ofToken := by
    rintro t _ rfl
    rw [Expr.ofToken_moved lines bytes]
    cases Expr.ofToken t <;> rfl
  binary := by
    rintro _ _ _ _ _ _ rfl rfl rfl
    rfl
  block := by
    intro body body' hbody
    rw [Stmt.moved, Stmt.movedAll_eq_of_forall₂ hbody]
  expression := by
    rintro _ _ rfl
    rfl
  varDecl := by
    rintro _ _ _ _ _ rfl (hvalue | _)
    · rw [← hvalue]
      rfl
    · rfl
  function := by
    rintro _ _ _ _ _ _ _ rfl hparams hbody
    rw [Stmt.moved, eq_of_forall₂_parameter hparams,
      Stmt.movedAll_eq_of_forall₂ hbody]
  returning := by
    rintro _ _ (hvalue | _)
    · rw [← hvalue]
      rfl
    · rfl
  comment := by
    rintro _ _ _ rfl
    rfl
  includeDirective := by
    rintro _ _ rfl
    rfl
  missingPrefix := by
    rintro _ _ rfl
    rfl
  missingInfix := by
    rintro _ _ rfl
    rfl
  expected := by
    rintro _ _ _ _ rfl
    rfl
  nestingTooDeep := by
    rintro _ _ _ rfl
    rfl

/-- A list that has an end marker in it is like the list further down. -/
theorem rows_moved (lines bytes : Nat) {tokens : List Token}
    (h : ∃ token ∈ tokens, token.kind = .eof) :
    (moved lines bytes).Rows tokens (tokens.map (.moved lines)) := by
  induction tokens with
  | nil => simp at h
  | cons token tokens ih =>
      by_cases hkind : token.kind = .eof
      · exact .last rfl hkind
      · exact .next rfl (ih (by simpa [hkind] using h))

end Likeness

end MiniC
