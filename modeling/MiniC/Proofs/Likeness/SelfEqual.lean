/-
The likeness of what equals itself.  Of all that is read, only what is no number
differs from itself, so trees equal themselves where no token stands for that.
-/
import MiniC.Proofs.Likeness.Reading

namespace MiniC

/-- What the token stands for, if it stands for an expression, equals itself. -/
def Token.SelfEqual (token : Token) : Prop :=
  ∀ e, Expr.ofToken token = .ok e → e.same e = true

/-- What an operation gives equals itself. -/
def Node.SelfEqual : Node → Prop
  | statement s => s.same s = true
  | expression e => e.same e = true

namespace Stmt

theorem sameValue_of_rel {value value' : Option Expr}
    (h : Option.Rel (fun e e' : Expr => e = e' ∧ e.same e = true) value value') :
    value = value' ∧ sameValue value value = true := by
  cases h with
  | none => exact ⟨rfl, rfl⟩
  | some h => exact ⟨congrArg some h.1, h.2⟩

theorem sameAll_of_forall₂ {body body' : List Stmt}
    (h : List.Forall₂ (fun s s' : Stmt => s = s' ∧ s.same s = true) body body') :
    body = body' ∧ sameAll body body = true := by
  induction h with
  | nil => simp [sameAll]
  | cons hfirst _ ih =>
      obtain ⟨rfl, hsame⟩ := hfirst
      obtain ⟨rfl, hrest⟩ := ih
      simp [sameAll, hsame, hrest]

end Stmt

namespace Likeness

/-- What is the same, and equals itself where it is a tree. -/
def selfEqual : Likeness where
  token t t' := t = t' ∧ t.SelfEqual
  text := Eq
  expr e e' := e = e' ∧ e.same e = true
  stmt s s' := s = s' ∧ s.same s = true
  error := Eq
  kind_eq h := h.1 ▸ rfl
  text_of h := h.1 ▸ rfl
  ofToken := by
    rintro t _ ⟨rfl, ht⟩
    cases hvalue : Expr.ofToken t with
    | ok e => exact ⟨rfl, ht e hvalue⟩
    | error e => rfl
  binary := by
    rintro _ _ _ _ _ _ ⟨rfl, hleft⟩ ⟨rfl, _⟩ ⟨rfl, hright⟩
    simp [Expr.same, hleft, hright]
  block h := by
    obtain ⟨rfl, hbody⟩ := Stmt.sameAll_of_forall₂ h
    exact ⟨rfl, by rwa [Stmt.same]⟩
  expression h := by
    obtain ⟨rfl, hvalue⟩ := h
    exact ⟨rfl, by rwa [Stmt.same]⟩
  varDecl := by
    rintro _ _ _ _ _ rfl hvalue
    obtain ⟨rfl, hsame⟩ := Stmt.sameValue_of_rel hvalue
    simp [Stmt.same, hsame]
  function := by
    rintro _ _ _ _ _ _ _ rfl hparams hbody
    obtain rfl := eq_of_forall₂_parameter hparams
    obtain ⟨rfl, hsame⟩ := Stmt.sameAll_of_forall₂ hbody
    simp [Stmt.same, hsame]
  returning h := by
    obtain ⟨rfl, hsame⟩ := Stmt.sameValue_of_rel h
    exact ⟨rfl, by rwa [Stmt.same]⟩
  comment h := by
    obtain rfl := h
    simp [Stmt.same]
  includeDirective h := by
    obtain rfl := h
    simp [Stmt.same]
  missingPrefix h := h.1 ▸ rfl
  missingInfix h := h.1 ▸ rfl
  expected h := h.1 ▸ rfl
  nestingTooDeep h := h.1 ▸ rfl

/-- A list of tokens is like itself when all its tokens are. -/
theorem cursor_selfEqual {tokens : List Token} (h : ∀ token ∈ tokens, token.SelfEqual) :
    selfEqual.cursor (.ofTokens tokens) (.ofTokens tokens) := by
  have hend : ∀ location, (Token.endMarker location).SelfEqual := fun _ => nofun
  have hterminated : ∀ token ∈ Token.terminated tokens, token.SelfEqual := by
    unfold Token.terminated
    split
    · exact h
    · exact List.forall_mem_append.2 ⟨h, by simpa using hend _⟩
  exact rows_of_forall₂ (List.forall₂_same.2 fun token htoken =>
    ⟨rfl, hterminated token htoken⟩) (Cursor.exists_eof_terminated tokens)

end Likeness

/-- Whatever the registry is, trees that are read from tokens which stand for
themselves equal themselves, if left operands that are given do. -/
theorem Registry.selfEqual_session (registry : Registry) {tokens : List Token}
    (h : ∀ token ∈ tokens, token.SelfEqual) {operations : List Operation}
    (hleft : ∀ form left, .infixForm form left ∈ operations → left.same left = true) :
    ∀ node, .ok node ∈ registry.session (.ofTokens tokens) operations →
      node.SelfEqual := by
  intro node hnode
  have hstart : Likeness.selfEqual.cursor (ParseState.ofTokens tokens).cursor
      (ParseState.ofTokens tokens).cursor := Likeness.cursor_selfEqual h
  have hgiven : ∀ form left, .infixForm form left ∈ operations →
      Likeness.selfEqual.expr left left :=
    fun form left hmem => ⟨rfl, hleft form left hmem⟩
  have hresults := Likeness.alike_session (.refl registry) hgiven hstart
  have hsame := List.forall₂_same.1 hresults _ hnode
  cases node with
  | statement s => exact hsame.2
  | expression e => exact hsame.2

end MiniC
