/-
The likeness of what is the same: only the lists behind an end marker, and the
logs, may differ.
-/
import MiniC.Proofs.Likeness.Reading

namespace MiniC.Likeness

open Parse

/-- The likeness of what is the same. -/
def same : Likeness where
  token := Eq
  text := Eq
  expr := Eq
  stmt := Eq
  error := Eq
  kind_eq h := h ▸ rfl
  text_of h := h ▸ rfl
  ofToken := by
    rintro t _ rfl
    cases Expr.ofToken t <;> rfl
  binary := by
    rintro _ _ _ _ _ _ rfl rfl rfl
    rfl
  block := by simp
  expression := by simp
  varDecl := by
    rintro _ _ _ _ _ rfl (hvalue | _)
    · rw [hvalue]
    · rfl
  function := by
    rintro _ _ _ _ _ _ _ rfl hparams hbody
    rw [List.forall₂_eq_eq_eq] at hbody
    rw [eq_of_forall₂_parameter hparams, hbody]
  returning := by
    rintro _ _ (hvalue | _)
    · rw [hvalue]
    · rfl
  comment := by simp
  includeDirective := by
    rintro _ _ rfl
    rfl
  missingPrefix := by simp
  missingInfix := by simp
  expected := by simp
  nestingTooDeep := by
    rintro _ _ _ rfl
    rfl

/-- The likeness of what is the same, where tokens are taken from a list. -/
def among (tokens : List Token) : Likeness :=
  { same with
    token := fun t t' => t = t' ∧ t ∈ tokens
    kind_eq := fun h => same.kind_eq h.1
    text_of := fun h => same.text_of h.1
    ofToken := fun h => same.ofToken h.1
    binary := fun hleft h => same.binary hleft h.1
    missingPrefix := fun h => same.missingPrefix h.1
    missingInfix := fun h => same.missingInfix h.1
    expected := fun h => same.expected h.1
    nestingTooDeep := fun h => same.nestingTooDeep h.1 }

variable {α : Type}

theorem cursor_refl (c : Cursor) : same.cursor c c :=
  rows_of_forall₂ (List.forall₂_same.2 fun _ _ => rfl) c.exists_eof

theorem eq_of_result_same {r r' : Except ParseError Node}
    (h : same.result r r') : r = r' := by
  rcases r with e | (s | e) <;> rcases r' with e' | (s' | e')
  case error.error => exact congrArg Except.error h
  case ok.statement.ok.statement => exact congrArg (Except.ok ∘ Node.statement) h
  case ok.expression.ok.expression => exact congrArg (Except.ok ∘ Node.expression) h
  all_goals exact h.elim

/-- Results that are alike are the same. -/
theorem eq_of_outcome_same {r r' : Except ParseError α} (h : same.Outcome Eq r r') :
    r = r' := by
  cases r <;> cases r'
  · exact congrArg Except.error h
  · exact h.elim
  · exact h.elim
  · exact congrArg Except.ok h

end MiniC.Likeness
