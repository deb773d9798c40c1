/-
The standard registry as the grammar sees it.
-/
import MiniC.Proofs.Grammar.Statement
import MiniC.Registry.Standard

namespace MiniC.Registry

open Grammar

/-- Literals and names are expressions by themselves, and a parenthesis opens
one. -/
theorem standard_prefixForm? (kind : TokenKind) :
    (standard.entry kind).prefixForm? =
      if kind ∈ primaryKinds then some .primary
      else if kind = .leftParen then some .grouping else none := by
  cases kind <;> rfl

theorem mem_primaryKinds_of_prefixForm? {kind : TokenKind}
    (h : (standard.entry kind).prefixForm? = some .primary) :
    kind ∈ primaryKinds := by
  rw [standard_prefixForm?] at h
  by_cases hprimary : kind ∈ primaryKinds
  · exact hprimary
  · rw [if_neg hprimary] at h
    split at h <;> cases h

theorem eq_leftParen_of_prefixForm? {kind : TokenKind}
    (h : (standard.entry kind).prefixForm? = some .grouping) :
    kind = .leftParen := by
  rw [standard_prefixForm?] at h
  by_cases hprimary : kind ∈ primaryKinds
  · simp [hprimary] at h
  · by_cases hparen : kind = .leftParen
    · exact hparen
    · simp [hprimary, hparen] at h

theorem standard_infixForm? (kind : TokenKind) :
    (standard.entry kind).infixForm? =
      if assigns kind then some .assignment
      else (leftLevel? kind).map fun _ => .binary := by
  cases kind <;> rfl

theorem standard_statementForm? (kind : TokenKind) :
    (standard.entry kind).statementForm? =
      match kind with
      | .leftBrace => some .block
      | .lineComment | .blockComment => some .comment
      | .includeDirective => some .includeDirective
      | .kwReturn => some .returning
      | kind => if kind ∈ declarationKinds then some .declaration else none := by
  cases kind <;> rfl

theorem kind_of_comment {kind : TokenKind}
    (h : (standard.entry kind).statementForm? = some .comment) :
    kind = .lineComment ∨ kind = .blockComment := by
  rw [standard_statementForm?] at h
  split at h <;> simp_all

theorem mem_declarationKinds_of_declaration {kind : TokenKind}
    (h : (standard.entry kind).statementForm? = some .declaration) :
    kind ∈ declarationKinds := by
  rw [standard_statementForm?] at h
  split at h <;> simp_all

/-- Every specifier but a star announces a declaration. -/
theorem statementForm?_of_specifier {kind : TokenKind}
    (hkind : kind ∈ specifierKinds) (hstar : kind ≠ .star) :
    (standard.entry kind).statementForm? = some .declaration := by
  have hall : ∀ kind ∈ specifierKinds, kind ≠ .star →
      (standard.entry kind).statementForm? = some .declaration := by decide
  exact hall kind hkind hstar

/-- No token that begins an expression announces a statement of another form. -/
theorem statementForm?_of_prefix {kind : TokenKind}
    (h : kind ∈ primaryKinds ∨ kind = .leftParen) :
    (standard.entry kind).statementForm? = none := by
  have hall : ∀ kind ∈ TokenKind.leftParen :: primaryKinds,
      (standard.entry kind).statementForm? = none := by decide
  rcases h with h | rfl
  · exact hall kind (List.mem_cons_of_mem _ h)
  · exact hall _ List.mem_cons_self

/-- An operator goes on with an expression at its own level.  What opens an
expression has the highest power, and nothing else binds. -/
theorem standard_power (kind : TokenKind) :
    standard.power kind =
      match level? kind with
      | some level => level
      | none =>
          if kind ∈ primaryKinds ∨ kind = .leftParen then .primary
          else .default := by
  cases kind <;> rfl

theorem standard_power_of_level {kind : TokenKind} {level : Power}
    (h : level? kind = some level) : standard.power kind = level := by
  rw [standard_power, h]

end MiniC.Registry
