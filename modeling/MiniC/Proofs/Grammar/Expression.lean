/-
The grammar of expressions: phrases that still have their parentheses, and the
rule by which operators hold their operands.
-/
import MiniC.Expr.Parse

namespace MiniC

/-- The end marker is no expression. -/
theorem Expr.ofToken_eof {token : Token} (h : token.kind = .eof) :
    Expr.ofToken token = .error (.missingPrefix token) := by
  simp [Expr.ofToken, h]

/-- A single token is no operation. -/
theorem Expr.ofToken_ne_binary {token operator : Token} {left right : Expr} :
    Expr.ofToken token ≠ .ok (.binary left operator right) := by
  intro h
  simp only [Expr.ofToken] at h
  split at h
  · cases hnumber : Numeral.integer? token.text.toList <;> simp [hnumber] at h
  · cases hnumber : Numeral.unsigned? token.text.toList <;> simp [hnumber] at h
  · cases hnumber : Numeral.floating? token.text.toList <;> simp [hnumber] at h
  all_goals cases h

namespace Grammar

/-- The level of an operator that takes in operators of its own level on its
left side. -/
def leftLevel? : TokenKind → Option Power
  | .comma => some .comma
  | .logicalAnd | .logicalOr => some .logical
  | .equal | .notEqual | .less | .lessEqual | .greater | .greaterEqual =>
      some .relational
  | .plus | .minus => some .additive
  | .star | .slash | .percent => some .multiplicative
  | _ => none

/-- The operators that assign take in their own level on the right side. -/
def assigns : TokenKind → Bool
  | .assign | .plusAssign | .minusAssign | .starAssign | .slashAssign
  | .percentAssign => true
  | _ => false

/-- The level of an operator. -/
def level? (kind : TokenKind) : Option Power :=
  if assigns kind then some .assignment else leftLevel? kind

/-- An expression as it is written: parentheses are nodes of their own. -/
inductive Phrase
  | leaf (token : Token) (value : Expr)
  | grouped (opening : Token) (inner : Phrase) (closing : Token)
  | binary (left : Phrase) (operator : Token) (right : Phrase)

namespace Phrase

/-- The tokens of a phrase, in order. -/
def yield : Phrase → List Token
  | leaf token _ => [token]
  | grouped opening inner closing => opening :: (inner.yield ++ [closing])
  | binary left operator right => left.yield ++ operator :: right.yield

/-- The expression that is left when the parentheses are taken away. -/
def erase : Phrase → Expr
  | leaf _ value => value
  | grouped _ inner _ => inner.erase
  | binary left operator right => .binary left.erase operator right.erase

/-- How many expressions are open at once inside a phrase: one between any two
parentheses, and one on the right side of any operator. -/
def depth : Phrase → Nat
  | leaf _ _ => 0
  | grouped _ inner _ => inner.depth + 1
  | binary left _ right => max left.depth (right.depth + 1)

/-- The operator of a phrase that is an operation without parentheses around
it. -/
def operator? : Phrase → Option TokenKind
  | binary _ operator _ => some operator.kind
  | _ => none

/-- An operation that stands without parentheses binds more tightly than the
floor. -/
def Above (floor : Power) (phrase : Phrase) : Prop :=
  ∀ kind level, phrase.operator? = some kind → level? kind = some level →
    floor < level

/-- An operation that stands without parentheses binds at least as tightly as
the floor. -/
def AtLeast (floor : Power) (phrase : Phrase) : Prop :=
  ∀ kind level, phrase.operator? = some kind → level? kind = some level →
    floor ≤ level

/-- Every leaf is the expression that its token stands for, and every operand
binds as tightly as its operator asks for. -/
inductive WellFormed : Phrase → Prop
  | leaf {token : Token} {value : Expr} :
      Expr.ofToken token = .ok value → WellFormed (.leaf token value)
  | grouped {opening closing : Token} {inner : Phrase} :
      opening.kind = .leftParen → inner.WellFormed →
      closing.kind = .rightParen → WellFormed (.grouped opening inner closing)
  | leftward {left right : Phrase} {operator : Token} {level : Power} :
      leftLevel? operator.kind = some level →
      left.WellFormed → left.AtLeast level →
      right.WellFormed → right.Above level →
      WellFormed (.binary left operator right)
  | assigning {left right : Phrase} {operator : Token} :
      assigns operator.kind →
      left.WellFormed → left.Above .assignment →
      right.WellFormed → right.AtLeast .assignment →
      WellFormed (.binary left operator right)

end Phrase

/-- `tokens` are an expression above the floor, `e` is its tree, and reading it
opens `levels` expressions at once. -/
def Expression (floor : Power) (tokens : List Token) (e : Expr)
    (levels : Nat) : Prop :=
  ∃ phrase : Phrase, phrase.WellFormed ∧ phrase.Above floor ∧
    phrase.yield = tokens ∧ phrase.erase = e ∧ phrase.depth + 1 = levels

/-- No end marker stands among the tokens. -/
def Endless (tokens : List Token) : Prop :=
  ∀ token ∈ tokens, token.kind ≠ .eof

@[simp] theorem endless_nil : Endless [] := by
  intro token htoken
  cases htoken

@[simp] theorem endless_cons {token : Token} {tokens : List Token} :
    Endless (token :: tokens) ↔ token.kind ≠ .eof ∧ Endless tokens :=
  List.forall_mem_cons

@[simp] theorem endless_append {first second : List Token} :
    Endless (first ++ second) ↔ Endless first ∧ Endless second :=
  List.forall_mem_append

/-- The kinds of tokens that stand in no expression and in no declarator. -/
def outerKinds : List TokenKind := [.eof, .lineComment, .blockComment]

/-- Neither a comment nor an end marker stands among the tokens. -/
def Inward (tokens : List Token) : Prop :=
  ∀ token ∈ tokens, token.kind ∉ outerKinds

@[simp] theorem inward_nil : Inward [] := by
  intro token htoken
  cases htoken

@[simp] theorem inward_cons {token : Token} {tokens : List Token} :
    Inward (token :: tokens) ↔ token.kind ∉ outerKinds ∧ Inward tokens :=
  List.forall_mem_cons

@[simp] theorem inward_append {first second : List Token} :
    Inward (first ++ second) ↔ Inward first ∧ Inward second :=
  List.forall_mem_append

theorem Inward.endless {tokens : List Token} (h : Inward tokens) :
    Endless tokens := by
  intro token htoken heof
  exact h token htoken (heof ▸ List.mem_cons_self)

theorem not_mem_outerKinds_of_ofToken {token : Token} {value : Expr}
    (h : Expr.ofToken token = .ok value) : token.kind ∉ outerKinds := by
  intro houter
  simp only [outerKinds, List.mem_cons, List.not_mem_nil, or_false] at houter
  rcases houter with hkind | hkind | hkind <;> simp [Expr.ofToken, hkind] at h

theorem not_mem_outerKinds_of_leftLevel? {kind : TokenKind} {level : Power}
    (h : leftLevel? kind = some level) : kind ∉ outerKinds := by
  intro houter
  have hall : ∀ kind ∈ outerKinds, leftLevel? kind = none := by decide
  rw [hall kind houter] at h
  cases h

theorem not_mem_outerKinds_of_assigns {kind : TokenKind} (h : assigns kind) :
    kind ∉ outerKinds := by
  intro houter
  have hall : ∀ kind ∈ outerKinds, assigns kind = false := by decide
  rw [hall kind houter] at h
  cases h

theorem Phrase.WellFormed.inward {phrase : Phrase} (h : phrase.WellFormed) :
    Inward phrase.yield := by
  induction h with
  | leaf hvalue => simpa [yield] using not_mem_outerKinds_of_ofToken hvalue
  | grouped hopening _ hclosing ih =>
      simp only [yield, inward_cons, inward_append, hopening, hclosing]
      exact ⟨by decide, ih, by decide, inward_nil⟩
  | leftward hlevel _ _ _ _ ihleft ihright =>
      simp [yield, not_mem_outerKinds_of_leftLevel? hlevel, ihleft, ihright]
  | assigning hassigns _ _ _ _ ihleft ihright =>
      simp [yield, not_mem_outerKinds_of_assigns hassigns, ihleft, ihright]

theorem Expression.inward {floor : Power} {tokens : List Token} {e : Expr}
    {n : Nat} (h : Expression floor tokens e n) : Inward tokens := by
  obtain ⟨phrase, hphrase, _, rfl, _, _⟩ := h
  exact hphrase.inward

end Grammar

end MiniC
