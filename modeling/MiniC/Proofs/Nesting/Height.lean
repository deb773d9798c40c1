/-
The height of trees: the limit on nesting bounds it except for left operands, which no
limit bounds.
-/
import MiniC.Proofs.Program.Recognition

namespace MiniC

open Grammar

/-- The most nodes on a path down to a leaf.  An operation counts `leftward` on the paths
into its left operand, and all other nodes count one. -/
def Expr.height (leftward : Nat) : Expr → Nat
  | binary left _ right =>
      max (left.height leftward + leftward) (right.height leftward + 1)
  | _ => 1

namespace Stmt

mutual

/-- The most nodes on a path down to a leaf, statements and expressions together. -/
def height (leftward : Nat) : Stmt → Nat
  | block body | function _ _ _ body => heightAll leftward body + 1
  | expression value => value.height leftward + 1
  | varDecl _ _ initial => (initial.map (Expr.height leftward)).getD 0 + 1
  | returning value => (value.map (Expr.height leftward)).getD 0 + 1
  | comment _ _ | includeDirective _ => 1

/-- The most that any statement of a row has. -/
def heightAll (leftward : Nat) : List Stmt → Nat
  | [] => 0
  | s :: rest => max (height leftward s) (heightAll leftward rest)

end

theorem height_le_heightAll {leftward : Nat} {body : List Stmt} :
    ∀ s ∈ body, s.height leftward ≤ heightAll leftward body := by
  induction body with
  | nil => simp
  | cons s body ih =>
      rw [List.forall_mem_cons, heightAll]
      exact ⟨Nat.le_max_left _ _, fun t ht => Nat.le_trans (ih t ht) (Nat.le_max_right _ _)⟩

end Stmt

theorem Expr.height_of_ofToken {token : Token} {value : Expr}
    (h : Expr.ofToken token = .ok value) (leftward : Nat) : value.height leftward = 1 := by
  cases value with
  | binary => exact absurd h Expr.ofToken_ne_binary
  | _ => rfl

namespace Grammar

/-- Right operands and parentheses open a level; left operands do not. -/
theorem Phrase.WellFormed.height_le {phrase : Phrase} (h : phrase.WellFormed) :
    phrase.erase.height 0 ≤ phrase.depth + 1 := by
  induction h with
  | leaf hvalue => exact Nat.le_of_eq (Expr.height_of_ofToken hvalue 0)
  | grouped _ _ _ ih => exact Nat.le_succ_of_le ih
  | leftward _ _ _ _ _ ihleft ihright | assigning _ _ _ _ _ ihleft ihright =>
      simp only [Phrase.erase, Phrase.depth, Expr.height]
      omega

theorem Expression.height_le {floor : Power} {tokens : List Token} {e : Expr} {n : Nat}
    (h : Expression floor tokens e n) : e.height 0 ≤ n := by
  obtain ⟨phrase, hphrase, _, _, rfl, rfl⟩ := h
  exact hphrase.height_le

theorem Sequence.heightAll_le {levels : Nat}
    (hitem : ∀ tokens s n, Statement tokens s n → n ≤ levels → s.height 0 ≤ n)
    {tokens : List Token} {body : List Stmt} {n : Nat}
    (h : Sequence Statement tokens body n) (hn : n ≤ levels) : Stmt.heightAll 0 body ≤ n := by
  induction h with
  | nil => exact Nat.le_refl 0
  | cons hfirst _ ih =>
      obtain ⟨hfirstLevels, hrestLevels⟩ := Nat.max_le.1 hn
      have hfirstHeight := hitem _ _ _ hfirst hfirstLevels
      have hrestHeight := ih hrestLevels
      rw [Stmt.heightAll]
      omega

/-- The induction is on the levels, as what stands inside a statement opens fewer. -/
theorem Statement.height_le_of_le {levels : Nat} {tokens : List Token} {s : Stmt} {n : Nat}
    (h : Statement tokens s n) (hn : n ≤ levels) : s.height 0 ≤ n := by
  induction levels generalizing tokens s n with
  | zero => cases h <;> exact absurd hn (Nat.not_succ_le_zero _)
  | succ levels ih =>
      have hbody : ∀ {tokens body n}, Sequence Statement tokens body n →
          n + 1 ≤ levels + 1 → Stmt.heightAll 0 body + 1 ≤ n + 1 :=
        fun hbody hn => Nat.succ_le_succ
          (hbody.heightAll_le (fun _ _ _ h hn => ih h hn) (Nat.le_of_succ_le_succ hn))
      cases h with
      | block _ hinside _ | function _ _ _ _ _ hinside _ => exact hbody hinside hn
      | returning _ hvalue _ | initialized _ _ hvalue _ | expression hvalue _ =>
          exact Nat.succ_le_succ hvalue.height_le
      | _ => exact Nat.le_refl 1

/-- Names with plus signs between them, `n` of these. -/
def Phrase.sums : Nat → Phrase
  | 0 => .leaf (.sample .identifier) (.symbol "")
  | n + 1 => .binary (sums n) (.sample .plus) (.leaf (.sample .identifier) (.symbol ""))

theorem Phrase.operator?_sums {n : Nat} {kind : TokenKind}
    (h : (sums n).operator? = some kind) : kind = .plus := by
  cases n with
  | zero => cases h
  | succ n => exact (Option.some.inj h).symm

theorem Phrase.wellFormed_sums (n : Nat) : (sums n).WellFormed := by
  have hleaf : (leaf (.sample .identifier) (.symbol "")).WellFormed := .leaf rfl
  induction n with
  | zero => exact hleaf
  | succ n ih =>
      refine .leftward rfl ih ?_ hleaf fun _ _ hnone => nomatch hnone
      intro kind level hoperator hlevel
      obtain rfl := operator?_sums hoperator
      cases hlevel
      exact Nat.le_refl _

theorem Phrase.height_erase_sums (n : Nat) : (sums n).erase.height 1 = n + 1 := by
  induction n with
  | zero => rfl
  | succ n ih =>
      have hbinary : (sums (n + 1)).erase.height 1 = max ((sums n).erase.height 1 + 1) 2 := rfl
      rw [hbinary, ih]
      omega

theorem Phrase.depth_sums_le (n : Nat) : (sums n).depth ≤ 1 := by
  induction n with
  | zero => exact Nat.zero_le 1
  | succ n ih => exact Nat.max_le.2 ⟨ih, Nat.le_refl 1⟩

end Grammar

/-- The tokens of a sum, and a semicolon. -/
def Token.sums (n : Nat) : List Token :=
  (Phrase.sums n).yield ++ [.sample .semicolon]

/-- However long, a sum is within the limit. -/
theorem parseTokens_sums (n : Nat) :
    parseTokens (Token.sums n) = .ok (.block [.expression (Phrase.sums n).erase]) := by
  have hexpression : Expression .default (Phrase.sums n).yield (Phrase.sums n).erase
      ((Phrase.sums n).depth + 1) := by
    refine ⟨_, Phrase.wellFormed_sums n, ?_, rfl, rfl, rfl⟩
    intro kind level hoperator hlevel
    obtain rfl := Phrase.operator?_sums hoperator
    cases hlevel
    decide
  have hprogram : Program (Token.sums n) _ _ :=
    .single (.expression hexpression (Token.sample_kind .semicolon))
  apply parseTokens_of_program hprogram
  have hdepth := Phrase.depth_sums_le n
  rw [maxNesting]
  omega

/-- The limit on nesting bounds the height of trees where left operands do not count,
and where they do, there is no bound. -/
theorem nesting_bounds_height :
    (∀ tokens root, parseTokens tokens = .ok root →
      ∃ body, root = .block body ∧ ∀ s ∈ body, s.height 0 ≤ maxNesting) ∧
    ∀ bound, ∃ tokens s, parseTokens tokens = .ok (.block [s]) ∧ bound < s.height 1 := by
  constructor
  · intro tokens root h
    obtain ⟨body, levels, rfl, hprogram, hlevels⟩ := program_of_parseTokens h
    refine ⟨body, rfl, fun s hs => ?_⟩
    calc s.height 0 ≤ Stmt.heightAll 0 body := Stmt.height_le_heightAll s hs
      _ ≤ levels :=
        Sequence.heightAll_le (fun _ _ _ h hn => h.height_le_of_le hn) hprogram (Nat.le_refl _)
      _ ≤ maxNesting := hlevels
  · intro bound
    refine ⟨_, _, parseTokens_sums bound, ?_⟩
    rw [Stmt.height, Phrase.height_erase_sums]
    omega

/-- Blocks inside one another reach the bound. -/
theorem nesting_bounds_height_nestedBlocks :
    ∃ body, Stmt.block [.nestedBlocks 255] = .block body ∧
      ∀ s ∈ body, s.height 0 ≤ maxNesting := by
  have hread := parseTokens_of_program (program_nestedBraces 255) (Nat.le_refl 256)
  exact nesting_bounds_height.1 _ _ hread

/-- A sum of 512 names is higher than twice the limit. -/
theorem height_exceeds_twice_limit :
    ∃ s, parseTokens (Token.sums 511) = .ok (.block [s]) ∧ 2 * maxNesting < s.height 1 := by
  refine ⟨_, parseTokens_sums 511, ?_⟩
  rw [Stmt.height, Phrase.height_erase_sums]
  decide

end MiniC
