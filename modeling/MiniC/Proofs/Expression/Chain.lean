/-
Chains of operators that assign: they nest to the right, as far as the standard
registry knows the operators.
-/
import MiniC.Proofs.Expression.Complete

namespace MiniC

open Grammar Parse Registry

/-- The kinds of tokens that assign: alone, or together with an operation. -/
def TokenKind.assignments : List TokenKind :=
  [.assign, .plusAssign, .minusAssign, .starAssign, .slashAssign, .percentAssign,
   .ampersandAssign, .pipeAssign, .caretAssign, .shiftLeftAssign, .shiftRightAssign]

theorem Grammar.assigns_iff_mem {kind : TokenKind} :
    assigns kind ↔ kind ∈ assignmentOperators := by
  cases kind <;> decide

/-- A token that is an expression by itself: a name, or a literal that is in
range. -/
structure Operand where
  token : Token
  value : Expr
  stands : Expr.ofToken token = .ok value

/-- Operands, and between any two of them an operator that assigns. -/
inductive AssignmentChain
  | last (operand : Operand)
  | link (operand : Operand) (operator : Token)
      (assigns : operator.kind ∈ TokenKind.assignments) (rest : AssignmentChain)

namespace AssignmentChain

/-- The operators of a chain. -/
def operators : AssignmentChain → List Token
  | last _ => []
  | link _ operator _ rest => operator :: rest.operators

/-- The tokens of a chain. -/
def tokens : AssignmentChain → List Token
  | last operand => [operand.token]
  | link operand operator _ rest => operand.token :: operator :: rest.tokens

/-- The tree of a chain that nests to the right. -/
def tree : AssignmentChain → Expr
  | last operand => operand.value
  | link operand operator _ rest => .binary operand.value operator rest.tree

/-- The part of a chain before the first operator that is not registered. -/
def known : AssignmentChain → AssignmentChain
  | last operand => last operand
  | link operand operator assigns rest =>
      if operator.kind ∈ assignmentOperators then link operand operator assigns rest.known
      else last operand

/-- What is left of a chain from the first operator that is not registered. -/
def unknown : AssignmentChain → List Token
  | last _ => []
  | link _ operator _ rest =>
      if operator.kind ∈ assignmentOperators then rest.unknown
      else operator :: rest.tokens

theorem known_append_unknown (chain : AssignmentChain) :
    chain.known.tokens ++ chain.unknown = chain.tokens := by
  induction chain with
  | last operand => rfl
  | link operand operator hassigns rest ih =>
      by_cases hknown : operator.kind ∈ assignmentOperators
      · simp [known, unknown, tokens, hknown, ih]
      · simp [known, unknown, tokens, hknown]

theorem known_operators (chain : AssignmentChain) :
    ∀ operator ∈ chain.known.operators, operator.kind ∈ assignmentOperators := by
  induction chain with
  | last operand => nofun
  | link operand operator hassigns rest ih =>
      by_cases hknown : operator.kind ∈ assignmentOperators
      · simpa [known, operators, hknown] using ih
      · simp [known, operators, hknown]

/-- Where all operators are registered, the whole chain is known. -/
theorem known_of_operators {chain : AssignmentChain}
    (h : ∀ operator ∈ chain.operators, operator.kind ∈ assignmentOperators) :
    chain.known = chain ∧ chain.unknown = [] := by
  induction chain with
  | last operand => exact ⟨rfl, rfl⟩
  | link operand operator hassigns rest ih =>
      obtain ⟨hknown, hrest⟩ := List.forall_mem_cons.1 h
      simp [known, unknown, hknown, ih hrest]

/-- The chain as a phrase: operators on the right side of operators. -/
def phrase : AssignmentChain → Phrase
  | last operand => .leaf operand.token operand.value
  | link operand operator _ rest =>
      .binary (.leaf operand.token operand.value) operator rest.phrase

theorem yield_phrase (chain : AssignmentChain) : chain.phrase.yield = chain.tokens := by
  induction chain with
  | last operand => rfl
  | link operand operator hassigns rest ih => simp [phrase, Phrase.yield, tokens, ih]

theorem erase_phrase (chain : AssignmentChain) : chain.phrase.erase = chain.tree := by
  induction chain with
  | last operand => rfl
  | link operand operator hassigns rest ih => simp [phrase, Phrase.erase, tree, ih]

theorem depth_phrase (chain : AssignmentChain) :
    chain.phrase.depth = chain.operators.length := by
  induction chain with
  | last operand => rfl
  | link operand operator hassigns rest ih =>
      simp [phrase, Phrase.depth, operators, ih]

/-- A chain of registered operators is of the grammar: what stands to the right of
one of them may be another one. -/
theorem wellFormed_phrase {chain : AssignmentChain}
    (h : ∀ operator ∈ chain.operators, operator.kind ∈ assignmentOperators) :
    chain.phrase.WellFormed ∧ chain.phrase.AtLeast .assignment := by
  induction chain with
  | last operand => exact ⟨.leaf operand.stands, nofun⟩
  | link operand operator hassigns rest ih =>
      obtain ⟨hknown, hrest⟩ := List.forall_mem_cons.1 h
      obtain ⟨hphrase, hatLeast⟩ := ih hrest
      have hoperator := assigns_iff_mem.2 hknown
      refine ⟨.assigning hoperator (.leaf operand.stands) nofun hphrase hatLeast, ?_⟩
      intro kind level hkind hlevel
      obtain rfl := Option.some.inj hkind
      rw [level?_of_assigns hoperator] at hlevel
      obtain rfl := Option.some.inj hlevel
      exact Nat.le_refl _

/-- Behind the known part stands a token that does not bind: an operator that is
not registered, or what stands behind the chain. -/
theorem power_unknown (chain : AssignmentChain) {stop : Cursor} {next : Token}
    {more : List Token} (hnext : standard.power next.kind = .default)
    (hstop : stop.rest = chain.unknown ++ next :: more) :
    standard.power stop.kind = .default := by
  induction chain with
  | last operand => rwa [Cursor.kind, Cursor.current_eq_of_rest_eq hstop]
  | link operand operator hassigns rest ih =>
      by_cases hknown : operator.kind ∈ assignmentOperators
      · rw [unknown, if_pos hknown] at hstop
        exact ih hstop
      · rw [unknown, if_neg hknown] at hstop
        have hall : ∀ kind ∈ TokenKind.assignments, kind ∉ assignmentOperators →
            standard.power kind = .default := by decide
        rw [Cursor.kind, Cursor.current_eq_of_rest_eq hstop]
        exact hall operator.kind hassigns hknown

/-- What is read of a chain, where no more than some levels are left for it: each
operator opens one more than the whole chain does. -/
theorem ensures_expression (chain : AssignmentChain) (levels : Nat) {s : ParseState}
    {next : Token} {more : List Token}
    (hrest : s.cursor.rest = chain.tokens ++ next :: more)
    (hnext : standard.power next.kind = .default) :
    Ensures ((Inner.ofLevels standard levels).expression .default) s
      (fun e s' => chain.known.operators.length < levels ∧ e = chain.known.tree ∧
        s'.cursor.rest = chain.unknown ++ next :: more)
      (Deep levels (chain.known.operators.length + 1)) := by
  obtain ⟨hphrase, _⟩ := wellFormed_phrase chain.known_operators
  have hexpression : Expression .default chain.known.tokens chain.known.tree
      (chain.known.operators.length + 1) :=
    ⟨chain.known.phrase, hphrase, Phrase.above_default _, yield_phrase _,
      erase_phrase _, congrArg (· + 1) (depth_phrase _)⟩
  rw [← chain.known_append_unknown, List.append_assoc] at hrest
  obtain ⟨stop, hpasses, hstop⟩ :=
    Cursor.exists_passes hrest hexpression.inward.endless
  have hpower := chain.power_unknown hnext hstop
  apply (expression_complete levels hexpression hpasses (hpower ▸ Nat.le_refl _)).mono
  · rintro e s' ⟨hlt, rfl, rfl⟩
    exact ⟨hlt, rfl, hstop⟩
  · exact fun _ _ h => h

end AssignmentChain

/-- A chain of operators that assign, with a semicolon behind it, is read as the
tree that nests to the right up to the first operator that is not registered, and no
further, as long as there is one level more than there are operators in that part.
Where all operators are registered that is the whole chain.  Not all operators that
assign are. -/
theorem assignments_nest_right (chain : AssignmentChain) (levels : Nat) (s : ParseState)
    (semicolon : Token) (more : List Token)
    (hrest : s.cursor.rest = chain.tokens ++ semicolon :: more)
    (hkind : semicolon.kind = .semicolon) :
    (chain.known.operators.length < levels →
      ∃ s', ((Inner.ofLevels standard levels).expression .default).run s =
          (.ok chain.known.tree, s') ∧
        s'.cursor.rest = chain.unknown ++ semicolon :: more) ∧
    (levels ≤ chain.known.operators.length →
      ∃ location s', ((Inner.ofLevels standard levels).expression .default).run s =
        (.error (.nestingTooDeep maxNesting location), s')) ∧
    ((∀ operator ∈ chain.operators, operator.kind ∈ assignmentOperators) →
      chain.known = chain ∧ chain.unknown = []) := by
  have hnext : standard.power semicolon.kind = .default := by
    rw [hkind]
    rfl
  have hread := chain.ensures_expression levels hrest hnext
  rcases hrun : ((Inner.ofLevels standard levels).expression .default).run s
    with ⟨result, s'⟩
  have hresult := hread.of_run hrun
  refine ⟨fun hlt => ?_, fun hle => ?_, AssignmentChain.known_of_operators⟩
  · cases result with
    | ok e =>
        obtain ⟨_, rfl, hstop⟩ := hresult
        exact ⟨s', rfl, hstop⟩
    | error e =>
        obtain ⟨hdeep, _⟩ := hresult
        omega
  · cases result with
    | ok e =>
        obtain ⟨hlt, _⟩ := hresult
        omega
    | error e =>
        obtain ⟨_, location, rfl⟩ := hresult
        exact ⟨location, s', rfl⟩

/-- A name that stands for itself. -/
def Operand.name (text : String) : Operand :=
  ⟨⟨.identifier, text, .nowhere⟩, .symbol text, rfl⟩

/-- With all levels left, two operators that assign nest to the right. -/
theorem assignments_nest_right_twice :
    let chain : AssignmentChain :=
      .link (.name "a") (.sample .plusAssign) (by decide)
        (.link (.name "b") (.sample .assign) (by decide) (.last (.name "c")))
    ∃ s', (standard.outermost.expression .default).run
          (.ofTokens (chain.tokens ++ [.sample .semicolon])) =
        (.ok (.binary (.symbol "a") (.sample .plusAssign)
          (.binary (.symbol "b") (.sample .assign) (.symbol "c"))), s') ∧
      s'.cursor.current.kind = .semicolon := by
  intro chain
  have hread := assignments_nest_right chain maxNesting
    (.ofTokens (chain.tokens ++ [.sample .semicolon])) (.sample .semicolon)
    [.endMarker .nowhere] rfl rfl
  obtain ⟨s', hrun, hstop⟩ := hread.1 (by decide)
  exact ⟨s', hrun, congrArg Token.kind (Cursor.current_eq_of_rest_eq hstop)⟩

/-- An operator that is not registered ends the expression before it, though it
assigns. -/
theorem assignments_nest_right_not_unknown :
    let chain : AssignmentChain :=
      .link (.name "a") (.sample .ampersandAssign) (by decide) (.last (.name "b"))
    ((standard.outermost.expression .default).run
        (.ofTokens (chain.tokens ++ [.sample .semicolon]))).1 = .ok (.symbol "a") ∧
      chain.tree ≠ .symbol "a" :=
  ⟨rfl, nofun⟩

end MiniC
