/-
Every expression of the grammar is read, as far as the levels for it suffice.
-/
import MiniC.Proofs.Expression.Sound
import MiniC.Proofs.Progress

namespace MiniC

open Grammar Parse Registry

theorem Expr.mem_primaryKinds_of_ofToken {token : Token} {e : Expr}
    (h : Expr.ofToken token = .ok e) : token.kind ∈ primaryKinds := by
  unfold Expr.ofToken at h
  dsimp only at h
  split at h <;> simp_all [primaryKinds]

/-- A parse fails because `n` levels are more than there are. -/
def Parse.Deep (levels n : Nat) (e : ParseError) (_ : ParseState) : Prop :=
  levels < n ∧ ∃ location, e = .nestingTooDeep maxNesting location

/-- What reading an expression of the grammar comes to while `levels` more
levels may be opened. -/
def CompleteExpressions (inner : Inner) (levels : Nat) : Prop :=
  ∀ {floor tokens e n}, Expression floor tokens e n →
    ∀ {s : ParseState} {stop}, s.cursor.Passes tokens stop →
      standard.power stop.kind ≤ floor →
      Ensures (inner.expression floor) s
        (fun e' s' => n ≤ levels ∧ e' = e ∧ s'.cursor = stop)
        (Deep levels n)

variable {inner : Inner} {levels : Nat}

/-- An expression stops before a token that does not bind above the floor. -/
theorem Expr.extend_stops (hadvances : inner.Advances) {floor : Power}
    {left : Expr} {s : ParseState} (h : standard.power s.cursor.kind ≤ floor)
    {Q : Expr → ParseState → Prop} {E : ParseError → ParseState → Prop}
    (hQ : Q left s) : Ensures (Expr.extend standard inner floor left) s Q E := by
  rw [Ensures, Expr.extend_of_le hadvances left h]
  exact hQ

/-- An expression goes on over an operator above the floor and over the right
operand of that operator. -/
theorem Expr.extend_goes_on (hinner : CompleteExpressions inner levels)
    (hadvances : inner.Advances) {floor : Power} {left : Expr} {operator : Token}
    {right : Phrase} {s : ParseState} {stop : Cursor} {level : Power}
    (hlevel : level? operator.kind = some level) (hlt : floor < level)
    (hright : right.WellFormed) (habove : right.Above (rightFloor operator.kind))
    (hpasses : s.cursor.Passes (operator :: right.yield) stop)
    (hstop : standard.power stop.kind ≤ rightFloor operator.kind)
    {Q : Expr → ParseState → Prop} {E : ParseError → ParseState → Prop}
    (hgo : right.depth + 1 ≤ levels → ∀ s', s'.cursor = stop →
      Ensures (Expr.extend standard inner floor
        (.binary left operator right.erase)) s' Q E)
    (hdeep : levels < right.depth + 1 → ∀ location s',
      E (.nestingTooDeep maxNesting location) s') :
    Ensures (Expr.extend standard inner floor left) s Q E := by
  obtain ⟨form, hform, hfloor⟩ := standard_infixForm?_of_level hlevel
  have hcurrent := hpasses.current_eq
  have hnot : ¬ standard.power s.cursor.current.kind ≤ floor := by
    rw [hcurrent, standard_power_of_level hlevel]
    exact Nat.not_le_of_lt hlt
  unfold Expr.extend
  rw [loop_eq (Expr.extend?_progressing hadvances floor), ensures_bind,
    Expr.extend?, ensures_bind, ensures_current, ensures_ite, if_neg hnot,
    ensures_bind, ensures_note, hcurrent, hform, ensures_bind, InfixForm.parse,
    ensures_bind, ensures_advance, hcurrent, ensures_bind, hfloor]
  have hexpression : Expression (rightFloor operator.kind) right.yield right.erase
      (right.depth + 1) := ⟨right, hright, habove, rfl, rfl, rfl⟩
  apply (hinner hexpression hpasses.advance hstop).mono
  · intro e s₁ hread
    obtain ⟨hlevels, rfl, hcursor⟩ := hread
    rw [ensures_pure, ensures_pure]
    exact hgo hlevels s₁ hcursor
  · intro e s₁ herror
    obtain ⟨hlevels, location, rfl⟩ := herror
    exact hdeep hlevels location s₁

/-- A token that is an expression by itself is read, and reading goes on behind
it. -/
theorem Expr.parse_leaf {floor : Power} {token : Token} {value : Expr}
    (hvalue : Expr.ofToken token = .ok value) {s : ParseState} {stop : Cursor}
    (hpasses : s.cursor.Passes [token] stop)
    {Q : Expr → ParseState → Prop} {E : ParseError → ParseState → Prop}
    (hgo : ∀ s', s'.cursor = stop →
      Ensures (Expr.extend standard inner floor value) s' Q E) :
    Ensures (Expr.parse standard inner floor) s Q E := by
  have hkind := Expr.mem_primaryKinds_of_ofToken hvalue
  have hform : (standard.entry token.kind).prefixForm? = some .primary := by
    rw [standard_prefixForm?, if_pos hkind]
  have hcurrent := hpasses.current_eq
  unfold Expr.parse
  rw [ensures_bind, ensures_current, hcurrent, hform, ensures_bind,
    PrefixForm.parse, ensures_bind, ensures_advance, hcurrent, hvalue,
    ensures_pure]
  exact hgo _ hpasses.advance_eq

/-- A phrase in parentheses is read, and reading goes on behind it. -/
theorem Expr.parse_grouped (hinner : CompleteExpressions inner levels)
    {floor : Power} {opening closing : Token} {inside : Phrase}
    (hopening : opening.kind = .leftParen) (hinside : inside.WellFormed)
    (hclosing : closing.kind = .rightParen) {s : ParseState} {stop : Cursor}
    (hpasses : s.cursor.Passes (opening :: (inside.yield ++ [closing])) stop)
    {Q : Expr → ParseState → Prop} {E : ParseError → ParseState → Prop}
    (hgo : inside.depth + 1 ≤ levels → ∀ s', s'.cursor = stop →
      Ensures (Expr.extend standard inner floor inside.erase) s' Q E)
    (hdeep : levels < inside.depth + 1 → ∀ location s',
      E (.nestingTooDeep maxNesting location) s') :
    Ensures (Expr.parse standard inner floor) s Q E := by
  have hform : (standard.entry opening.kind).prefixForm? = some .grouping := by
    rw [hopening]
    rfl
  have hexpression : Expression .default inside.yield inside.erase
      (inside.depth + 1) :=
    ⟨inside, hinside, Phrase.above_default inside, rfl, rfl, rfl⟩
  obtain ⟨middle, hbefore, hafter⟩ := hpasses.advance.split
  have hpower : standard.power middle.kind ≤ .default := by
    rw [hafter.kind_eq, hclosing]
    decide
  unfold Expr.parse
  rw [ensures_bind, ensures_current, hpasses.current_eq, hform, ensures_bind,
    PrefixForm.parse, ensures_bind, ensures_expect_of_passes hpasses hopening]
  apply (hinner hexpression hbefore hpower).bind
  · intro e s₁ herror
    obtain ⟨hlevels, location, rfl⟩ := herror
    exact hdeep hlevels location s₁
  intro e s₁ hread
  obtain ⟨hlevels, rfl, hcursor⟩ := hread
  subst hcursor
  rw [ensures_bind, ensures_expect_of_passes hafter hclosing, ensures_pure]
  exact hgo hlevels _ hafter.advance_eq

/-- Reading a phrase from its first token comes to the same as going on from its
end with its tree, unless it takes too many levels. -/
theorem Expr.parse_phrase (hinner : CompleteExpressions inner levels)
    (hadvances : inner.Advances) {floor : Power} {phrase : Phrase}
    (h : phrase.WellFormed) (habove : phrase.Above floor) {s : ParseState}
    {stop : Cursor} (hpasses : s.cursor.Passes phrase.yield stop)
    (hcloses : phrase.Closes (standard.power stop.kind))
    {Q : Expr → ParseState → Prop} {E : ParseError → ParseState → Prop}
    (hgo : phrase.depth ≤ levels → ∀ s', s'.cursor = stop →
      Ensures (Expr.extend standard inner floor phrase.erase) s' Q E)
    (hdeep : levels < phrase.depth → ∀ location s',
      E (.nestingTooDeep maxNesting location) s') :
    Ensures (Expr.parse standard inner floor) s Q E := by
  -- Only the left operand is read by the same call: parentheses and right
  -- operands are read one level below.
  induction phrase generalizing stop with
  | leaf token value =>
      obtain ⟨hvalue⟩ := h
      exact Expr.parse_leaf hvalue hpasses (hgo (Nat.zero_le _))
  | grouped opening inside closing _ =>
      cases h with
      | grouped hopening hinside hclosing =>
        exact Expr.parse_grouped hinner hopening hinside hclosing hpasses hgo hdeep
  | binary left operator right ihleft _ =>
      obtain ⟨level, hlevel, hleft, hgives, hright, hrightAbove⟩ :=
        Phrase.wellFormed_binary_iff.1 h
      have hlt := habove operator.kind level rfl hlevel
      obtain ⟨middle, hbefore, hafter⟩ := hpasses.split
      have hmiddle : left.Closes (standard.power middle.kind) := by
        rw [hafter.kind_eq, standard_power_of_level hlevel]
        exact hleft.closes_of_givesWay hgives
      apply ihleft hleft (habove.left hlevel hgives) hbefore hmiddle
      · intro hleftDepth s₁ hcursor
        subst hcursor
        apply Expr.extend_goes_on hinner hadvances hlevel hlt hright hrightAbove
          hafter hcloses.1
        · intro hrightDepth s₂ hcursor
          exact hgo (Nat.max_le.2 ⟨hleftDepth, hrightDepth⟩) s₂ hcursor
        · intro hlevels
          exact hdeep (Nat.lt_of_lt_of_le hlevels (Nat.le_max_right _ _))
      · intro hlevels
        exact hdeep (Nat.lt_of_lt_of_le hlevels (Nat.le_max_left _ _))

/-- Every expression of the grammar that a token of no higher power follows is
read, or it goes too deep. -/
theorem expression_complete (levels : Nat) :
    CompleteExpressions (.ofLevels standard levels) levels := by
  induction levels with
  | zero =>
      intro floor tokens e n hexpression s stop _ _
      obtain ⟨phrase, _, _, _, _, rfl⟩ := hexpression
      exact ensures_tooDeep.2 ⟨Nat.succ_pos _, _, rfl⟩
  | succ levels ih =>
      intro floor _ _ _ hexpression s stop hpasses hpower
      obtain ⟨phrase, hphrase, habove, rfl, rfl, rfl⟩ := hexpression
      have hadvances := Inner.ofLevels_advances standard levels
      apply Expr.parse_phrase ih hadvances hphrase habove hpasses
        (hphrase.closes_of_above habove hpower)
      · intro hdepth s' hcursor
        subst hcursor
        exact Expr.extend_stops hadvances hpower
          ⟨Nat.succ_le_succ hdepth, rfl, rfl⟩
      · intro hdepth location s'
        exact ⟨Nat.succ_lt_succ hdepth, location, rfl⟩

end MiniC
