/-
Every expression that is read is one of the grammar.  Where reading fails over a
token, the tokens before it begin an expression of the grammar.
-/
import MiniC.Program
import MiniC.Proofs.Declarator
import MiniC.Proofs.Precedence

namespace MiniC

open Grammar Parse Registry

/-- A token of a kind that is an expression by itself fails only as a number. -/
theorem Expr.ofToken_error {token : Token} {e : ParseError}
    (hkind : token.kind ∈ primaryKinds) (h : Expr.ofToken token = .error e) :
    e = .invalidNumber token := by
  simp only [primaryKinds, List.mem_cons, List.not_mem_nil, or_false] at hkind
  unfold Expr.ofToken at h
  rcases hkind with hk | hk | hk | hk | hk | hk <;> rw [hk] at h
  · cases hvalue : (Numeral.integer? token.text.toList).map Expr.integer with
    | none => simpa [hvalue] using h.symm
    | some value => simp [hvalue] at h
  · cases hvalue : (Numeral.unsigned? token.text.toList).map Expr.unsigned with
    | none => simpa [hvalue] using h.symm
    | some value => simp [hvalue] at h
  · cases hvalue : (Numeral.floating? token.text.toList).map Expr.floating with
    | none => simpa [hvalue] using h.symm
    | some value => simp [hvalue] at h
  · cases h
  · cases h
  · cases h

theorem Parse.ensures_tooDeep {α : Type} {s : ParseState}
    {Q : α → ParseState → Prop} {E : ParseError → ParseState → Prop} :
    Ensures tooDeep s Q E ↔
      E (.nestingTooDeep maxNesting s.cursor.current.location) s := Iff.rfl

namespace Grammar

/-- A name by itself. -/
def name : Phrase := .leaf (.sample .identifier) (.symbol "")

theorem name_wellFormed : name.WellFormed := .leaf rfl

theorem Phrase.above_of_operator?_none {phrase : Phrase}
    (h : phrase.operator? = none) (floor : Power) : phrase.Above floor := by
  intro kind level hkind
  rw [h] at hkind
  cases hkind

theorem Phrase.givesWay_of_operator?_none {phrase : Phrase}
    (h : phrase.operator? = none) (power : Power) : phrase.GivesWay power := by
  intro kind hkind
  rw [h] at hkind
  cases hkind

/-- Tokens that are an expression which opens no more than the given levels. -/
def ExpressionWithin (levels : Nat) (floor : Power) (tokens : List Token) : Prop :=
  ∃ e n, Expression floor tokens e n ∧ n ≤ levels

end Grammar

/-- What reading an expression comes to while `levels` more levels may be
opened. -/
def SoundExpressions (inner : Inner) (levels : Nat) : Prop :=
  ∀ floor s, Ensures (inner.expression floor) s
    (fun e s' => ∃ tokens n, Expression floor tokens e n ∧ n ≤ levels ∧
      s.cursor.Passes tokens s'.cursor ∧ standard.power s'.cursor.kind ≤ floor)
    (Fails (ExpressionWithin levels floor) s.cursor)

variable {inner : Inner} {levels : Nat}

/-- A phrase that is one operand: it has no operator of its own, and its
parentheses open no more than the given levels. -/
structure Grammar.Phrase.IsOperand (levels : Nat) (phrase : Phrase) : Prop where
  wellFormed : phrase.WellFormed
  operator : phrase.operator? = none
  depth_le : phrase.depth ≤ levels

/-- A token that is an expression by itself is taken.  Where it is a number
beyond its range, a name could have stood in its place. -/
theorem PrefixForm.parse_primary_sound {s : ParseState}
    (hkind : s.cursor.kind ∈ primaryKinds) :
    Ensures (PrefixForm.parse inner .primary) s
      (fun e s' => ∃ phrase : Phrase, phrase.IsOperand levels ∧
        phrase.erase = e ∧ s.cursor.Passes phrase.yield s'.cursor)
      (Fails (fun tokens => ∃ phrase : Phrase, phrase.IsOperand levels ∧
        phrase.yield = tokens) s.cursor) := by
  have hadvance : s.cursor.Passes [s.cursor.current] s.cursor.advance := by
    apply Cursor.passes_advance
    intro heof
    rw [heof] at hkind
    exact absurd hkind (by decide)
  unfold PrefixForm.parse
  rw [ensures_bind, ensures_advance]
  cases hvalue : Expr.ofToken s.cursor.current with
  | ok value =>
      have hoperand : (Phrase.leaf s.cursor.current value).IsOperand levels :=
        ⟨.leaf hvalue, rfl, Nat.zero_le _⟩
      exact ⟨_, hoperand, rfl, hadvance⟩
  | error e =>
      obtain rfl := Expr.ofToken_error hkind hvalue
      have hoperand : name.IsOperand levels :=
        ⟨name_wellFormed, rfl, Nat.zero_le _⟩
      exact Or.inr ⟨[], hadvance, [.sample .identifier], name, hoperand, rfl⟩

/-- What stands between parentheses is an expression of its own. -/
theorem PrefixForm.parse_grouping_sound (hinner : SoundExpressions inner levels)
    {s : ParseState} (hkind : s.cursor.kind = .leftParen) :
    Ensures (PrefixForm.parse inner .grouping) s
      (fun e s' => ∃ phrase : Phrase, phrase.IsOperand levels ∧
        phrase.erase = e ∧ s.cursor.Passes phrase.yield s'.cursor)
      (Fails (fun tokens => ∃ phrase : Phrase, phrase.IsOperand levels ∧
        phrase.yield = tokens) s.cursor) := by
  unfold PrefixForm.parse
  apply (expect_spec (by decide) _ _).bind
  · intro e s₁ herror
    exact absurd hkind herror.2.2
  intro opening s₁ hread
  obtain ⟨hopening, hfirst, _⟩ := hread
  apply (hinner .default s₁).bind
  · intro e s₂ hfails
    apply hfails.prepend hfirst
    intro _ hviable
    obtain ⟨_, _, ⟨phrase, hphrase, _, rfl, _, rfl⟩, hlevels⟩ := hviable
    exact ⟨[.sample .rightParen], .grouped opening phrase (.sample .rightParen),
      ⟨.grouped hopening hphrase rfl, rfl, hlevels⟩, rfl⟩
  intro e s₂ hread
  obtain ⟨_, _, ⟨phrase, hphrase, _, rfl, rfl, rfl⟩, hlevels, hpasses, _⟩ := hread
  refine ensures_expect_bind (by decide) ?_ ?_
  · exact Fails.expected (hfirst.trans hpasses) [.sample .rightParen]
      ⟨.grouped opening phrase (.sample .rightParen),
        ⟨.grouped hopening hphrase rfl, rfl, hlevels⟩, rfl⟩
  intro closing s₃ hclosing hlast
  rw [ensures_pure]
  exact ⟨.grouped opening phrase closing,
    ⟨.grouped hopening hphrase hclosing, rfl, hlevels⟩, rfl,
    hfirst.trans (hpasses.trans hlast)⟩

/-- What an expression begins with is an operand. -/
theorem PrefixForm.parse_sound (hinner : SoundExpressions inner levels)
    {form : PrefixForm} {s : ParseState}
    (hform : (standard.entry s.cursor.kind).prefixForm? = some form) :
    Ensures (form.parse inner) s
      (fun e s' => ∃ phrase : Phrase, phrase.IsOperand levels ∧
        phrase.erase = e ∧ s.cursor.Passes phrase.yield s'.cursor)
      (Fails (fun tokens => ∃ phrase : Phrase, phrase.IsOperand levels ∧
        phrase.yield = tokens) s.cursor) := by
  cases form with
  | primary =>
      exact PrefixForm.parse_primary_sound (mem_primaryKinds_of_prefixForm? hform)
  | grouping =>
      exact PrefixForm.parse_grouping_sound hinner (eq_leftParen_of_prefixForm? hform)

/-- `phrase` is all that was read since `start`, and the next token is not one
that its last right operand would have taken. -/
structure Grown (start : Cursor) (floor : Power) (levels : Nat) (phrase : Phrase)
    (s : ParseState) : Prop where
  wellFormed : phrase.WellFormed
  above : phrase.Above floor
  depth_le : phrase.depth ≤ levels
  passes : start.Passes phrase.yield s.cursor
  givesWay : phrase.GivesWay (standard.power s.cursor.kind)

theorem Grown.expression {start : Cursor} {floor : Power} {phrase : Phrase}
    {s : ParseState} (h : Grown start floor levels phrase s) :
    Expression floor phrase.yield phrase.erase (phrase.depth + 1) :=
  ⟨phrase, h.wellFormed, h.above, rfl, rfl, rfl⟩

theorem Grown.expressionWithin {start : Cursor} {floor : Power} {phrase : Phrase}
    {s : ParseState} (h : Grown start floor levels phrase s) :
    ExpressionWithin (levels + 1) floor phrase.yield :=
  ⟨_, _, h.expression, Nat.succ_le_succ h.depth_le⟩

/-- An operation is above a floor when its operator is. -/
theorem Grammar.Phrase.above_binary {left right : Phrase} {operator : Token}
    {floor : Power} (h : floor < standard.power operator.kind) :
    (Phrase.binary left operator right).Above floor := by
  intro kind level hkind hlevel
  obtain rfl := Option.some.inj hkind
  rwa [standard_power_of_level hlevel] at h

/-- A right operand that suits the operator at the cursor makes a larger
phrase. -/
theorem Grown.binary {start : Cursor} {floor : Power} {left right : Phrase}
    {s s' : ParseState} {form : InfixForm} (hleft : Grown start floor levels left s)
    (hform : (standard.entry s.cursor.kind).infixForm? = some form)
    (hlt : floor < standard.power s.cursor.kind)
    (hright : right.WellFormed) (habove : right.Above (rightFloor s.cursor.kind))
    (hdepth : right.depth + 1 ≤ levels)
    (hpasses : s.cursor.Passes (s.cursor.current :: right.yield) s'.cursor)
    (hpower : standard.power s'.cursor.kind ≤ rightFloor s.cursor.kind) :
    Grown start floor levels (.binary left s.cursor.current right) s' := by
  obtain ⟨hlevel, _⟩ := level?_of_standard_infixForm? hform
  constructor
  · exact Phrase.wellFormed_binary_iff.2
      ⟨_, hlevel, hleft.wellFormed, hleft.givesWay, hright, habove⟩
  · exact Phrase.above_binary hlt
  · exact Nat.max_le.2 ⟨hleft.depth_le, hdepth⟩
  · exact hleft.passes.trans hpasses
  · intro kind hkind
    obtain rfl := Option.some.inj hkind
    exact hpower

/-- A phrase is continued by the operator at the cursor and by the expression
behind it. -/
theorem Expr.extend?_sound (hinner : SoundExpressions inner levels)
    {start : Cursor} {floor : Power} {phrase : Phrase} {s : ParseState}
    (hgrown : Grown start floor levels phrase s) :
    Ensures (Expr.extend? standard inner floor phrase.erase) s
      (fun next s' => match next with
        | none => s' = s ∧ standard.power s.cursor.kind ≤ floor
        | some e =>
            (∃ larger, larger.erase = e ∧ Grown start floor levels larger s') ∧
              s'.cursor.ahead.length < s.cursor.ahead.length)
      (Fails (ExpressionWithin (levels + 1) floor) start) := by
  unfold Expr.extend?
  rw [ensures_bind, ensures_current, ensures_ite]
  by_cases hle : standard.power s.cursor.current.kind ≤ floor
  · rw [if_pos hle, ensures_pure]
    exact ⟨rfl, hle⟩
  have hlt : floor < standard.power s.cursor.kind := Nat.lt_of_not_le hle
  rw [if_neg hle, ensures_bind, ensures_note]
  cases hform : (standard.entry s.cursor.current.kind).infixForm? with
  | none =>
      refine Or.inr ⟨phrase.yield, ⟨hgrown.passes, rfl⟩, [], ?_⟩
      rw [List.append_nil]
      exact hgrown.expressionWithin
  | some form =>
      obtain ⟨hlevel, hfloor⟩ := level?_of_standard_infixForm? hform
      have hadvance : s.cursor.Passes [s.cursor.current] s.cursor.advance := by
        apply Cursor.passes_advance
        intro heof
        change level? s.cursor.kind = _ at hlevel
        rw [heof] at hlevel
        cases hlevel
      rw [ensures_bind, InfixForm.parse, ensures_bind, ensures_advance, hfloor]
      apply (hinner _ _).bind
      · intro e s₁ hfails
        apply hfails.prepend (hgrown.passes.trans hadvance)
        intro _ hviable
        obtain ⟨_, _, ⟨right, hright, habove, rfl, rfl, rfl⟩, hdepth⟩ := hviable
        refine ⟨[], _, _, ⟨.binary phrase s.cursor.current right, ?_, ?_, ?_, rfl,
          rfl⟩, ?_⟩
        · exact Phrase.wellFormed_binary_iff.2
            ⟨_, hlevel, hgrown.wellFormed, hgrown.givesWay, hright, habove⟩
        · exact Phrase.above_binary hlt
        · simp [Phrase.yield]
        · exact Nat.succ_le_succ (Nat.max_le.2 ⟨hgrown.depth_le, hdepth⟩)
      intro e s₁ hread
      obtain ⟨_, _, ⟨right, hright, habove, rfl, rfl, rfl⟩, hdepth, hpasses,
        hpower⟩ := hread
      have hcons := hadvance.trans hpasses
      rw [ensures_pure, ensures_pure]
      refine ⟨⟨.binary phrase s.cursor.current right, rfl, ?_⟩, hcons.length_lt⟩
      exact hgrown.binary hform hlt hright habove hdepth hcons hpower

/-- An operand is all that was read, as long as it stands alone. -/
theorem Grammar.Phrase.IsOperand.grown {phrase : Phrase}
    (h : phrase.IsOperand levels) {start : Cursor} {s : ParseState}
    (hpasses : start.Passes phrase.yield s.cursor) (floor : Power) :
    Grown start floor levels phrase s :=
  ⟨h.wellFormed, above_of_operator?_none h.operator floor, h.depth_le, hpasses,
    givesWay_of_operator?_none h.operator _⟩

/-- An operand is an expression above any floor. -/
theorem Grammar.Phrase.IsOperand.expressionWithin {phrase : Phrase}
    (h : phrase.IsOperand levels) (floor : Power) :
    ExpressionWithin (levels + 1) floor phrase.yield :=
  ⟨phrase.erase, phrase.depth + 1,
    ⟨phrase, h.wellFormed, above_of_operator?_none h.operator floor, rfl, rfl, rfl⟩,
    Nat.succ_le_succ h.depth_le⟩

/-- What was read is continued for as long as operators above the floor
follow. -/
theorem Expr.extend_sound (hinner : SoundExpressions inner levels)
    {start : Cursor} {floor : Power} {phrase : Phrase} {s : ParseState}
    (hgrown : Grown start floor levels phrase s) :
    Ensures (Expr.extend standard inner floor phrase.erase) s
      (fun e s' => ∃ tokens n, Expression floor tokens e n ∧ n ≤ levels + 1 ∧
        start.Passes tokens s'.cursor ∧ standard.power s'.cursor.kind ≤ floor)
      (Fails (ExpressionWithin (levels + 1) floor) start) := by
  unfold Expr.extend
  apply ensures_loop
    (fun e s' => ∃ larger, larger.erase = e ∧ Grown start floor levels larger s')
  · intro e s₁ hinv
    obtain ⟨larger, rfl, hlarger⟩ := hinv
    apply (Expr.extend?_sound hinner hlarger).mono
    · intro next s₂ hnext
      cases next with
      | none =>
          obtain ⟨rfl, hpower⟩ := hnext
          exact ⟨_, _, hlarger.expression, Nat.succ_le_succ hlarger.depth_le,
            hlarger.passes, hpower⟩
      | some next => exact hnext
    · exact fun _ _ h => h
  · exact ⟨phrase, rfl, hgrown⟩

/-- An expression is read, where one level has been opened for it, as the
grammar has it. -/
theorem Expr.parse_sound (hinner : SoundExpressions inner levels) (floor : Power)
    (s : ParseState) :
    Ensures (Expr.parse standard inner floor) s
      (fun e s' => ∃ tokens n, Expression floor tokens e n ∧ n ≤ levels + 1 ∧
        s.cursor.Passes tokens s'.cursor ∧
        standard.power s'.cursor.kind ≤ floor)
      (Fails (ExpressionWithin (levels + 1) floor) s.cursor) := by
  unfold Expr.parse
  rw [ensures_bind, ensures_current]
  cases hform : (standard.entry s.cursor.current.kind).prefixForm? with
  | none =>
      have hoperand : name.IsOperand levels :=
        ⟨name_wellFormed, rfl, Nat.zero_le _⟩
      exact Or.inr ⟨[], ⟨.refl _, rfl⟩, [.sample .identifier],
        hoperand.expressionWithin floor⟩
  | some form =>
      apply (PrefixForm.parse_sound hinner hform).bind
      · intro e s₁ hfails
        apply hfails.prepend (.refl _)
        intro _ hviable
        obtain ⟨phrase, hoperand, rfl⟩ := hviable
        refine ⟨[], ?_⟩
        simpa using hoperand.expressionWithin floor
      intro e s₁ hread
      obtain ⟨phrase, hoperand, rfl, hpasses⟩ := hread
      exact Expr.extend_sound hinner (hoperand.grown hpasses floor)

/-- Every expression that is read is one of the grammar, and it opens no more
levels than there are. -/
theorem expression_sound (levels : Nat) :
    SoundExpressions (.ofLevels standard levels) levels := by
  induction levels with
  | zero =>
      intro floor s
      exact ensures_tooDeep.2 (Or.inl ⟨_, rfl⟩)
  | succ levels ih => exact Expr.parse_sound ih

end MiniC
