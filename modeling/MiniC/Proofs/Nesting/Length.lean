/-
Length alone: a row of statements is no deeper than one of them, and a chain of operators
no deeper than one of its operands.
-/
import MiniC.Proofs.Nesting.Shallow

namespace MiniC

/-- A token that can put an expression inside another of the same power: it opens a group,
or it assigns.  The other operators leave those of their own power to the left. -/
def Registry.Nests (registry : Registry) (kind : TokenKind) : Prop :=
  (registry.entry kind).prefixForm? = some .grouping ∨
    (registry.entry kind).infixForm? = some .assignment

/-- On the way from one place to another there is a token that nests. -/
def Registry.NestsBetween (registry : Registry) (start stop : Cursor) : Prop :=
  ∃ place, start.Reaches place ∧ place.Reaches stop ∧ registry.Nests place.kind

theorem Cursor.Reaches.nestsBetween {registry : Registry} {start middle stop : Cursor}
    (h : start.Reaches middle) (hnests : registry.NestsBetween middle stop) :
    registry.NestsBetween start stop := by
  obtain ⟨place, hmiddle, hplace, hkind⟩ := hnests
  exact ⟨place, h.trans hmiddle, hplace, hkind⟩

/-- No power binds more tightly than that of what opens an expression. -/
theorem Power.rank_le (power : Power) : power.rank ≤ Power.primary.rank := by
  cases power <;> decide

namespace Parse

/-- A run ends with what it ends with. -/
theorem ensures_self {α : Type} (p : Parse α) (s : ParseState) :
    Ensures p s (fun a s' => p s = .ok a s') (fun e s' => p s = .error e s') := by
  unfold Ensures
  cases p s <;> rfl

variable {inner : Inner}

/-- Where a row of statements fails, one of them fails, with no fewer levels left than
the first one had. -/
theorem collectUntil_fails (hinner : inner.Advances) {stop : Parse Bool}
    (test : ParseState → Bool) (hstop : ∀ s, stop s = .ok (test s) s)
    (heof : ∀ s, test s = false → s.cursor.kind ≠ .eof) (s : ParseState) :
    Ensures (collectUntil stop inner.statement) s (fun _ _ => True)
      (fun e s' => ∃ s₁, s.cursor.Reaches s₁.cursor ∧
        inner.statement s₁ = .error e s') := by
  rw [collectUntil_eq, ensures_bind]
  apply ensures_loop (fun _ s₁ => s.cursor.Reaches s₁.cursor)
  · intro found s₁ hreaches
    rw [collectTurn, ensures_bind, ensures_test hstop, ensures_ite]
    cases htest : test s₁ with
    | true =>
        rw [if_pos rfl]
        trivial
    | false =>
        rw [if_neg Bool.false_ne_true, ensures_bind]
        apply ((hinner.statement s₁).and (ensures_self _ s₁)).mono
        · intro _ s₂ hread
          obtain ⟨⟨hforward, hleaves⟩, _⟩ := hread
          exact ⟨hreaches.trans hforward, (hleaves (heof s₁ htest)).length_lt⟩
        · exact fun _ _ herror => ⟨s₁, hreaches, herror.2⟩
  · exact .refl _

theorem untilEnd_fails (hinner : inner.Advances) (s : ParseState) :
    Ensures (collectUntil (check .eof) inner.statement) s (fun _ _ => True)
      (fun e s' => ∃ s₁, s.cursor.Reaches s₁.cursor ∧
        inner.statement s₁ = .error e s') :=
  collectUntil_fails hinner (fun s => s.cursor.kind = .eof) (fun _ => rfl)
    (fun _ htest => of_decide_eq_false htest) s

end Parse

open Parse

variable {registry : Registry} {inner : Inner}

theorem Stmt.parseBody_fails (hinner : inner.Advances) (s : ParseState) :
    Ensures (Stmt.parseBody inner) s (fun _ _ => True)
      (fun e s' => ∃ s₁, s.cursor.Reaches s₁.cursor ∧
        inner.statement s₁ = .error e s') :=
  collectUntil_fails hinner (fun s => s.cursor.kind = .rightBrace || s.cursor.kind = .eof)
    (fun _ => rfl) (fun _ htest => of_decide_eq_false (Bool.or_eq_false_iff.1 htest).2) s

/-- What an operand on the right of an operator fails with: it stands behind an operator
above the floor, and the form of that operator says what its own floor is. -/
def Registry.OperandFails (registry : Registry) (inner : Inner) (floor : Power)
    (s : ParseState) (e : ParseError) (s' : ParseState) : Prop :=
  ∃ form s₁, floor < registry.power s.cursor.kind ∧
    (registry.entry s.cursor.kind).infixForm? = some form ∧
    s₁.cursor = s.cursor.advance ∧
    inner.expression (form.rightFloor registry s.cursor.kind) s₁ = .error e s'

theorem Expr.extend?_fails (floor : Power) (left : Expr) (s : ParseState) :
    Ensures (Expr.extend? registry inner floor left) s (fun _ _ => True)
      (fun e s' => e.isTooDeep → registry.OperandFails inner floor s e s') := by
  unfold Expr.extend?
  rw [ensures_bind, ensures_current, ensures_ite]
  by_cases hle : registry.power s.cursor.current.kind ≤ floor
  · rw [if_pos hle]
    trivial
  · rw [if_neg hle, ensures_bind, ensures_note]
    cases hform : (registry.entry s.cursor.current.kind).infixForm? with
    | none => exact fun h => nomatch h
    | some form =>
        unfold InfixForm.parse
        rw [ensures_bind, ensures_bind, ensures_advance, ensures_bind]
        apply (ensures_self _ _).mono
        · exact fun _ _ _ => trivial
        · exact fun e s' herror _ => ⟨form, _, Nat.lt_of_not_le hle, hform, rfl, herror⟩

/-- Where a chain of operators fails for depth, one of the operands on the right does,
with no fewer levels left than the first one had. -/
theorem Expr.extend_fails (hinner : inner.Advances) (floor : Power) (left : Expr)
    (s : ParseState) :
    Ensures (Expr.extend registry inner floor left) s (fun _ _ => True)
      (fun e s' => e.isTooDeep → ∃ s₁, s.cursor.Reaches s₁.cursor ∧
        registry.OperandFails inner floor s₁ e s') := by
  unfold Expr.extend
  apply ensures_loop (fun _ s₁ => s.cursor.Reaches s₁.cursor)
  · intro left s₁ hreaches
    apply ((Expr.extend?_advances hinner floor left s₁).and
      (Expr.extend?_fails floor left s₁)).mono
    · rintro (_ | next) s₂ ⟨hturn, _⟩
      · trivial
      · exact ⟨hreaches.trans hturn.reaches, hturn.length_lt⟩
    · exact fun _ _ herror hdeep => ⟨s₁, hreaches, herror.2 hdeep⟩
  · exact .refl _

/-- A single token is passed, and it is not too deep. -/
theorem PrefixForm.primary_parse (s : ParseState) :
    Ensures (PrefixForm.primary.parse inner) s
      (fun _ s' => s.cursor.Reaches s'.cursor) (fun e _ => e.isTooDeep = false) := by
  unfold PrefixForm.parse
  rw [ensures_bind, ensures_advance]
  cases htoken : Expr.ofToken s.cursor.current with
  | ok e => exact s.cursor.reaches_advance
  | error e => exact Expr.isTooDeep_of_ofToken htoken

/-- The operand of an operator that assigns stands behind a token that nests.  The operand
of another one has a higher floor, for which `hinner` may know it already. -/
theorem Registry.OperandFails.nestsBetween (hadvances : inner.Advances) {floor : Power}
    {s s' : ParseState} {e : ParseError} (h : registry.OperandFails inner floor s e s')
    (hinner : ∀ power s₁, floor < power → inner.expression power s₁ = .error e s' →
      registry.NestsBetween s₁.cursor s'.cursor) :
    registry.NestsBetween s.cursor s'.cursor := by
  obtain ⟨form, s₁, hlt, hinfix, hplace, herror⟩ := h
  have hoperand : s.cursor.Reaches s₁.cursor := hplace ▸ s.cursor.reaches_advance
  cases form with
  | assignment =>
      have hlast := ((hadvances.expression _).forward s₁).of_error herror
      exact ⟨s.cursor, .refl _, hoperand.trans hlast, .inr hinfix⟩
  | binary => exact hoperand.nestsBetween (hinner _ s₁ hlt herror)

/-- With one level for each power above the floor, an expression does not fail for depth
unless it comes by a token that nests.  However long a chain of other operators is, the
floor of an operand on the right is the power of its operator, and so the levels suffice.
The induction is on them. -/
theorem Expr.nests_of_tooDeep {levels : Nat} {floor : Power} {s : ParseState}
    (hlevels : Power.primary.rank < levels + floor.rank) :
    Ensures ((Inner.ofLevels registry levels).expression floor) s (fun _ _ => True)
      (fun e s' => e.isTooDeep → registry.NestsBetween s.cursor s'.cursor) := by
  induction levels generalizing floor s with
  | zero => exact absurd floor.rank_le (by omega)
  | succ levels ih =>
      have hadvances := Inner.ofLevels_advances registry levels
      change Ensures (Expr.parse registry _ floor) s _ _
      by_cases hgroups : (registry.entry s.cursor.kind).prefixForm? = some .grouping
      · have hforward :=
          ((Inner.ofLevels_advances registry (levels + 1)).expression floor).forward s
        apply hforward.mono fun _ _ _ => trivial
        exact fun e s' hreaches _ => ⟨s.cursor, .refl _, hreaches, .inl hgroups⟩
      unfold Expr.parse
      rw [ensures_bind, ensures_current]
      cases hform : (registry.entry s.cursor.current.kind).prefixForm? with
      | none => exact fun h => nomatch h
      | some form =>
          cases form with
          | grouping => exact absurd hform hgroups
          | primary =>
              apply (PrefixForm.primary_parse s).bind
              · exact fun e _ hshallow hdeep => by simp [hshallow] at hdeep
              intro left s₁ hfirst
              apply (Expr.extend_fails hadvances floor left s₁).mono fun _ _ h => h
              intro e s' hfails hdeep
              obtain ⟨s₂, hsecond, hoperand⟩ := hfails hdeep
              apply (hfirst.trans hsecond).nestsBetween
              apply hoperand.nestsBetween hadvances
              intro power s₃ hlt herror
              have hrank : floor.rank < power.rank := hlt
              have henough : Power.primary.rank < levels + power.rank := by omega
              exact (ih henough).of_error herror hdeep

end MiniC
