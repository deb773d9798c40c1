/-
Floors cut an expression in two: what is above a lower floor is what is above a
higher one, gone on with at the lower floor.  This is so with any registry, since
no operator looks at the floor that it was found above.
-/
import MiniC.Proofs.Blame
import MiniC.Proofs.Likeness.Same
import MiniC.Registry.Standard

namespace MiniC

open Parse

/-- `part` is the expression itself, or it lies on the way to its leftmost
operand. -/
inductive Expr.OnLeftSpine (part : Expr) : Expr → Prop
  | whole : OnLeftSpine part part
  | left {left right : Expr} {operator : Token} :
      OnLeftSpine part left → OnLeftSpine part (.binary left operator right)

theorem Expr.OnLeftSpine.trans {e₁ e₂ e₃ : Expr} (h : e₁.OnLeftSpine e₂)
    (h' : e₂.OnLeftSpine e₃) : e₁.OnLeftSpine e₃ := by
  induction h' with
  | whole => exact h
  | left _ ih => exact .left ih

section Continuing

variable {registry : Registry} {inner : Inner} {low high : Power}

/-- One step stops at a token that does not bind above the floor, or what it makes
has the expression so far for its left operand. -/
theorem Expr.extend?_spec (floor : Power) (left : Expr) (s : ParseState) :
    Ensures (Expr.extend? registry inner floor left) s
      (fun next _ => match next with
        | none => registry.power s.cursor.kind ≤ floor
        | some e => ∃ operator right, e = .binary left operator right)
      (fun _ _ => True) := by
  rw [Expr.extend?, ensures_bind, ensures_current, ensures_ite]
  by_cases hle : registry.power s.cursor.current.kind ≤ floor
  · rw [if_pos hle, ensures_pure]
    exact hle
  · rw [if_neg hle, ensures_bind, ensures_note]
    cases (registry.entry s.cursor.current.kind).infixForm? with
    | none => trivial
    | some form =>
        simp only [InfixForm.parse, ensures_bind, ensures_advance, ensures_pure]
        unfold Ensures
        split
        · exact ⟨_, _, rfl⟩
        · trivial

theorem Expr.forward_extend (hinner : inner.Advances) (floor : Power) (left : Expr) :
    Forward (Expr.extend registry inner floor left) :=
  forward_loop (Expr.extend?_advances hinner floor) left

/-- However far one goes on with an expression, it stays on the left spine. -/
theorem Expr.extend_onLeftSpine (hinner : inner.Advances) (floor : Power)
    (left : Expr) (s : ParseState) :
    Ensures (Expr.extend registry inner floor left) s
      (fun e s' => left.OnLeftSpine e ∧ s.cursor.Reaches s'.cursor)
      (fun _ s' => s.cursor.Reaches s'.cursor) := by
  have hspine : Ensures (Expr.extend registry inner floor left) s
      (fun e _ => left.OnLeftSpine e) (fun _ _ => True) := by
    apply ensures_loop (fun e _ => left.OnLeftSpine e)
    · intro e s₁ hspine
      apply ((extend?_spec floor e s₁).and (extend?_advances hinner floor e s₁)).mono
      · rintro (_ | next) s₂ ⟨hnext, hturns⟩
        · exact hspine
        · obtain ⟨operator, right, rfl⟩ := hnext
          exact ⟨hspine.trans (.left .whole), hturns.length_lt⟩
      · exact fun _ _ _ => trivial
    · exact .whole
  exact (hspine.and (Expr.forward_extend hinner floor left s)).mono
    (fun _ _ h => h) (fun _ _ h => h.2)

/-- To go on at a floor is to go on at a higher one first.  The induction is on how
many tokens are ahead: an operator above both floors is taken either way, and one
that is not above the higher floor leaves the rest to the lower one. -/
theorem Likeness.ends_extend_bind_extend (hinner : same.AlikeInner inner inner)
    (hle : low ≤ high) (left : Expr) {s s' : ParseState}
    (h : same.cursor s.cursor s'.cursor) :
    same.Ends Eq (Expr.extend registry inner low left s)
      ((Expr.extend registry inner high left >>= Expr.extend registry inner low) s') := by
  have hadvances := hinner.advances
  induction hn : s.cursor.ahead.length using Nat.strongRecOn
    generalizing left s s' with
  | ind n ih =>
      by_cases hstop : registry.power s.cursor.kind ≤ high
      · have hstop' : registry.power s'.cursor.kind ≤ high := by
          rwa [kind_current h]
        rw [bind_of_ok (Expr.extend_of_le hadvances left hstop')]
        exact alike_extend (.refl registry) hinner low rfl s s' h
      · have hlow : ¬registry.power s.cursor.kind ≤ low := fun hlow =>
          hstop (Nat.le_trans hlow hle)
        have hstep : same.Ends _ (Expr.extend? registry inner low left s)
            (Expr.extend? registry inner high left s') :=
          ends_extend? (.refl registry) hinner rfl h (iff_of_false hstop hlow)
        rw [Expr.extend, loop_eq (Expr.extend?_progressing hadvances low),
          Expr.extend, loop_eq (Expr.extend?_progressing hadvances high), bind_assoc]
        apply hstep.bind
        intro next next' t t' hrun hnext hcursor
        cases hnext with
        | none => exact absurd ((Expr.extend?_spec low left s).of_ok hrun) hlow
        | some hnext =>
            obtain rfl := hnext
            have hlt := Expr.extend?_progressing hadvances low left s _ t hrun
            exact ih _ (hn ▸ hlt) _ hcursor rfl

/-- The same of a whole expression, which one more level has been opened for. -/
theorem Likeness.alike_expression_bind_extend (hinner : same.AlikeInner inner inner)
    (hle : low ≤ high) :
    same.Alike Eq (Expr.parse registry inner low)
      (Expr.parse registry inner high >>= Expr.extend registry inner low) := by
  rw [Expr.parse, Expr.parse, bind_assoc]
  refine alike_current.bind fun token token' htoken => ?_
  obtain rfl : token = token' := htoken
  cases (registry.entry token.kind).prefixForm? with
  | none => exact alike_throw rfl
  | some form =>
      dsimp only
      rw [bind_assoc]
      refine (alike_prefixForm hinner form).bind fun left left' hleft => ?_
      obtain rfl : left = left' := hleft
      exact fun s s' h => ends_extend_bind_extend hinner hle left h

end Continuing

namespace Parse

variable {α β : Type} {p : Parse α} {f : α → Parse β} {s s' : ParseState}

/-- Runs with the same result, error or not, that leave the same cursor. -/
def SameRun (first second : Except ParseError α × ParseState) : Prop :=
  first.1 = second.1 ∧ first.2.cursor = second.2.cursor

theorem SameRun.of_ok {run : Except ParseError β × ParseState} {a : α}
    (h : SameRun run ((p >>= f).run s)) (hrun : p.run s = (.ok a, s')) :
    SameRun run ((f a).run s') := by
  rwa [run_bind, hrun] at h

theorem SameRun.of_error {run : Except ParseError β × ParseState} {e : ParseError}
    (h : SameRun run ((p >>= f).run s)) (hrun : p.run s = (.error e, s')) :
    SameRun run (.error e, s') := by
  rwa [run_bind, hrun] at h

/-- Parses that are alike, and that both go forward, have the same runs. -/
theorem sameRun_of_alike {p p' : Parse α} (h : Likeness.same.Alike Eq p p')
    (hp : Forward p) (hp' : Forward p') (s : ParseState) :
    SameRun (p.run s) (p'.run s) := by
  obtain ⟨hresult, hcursor⟩ := (h s s (Likeness.cursor_refl s.cursor)).run
  have hsame := Likeness.eq_of_reaches hcursor (hp.reaches_run s) (hp'.reaches_run s)
  exact ⟨Likeness.eq_of_outcome_same hresult, hsame.symm⟩

end Parse

/-- What reading at the lower floor comes to, with some levels left, is settled by
reading at the higher floor from the same state. -/
structure Registry.SplitsExpression (registry : Registry) (levels : Nat)
    (low high : Power) (s : ParseState) : Prop where
  /-- A failure at the higher floor is one at the lower floor. -/
  fails : ∀ e s₂, ((Inner.ofLevels registry levels).expression high).run s =
      (.error e, s₂) →
    SameRun (((Inner.ofLevels registry levels).expression low).run s) (.error e, s₂)
  /-- What is read at the higher floor is gone on with at the lower one, with the
  levels that are left inside. -/
  continues : ∀ e₂ s₂, ((Inner.ofLevels registry levels).expression high).run s =
      (.ok e₂, s₂) →
    ∃ inside, levels = inside + 1 ∧
      SameRun (((Inner.ofLevels registry levels).expression low).run s)
        ((Expr.extend registry (.ofLevels registry inside) low e₂).run s₂)
  /-- Where both succeed, the higher floor can only stop earlier. -/
  stopsEarlier : ∀ e₁ s₁ e₂ s₂,
    ((Inner.ofLevels registry levels).expression low).run s = (.ok e₁, s₁) →
    ((Inner.ofLevels registry levels).expression high).run s = (.ok e₂, s₂) →
    e₂.OnLeftSpine e₁ ∧
      ∃ taken more, s.cursor.Passes taken s₂.cursor ∧
        s.cursor.Passes (taken ++ more) s₁.cursor

/-- With a level to open, the lower floor comes to the same as the higher one and
going on from there. -/
theorem Inner.sameRun_expression (registry : Registry) (inside : Nat)
    {low high : Power} (hle : low ≤ high) (s : ParseState) :
    SameRun (((ofLevels registry (inside + 1)).expression low).run s)
      (((ofLevels registry (inside + 1)).expression high >>=
        Expr.extend registry (.ofLevels registry inside) low).run s) := by
  have hinner : Likeness.same.AlikeInner (ofLevels registry inside) _ :=
    Likeness.alike_ofLevels (.refl registry) inside
  have hforward : ∀ floor, Forward ((ofLevels registry (inside + 1)).expression floor) :=
    fun floor => ((ofLevels_advances registry (inside + 1)).expression floor).forward
  exact sameRun_of_alike (Likeness.alike_expression_bind_extend hinner hle)
    (hforward low) ((hforward high).bind (Expr.forward_extend hinner.advances low)) s

/-- Whatever the registry is, raising the floor of an expression cuts it in two, at
any number of levels and from any state. -/
theorem expression_splits_at_floor (registry : Registry) (levels : Nat)
    {low high : Power} (hle : low ≤ high) (s : ParseState) :
    registry.SplitsExpression levels low high s := by
  cases levels with
  | zero =>
      have hclosed : ∀ floor, ((Inner.ofLevels registry 0).expression floor).run s =
          (.error (.nestingTooDeep maxNesting s.cursor.current.location), s) :=
        fun _ => rfl
      constructor
      · intro e s₂ hhigh
        rw [hclosed] at hhigh ⊢
        exact ⟨congrArg Prod.fst hhigh, congrArg (·.2.cursor) hhigh⟩
      · intro e₂ s₂ hhigh
        rw [hclosed] at hhigh
        cases hhigh
      · intro e₁ s₁ e₂ s₂ _ hhigh
        rw [hclosed] at hhigh
        cases hhigh
  | succ inside =>
      have hsame := Inner.sameRun_expression registry inside hle s
      have hadvances := Inner.ofLevels_advances registry
      constructor
      · exact fun e s₂ hhigh => hsame.of_error hhigh
      · exact fun e₂ s₂ hhigh => ⟨inside, rfl, hsame.of_ok hhigh⟩
      · intro e₁ s₁ e₂ s₂ hlow hhigh
        have hgo := hsame.of_ok hhigh
        rw [hlow] at hgo
        rcases hrun : (Expr.extend registry (.ofLevels registry inside) low e₂).run s₂
          with ⟨result, s₃⟩
        rw [hrun] at hgo
        obtain ⟨rfl, hcursor⟩ : .ok e₁ = result ∧ s₁.cursor = s₃.cursor := hgo
        obtain ⟨hspine, more, hmore⟩ :=
          (Expr.extend_onLeftSpine (hadvances inside) low e₂ s₂).of_run hrun
        have hconsuming := (hadvances (inside + 1)).expression high s
        obtain ⟨taken, htaken⟩ := (hconsuming.of_run hhigh).reaches
        rw [← hcursor] at hmore
        exact ⟨hspine, taken, more, htaken, htaken.trans hmore⟩

/-- Where only products are asked for, a sum ends before its operator; with a lower
floor it goes on to its end. -/
theorem expression_splits_at_floor_sum :
    let start : ParseState :=
      .ofTokens [.sample .identifier, .sample .plus, .sample .identifier]
    let sum : Power → Parse Expr := (Inner.ofLevels Registry.standard 2).expression
    Power.default ≤ .additive ∧
    Registry.standard.SplitsExpression 2 .default .additive start ∧
    ∃ s₁ s₂, (sum .additive).run start = (.ok (.symbol ""), s₂) ∧
      s₂.cursor = start.cursor.drop 1 ∧
      (sum .default).run start =
        (.ok (.binary (.symbol "") (.sample .plus) (.symbol "")), s₁) ∧
      s₁.cursor = start.cursor.drop 3 := by
  intro start sum
  have hsplits := expression_splits_at_floor Registry.standard 2
    (by decide : Power.default ≤ .additive) start
  exact ⟨by decide, hsplits, _, _, rfl, rfl, rfl, rfl⟩

end MiniC
