/-
Progress: whatever the registry is, no parse moves the cursor back, and what is
read takes up tokens.
-/
import MiniC.Program
import MiniC.Proofs.Declarator

namespace MiniC

namespace Parse

variable {α β : Type}

/-- The cursor never goes back. -/
def Forward (p : Parse α) : Prop :=
  ∀ s, Ensures p s (fun _ s' => s.cursor.Reaches s'.cursor)
    (fun _ s' => s.cursor.Reaches s'.cursor)

/-- The cursor never goes back, and it moves on when the parse succeeds. -/
def Consuming (p : Parse α) : Prop :=
  ∀ s, Ensures p s (fun _ s' => s.cursor.Leaves s'.cursor)
    (fun _ s' => s.cursor.Reaches s'.cursor)

theorem Consuming.forward {p : Parse α} (h : Consuming p) : Forward p :=
  fun s => (h s).mono (fun _ _ hleaves => hleaves.reaches) (fun _ _ h => h)

theorem Forward.reaches_run {p : Parse α} (h : Forward p) (s : ParseState) :
    s.cursor.Reaches (p.run s).2.cursor := by
  have hensures := h s
  unfold Ensures at hensures
  unfold run
  cases hrun : p s <;> simpa [hrun] using hensures

theorem Forward.bind {p : Parse α} {f : α → Parse β} (hp : Forward p)
    (hf : ∀ a, Forward (f a)) : Forward (p >>= f) := by
  intro s
  apply (hp s).bind (fun _ _ h => h)
  intro a s₁ hfirst
  exact (hf a s₁).mono (fun _ _ hsecond => hfirst.trans hsecond)
    (fun _ _ hsecond => hfirst.trans hsecond)

theorem Consuming.bind {p : Parse α} {f : α → Parse β} (hp : Consuming p)
    (hf : ∀ a, Forward (f a)) : Consuming (p >>= f) := by
  intro s
  apply (hp s).bind (fun _ _ h => h)
  intro a s₁ hfirst
  exact (hf a s₁).mono (fun _ _ hsecond => hfirst.trans_reaches hsecond)
    (fun _ _ hsecond => hfirst.reaches.trans hsecond)

theorem Forward.bind_consuming {p : Parse α} {f : α → Parse β} (hp : Forward p)
    (hf : ∀ a, Consuming (f a)) : Consuming (p >>= f) := by
  intro s
  apply (hp s).bind (fun _ _ h => h)
  intro a s₁ hfirst
  exact (hf a s₁).mono (fun _ _ hsecond => hfirst.trans_leaves hsecond)
    (fun _ _ hsecond => hfirst.trans hsecond)

theorem Forward.map {p : Parse α} (f : α → β) (hp : Forward p) :
    Forward (f <$> p) :=
  fun s => ensures_map.2 (hp s)

theorem Forward.ite {c : Prop} [Decidable c] {p q : Parse α} (hp : Forward p)
    (hq : Forward q) : Forward (if c then p else q) := by
  split
  · exact hp
  · exact hq

theorem forward_pure (a : α) : Forward (pure a : Parse α) :=
  fun s => .refl s.cursor

theorem consuming_throw (e : ParseError) : Consuming (throw e : Parse α) :=
  fun s => .refl s.cursor

theorem forward_current : Forward current := fun s => .refl s.cursor

theorem forward_check (kind : TokenKind) : Forward (check kind) :=
  fun s => .refl s.cursor

theorem forward_note (record : Record) : Forward (note record) :=
  fun s => .refl s.cursor

theorem forward_advance : Forward advance := fun s => s.cursor.reaches_advance

theorem consuming_expect {kind : TokenKind} (hkind : kind ≠ .eof)
    (context : String) : Consuming (expect kind context) := by
  intro s
  apply (expect_spec hkind context s).mono
  · intro token s' hread
    obtain ⟨_, hpasses, _⟩ := hread
    exact ⟨token, [], hpasses⟩
  · intro e s' herror
    obtain ⟨_, rfl, _⟩ := herror
    exact .refl _

/-- A turn of a loop that goes on has moved the cursor on. -/
def Turns (s : ParseState) (next : Option β) (s' : ParseState) : Prop :=
  match next with
  | none => s.cursor.Reaches s'.cursor
  | some _ => s.cursor.Leaves s'.cursor

theorem progressing_of_turns {step : β → Parse (Option β)}
    {E : ParseState → ParseError → ParseState → Prop}
    (hstep : ∀ value s, Ensures (step value) s (Turns s) (E s)) :
    Progressing step :=
  fun value s _ _ hrun => ((hstep value s).of_ok hrun).length_lt

/-- A loop goes forward when each of its turns does. -/
theorem forward_loop {step : β → Parse (Option β)}
    (hstep : ∀ value s, Ensures (step value) s (Turns s)
      (fun _ s' => s.cursor.Reaches s'.cursor))
    (value : β) : Forward (loop step value) := by
  intro s
  apply ensures_loop (fun _ s' => s.cursor.Reaches s'.cursor)
  · intro value s₁ hreaches
    apply (hstep value s₁).mono
    · rintro (_ | next) s₂ hnext
      · exact hreaches.trans hnext
      · exact ⟨hreaches.trans hnext.reaches, hnext.length_lt⟩
    · exact fun _ _ hnext => hreaches.trans hnext
  · exact .refl _

theorem consuming_declarator : Consuming declarator := by
  intro s
  apply (declarator_spec s).mono
  · intro _ s' hread
    obtain ⟨tokens, htokens, hpasses⟩ := hread
    obtain ⟨first, rest, rfl, _⟩ := htokens.exists_cons
    exact ⟨first, rest, hpasses⟩
  · intro e s' herror
    obtain ⟨specifiers, hpasses, _⟩ := herror
    exact ⟨specifiers, hpasses⟩

theorem consuming_param : Consuming param :=
  consuming_declarator.bind fun _ => forward_pure _

/-- One more parameter takes up tokens. -/
theorem moreParams_advances (found : Array Param) (s : ParseState) :
    Ensures (moreParams found) s (Turns s)
      (fun _ s' => s.cursor.Reaches s'.cursor) := by
  apply (moreParams_spec found s).mono
  · rintro (_ | next) s' hnext
    · exact hnext ▸ .refl _
    · obtain ⟨comma, last, _, _, _, _, hpasses⟩ := hnext
      exact ⟨comma, last, hpasses⟩
  · intro e s' herror
    obtain ⟨comma, middle, _, hcomma, specifiers, hpasses, _⟩ := herror
    exact ⟨comma :: specifiers, hcomma.trans hpasses⟩

theorem consuming_someParams : Consuming someParams := by
  refine consuming_param.bind fun _ => ?_
  exact (forward_loop moreParams_advances _).bind fun _ => forward_pure _

theorem forward_params : Forward params := by
  rw [params_eq]
  refine (forward_check _).bind fun _ => .ite (forward_pure _) ?_
  intro s
  rw [ensures_voidOrSomeParams]
  split
  · exact s.cursor.reaches_advance
  · exact consuming_someParams.forward s

end Parse

open Parse

/-- What the parses of the next level do to the cursor.  A statement may take up
no token at the end of the tokens, where a comment form can be announced by the
end marker. -/
structure Inner.Advances (inner : Inner) : Prop where
  expression : ∀ floor, Consuming (inner.expression floor)
  statement : ∀ s, Ensures inner.statement s
    (fun _ s' => s.cursor.Reaches s'.cursor ∧
      (s.cursor.kind ≠ .eof → s.cursor.Leaves s'.cursor))
    (fun _ s' => s.cursor.Reaches s'.cursor)

variable {registry : Registry} {inner : Inner}

theorem PrefixForm.parse_consuming (hinner : inner.Advances) (form : PrefixForm) :
    Consuming (form.parse inner) := by
  cases form with
  | primary =>
      intro s
      unfold PrefixForm.parse
      rw [ensures_bind, ensures_advance]
      by_cases heof : s.cursor.kind = .eof
      · rw [Expr.ofToken_eof heof]
        exact s.cursor.reaches_advance
      · cases Expr.ofToken s.cursor.current with
        | ok e => exact Cursor.leaves_advance heof
        | error e => exact s.cursor.reaches_advance
  | grouping =>
      refine (consuming_expect (by decide) _).bind fun _ => ?_
      refine (hinner.expression _).forward.bind fun _ => ?_
      exact (consuming_expect (by decide) _).forward.bind fun _ => forward_pure _

theorem InfixForm.parse_consuming (hinner : inner.Advances) (left : Expr)
    (form : InfixForm) : Consuming (form.parse registry inner left) :=
  forward_advance.bind_consuming fun _ =>
    (hinner.expression _).bind fun _ => forward_pure _

/-- An expression that goes on has taken up tokens. -/
theorem Expr.extend?_advances (hinner : inner.Advances) (floor : Power)
    (left : Expr) (s : ParseState) :
    Ensures (Expr.extend? registry inner floor left) s (Turns s)
      (fun _ s' => s.cursor.Reaches s'.cursor) := by
  unfold Expr.extend?
  rw [ensures_bind, ensures_current, ensures_ite]
  by_cases hle : registry.power s.cursor.current.kind ≤ floor
  · rw [if_pos hle, ensures_pure]
    exact .refl _
  · rw [if_neg hle, ensures_bind, ensures_note]
    cases (registry.entry s.cursor.current.kind).infixForm? with
    | none => exact .refl _
    | some form =>
        rw [ensures_bind]
        exact (InfixForm.parse_consuming hinner left form _).mono
          (fun _ _ h => h) (fun _ _ h => h)

theorem Expr.extend?_progressing (hinner : inner.Advances) (floor : Power) :
    Progressing (Expr.extend? registry inner floor) :=
  progressing_of_turns (Expr.extend?_advances hinner floor)

/-- A token that does not bind above the floor ends the expression. -/
theorem Expr.extend_of_le (hinner : inner.Advances) {floor : Power} (left : Expr)
    {s : ParseState} (hle : registry.power s.cursor.kind ≤ floor) :
    Expr.extend registry inner floor left s = .ok left s := by
  have hstop : Expr.extend? registry inner floor left s = .ok none s := by
    have hcurrent : current s = .ok s.cursor.current s := rfl
    change registry.power s.cursor.current.kind ≤ floor at hle
    simp only [Expr.extend?, bind_of_ok hcurrent, hle, if_true]
    rfl
  rw [Expr.extend, loop_eq (Expr.extend?_progressing hinner floor), bind_of_ok hstop]
  rfl

theorem Expr.parse_consuming (hinner : inner.Advances) (floor : Power) :
    Consuming (Expr.parse registry inner floor) := by
  refine forward_current.bind_consuming fun token => ?_
  cases (registry.entry token.kind).prefixForm? with
  | none => exact consuming_throw _
  | some form =>
      refine (PrefixForm.parse_consuming hinner form).bind fun left => ?_
      exact forward_loop (Expr.extend?_advances hinner floor) left

/-- Where the end marker stops a row of statements, a turn that finds one takes
up tokens. -/
theorem Parse.collectTurn_advances (hinner : inner.Advances) {stop : Parse Bool}
    (test : ParseState → Bool) (hstop : ∀ s, stop s = .ok (test s) s)
    (heof : ∀ s, test s = false → s.cursor.kind ≠ .eof) (found : Array Stmt)
    (s : ParseState) :
    Ensures (collectTurn stop inner.statement found) s (Turns s)
      (fun _ s' => s.cursor.Reaches s'.cursor) := by
  rw [collectTurn, ensures_bind, ensures_test hstop, ensures_ite]
  cases htest : test s with
  | true =>
      rw [if_pos rfl, ensures_pure]
      exact .refl _
  | false =>
      rw [if_neg Bool.false_ne_true, ensures_bind]
      exact (hinner.statement s).mono (fun _ _ h => h.2 (heof s htest)) (fun _ _ h => h)

/-- Whether statements between braces have come to an end. -/
def Stmt.atBodyEnd : Parse Bool :=
  return (← check .rightBrace) || (← check .eof)

theorem Parse.bodyTurn_advances (hinner : inner.Advances) (found : Array Stmt)
    (s : ParseState) :
    Ensures (collectTurn Stmt.atBodyEnd inner.statement found) s (Turns s)
      (fun _ s' => s.cursor.Reaches s'.cursor) := by
  apply collectTurn_advances hinner
    (fun s => s.cursor.kind = .rightBrace || s.cursor.kind = .eof) fun s => rfl
  intro s htest
  simp only [Bool.or_eq_false_iff, decide_eq_false_iff_not] at htest
  exact htest.2

theorem Parse.programTurn_advances (hinner : inner.Advances) (found : Array Stmt)
    (s : ParseState) :
    Ensures (collectTurn (check .eof) inner.statement found) s (Turns s)
      (fun _ s' => s.cursor.Reaches s'.cursor) := by
  apply collectTurn_advances hinner (fun s => s.cursor.kind = .eof) fun s => rfl
  exact fun s htest => of_decide_eq_false htest

theorem Stmt.parseBody_forward (hinner : inner.Advances) :
    Forward (Stmt.parseBody inner) :=
  (forward_loop (bodyTurn_advances hinner) _).bind fun _ => forward_pure _

theorem Stmt.parseFunction_forward (hinner : inner.Advances) (type : DeclType)
    (name : String) : Forward (Stmt.parseFunction inner type name) := by
  refine (consuming_expect (by decide) _).forward.bind fun _ => ?_
  refine forward_params.bind fun _ => ?_
  refine (consuming_expect (by decide) _).forward.bind fun _ => ?_
  refine (consuming_expect (by decide) _).forward.bind fun _ => ?_
  refine (Stmt.parseBody_forward hinner).bind fun _ => ?_
  exact (consuming_expect (by decide) _).forward.bind fun _ => forward_pure _

theorem Stmt.parseDeclaration_consuming (hinner : inner.Advances) :
    Consuming (Stmt.parseDeclaration inner) := by
  refine consuming_declarator.bind fun declared => ?_
  refine forward_current.bind fun token => ?_
  split
  · refine forward_advance.bind fun _ => ?_
    exact (forward_note _).bind fun _ => forward_pure _
  · exact (forward_note _).bind fun _ => Stmt.parseFunction_forward hinner _ _
  · refine (consuming_expect (by decide) _).forward.bind fun _ => ?_
    refine (hinner.expression _).forward.bind fun _ => ?_
    exact (consuming_expect (by decide) _).forward.bind fun _ => forward_pure _

/-- Only a comment can be read without taking up a token, and only at the end
marker. -/
theorem StatementForm.parse_advances (hinner : inner.Advances)
    (form : StatementForm) (s : ParseState) :
    Ensures (form.parse inner) s
      (fun _ s' => s.cursor.Reaches s'.cursor ∧
        ((form = .comment → s.cursor.kind ≠ .eof) → s.cursor.Leaves s'.cursor))
      (fun _ s' => s.cursor.Reaches s'.cursor) := by
  have hconsuming : ∀ {p : Parse Stmt}, Consuming p →
      Ensures p s
        (fun _ s' => s.cursor.Reaches s'.cursor ∧
          ((form = .comment → s.cursor.kind ≠ .eof) → s.cursor.Leaves s'.cursor))
        (fun _ s' => s.cursor.Reaches s'.cursor) :=
    fun hp => (hp s).mono (fun _ _ h => ⟨h.reaches, fun _ => h⟩) (fun _ _ h => h)
  cases form with
  | block =>
      apply hconsuming
      refine (consuming_expect (by decide) _).bind fun _ => ?_
      refine (Stmt.parseBody_forward hinner).bind fun _ => ?_
      exact (consuming_expect (by decide) _).forward.bind fun _ => forward_pure _
  | comment =>
      exact ⟨s.cursor.reaches_advance,
        fun heof => Cursor.leaves_advance (heof rfl)⟩
  | includeDirective =>
      apply hconsuming
      exact (consuming_expect (by decide) _).bind fun _ => forward_pure _
  | returning =>
      apply hconsuming
      refine (consuming_expect (by decide) _).bind fun _ => ?_
      refine (forward_check _).bind fun _ => ?_
      have hlast : ∀ value : Option Expr, Forward (do
          let _ ← expect .semicolon "after return value"
          return Stmt.returning value) := fun _ =>
        (consuming_expect (by decide) _).forward.bind fun _ => forward_pure _
      split
      · exact (forward_pure _).bind hlast
      · exact ((hinner.expression _).forward.map _).bind hlast
  | declaration => exact hconsuming (Stmt.parseDeclaration_consuming hinner)

/-- A statement takes up tokens, unless the registry lets the end marker announce
a comment and that is what is read. -/
theorem Stmt.parse_leaves (hinner : inner.Advances) (s : ParseState) :
    Ensures (Stmt.parse registry inner) s
      (fun _ s' => s.cursor.Reaches s'.cursor ∧
        ((s.cursor.kind = .eof →
            (registry.entry .eof).statementForm? ≠ some .comment) →
          s.cursor.Leaves s'.cursor))
      (fun _ s' => s.cursor.Reaches s'.cursor) := by
  unfold Stmt.parse
  rw [ensures_bind, ensures_current]
  cases hform : (registry.entry s.cursor.current.kind).statementForm? with
  | some form =>
      rw [ensures_bind, ensures_note]
      apply (StatementForm.parse_advances hinner form _).mono
      · intro statement s' hread
        obtain ⟨hreaches, hleaves⟩ := hread
        refine ⟨hreaches, fun hother => hleaves ?_⟩
        rintro rfl heof
        exact hother heof (heof ▸ hform)
      · exact fun _ _ h => h
  | none =>
      have hp : Consuming (do
          let value ← inner.expression .default
          let _ ← expect .semicolon "after expression"
          return Stmt.expression value) :=
        (hinner.expression _).bind fun _ =>
          (consuming_expect (by decide) _).forward.bind fun _ => forward_pure _
      exact (hp s).mono (fun _ _ h => ⟨h.reaches, fun _ => h⟩) (fun _ _ h => h)

theorem Stmt.parse_advances (hinner : inner.Advances) (s : ParseState) :
    Ensures (Stmt.parse registry inner) s
      (fun _ s' => s.cursor.Reaches s'.cursor ∧
        (s.cursor.kind ≠ .eof → s.cursor.Leaves s'.cursor))
      (fun _ s' => s.cursor.Reaches s'.cursor) :=
  (Stmt.parse_leaves hinner s).mono
    (fun _ _ h => ⟨h.1, fun heof => h.2 fun hkind => absurd hkind heof⟩)
    (fun _ _ h => h)

/-- With any registry and any number of levels left, reading takes up tokens. -/
theorem Inner.ofLevels_advances (registry : Registry) (levels : Nat) :
    (Inner.ofLevels registry levels).Advances := by
  induction levels with
  | zero => exact ⟨fun _ s => .refl s.cursor, fun s => .refl s.cursor⟩
  | succ levels ih => exact ⟨Expr.parse_consuming ih, Stmt.parse_advances ih⟩

/-- The statements of a program. -/
theorem Parse.forward_untilEnd (hinner : inner.Advances) :
    Forward (collectUntil (check .eof) inner.statement) :=
  (forward_loop (programTurn_advances hinner) _).bind fun _ => forward_pure _

/-- One turn of reading a program. -/
def Registry.programTurn (registry : Registry) :
    Array Stmt → Parse (Option (Array Stmt)) :=
  collectTurn (check .eof) registry.outermost.statement

theorem Registry.programTurn_progressing (registry : Registry) :
    Progressing registry.programTurn :=
  progressing_of_turns
    (programTurn_advances (Inner.ofLevels_advances registry maxNesting))

end MiniC
