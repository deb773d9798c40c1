/-
How many levels are enough: whatever the registry is, an expression opens no more
levels than one for each token ahead and one more, and a statement one more still.
-/
import MiniC.Proofs.Progress

namespace MiniC

/-- Whether an error says that one more level would be too many. -/
def ParseError.isTooDeep : ParseError → Bool
  | nestingTooDeep _ _ => true
  | _ => false

/-- Going forward, no more tokens are ahead than before. -/
theorem Cursor.Reaches.length_le {start stop : Cursor} (h : start.Reaches stop) :
    stop.ahead.length ≤ start.ahead.length := by
  obtain ⟨tokens, hpasses⟩ := h
  rw [hpasses.ahead_eq, List.length_append]
  exact Nat.le_add_left _ _

namespace Parse

variable {α β : Type} {ahead : Nat} {p : Parse α} {f : α → Parse β}

/-- Where no more than so many tokens are ahead, the parse does not fail for depth. -/
def Shallow (ahead : Nat) (p : Parse α) : Prop :=
  ∀ s, s.cursor.ahead.length ≤ ahead →
    Ensures p s (fun _ _ => True) (fun e _ => e.isTooDeep = false)

theorem shallow_pure (a : α) : Shallow ahead (pure a : Parse α) :=
  fun _ _ => trivial

theorem shallow_throw {e : ParseError} (he : e.isTooDeep = false) :
    Shallow ahead (throw e : Parse α) :=
  fun _ _ => he

theorem shallow_check (kind : TokenKind) : Shallow ahead (check kind) :=
  fun _ _ => trivial

theorem shallow_expect (kind : TokenKind) (context : String) :
    Shallow ahead (expect kind context) := by
  intro s _
  rw [ensures_expect]
  split
  · trivial
  · rfl

/-- What follows a parse that goes forward has no more tokens ahead. -/
theorem Shallow.bind (hp : Shallow ahead p) (hforward : Forward p)
    (hf : ∀ a, Shallow ahead (f a)) : Shallow ahead (p >>= f) := by
  intro s hs
  apply ((hp s hs).and (hforward s)).bind
  · exact fun _ _ h => h.1
  · exact fun a s' h => hf a s' (Nat.le_trans h.2.length_le hs)

/-- What follows a parse that takes up tokens has fewer tokens ahead. -/
theorem Shallow.bind_consuming (hp : Shallow ahead p) (hconsuming : Consuming p)
    (hf : ∀ a, ∀ fewer < ahead, Shallow fewer (f a)) : Shallow ahead (p >>= f) := by
  intro s hs
  apply ((hp s hs).and (hconsuming s)).bind
  · exact fun _ _ h => h.1
  · exact fun a s' h => hf a _ (Nat.lt_of_lt_of_le h.2.length_lt hs) s' (Nat.le_refl _)

theorem forward_expect (kind : TokenKind) (context : String) :
    Forward (expect kind context) := by
  intro s
  rw [ensures_expect]
  split
  · exact s.cursor.reaches_advance
  · exact .refl _

/-- What follows a token that is asked for has no more tokens ahead. -/
theorem shallow_expect_bind {kind : TokenKind} {context : String} {f : Token → Parse β}
    (hf : ∀ token, Shallow ahead (f token)) : Shallow ahead (expect kind context >>= f) :=
  (shallow_expect kind context).bind (forward_expect kind context) hf

theorem shallow_current_bind {f : Token → Parse β} (hf : ∀ token, Shallow ahead (f token)) :
    Shallow ahead (current >>= f) :=
  Shallow.bind (fun _ _ => trivial) forward_current hf

theorem shallow_advance_bind {f : Token → Parse β} (hf : ∀ token, Shallow ahead (f token)) :
    Shallow ahead (advance >>= f) :=
  Shallow.bind (fun _ _ => trivial) forward_advance hf

theorem shallow_note_bind {record : Record} {f : Unit → Parse β}
    (hf : ∀ u, Shallow ahead (f u)) : Shallow ahead (note record >>= f) :=
  Shallow.bind (fun _ _ => trivial) (forward_note record) hf

theorem Shallow.map (g : α → β) (hp : Shallow ahead p) : Shallow ahead (g <$> p) :=
  fun s hs => ensures_map.2 (hp s hs)

theorem Shallow.ite {c : Prop} [Decidable c] {q : Parse α} (hp : Shallow ahead p)
    (hq : Shallow ahead q) : Shallow ahead (if c then p else q) := by
  split
  · exact hp
  · exact hq

/-- A loop is no deeper than its turns. -/
theorem shallow_loop {step : β → Parse (Option β)}
    (hturns : ∀ value s, Ensures (step value) s (Turns s)
      (fun _ s' => s.cursor.Reaches s'.cursor))
    (hstep : ∀ value, Shallow ahead (step value)) (value : β) :
    Shallow ahead (loop step value) := by
  intro s hs
  apply ensures_loop (fun _ s' => s'.cursor.ahead.length ≤ ahead)
  · intro value s₁ hle
    apply ((hstep value s₁ hle).and (hturns value s₁)).mono
    · rintro (_ | next) s₂ ⟨_, hturn⟩
      · trivial
      · exact ⟨Nat.le_trans hturn.reaches.length_le hle, hturn.length_lt⟩
    · exact fun _ _ h => h.1
  · exact hs

theorem shallow_declarator : Shallow ahead declarator := by
  intro s _
  apply (declarator_spec s).mono
  · exact fun _ _ _ => trivial
  · rintro e s' ⟨_, _, _, _, rfl⟩
    rfl

theorem shallow_param : Shallow ahead param :=
  shallow_declarator.bind consuming_declarator.forward fun _ => shallow_pure _

theorem shallow_moreParams (found : Array Param) : Shallow ahead (moreParams found) := by
  refine (shallow_check _).bind (forward_check _) fun b => .ite ?_ (shallow_pure _)
  refine shallow_advance_bind fun _ => ?_
  exact shallow_param.bind consuming_param.forward fun _ => shallow_pure _

theorem shallow_someParams : Shallow ahead someParams := by
  refine shallow_param.bind consuming_param.forward fun _ => ?_
  exact (shallow_loop moreParams_advances shallow_moreParams _).bind
    (forward_loop moreParams_advances _) fun _ => shallow_pure _

theorem shallow_params : Shallow ahead params := by
  rw [params_eq]
  refine (shallow_check _).bind (forward_check _) fun _ => .ite (shallow_pure _) ?_
  intro s hs
  rw [ensures_voidOrSomeParams]
  split
  · trivial
  · exact shallow_someParams s hs

end Parse

open Parse

/-- So many levels are enough for an expression before fewer tokens, and for a statement
before fewer by one more. -/
structure Inner.Suffices (levels : Nat) (inner : Inner) : Prop where
  expression : ∀ ahead < levels, ∀ floor, Shallow ahead (inner.expression floor)
  statement : ∀ ahead, ahead + 1 < levels → Shallow ahead inner.statement

variable {registry : Registry} {inner : Inner} {levels ahead : Nat}

/-- A token that stands for no expression is not too deep. -/
theorem Expr.isTooDeep_of_ofToken {token : Token} {e : ParseError}
    (h : Expr.ofToken token = .error e) : e.isTooDeep = false := by
  obtain ⟨kind, text, location⟩ := token
  cases kind with
  | integer =>
      simp only [ofToken] at h
      split at h
      · cases h
      · cases h; rfl
  | unsignedInteger =>
      simp only [ofToken] at h
      split at h
      · cases h
      · cases h; rfl
  | floating =>
      simp only [ofToken] at h
      split at h
      · cases h
      · cases h; rfl
  | _ => cases h <;> rfl

theorem Inner.Advances.statement_forward (h : inner.Advances) : Forward inner.statement :=
  fun s => (h.statement s).mono (fun _ _ h => h.1) (fun _ _ h => h)

section

variable (hinner : inner.Suffices levels) (hadvances : inner.Advances)
include hinner hadvances

theorem PrefixForm.parse_shallow (hle : ahead ≤ levels) (form : PrefixForm) :
    Shallow ahead (form.parse inner) := by
  cases form with
  | primary =>
      refine shallow_advance_bind fun token => ?_
      cases htoken : Expr.ofToken token with
      | ok e => exact shallow_pure e
      | error e => exact shallow_throw (Expr.isTooDeep_of_ofToken htoken)
  | grouping =>
      refine (shallow_expect _ _).bind_consuming (consuming_expect (by decide) _) ?_
      intro _ fewer hfewer
      refine (hinner.expression fewer (by omega) _).bind
        (hadvances.expression _).forward fun _ => ?_
      exact shallow_expect_bind fun _ => shallow_pure _

theorem InfixForm.parse_shallow (hlt : ahead < levels) (left : Expr) (form : InfixForm) :
    Shallow ahead (form.parse registry inner left) := by
  refine shallow_advance_bind fun _ => ?_
  exact (hinner.expression ahead hlt _).bind (hadvances.expression _).forward
    fun _ => shallow_pure _

theorem Expr.extend?_shallow (hlt : ahead < levels) (floor : Power) (left : Expr) :
    Shallow ahead (Expr.extend? registry inner floor left) := by
  refine shallow_current_bind fun token => .ite (shallow_pure _) ?_
  refine shallow_note_bind fun _ => ?_
  cases (registry.entry token.kind).infixForm? with
  | none => exact shallow_throw rfl
  | some form =>
      exact (form.parse_shallow hinner hadvances hlt left).bind
        (form.parse_consuming hadvances left).forward fun _ => shallow_pure _

/-- Behind what an expression begins with there are fewer tokens ahead, so one level less
is enough for its operands. -/
theorem Expr.parse_shallow (hle : ahead ≤ levels) (floor : Power) :
    Shallow ahead (Expr.parse registry inner floor) := by
  refine shallow_current_bind fun token => ?_
  cases (registry.entry token.kind).prefixForm? with
  | none => exact shallow_throw rfl
  | some form =>
      refine (form.parse_shallow hinner hadvances hle).bind_consuming
        (form.parse_consuming hadvances) fun left fewer hfewer => ?_
      exact shallow_loop (Expr.extend?_advances hadvances floor)
        (Expr.extend?_shallow hinner hadvances (by omega) floor) left

theorem Parse.collectUntil_shallow {stop : Parse Bool} (hstop : Shallow ahead stop)
    (hforward : Forward stop)
    (hturns : ∀ found s, Ensures (collectTurn stop inner.statement found) s (Turns s)
      (fun _ s' => s.cursor.Reaches s'.cursor))
    (hlt : ahead + 1 < levels) : Shallow ahead (collectUntil stop inner.statement) := by
  rw [collectUntil_eq]
  refine Shallow.bind ?_ (forward_loop hturns _) fun _ => shallow_pure _
  refine shallow_loop hturns (fun found => ?_) _
  refine hstop.bind hforward fun _ => .ite (shallow_pure _) ?_
  exact (hinner.statement ahead hlt).bind hadvances.statement_forward
    fun _ => shallow_pure _

theorem Stmt.parseBody_shallow (hlt : ahead + 1 < levels) :
    Shallow ahead (Stmt.parseBody inner) := by
  apply Parse.collectUntil_shallow hinner hadvances _ _ (bodyTurn_advances hadvances) hlt
  · exact fun _ _ => trivial
  · exact fun s => .refl s.cursor

theorem Stmt.parseFunction_shallow (hlt : ahead + 1 < levels) (type : DeclType)
    (name : String) : Shallow ahead (Stmt.parseFunction inner type name) := by
  refine shallow_expect_bind fun _ => ?_
  refine shallow_params.bind forward_params fun _ => ?_
  refine shallow_expect_bind fun _ => ?_
  refine shallow_expect_bind fun _ => ?_
  refine (Stmt.parseBody_shallow hinner hadvances hlt).bind
    (Stmt.parseBody_forward hadvances) fun _ => ?_
  exact shallow_expect_bind fun _ => shallow_pure _

theorem Stmt.parseDeclaration_shallow (hlt : ahead < levels) :
    Shallow ahead (Stmt.parseDeclaration inner) := by
  refine shallow_declarator.bind_consuming consuming_declarator ?_
  intro declared fewer hfewer
  refine shallow_current_bind fun token => ?_
  split
  · refine shallow_advance_bind fun _ => ?_
    exact shallow_note_bind fun _ => shallow_pure _
  · refine shallow_note_bind fun _ => ?_
    exact Stmt.parseFunction_shallow hinner hadvances (by omega) _ _
  · refine shallow_expect_bind fun _ => ?_
    refine (hinner.expression fewer (by omega) _).bind
      (hadvances.expression _).forward fun _ => ?_
    exact shallow_expect_bind fun _ => shallow_pure _

theorem StatementForm.parse_shallow (hlt : ahead < levels) (form : StatementForm) :
    Shallow ahead (form.parse inner) := by
  cases form with
  | block =>
      refine (shallow_expect _ _).bind_consuming (consuming_expect (by decide) _) ?_
      intro _ fewer hfewer
      refine (Stmt.parseBody_shallow hinner hadvances (by omega)).bind
        (Stmt.parseBody_forward hadvances) fun _ => ?_
      exact shallow_expect_bind fun _ => shallow_pure _
  | comment => exact shallow_advance_bind fun _ => shallow_pure _
  | includeDirective =>
      exact shallow_expect_bind fun _ => shallow_pure _
  | returning =>
      have hlast : ∀ value : Option Expr, Shallow ahead (do
          let _ ← expect .semicolon "after return value"
          return Stmt.returning value) :=
        fun _ => shallow_expect_bind fun _ => shallow_pure _
      refine shallow_expect_bind fun _ => ?_
      refine (shallow_check _).bind (forward_check _) fun _ => ?_
      split
      · exact (shallow_pure _).bind (forward_pure _) hlast
      · exact ((hinner.expression ahead hlt _).map _).bind
          ((hadvances.expression _).forward.map _) hlast
  | declaration => exact Stmt.parseDeclaration_shallow hinner hadvances hlt

/-- A statement that is an expression begins where the expression does, and so it takes
one level more. -/
theorem Stmt.parse_shallow (hlt : ahead < levels) :
    Shallow ahead (Stmt.parse registry inner) := by
  refine shallow_current_bind fun token => ?_
  cases (registry.entry token.kind).statementForm? with
  | some form =>
      exact shallow_note_bind fun _ => form.parse_shallow hinner hadvances hlt
  | none =>
      refine (hinner.expression ahead hlt _).bind
        (hadvances.expression _).forward fun _ => ?_
      exact shallow_expect_bind fun _ => shallow_pure _

end

/-- With so many levels the parses suffice for as many tokens. -/
theorem Inner.ofLevels_suffices (registry : Registry) (levels : Nat) :
    (Inner.ofLevels registry levels).Suffices levels := by
  induction levels with
  | zero =>
      exact ⟨fun _ h => absurd h (Nat.not_lt_zero _),
        fun _ h => absurd h (Nat.not_lt_zero _)⟩
  | succ levels ih =>
      have hadvances := Inner.ofLevels_advances registry levels
      exact ⟨fun _ hlt => Expr.parse_shallow ih hadvances (Nat.le_of_lt_succ hlt),
        fun _ hlt => Stmt.parse_shallow ih hadvances (Nat.lt_of_succ_lt_succ hlt)⟩

end MiniC
