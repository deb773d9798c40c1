/-
Termination: the loops of the parser come to an end of themselves, since each
turn that goes on takes up tokens.  The bound that a loop is written with is
never what stops it.
-/
import MiniC.Proofs.Progress

namespace MiniC

open Parse

namespace Cursor

/-- At the end marker there is no way on. -/
theorem Reaches.eq_of_kind_eq_eof {start stop : Cursor} (h : start.Reaches stop)
    (heof : start.kind = .eof) : stop = start := by
  obtain ⟨tokens, hpasses⟩ := h
  cases tokens with
  | nil => exact passes_nil_iff.1 hpasses
  | cons token tokens =>
      have hkind := hpasses.kind_ne_eof List.mem_cons_self
      exact absurd (hpasses.kind_eq.symm.trans heof) hkind

end Cursor

namespace Parse

variable {α β : Type}

/-- Taking a step again and again with no bound on how often: the repetition ends
when the step gives no new value or fails, and each turn in between takes up
tokens. -/
inductive Repeats (step : β → Parse (Option β)) :
    β → ParseState → EStateM.Result ParseError ParseState β → Prop
  | stops {value : β} {s s' : ParseState} :
      step value s = .ok none s' → Repeats step value s (.ok value s')
  | fails {value : β} {s s' : ParseState} {e : ParseError} :
      step value s = .error e s' → Repeats step value s (.error e s')
  | turns {value next : β} {s s' : ParseState}
      {result : EStateM.Result ParseError ParseState β} :
      step value s = .ok (some next) s' → s.cursor.Leaves s'.cursor →
      Repeats step next s' result → Repeats step value s result

/-- A repetition has one end at most. -/
theorem Repeats.unique {step : β → Parse (Option β)} {value : β} {s : ParseState}
    {result result' : EStateM.Result ParseError ParseState β}
    (h : Repeats step value s result) (h' : Repeats step value s result') :
    result = result' := by
  induction h with
  | stops hrun => cases h' <;> simp_all
  | fails hrun => cases h' <;> simp_all
  | turns hrun _ _ ih =>
      cases h' with
      | stops hrun' => simp_all
      | fails hrun' => simp_all
      | turns hrun' _ hrest' =>
          simp only [hrun, EStateM.Result.ok.injEq, Option.some.injEq] at hrun'
          obtain ⟨rfl, rfl⟩ := hrun'
          exact ih hrest'

/-- Wherever it starts, the repetition of this step ends, and with what the loop
ends with. -/
def Ends (step : β → Parse (Option β)) : Prop :=
  ∀ value s result, Repeats step value s result ↔ result = loop step value s

/-- Where each turn that goes on takes up tokens, the loop ends.  The induction
is on how many tokens are ahead. -/
theorem ends_of_turns {step : β → Parse (Option β)}
    {E : ParseState → ParseError → ParseState → Prop}
    (hstep : ∀ value s, Ensures (step value) s (Turns s) (E s)) : Ends step := by
  have hprogress : Progressing step := progressing_of_turns hstep
  have hloop : ∀ value s, Repeats step value s (loop step value s) := by
    intro value s
    induction hn : s.cursor.ahead.length using Nat.strongRecOn
      generalizing value s with
    | ind n ih =>
        rw [loop_eq hprogress]
        cases hrun : step value s with
        | error e s' =>
            rw [bind_of_error hrun]
            exact .fails hrun
        | ok next s' =>
            rw [bind_of_ok hrun]
            cases next with
            | none => exact .stops hrun
            | some next =>
                have hleaves : s.cursor.Leaves s'.cursor :=
                  (hstep value s).of_ok hrun
                exact .turns hrun hleaves (ih _ (hn ▸ hleaves.length_lt) next s' rfl)
  intro value s result
  constructor
  · exact fun h => h.unique (hloop value s)
  · rintro rfl
    exact hloop value s

/-- One turn of taking tokens: take the one at the cursor if its kind is in
`p`. -/
def takeTurn (p : TokenKind → Bool) (taken : List Token) :
    Parse (Option (List Token)) := do
  let token ← current
  if !Cursor.isEnd token && p token.kind then
    return some (taken ++ [← advance])
  else return none

theorem takeTurn_eq (p : TokenKind → Bool) (taken : List Token) (s : ParseState) :
    takeTurn p taken s =
      if s.cursor.kind ≠ .eof ∧ p s.cursor.kind then
        .ok (some (taken ++ [s.cursor.current])) { s with cursor := s.cursor.advance }
      else .ok none s := by
  change (if !Cursor.isEnd s.cursor.current && p s.cursor.current.kind then _
    else _ : Parse (Option (List Token))) s = _
  unfold Cursor.kind
  by_cases h : s.cursor.current.kind ≠ .eof ∧ p s.cursor.current.kind
  · rw [if_pos h, if_pos (by simpa [Cursor.isEnd] using h)]
    rfl
  · rw [if_neg h, if_neg (by simpa [Cursor.isEnd] using h)]
    rfl

theorem takeTurn_advances (p : TokenKind → Bool) (taken : List Token)
    (s : ParseState) :
    Ensures (takeTurn p taken) s (Turns s) (fun _ _ => False) := by
  unfold Ensures
  rw [takeTurn_eq]
  by_cases h : s.cursor.kind ≠ .eof ∧ p s.cursor.kind
  · rw [if_pos h]
    exact Cursor.leaves_advance h.1
  · rw [if_neg h]
    exact .refl _

/-- Tokens of some kinds are taken one by one up to the first other one. -/
theorem repeats_takeTurn {p : TokenKind → Bool} {rest : List Token} {stop : Cursor}
    (hstop : stop.kind = .eof ∨ p stop.kind = false)
    (hrest : ∀ token ∈ rest, p token.kind) (taken : List Token) (s : ParseState)
    (hpasses : s.cursor.Passes rest stop) :
    Repeats (takeTurn p) taken s (.ok (taken ++ rest) { s with cursor := stop }) := by
  induction rest generalizing taken s with
  | nil =>
      obtain rfl := Cursor.passes_nil_iff.1 hpasses
      have hnone : ¬(s.cursor.kind ≠ .eof ∧ p s.cursor.kind) := by
        rcases hstop with h | h <;> simp [h]
      rw [List.append_nil]
      apply Repeats.stops
      rw [takeTurn_eq, if_neg hnone]
  | cons token rest ih =>
      have hsome : s.cursor.kind ≠ .eof ∧ p s.cursor.kind := by
        rw [hpasses.kind_eq]
        exact ⟨hpasses.kind_ne_eof List.mem_cons_self, hrest token List.mem_cons_self⟩
      have hnext := ih (fun t ht => hrest t (List.mem_cons_of_mem _ ht))
        (taken ++ [token]) { s with cursor := s.cursor.advance } hpasses.advance
      rw [List.append_assoc] at hnext
      apply Repeats.turns _ (Cursor.leaves_advance hsome.1) hnext
      rw [takeTurn_eq, if_pos hsome, hpasses.current_eq]

theorem takeWhile_eq_loop (p : TokenKind → Bool) :
    takeWhile p = loop (takeTurn p) [] := by
  funext s
  cases hrun : takeWhile p s with
  | error e s' => exact ((takeWhile_spec p s).of_error hrun).elim
  | ok taken s' =>
      obtain ⟨hpasses, htaken, hstop⟩ := (takeWhile_spec p s).of_ok hrun
      rw [takeWhile_of_passes hpasses htaken hstop] at hrun
      rw [← hrun]
      exact (ends_of_turns (takeTurn_advances p) _ _ _).1
        (repeats_takeTurn hstop htaken [] s hpasses)

end Parse

/-- Reading ends with these parses of what stands inside.  The five loops are
repetitions that end, each turn that goes on taking up tokens; a parameter and
an expression take up tokens; and a statement does, unless the end marker
announces a comment. -/
structure Inner.Terminates (registry : Registry) (inner : Inner) : Prop where
  program : collectUntil (check .eof) inner.statement =
      Array.toList <$> loop (collectTurn (check .eof) inner.statement) #[] ∧
    Ends (collectTurn (check .eof) inner.statement)
  body : Stmt.parseBody inner =
      Array.toList <$> loop (collectTurn Stmt.atBodyEnd inner.statement) #[] ∧
    Ends (collectTurn Stmt.atBodyEnd inner.statement)
  operators : ∀ floor, (∀ left, Expr.extend registry inner floor left =
      loop (Expr.extend? registry inner floor) left) ∧
    Ends (Expr.extend? registry inner floor)
  specifiers : takeWhile DeclType.isSpecifier =
      loop (takeTurn DeclType.isSpecifier) [] ∧
    Ends (takeTurn DeclType.isSpecifier)
  params : Parse.params = (do
      if ← check .rightParen then return []
      else if (← check .kwVoid) && (← get).cursor.nextKind = .rightParen then
        let _ ← advance
        return []
      else
        let found ← loop moreParams #[← Parse.param]
        return found.toList) ∧
    Ends moreParams
  param : ∀ s p s', Parse.param s = .ok p s' → s.cursor.Leaves s'.cursor
  expression : ∀ floor s e s', inner.expression floor s = .ok e s' →
    s.cursor.Leaves s'.cursor
  statement : ∀ s statement s', inner.statement s = .ok statement s' →
    s.cursor.Leaves s'.cursor ∨
    s'.cursor = s.cursor ∧ s.cursor.kind = .eof ∧
      (registry.entry .eof).statementForm? = some .comment

variable {registry : Registry} {inner : Inner}

/-- A statement that takes up no token is a comment made of the end marker. -/
theorem Stmt.parse_leaves_or_stays (hinner : inner.Advances) (s : ParseState) :
    Ensures (Stmt.parse registry inner) s
      (fun _ s' => s.cursor.Leaves s'.cursor ∨
        s'.cursor = s.cursor ∧ s.cursor.kind = .eof ∧
          (registry.entry .eof).statementForm? = some .comment)
      (fun _ _ => True) := by
  apply (Stmt.parse_leaves hinner s).mono
  · intro _ s' hread
    obtain ⟨hreaches, hleaves⟩ := hread
    by_cases hstays : s.cursor.kind = .eof ∧
        (registry.entry .eof).statementForm? = some .comment
    · exact .inr ⟨hreaches.eq_of_kind_eq_eof hstays.1, hstays⟩
    · exact .inl (hleaves fun heof hcomment => hstays ⟨heof, hcomment⟩)
  · exact fun _ _ _ => trivial

/-- Whatever is registered for whatever kind of token, and with any number of
levels left, reading ends. -/
theorem reading_terminates (registry : Registry) (levels : Nat) :
    (Inner.ofLevels registry levels).Terminates registry := by
  have hinner := Inner.ofLevels_advances registry levels
  constructor
  case program =>
    exact ⟨(map_eq_bind _ _).symm, ends_of_turns (programTurn_advances hinner)⟩
  case body =>
    exact ⟨(map_eq_bind _ _).symm, ends_of_turns (bodyTurn_advances hinner)⟩
  case operators =>
    exact fun floor => ⟨fun _ => rfl, ends_of_turns (Expr.extend?_advances hinner floor)⟩
  case specifiers =>
    exact ⟨takeWhile_eq_loop _, ends_of_turns (takeTurn_advances _)⟩
  case params => exact ⟨rfl, ends_of_turns moreParams_advances⟩
  case param => exact fun s p s' hrun => (consuming_param s).of_ok hrun
  case expression =>
    exact fun floor s e s' hrun => (hinner.expression floor s).of_ok hrun
  case statement =>
    intro s statement s' hrun
    cases levels with
    | zero => cases hrun
    | succ levels =>
        have hinner := Inner.ofLevels_advances registry levels
        exact (Stmt.parse_leaves_or_stays hinner s).of_ok hrun

end MiniC
