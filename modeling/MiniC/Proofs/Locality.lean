/-
Locality: whatever the registry is, the outcome of a parse depends on the tokens
that it passes and on the one at which it stops, and on nothing behind.
-/
import MiniC.Proofs.Blame
import MiniC.Proofs.Progress

namespace MiniC

namespace Cursor

/-- Two cursors before the same tokens show the same token, if what stands
behind the tokens is the same where there are none. -/
theorem Passes.current_congr {start start' stop stop' : Cursor}
    {tokens : List Token} (h : start.Passes tokens stop)
    (h' : start'.Passes tokens stop')
    (hstop : tokens = [] → stop'.current = stop.current) :
    start'.current = start.current := by
  cases tokens with
  | nil =>
      rw [passes_nil_iff] at h h'
      rw [← h, ← h']
      exact hstop rfl
  | cons token tokens => rw [h.current_eq, h'.current_eq]

theorem Passes.nextKind_congr {start start' stop stop' : Cursor} {token : Token}
    {tokens : List Token} (h : start.Passes (token :: tokens) stop)
    (h' : start'.Passes (token :: tokens) stop')
    (hstop : tokens = [] → stop'.current = stop.current) :
    start'.nextKind = start.nextKind := by
  rw [h.nextKind_eq, h'.nextKind_eq, kind, kind,
    h.advance.current_congr h'.advance hstop]

end Cursor

namespace Parse

variable {α β : Type} {p : Parse α} {f : α → Parse β} {s : ParseState}

/-- The parse succeeds in the same way wherever the same tokens are passed and
the same token follows them. -/
def SettledOk (p : Parse α) (s : ParseState) (a : α) (s' : ParseState) : Prop :=
  ∃ tokens, s.cursor.Passes tokens s'.cursor ∧
    ∀ other stop : Cursor, other.Passes tokens stop →
      stop.current = s'.cursor.current →
      p ⟨other, s.log⟩ = .ok a ⟨stop, s'.log⟩

/-- The parse fails in the same way wherever the same tokens are passed and the
same token follows them.  Where the last token passed is the one to blame, what
follows does not matter. -/
def SettledError (p : Parse α) (s : ParseState) (e : ParseError)
    (s' : ParseState) : Prop :=
  ∃ tokens, s.cursor.Passes tokens s'.cursor ∧
    (tokens = [] → e.overshoot = 0) ∧
    ∀ other stop : Cursor, other.Passes tokens stop →
      (e.overshoot = 0 → stop.current = s'.cursor.current) →
      p ⟨other, s.log⟩ = .error e ⟨stop, s'.log⟩

/-- Who blames a token blames it wherever it stands behind the same tokens. -/
theorem SettledError.elsewhere {e : ParseError} {s' : ParseState}
    {before : List Token} {found : Token} (h : SettledError p s e s')
    (hblames : e.Blames s.cursor before s'.cursor)
    (hfound : e.offender? = some found) {other middle : Cursor}
    (hpasses : other.Passes before middle) (hmiddle : middle.current = found) :
    ∃ s'', p ⟨other, s.log⟩ = .error e s'' := by
  obtain ⟨tokens, htokens, _, hsettled⟩ := h
  rcases hblames.cases_offender hfound with ⟨_, hbefore, hcurrent⟩ | ⟨hone, hlast⟩
  · obtain rfl := htokens.unique hbefore
    have hsame : middle.current = s'.cursor.current := hmiddle.trans hcurrent.symm
    exact ⟨_, hsettled other middle hpasses fun _ => hsame⟩
  · obtain rfl := htokens.unique hlast
    have hkind : middle.kind ≠ .eof := by
      rw [Cursor.kind, hmiddle]
      exact hlast.kind_ne_eof (by simp)
    have hadvance := Cursor.passes_advance hkind
    rw [hmiddle] at hadvance
    refine ⟨_, hsettled other _ (hpasses.trans hadvance) fun hzero => ?_⟩
    rw [hone] at hzero
    cases hzero

/-- The outcome of the run from `s` is settled by what the run has seen. -/
def LocalAt (p : Parse α) (s : ParseState) : Prop :=
  Ensures p s (SettledOk p s) (SettledError p s)

/-- The outcome of every run is settled by what the run has seen. -/
def Local (p : Parse α) : Prop := ∀ s, LocalAt p s

theorem LocalAt.bind (hp : LocalAt p s)
    (hf : ∀ a s', p s = .ok a s' → LocalAt (f a) s') : LocalAt (p >>= f) s := by
  unfold LocalAt Ensures
  cases hrun : p s with
  | error e s₁ =>
      rw [bind_of_error hrun]
      obtain ⟨tokens, hpasses, hempty, hother⟩ := hp.of_error hrun
      refine ⟨tokens, hpasses, hempty, ?_⟩
      intro other stop hstop hcurrent
      exact bind_of_error (hother other stop hstop hcurrent)
  | ok a s₁ =>
      obtain ⟨first, hfirst, hother⟩ := hp.of_ok hrun
      have hnext := hf a s₁ hrun
      rw [bind_of_ok hrun]
      cases hrun' : f a s₁ with
      | error e s₂ =>
          obtain ⟨second, hsecond, hempty, hother'⟩ := hnext.of_error hrun'
          refine ⟨first ++ second, hfirst.trans hsecond, ?_, ?_⟩
          · intro hnil
            exact hempty (List.append_eq_nil_iff.1 hnil).2
          · intro other stop hstop hcurrent
            obtain ⟨middle, hbefore, hafter⟩ := hstop.split
            have hmiddle := hsecond.current_congr hafter
              fun hnil => hcurrent (hempty hnil)
            rw [bind_of_ok (hother other middle hbefore hmiddle)]
            exact hother' middle stop hafter hcurrent
      | ok b s₂ =>
          obtain ⟨second, hsecond, hother'⟩ := hnext.of_ok hrun'
          refine ⟨first ++ second, hfirst.trans hsecond, ?_⟩
          intro other stop hstop hcurrent
          obtain ⟨middle, hbefore, hafter⟩ := hstop.split
          have hmiddle := hsecond.current_congr hafter fun _ => hcurrent
          rw [bind_of_ok (hother other middle hbefore hmiddle)]
          exact hother' middle stop hafter hcurrent

theorem Local.bind (hp : Local p) (hf : ∀ a, Local (f a)) : Local (p >>= f) :=
  fun s => (hp s).bind fun a s' _ => hf a s'

/-- A parse that only looks at the token at the cursor is local. -/
theorem local_of_look (look : Token → α)
    (h : ∀ s, p s = .ok (look s.cursor.current) s) : Local p := by
  intro s
  unfold LocalAt Ensures
  rw [h s]
  refine ⟨[], .refl _, ?_⟩
  intro other stop hstop hcurrent
  obtain rfl := Cursor.passes_nil_iff.1 hstop
  rw [h, hcurrent]

theorem local_pure (a : α) : Local (pure a : Parse α) :=
  local_of_look (fun _ => a) fun _ => rfl

theorem local_current : Local current := local_of_look id fun _ => rfl

theorem local_check (kind : TokenKind) : Local (check kind) :=
  local_of_look (fun token => decide (token.kind = kind)) fun _ => rfl

theorem local_note (record : Record) : Local (note record) := by
  intro s
  refine ⟨[], .refl _, ?_⟩
  intro other stop hstop _
  obtain rfl := Cursor.passes_nil_iff.1 hstop
  rfl

theorem local_throw {e : ParseError} (he : e.overshoot = 0) :
    Local (throw e : Parse α) := by
  intro s
  refine ⟨[], .refl _, fun _ => he, ?_⟩
  intro other stop hstop _
  obtain rfl := Cursor.passes_nil_iff.1 hstop
  rfl

theorem advance_eq (s : ParseState) :
    advance s = .ok s.cursor.current { s with cursor := s.cursor.advance } := rfl

theorem local_advance : Local advance := by
  intro s
  by_cases heof : s.cursor.kind = .eof
  · have hstay := Cursor.advance_of_kind_eq_eof heof
    refine ⟨[], Cursor.passes_nil_iff.2 hstay, ?_⟩
    intro other stop hstop hcurrent
    obtain rfl := Cursor.passes_nil_iff.1 hstop
    change stop.current = s.cursor.advance.current at hcurrent
    rw [hstay] at hcurrent
    have hother : stop.kind = .eof := by
      rw [← heof, Cursor.kind, hcurrent]
      rfl
    rw [advance_eq, Cursor.advance_of_kind_eq_eof hother, hcurrent]
  · refine ⟨_, Cursor.passes_advance heof, ?_⟩
    intro other stop hstop _
    obtain rfl := hstop.advance_eq
    rw [advance_eq, hstop.current_eq]

theorem Local.map (f : α → β) (hp : Local p) : Local (f <$> p) := by
  rw [map_eq_bind]
  exact hp.bind fun a => local_pure (f a)

theorem Local.ite {c : Prop} [Decidable c] {q : Parse α} (hp : Local p)
    (hq : Local q) : Local (if c then p else q) := by
  split
  · exact hp
  · exact hq

theorem local_expect (kind : TokenKind) (context : String) :
    Local (expect kind context) := by
  refine (local_check kind).bind fun _ => local_advance.ite ?_
  exact local_current.bind fun _ => local_throw rfl

theorem local_tooDeep : Local (tooDeep : Parse α) :=
  local_current.bind fun _ => local_throw rfl

/-- The tokens taken are all of the given kinds, and the next one is not. -/
theorem local_takeWhile (kinds : TokenKind → Bool) : Local (takeWhile kinds) := by
  intro s
  obtain ⟨hpasses, htaken, hnext⟩ := (takeWhile_spec kinds s).of_ok rfl
  refine ⟨_, hpasses, ?_⟩
  intro other stop hstop hcurrent
  apply takeWhile_of_passes (s := ⟨other, s.log⟩) hstop htaken
  rw [Cursor.kind, hcurrent]
  exact hnext

/-- A loop of local steps is local.  The induction is on how many tokens are
ahead, since every step that goes on has passed one. -/
theorem local_loop {step : β → Parse (Option β)}
    (hstep : ∀ value, Local (step value)) (hprogress : Progressing step)
    (value : β) : Local (loop step value) := by
  intro s
  induction hn : s.cursor.ahead.length using Nat.strongRecOn
    generalizing value s with
  | ind n ih =>
      rw [loop_eq hprogress]
      apply (hstep value s).bind
      intro next s' hrun
      cases next with
      | none => exact local_pure value s'
      | some next =>
          have hlt := hprogress value s next s' hrun
          exact ih _ (hn ▸ hlt) next s' rfl

/-- Values that are collected one after the other, each of which passes tokens,
are collected locally. -/
theorem local_collectUntil {stop : Parse Bool} {parse : Parse α}
    (hlocal : Local stop) (hparse : Local parse) (test : ParseState → Bool)
    (hstop : ∀ s, stop s = .ok (test s) s)
    (hprogress : ∀ s, test s = false →
      Ensures parse s
        (fun _ s' => s'.cursor.ahead.length < s.cursor.ahead.length)
        (fun _ _ => True)) :
    Local (collectUntil stop parse) := by
  have hturn : ∀ found, Local (collectTurn stop parse found) := by
    intro found
    refine hlocal.bind fun b => Local.ite (local_pure _) ?_
    exact hparse.bind fun _ => local_pure _
  exact Local.bind (local_loop hturn (collectTurn_progressing _ hstop hprogress) _)
    fun _ => local_pure _

theorem local_declarator : Local declarator := by
  refine (local_takeWhile _).bind fun _ => ?_
  exact (local_expect _ _).bind fun _ => local_pure _

theorem local_param : Local param :=
  local_declarator.bind fun _ => local_pure _

theorem local_someParams : Local someParams := by
  refine local_param.bind fun _ => ?_
  refine (local_loop (fun found => ?_) moreParams_progressing _).bind
    fun _ => local_pure _
  refine (local_check _).bind fun _ => Local.ite ?_ (local_pure _)
  exact local_advance.bind fun _ => local_param.bind fun _ => local_pure _

/-- Some parameters take up a specifier at the cursor, even if a name is
missing. -/
theorem someParams_leaves (s : ParseState) :
    Ensures someParams s (fun _ s' => s.cursor.Leaves s'.cursor)
      (fun e s' => e.overshoot = 0 ∧
        (s.cursor.kind ∈ Grammar.specifierKinds → s.cursor.Leaves s'.cursor)) := by
  unfold someParams
  refine (param_spec s).bind ?_ ?_
  · intro e s' herror
    obtain ⟨specifiers, hpasses, _, hother, rfl⟩ := herror
    refine ⟨rfl, fun hkind => ?_⟩
    cases specifiers with
    | nil =>
        rw [Cursor.passes_nil_iff] at hpasses
        rw [hpasses] at hother
        exact absurd hkind hother
    | cons token rest => exact ⟨token, rest, hpasses⟩
  intro param s₁ hread
  obtain ⟨tokens, hdeclarator, hpasses⟩ := hread
  obtain ⟨first, rest, rfl, _⟩ := hdeclarator.exists_cons
  have hleaves : s.cursor.Leaves s₁.cursor := ⟨first, rest, hpasses⟩
  rw [ensures_bind]
  apply ensures_loop (fun _ s' => s.cursor.Leaves s'.cursor)
  · intro found s₂ hleaves
    apply (moreParams_spec found s₂).mono
    · rintro (_ | next) s₃ hnext
      · exact hnext ▸ hleaves
      · obtain ⟨comma, last, _, _, _, _, hpasses'⟩ := hnext
        exact ⟨hleaves.trans_reaches ⟨_, hpasses'⟩, hpasses'.length_lt⟩
    · intro e s₃ herror
      obtain ⟨comma, middle, _, hcomma, specifiers, hpasses', _, _, rfl⟩ := herror
      exact ⟨rfl, fun _ => hleaves.trans_reaches ⟨_, hcomma.trans hpasses'⟩⟩
  · exact hleaves

/-- Whether the word stands for no parameters is settled by what is passed and
by the token behind it. -/
theorem atVoid_congr {start start' stop stop' : Cursor} {tokens : List Token}
    (h : start.Passes tokens stop) (h' : start'.Passes tokens stop')
    (hne : start.kind = .kwVoid → tokens ≠ [])
    (hstop : stop'.current = stop.current) : start'.AtVoid ↔ start.AtVoid := by
  have hkind : start'.kind = start.kind := by
    rw [Cursor.kind, Cursor.kind, h.current_congr h' fun _ => hstop]
  unfold Cursor.AtVoid
  rw [hkind]
  apply and_congr_right
  intro hword
  cases tokens with
  | nil => exact absurd rfl (hne hword)
  | cons token tokens => rw [h.nextKind_congr h' fun _ => hstop]

/-- The word is looked at together with the token behind it.  Where that token
makes it something else than no parameters, the word itself is passed. -/
theorem local_voidOrSomeParams : Local voidOrSomeParams := by
  intro s
  unfold LocalAt Ensures
  rw [voidOrSomeParams_eq]
  by_cases hvoid : s.cursor.AtVoid
  · rw [if_pos hvoid]
    have hpasses : s.cursor.Passes [s.cursor.current] s.cursor.advance := by
      apply Cursor.passes_advance
      rw [hvoid.1]
      decide
    refine ⟨_, hpasses, ?_⟩
    intro other stop hstop hcurrent
    have hother := (atVoid_congr hpasses hstop (fun _ => by simp) hcurrent).2 hvoid
    obtain rfl := hstop.advance_eq
    rw [voidOrSomeParams_eq, if_pos hother]
  · rw [if_neg hvoid]
    have hleaves := someParams_leaves s
    cases hrun : someParams s with
    | ok found s' =>
        obtain ⟨tokens, hpasses, hsettled⟩ := (local_someParams s).of_ok hrun
        refine ⟨tokens, hpasses, ?_⟩
        intro other stop hstop hcurrent
        have hne := (hleaves.of_ok hrun).ne_nil hpasses
        have hother := mt (atVoid_congr hpasses hstop (fun _ => hne) hcurrent).1
          hvoid
        rw [voidOrSomeParams_eq, if_neg hother]
        exact hsettled other stop hstop hcurrent
    | error e s' =>
        obtain ⟨tokens, hpasses, hempty, hsettled⟩ :=
          (local_someParams s).of_error hrun
        obtain ⟨hzero, hleaves⟩ := hleaves.of_error hrun
        refine ⟨tokens, hpasses, hempty, ?_⟩
        intro other stop hstop hcurrent
        have hne : s.cursor.kind = .kwVoid → tokens ≠ [] := by
          intro hword
          rw [hword] at hleaves
          exact (hleaves (by decide)).ne_nil hpasses
        have hother := mt (atVoid_congr hpasses hstop hne (hcurrent hzero)).1 hvoid
        rw [voidOrSomeParams_eq, if_neg hother]
        exact hsettled other stop hstop hcurrent

theorem local_params : Local params := by
  rw [params_eq]
  exact (local_check _).bind fun _ => (local_pure _).ite local_voidOrSomeParams

end Parse

open Parse

/-- What the parses of the next level come to is settled by what they see. -/
structure Inner.IsLocal (inner : Inner) : Prop where
  expression : ∀ floor, Local (inner.expression floor)
  statement : Local inner.statement

variable {registry : Registry} {inner : Inner}

/-- A single token is passed before it turns out to be no expression. -/
theorem PrefixForm.parse_local (hinner : inner.IsLocal) (form : PrefixForm) :
    Local (form.parse inner) := by
  cases form with
  | primary =>
      intro s
      simp only [PrefixForm.parse]
      cases hvalue : Expr.ofToken s.cursor.current with
      | ok e =>
          apply (local_advance s).bind
          rintro _ s' ⟨⟩
          rw [hvalue]
          exact local_pure e _
      | error e =>
          by_cases hzero : e.overshoot = 0
          · apply (local_advance s).bind
            rintro _ s' ⟨⟩
            rw [hvalue]
            exact local_throw hzero _
          · -- A number beyond its range is blamed after it was passed.
            have hkind : s.cursor.kind ≠ .eof := by
              intro heof
              rw [Expr.ofToken_eof heof] at hvalue
              cases hvalue
              exact hzero rfl
            rw [LocalAt, ensures_bind, ensures_advance, hvalue, ensures_throw]
            refine ⟨_, Cursor.passes_advance hkind, by simp, ?_⟩
            intro other stop hstop _
            obtain rfl := hstop.advance_eq
            rw [bind_of_ok (advance_eq _), hstop.current_eq, hvalue]
            rfl
  | grouping =>
      refine (local_expect _ _).bind fun _ => ?_
      refine (hinner.expression _).bind fun _ => ?_
      exact (local_expect _ _).bind fun _ => local_pure _

theorem InfixForm.parse_local (hinner : inner.IsLocal) (left : Expr)
    (form : InfixForm) : Local (form.parse registry inner left) :=
  local_advance.bind fun _ => (hinner.expression _).bind fun _ => local_pure _

theorem Expr.extend?_local (hinner : inner.IsLocal) (floor : Power)
    (left : Expr) : Local (Expr.extend? registry inner floor left) := by
  refine local_current.bind fun token => Local.ite (local_pure _) ?_
  refine (local_note _).bind fun _ => ?_
  cases (registry.entry token.kind).infixForm? with
  | none => exact local_throw rfl
  | some form =>
      exact (InfixForm.parse_local hinner left form).bind fun _ => local_pure _

theorem Expr.parse_local (hinner : inner.IsLocal) (hadvances : inner.Advances)
    (floor : Power) : Local (Expr.parse registry inner floor) := by
  refine local_current.bind fun token => ?_
  cases (registry.entry token.kind).prefixForm? with
  | none => exact local_throw rfl
  | some form =>
      refine (PrefixForm.parse_local hinner form).bind fun left => ?_
      exact local_loop (Expr.extend?_local hinner floor)
        (Expr.extend?_progressing hadvances floor) left

/-- Where the end marker stops a row of statements, the row is local. -/
theorem Parse.local_statements (hinner : inner.IsLocal)
    (hadvances : inner.Advances) {stop : Parse Bool} (hlocal : Local stop)
    (test : ParseState → Bool) (hstop : ∀ s, stop s = .ok (test s) s)
    (heof : ∀ s, test s = false → s.cursor.kind ≠ .eof) :
    Local (collectUntil stop inner.statement) := by
  apply local_collectUntil hlocal hinner.statement test hstop
  intro s htest
  apply (hadvances.statement s).mono
  · intro statement s' hread
    obtain ⟨_, hleaves⟩ := hread
    exact (hleaves (heof s htest)).length_lt
  · exact fun _ _ _ => trivial

theorem Stmt.parseBody_local (hinner : inner.IsLocal)
    (hadvances : inner.Advances) : Local (Stmt.parseBody inner) := by
  apply local_statements hinner hadvances _
    (fun s => s.cursor.kind = .rightBrace || s.cursor.kind = .eof)
  · exact fun s => rfl
  · intro s htest
    simp only [Bool.or_eq_false_iff, decide_eq_false_iff_not] at htest
    exact htest.2
  · refine (local_check _).bind fun _ => (local_check _).bind fun _ => ?_
    exact local_pure _

theorem Stmt.parseFunction_local (hinner : inner.IsLocal)
    (hadvances : inner.Advances) (type : DeclType) (name : String) :
    Local (Stmt.parseFunction inner type name) := by
  refine (local_expect _ _).bind fun _ => local_params.bind fun _ => ?_
  refine (local_expect _ _).bind fun _ => (local_expect _ _).bind fun _ => ?_
  refine (Stmt.parseBody_local hinner hadvances).bind fun _ => ?_
  exact (local_expect _ _).bind fun _ => local_pure _

theorem Stmt.parseDeclaration_local (hinner : inner.IsLocal)
    (hadvances : inner.Advances) : Local (Stmt.parseDeclaration inner) := by
  refine local_declarator.bind fun declared => local_current.bind fun token => ?_
  split
  · refine local_advance.bind fun _ => ?_
    exact (local_note _).bind fun _ => local_pure _
  · refine (local_note _).bind fun _ => ?_
    exact Stmt.parseFunction_local hinner hadvances _ _
  · refine (local_expect _ _).bind fun _ => ?_
    refine (hinner.expression _).bind fun _ => ?_
    exact (local_expect _ _).bind fun _ => local_pure _

theorem StatementForm.parse_local (hinner : inner.IsLocal)
    (hadvances : inner.Advances) (form : StatementForm) :
    Local (form.parse inner) := by
  cases form with
  | block =>
      refine (local_expect _ _).bind fun _ => ?_
      refine (Stmt.parseBody_local hinner hadvances).bind fun _ => ?_
      exact (local_expect _ _).bind fun _ => local_pure _
  | comment => exact local_advance.bind fun _ => local_pure _
  | includeDirective => exact (local_expect _ _).bind fun _ => local_pure _
  | returning =>
      refine (local_expect _ _).bind fun _ => (local_check _).bind fun _ => ?_
      have hlast : ∀ value : Option Expr, Local (do
          let _ ← expect .semicolon "after return value"
          return Stmt.returning value) := fun _ =>
        (local_expect _ _).bind fun _ => local_pure _
      split
      · exact (local_pure _).bind hlast
      · exact ((hinner.expression _).map _).bind hlast
  | declaration => exact Stmt.parseDeclaration_local hinner hadvances

theorem Stmt.parse_local (hinner : inner.IsLocal) (hadvances : inner.Advances) :
    Local (Stmt.parse registry inner) := by
  refine local_current.bind fun token => ?_
  cases (registry.entry token.kind).statementForm? with
  | some form =>
      refine (local_note _).bind fun _ => ?_
      exact StatementForm.parse_local hinner hadvances form
  | none =>
      refine (hinner.expression _).bind fun _ => ?_
      exact (local_expect _ _).bind fun _ => local_pure _

/-- With any registry and any number of levels left, what reading comes to is
settled by what it has seen. -/
theorem Inner.ofLevels_isLocal (registry : Registry) (levels : Nat) :
    (Inner.ofLevels registry levels).IsLocal := by
  induction levels with
  | zero => exact ⟨fun _ => local_tooDeep, local_tooDeep⟩
  | succ levels ih =>
      have hadvances := Inner.ofLevels_advances registry levels
      exact ⟨Expr.parse_local ih hadvances, Stmt.parse_local ih hadvances⟩

theorem Registry.parseProgram_local (registry : Registry) :
    Local registry.parseProgram := by
  refine Local.bind ?_ fun _ => local_pure _
  apply local_statements (Inner.ofLevels_isLocal registry maxNesting)
    (Inner.ofLevels_advances registry maxNesting) (local_check _)
    (fun s => s.cursor.kind = .eof)
  · exact fun s => rfl
  · exact fun s htest => of_decide_eq_false htest

end MiniC
