/-
Likeness: two parses that take the same course over tokens which are alike, and
the rules by which such parses are put together.
-/
import Mathlib.Data.List.Forall2
import MiniC.Expr.Parse
import MiniC.Proofs.Parse
import MiniC.Stmt.Parse

namespace MiniC

open Parse

/-- When two runs of a parse are alike.  Tokens that are alike are of one kind
and stand both for an expression or both for none; what is put together from
alike parts is alike.  Nothing is asked of the lists behind an end marker, nor
of the logs. -/
structure Likeness where
  token : Token → Token → Prop
  text : String → String → Prop
  expr : Expr → Expr → Prop
  stmt : Stmt → Stmt → Prop
  error : ParseError → ParseError → Prop
  kind_eq : ∀ {t t'}, token t t' → t'.kind = t.kind
  text_of : ∀ {t t'}, token t t' → text t.text t'.text
  ofToken : ∀ {t t'}, token t t' →
    match Expr.ofToken t, Expr.ofToken t' with
    | .ok e, .ok e' => expr e e'
    | .error e, .error e' => error e e'
    | _, _ => False
  binary : ∀ {left left' operator operator' right right'}, expr left left' →
    token operator operator' → expr right right' →
    expr (.binary left operator right) (.binary left' operator' right')
  block : ∀ {body body'}, List.Forall₂ stmt body body' →
    stmt (.block body) (.block body')
  expression : ∀ {e e'}, expr e e' → stmt (.expression e) (.expression e')
  varDecl : ∀ {name name' type initial initial'}, text name name' →
    Option.Rel expr initial initial' →
    stmt (.varDecl name type initial) (.varDecl name' type initial')
  function : ∀ {name name' type params params' body body'}, text name name' →
    List.Forall₂ (fun p p' : Param => text p.name p'.name ∧ p'.type = p.type)
      params params' →
    List.Forall₂ stmt body body' →
    stmt (.function name type params body) (.function name' type params' body')
  returning : ∀ {value value'}, Option.Rel expr value value' →
    stmt (.returning value) (.returning value')
  comment : ∀ {kind text₁ text₂}, text text₁ text₂ →
    stmt (.comment kind text₁) (.comment kind text₂)
  includeDirective : ∀ {text₁ text₂}, text text₁ text₂ →
    stmt (.includeDirective (.ofText text₁)) (.includeDirective (.ofText text₂))
  missingPrefix : ∀ {t t'}, token t t' →
    error (.missingPrefix t) (.missingPrefix t')
  missingInfix : ∀ {t t'}, token t t' →
    error (.missingInfix t) (.missingInfix t')
  expected : ∀ {kind context t t'}, token t t' →
    error (.expected kind context t) (.expected kind context t')
  nestingTooDeep : ∀ {limit t t'}, token t t' →
    error (.nestingTooDeep limit t.location) (.nestingTooDeep limit t'.location)

namespace Likeness

variable (L : Likeness)

/-- Parameters that are alike have one type. -/
def parameter (p p' : Param) : Prop :=
  L.text p.name p'.name ∧ p'.type = p.type

/-- Parameters with the same names and types are the same. -/
theorem eq_of_forall₂_parameter {params params' : List Param}
    (h : List.Forall₂ (fun p p' : Param => p.name = p'.name ∧ p'.type = p.type)
      params params') : params = params' := by
  have hparam : ∀ p p' : Param, p.name = p'.name ∧ p'.type = p.type → p = p' := by
    rintro ⟨name, type⟩ ⟨name', type'⟩ ⟨hname, htype⟩
    simp_all
  have hparams := h.imp hparam
  rwa [List.forall₂_eq_eq_eq] at hparams

/-- Lists of tokens that are alike up to an end marker and no further. -/
inductive Rows : List Token → List Token → Prop
  | last {token token' : Token} {more more' : List Token} :
      L.token token token' → token.kind = .eof →
      Rows (token :: more) (token' :: more')
  | next {token token' : Token} {rest rest' : List Token} :
      L.token token token' → Rows rest rest' →
      Rows (token :: rest) (token' :: rest')

variable {L} in
theorem rows_of_forall₂ (h : List.Forall₂ L.token tokens tokens')
    (heof : ∃ token ∈ tokens, token.kind = .eof) : L.Rows tokens tokens' := by
  induction h with
  | nil => simp at heof
  | @cons token _ _ _ htoken _ ih =>
      by_cases hkind : token.kind = .eof
      · exact .last htoken hkind
      · exact .next htoken (ih (by simpa [hkind] using heof))

/-- Cursors from which alike tokens are seen. -/
def cursor (c c' : Cursor) : Prop := L.Rows c.rest c'.rest

variable {L} {c c' : Cursor}

theorem cursor_cons (h : L.cursor c c') :
    L.Rows (c.current :: c.rest.tail) (c'.current :: c'.rest.tail) := by
  rw [← c.rest_eq_cons, ← c'.rest_eq_cons]
  exact h

theorem token_current (h : L.cursor c c') : L.token c.current c'.current := by
  cases cursor_cons h with
  | last htoken _ => exact htoken
  | next htoken _ => exact htoken

theorem kind_current (h : L.cursor c c') : c'.kind = c.kind :=
  L.kind_eq (token_current h)

theorem cursor_advance (h : L.cursor c c') : L.cursor c.advance c'.advance := by
  by_cases heof : c.kind = .eof
  · have heof' : c'.kind = .eof := (kind_current h).trans heof
    rwa [Cursor.advance_of_kind_eq_eof heof, Cursor.advance_of_kind_eq_eof heof']
  · have heof' : c'.kind ≠ .eof := by rwa [kind_current h]
    rw [cursor, Cursor.rest_advance heof, Cursor.rest_advance heof']
    cases cursor_cons h with
    | last _ hlast => exact absurd hlast heof
    | next _ hrest => exact hrest

theorem kind_nextKind (h : L.cursor c c') (heof : c.kind ≠ .eof) :
    c'.nextKind = c.nextKind := by
  have heof' : c'.kind ≠ .eof := by rwa [kind_current h]
  have hnext := kind_current (cursor_advance h)
  rwa [← (Cursor.passes_advance heof).nextKind_eq,
    ← (Cursor.passes_advance heof').nextKind_eq] at hnext

theorem map_kind_eq {tokens tokens' : List Token}
    (h : List.Forall₂ L.token tokens tokens') :
    tokens'.map Token.kind = tokens.map Token.kind := by
  induction h with
  | nil => rfl
  | cons htoken _ ih => simp [L.kind_eq htoken, ih]

/-- From alike cursors the same number of tokens can be passed, and the tokens
passed are alike. -/
theorem exists_passes {tokens : List Token} {stop : Cursor} (h : L.cursor c c')
    (hpasses : c.Passes tokens stop) :
    ∃ tokens' stop', List.Forall₂ L.token tokens tokens' ∧
      c'.Passes tokens' stop' ∧ L.cursor stop stop' := by
  induction tokens generalizing c c' with
  | nil =>
      obtain rfl := Cursor.passes_nil_iff.1 hpasses
      exact ⟨[], c', .nil, .refl c', h⟩
  | cons token tokens ih =>
      have heof : c'.kind ≠ .eof := by
        rw [kind_current h, hpasses.kind_eq]
        exact hpasses.kind_ne_eof List.mem_cons_self
      have htoken := token_current h
      rw [hpasses.current_eq] at htoken
      obtain ⟨tokens', stop', htokens, hpasses', hstop⟩ :=
        ih (cursor_advance h) hpasses.advance
      exact ⟨c'.current :: tokens', stop', .cons htoken htokens,
        (Cursor.passes_advance heof).trans hpasses', hstop⟩

/-- From alike cursors as much is ahead. -/
theorem length_ahead (h : L.cursor c c') : c.ahead.length = c'.ahead.length := by
  obtain ⟨stop, hpasses, hstop⟩ := c.passes_ahead
  obtain ⟨passed, stop', htokens, hpasses', hcursor⟩ := exists_passes h hpasses
  rw [← hpasses'.eq_ahead ((kind_current hcursor).trans hstop)]
  exact htokens.length_eq

/-- Alike cursors that the same place comes before are the same. -/
theorem eq_of_reaches {start : Cursor} (h : L.cursor c c') (hc : start.Reaches c)
    (hc' : start.Reaches c') : c' = c := by
  obtain ⟨tokens, hpasses⟩ := hc
  obtain ⟨tokens', hpasses'⟩ := hc'
  have hlength := congrArg List.length (hpasses.ahead_eq.symm.trans hpasses'.ahead_eq)
  rw [List.length_append, List.length_append, length_ahead h] at hlength
  rw [hpasses.eq_drop, hpasses'.eq_drop, Nat.add_right_cancel hlength]

variable (L)

variable {α β : Type}

/-- What two runs end with is alike: both succeed with values in `V`, or both
fail. -/
def Ends (V : α → α → Prop) :
    EStateM.Result ParseError ParseState α →
      EStateM.Result ParseError ParseState α → Prop
  | .ok a s, .ok a' s' => V a a' ∧ L.cursor s.cursor s'.cursor
  | .error e s, .error e' s' => L.error e e' ∧ L.cursor s.cursor s'.cursor
  | _, _ => False

/-- The results of two runs are alike, wherever these stop. -/
def Outcome (V : α → α → Prop) : Except ParseError α → Except ParseError α → Prop
  | .ok a, .ok a' => V a a'
  | .error e, .error e' => L.error e e'
  | _, _ => False

/-- The two parses end alike wherever they start alike. -/
def Alike (V : α → α → Prop) (p p' : Parse α) : Prop :=
  ∀ s s', L.cursor s.cursor s'.cursor → L.Ends V (p s) (p' s')

variable {L} {V : α → α → Prop} {W : β → β → Prop} {p p' : Parse α}
  {f f' : α → Parse β} {s s' : ParseState}

theorem Ends.of_ok {r r' : EStateM.Result ParseError ParseState α} {a : α}
    (h : L.Ends V r r') (hr : r = .ok a s) :
    ∃ a' s', r' = .ok a' s' ∧ V a a' ∧ L.cursor s.cursor s'.cursor := by
  subst hr
  cases r' with
  | ok a' s' => exact ⟨a', s', rfl, h⟩
  | error e' s' => exact h.elim

theorem Ends.of_error {r r' : EStateM.Result ParseError ParseState α}
    {e : ParseError} (h : L.Ends V r r') (hr : r = .error e s) :
    ∃ e' s', r' = .error e' s' ∧ L.error e e' ∧ L.cursor s.cursor s'.cursor := by
  subst hr
  cases r' with
  | ok a' s' => exact h.elim
  | error e' s' => exact ⟨e', s', rfl, h⟩

/-- Whether two runs that end alike succeed or fail, their results are alike and they
leave alike cursors. -/
theorem Ends.run (h : L.Ends V (p s) (p' s')) :
    L.Outcome V (p.run s).1 (p'.run s').1 ∧
      L.cursor (p.run s).2.cursor (p'.run s').2.cursor := by
  unfold Parse.run
  cases hrun : p s with
  | ok a t =>
      obtain ⟨a', t', hrun', hvalue, hcursor⟩ := h.of_ok hrun
      rw [hrun']
      exact ⟨hvalue, hcursor⟩
  | error e t =>
      obtain ⟨e', t', hrun', herror, hcursor⟩ := h.of_error hrun
      rw [hrun']
      exact ⟨herror, hcursor⟩

theorem Ends.bind (hp : L.Ends V (p s) (p' s'))
    (hf : ∀ a a' t t', p s = .ok a t → V a a' → L.cursor t.cursor t'.cursor →
      L.Ends W (f a t) (f' a' t')) :
    L.Ends W ((p >>= f) s) ((p' >>= f') s') := by
  cases hrun : p s with
  | ok a t =>
      obtain ⟨a', t', hrun', hvalue, hcursor⟩ := hp.of_ok hrun
      rw [bind_of_ok hrun, bind_of_ok hrun']
      exact hf a a' t t' hrun hvalue hcursor
  | error e t =>
      obtain ⟨e', t', hrun', herror⟩ := hp.of_error hrun
      rw [bind_of_error hrun, bind_of_error hrun']
      exact herror

theorem Alike.bind (hp : L.Alike V p p')
    (hf : ∀ a a', V a a' → L.Alike W (f a) (f' a')) :
    L.Alike W (p >>= f) (p' >>= f') :=
  fun s s' h => (hp s s' h).bind fun a a' t t' _ hvalue hcursor =>
    hf a a' hvalue t t' hcursor

theorem alike_pure {a a' : α} (h : V a a') :
    L.Alike V (pure a : Parse α) (pure a') :=
  fun _ _ hcursor => ⟨h, hcursor⟩

theorem alike_throw {e e' : ParseError} (h : L.error e e') :
    L.Alike V (throw e : Parse α) (throw e') :=
  fun _ _ hcursor => ⟨h, hcursor⟩

theorem Alike.map {g g' : α → β} (hp : L.Alike V p p')
    (hg : ∀ a a', V a a' → W (g a) (g' a')) : L.Alike W (g <$> p) (g' <$> p') := by
  rw [map_eq_bind, map_eq_bind]
  exact hp.bind fun a a' h => alike_pure (hg a a' h)

theorem Alike.ite {b : Bool} {q q' : Parse α} (hp : L.Alike V p p')
    (hq : L.Alike V q q') :
    L.Alike V (if b then p else q) (if b then p' else q') := by
  cases b
  · exact hq
  · exact hp

theorem alike_current : L.Alike L.token current current :=
  fun _ _ h => ⟨token_current h, h⟩

theorem alike_check (kind : TokenKind) : L.Alike Eq (check kind) (check kind) := by
  intro s s' h
  refine ⟨?_, h⟩
  rw [kind_current h]

theorem alike_advance : L.Alike L.token advance advance :=
  fun _ _ h => ⟨token_current h, cursor_advance h⟩

theorem alike_note (record record' : Record) :
    L.Alike Eq (note record) (note record') :=
  fun _ _ h => ⟨rfl, h⟩

theorem alike_expect (kind : TokenKind) (context : String) :
    L.Alike L.token (expect kind context) (expect kind context) := by
  unfold expect
  refine (alike_check kind).bind fun b b' hb => ?_
  subst hb
  refine alike_advance.ite ?_
  exact alike_current.bind fun t t' ht => alike_throw (L.expected ht)

/-- Alike tokens are of one kind, so the same number of them is taken. -/
theorem alike_takeWhile (kinds : TokenKind → Bool) :
    L.Alike (List.Forall₂ L.token) (takeWhile kinds) (takeWhile kinds) := by
  intro s s' h
  cases hrun : takeWhile kinds s with
  | error e t => exact ((takeWhile_spec kinds s).of_error hrun).elim
  | ok tokens t =>
  obtain ⟨hpasses, htaken, hstop⟩ := (takeWhile_spec kinds s).of_ok hrun
  obtain ⟨tokens', stop', htokens, hpasses', hcursor⟩ := exists_passes h hpasses
  have htaken' : ∀ token' ∈ tokens', kinds token'.kind := by
    have hall : ∀ kind ∈ tokens.map Token.kind, kinds kind := by simpa using htaken
    rw [← map_kind_eq htokens] at hall
    simpa using hall
  rw [takeWhile_of_passes hpasses' htaken' (by rwa [kind_current hcursor])]
  exact ⟨htokens, hcursor⟩

/-- A loop takes the same turns over alike tokens.  The induction is on how many
tokens are ahead, since every turn that goes on has passed one. -/
theorem alike_loop {step step' : β → Parse (Option β)} (hprogress : Progressing step)
    (hprogress' : Progressing step')
    (hstep : ∀ value value', W value value' →
      L.Alike (Option.Rel W) (step value) (step' value'))
    {value value' : β} (hvalue : W value value') :
    L.Alike W (loop step value) (loop step' value') := by
  intro s s' h
  induction hn : s.cursor.ahead.length using Nat.strongRecOn
    generalizing value value' s s' with
  | ind n ih =>
      rw [loop_eq hprogress, loop_eq hprogress']
      apply (hstep value value' hvalue s s' h).bind
      intro next next' t t' hrun hnext hcursor
      cases hnext with
      | none => exact ⟨hvalue, hcursor⟩
      | some hnext =>
          have hlt := hprogress value s _ t hrun
          exact ih _ (hn ▸ hlt) hnext t t' hcursor rfl

/-- One turn of collecting finds alike values. -/
theorem alike_collectTurn {stop stop' : Parse Bool} {parse parse' : Parse α}
    {found found' : Array α} {I : Array α → Array α → Prop}
    (hstop : L.Alike Eq stop stop') (hparse : L.Alike V parse parse')
    (hpush : ∀ a a', V a a' → I (found.push a) (found'.push a')) :
    L.Alike (Option.Rel I) (collectTurn stop parse found)
      (collectTurn stop' parse' found') := by
  refine hstop.bind fun b b' hb => ?_
  subst hb
  refine (alike_pure .none).ite ?_
  exact hparse.bind fun a a' h => alike_pure (.some (hpush a a' h))

end Likeness

end MiniC
