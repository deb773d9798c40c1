/-
What a parse ends with: postconditions of parses, one rule for each way to build
a parse from smaller ones.
-/
import MiniC.Parse.Basic
import MiniC.Proofs.Cursor

namespace MiniC.Parse

variable {α β : Type}

/-- Run from `s`, the parse either succeeds with a value and a state in `Q`, or
fails with an error and a state in `E`. -/
def Ensures (p : Parse α) (s : ParseState) (Q : α → ParseState → Prop)
    (E : ParseError → ParseState → Prop) : Prop :=
  match p s with
  | .ok a s' => Q a s'
  | .error e s' => E e s'

section Rules

variable {s : ParseState} {Q : α → ParseState → Prop}
  {R : β → ParseState → Prop} {E : ParseError → ParseState → Prop}

@[simp] theorem ensures_pure {a : α} : Ensures (pure a) s Q E ↔ Q a s := Iff.rfl

@[simp] theorem ensures_throw {e : ParseError} :
    Ensures (throw e : Parse α) s Q E ↔ E e s := Iff.rfl

@[simp] theorem ensures_bind {p : Parse α} {f : α → Parse β} :
    Ensures (p >>= f) s R E ↔ Ensures p s (fun a s' => Ensures (f a) s' R E) E := by
  change (match EStateM.bind p f s with
    | .ok b s' => R b s'
    | .error e s' => E e s') ↔ _
  unfold EStateM.bind Ensures
  cases p s <;> exact Iff.rfl

@[simp] theorem ensures_map {p : Parse α} {f : α → β} :
    Ensures (f <$> p) s R E ↔ Ensures p s (fun a s' => R (f a) s') E := by
  change (match EStateM.map f p s with
    | .ok b s' => R b s'
    | .error e s' => E e s') ↔ _
  unfold EStateM.map Ensures
  cases p s <;> exact Iff.rfl

theorem ensures_ite {c : Prop} [Decidable c] {p q : Parse α} :
    Ensures (if c then p else q) s Q E ↔
      if c then Ensures p s Q E else Ensures q s Q E := by
  by_cases h : c <;> simp [h]

@[simp] theorem ensures_current {P : Token → ParseState → Prop} :
    Ensures current s P E ↔ P s.cursor.current s := Iff.rfl

@[simp] theorem ensures_check {kind : TokenKind} {P : Bool → ParseState → Prop} :
    Ensures (check kind) s P E ↔ P (s.cursor.kind = kind) s := Iff.rfl

@[simp] theorem ensures_advance {P : Token → ParseState → Prop} :
    Ensures advance s P E ↔
      P s.cursor.current { s with cursor := s.cursor.advance } := Iff.rfl

@[simp] theorem ensures_note {record : Record} {P : Unit → ParseState → Prop} :
    Ensures (note record) s P E ↔
      P () { s with log := s.log.push record } := Iff.rfl

theorem ensures_expect {kind : TokenKind} {context : String}
    {P : Token → ParseState → Prop} :
    Ensures (expect kind context) s P E ↔
      if s.cursor.kind = kind then
        P s.cursor.current { s with cursor := s.cursor.advance }
      else E (.expected kind context s.cursor.current) s := by
  unfold expect
  rw [ensures_bind, ensures_check]
  by_cases h : s.cursor.kind = kind
  · simp [h]
  · simp [h]

/-- A token that is known to be there is taken. -/
theorem ensures_expect_of_passes {kind : TokenKind} {context : String}
    {P : Token → ParseState → Prop} {token : Token} {tokens : List Token}
    {stop : Cursor} (hpasses : s.cursor.Passes (token :: tokens) stop)
    (hkind : token.kind = kind) :
    Ensures (expect kind context) s P E ↔
      P token { s with cursor := s.cursor.advance } := by
  rw [ensures_expect, if_pos (hpasses.kind_eq.trans hkind), hpasses.current_eq]

theorem bind_of_ok {p : Parse α} {f : α → Parse β} {a : α} {s' : ParseState}
    (h : p s = .ok a s') : (p >>= f) s = f a s' := by
  change EStateM.bind p f s = _
  simp [EStateM.bind, h]

theorem bind_of_error {p : Parse α} {f : α → Parse β} {e : ParseError}
    {s' : ParseState} (h : p s = .error e s') : (p >>= f) s = .error e s' := by
  change EStateM.bind p f s = _
  simp [EStateM.bind, h]

/-- Where a token of the kind that is asked for stands, it is taken. -/
theorem expect_of_eq {kind : TokenKind} {context : String} (h : s.cursor.kind = kind) :
    expect kind context s = .ok s.cursor.current { s with cursor := s.cursor.advance } := by
  have hcheck : check kind s = .ok true s := by simp [check, h]
  rw [expect, bind_of_ok hcheck]
  rfl

/-- Over any other token, nothing is taken. -/
theorem expect_of_ne {kind : TokenKind} {context : String} (h : s.cursor.kind ≠ kind) :
    expect kind context s = .error (.expected kind context s.cursor.current) s := by
  have hcheck : check kind s = .ok false s := by simp [check, h]
  rw [expect, bind_of_ok hcheck]
  rfl

theorem run_bind (p : Parse α) (f : α → Parse β) (s : ParseState) :
    run (p >>= f) s =
      match p.run s with
      | (.ok a, s') => (f a).run s'
      | (.error e, s') => (.error e, s') := by
  unfold run
  cases hrun : p s with
  | ok a s' => rw [bind_of_ok hrun]
  | error e s' => rw [bind_of_error hrun]

theorem map_eq_bind (f : α → β) (p : Parse α) :
    f <$> p = p >>= fun a => pure (f a) := by
  funext s
  change EStateM.map f p s = EStateM.bind p _ s
  unfold EStateM.map EStateM.bind
  cases p s <;> rfl

/-- A run ends with less than what it is known to end with. -/
theorem Ensures.mono {p : Parse α} {Q' : α → ParseState → Prop}
    {E' : ParseError → ParseState → Prop} (h : Ensures p s Q E)
    (hQ : ∀ a s', Q a s' → Q' a s') (hE : ∀ e s', E e s' → E' e s') :
    Ensures p s Q' E' := by
  unfold Ensures at h ⊢
  cases hp : p s with
  | ok a s' => exact hQ a s' (by simpa [hp] using h)
  | error e s' => exact hE e s' (by simpa [hp] using h)

/-- A run ends with all that it is known to end with. -/
theorem Ensures.and {p : Parse α} {Q' : α → ParseState → Prop}
    {E' : ParseError → ParseState → Prop} (h : Ensures p s Q E) (h' : Ensures p s Q' E') :
    Ensures p s (fun a s' => Q a s' ∧ Q' a s') (fun e s' => E e s' ∧ E' e s') := by
  unfold Ensures at h h' ⊢
  cases hrun : p s <;> simp_all

/-- A parse followed by another: first what a failure of the first one comes to,
then how the second one goes on. -/
theorem Ensures.bind {p : Parse α} {f : α → Parse β}
    {E' : ParseError → ParseState → Prop} (h : Ensures p s Q E')
    (herror : ∀ e s', E' e s' → E e s')
    (hnext : ∀ a s', Q a s' → Ensures (f a) s' R E) :
    Ensures (p >>= f) s R E :=
  ensures_bind.2 (h.mono hnext herror)

theorem Ensures.of_ok {p : Parse α} {a : α} {s' : ParseState}
    (h : Ensures p s Q E) (hp : p s = .ok a s') : Q a s' := by
  simpa [Ensures, hp] using h

theorem Ensures.of_error {p : Parse α} {e : ParseError} {s' : ParseState}
    (h : Ensures p s Q E) (hp : p s = .error e s') : E e s' := by
  simpa [Ensures, hp] using h

/-- The same, of the result and the state that a run is known to leave. -/
theorem Ensures.of_run {p : Parse α} {result : Except ParseError α}
    {s' : ParseState} (h : Ensures p s Q E) (hrun : p.run s = (result, s')) :
    match result with
    | .ok a => Q a s'
    | .error e => E e s' := by
  unfold run at hrun
  cases hp : p s with
  | ok a s₁ =>
      rw [hp] at hrun
      cases hrun
      exact h.of_ok hp
  | error e s₁ =>
      rw [hp] at hrun
      cases hrun
      exact h.of_error hp

end Rules

/-- Where a token of some kind is asked for, either it is passed or nothing is.
No one asks for the end marker, which could be taken without being passed. -/
theorem expect_spec {kind : TokenKind} (hkind : kind ≠ .eof) (context : String)
    (s : ParseState) :
    Ensures (expect kind context) s
      (fun token s' => token.kind = kind ∧ s.cursor.Passes [token] s'.cursor ∧
        s'.log = s.log)
      (fun e s' => e = .expected kind context s.cursor.current ∧ s' = s ∧
        s.cursor.kind ≠ kind) := by
  rw [ensures_expect]
  by_cases h : s.cursor.kind = kind
  · rw [if_pos h]
    have hne : s.cursor.kind ≠ .eof := fun heof => hkind (h.symm.trans heof)
    exact ⟨h, Cursor.passes_advance hne, rfl⟩
  · rw [if_neg h]
    exact ⟨rfl, rfl, h⟩

/-- A token that is asked for, and what follows it. -/
theorem ensures_expect_bind {kind : TokenKind} (hkind : kind ≠ .eof)
    {context : String} {f : Token → Parse β} {s : ParseState}
    {R : β → ParseState → Prop} {E : ParseError → ParseState → Prop}
    (herror : E (.expected kind context s.cursor.current) s)
    (hnext : ∀ token s', token.kind = kind → s.cursor.Passes [token] s'.cursor →
      Ensures (f token) s' R E) :
    Ensures (expect kind context >>= f) s R E := by
  apply (expect_spec hkind context s).bind
  · intro e s' herror
    obtain ⟨rfl, rfl, _⟩ := herror
    exact herror
  · intro token s' hread
    obtain ⟨htoken, hpasses, _⟩ := hread
    exact hnext token s' htoken hpasses

/-- Tokens of the given kinds are taken where no other one of these kinds
follows. -/
theorem takeWhile_of_passes {p : TokenKind → Bool} {s : ParseState}
    {taken : List Token} {stop : Cursor} (hpasses : s.cursor.Passes taken stop)
    (htaken : ∀ token ∈ taken, p token.kind)
    (hstop : stop.kind = .eof ∨ p stop.kind = false) :
    takeWhile p s = .ok taken { s with cursor := stop } := by
  have hall : (s.cursor.rest.takeWhile fun token =>
      !Cursor.isEnd token && p token.kind) = taken := by
    rw [hpasses.1, stop.rest_eq_cons, List.takeWhile_append_of_pos]
    · rw [Cursor.kind] at hstop
      rcases hstop with heof | hother
      · simp [Cursor.isEnd, heof]
      · simp [hother]
    · intro token htoken
      simp [Cursor.isEnd, hpasses.kind_ne_eof htoken, htaken token htoken]
  unfold takeWhile
  dsimp only
  rw [hall, ← hpasses.eq_drop]

theorem ensures_takeWhile_of_passes {p : TokenKind → Bool} {s : ParseState}
    {P : List Token → ParseState → Prop} {E : ParseError → ParseState → Prop}
    {taken : List Token} {stop : Cursor} (hpasses : s.cursor.Passes taken stop)
    (htaken : ∀ token ∈ taken, p token.kind)
    (hstop : stop.kind = .eof ∨ p stop.kind = false) :
    Ensures (takeWhile p) s P E ↔ P taken { s with cursor := stop } := by
  rw [Ensures, takeWhile_of_passes hpasses htaken hstop]

/-- All tokens of the given kinds are passed, up to the first other one. -/
theorem takeWhile_spec (p : TokenKind → Bool) (s : ParseState) :
    Ensures (takeWhile p) s
      (fun taken s' => s.cursor.Passes taken s'.cursor ∧
        (∀ token ∈ taken, p token.kind) ∧
        (s'.cursor.kind = .eof ∨ p s'.cursor.kind = false))
      (fun _ _ => False) := by
  let q : Token → Bool := fun token => !Cursor.isEnd token && p token.kind
  have hq : ∀ token ∈ s.cursor.rest.takeWhile q,
      token.kind ≠ .eof ∧ p token.kind = true := by
    intro token htoken
    have hall := List.all_eq_true.1 (List.all_takeWhile (l := s.cursor.rest))
      token htoken
    simpa [q, Cursor.isEnd] using hall
  have hsplit := (List.takeWhile_append_dropWhile (p := q) (l := s.cursor.rest)).symm
  obtain ⟨stop, hpasses, hstop⟩ :=
    Cursor.exists_passes hsplit fun token htoken => (hq token htoken).1
  have htaken : ∀ token ∈ s.cursor.rest.takeWhile q, p token.kind :=
    fun token htoken => (hq token htoken).2
  have hnext : stop.kind = .eof ∨ p stop.kind = false := by
    have hhead := List.head?_dropWhile_not q s.cursor.rest
    rw [← hstop, stop.rest_eq_cons] at hhead
    exact Decidable.or_iff_not_imp_left.2 (by
      simpa [q, Cursor.isEnd, Cursor.kind] using hhead)
  unfold Ensures
  rw [takeWhile_of_passes hpasses htaken hnext]
  exact ⟨hpasses, htaken, hnext⟩

/-- Whatever a step goes on with, it has passed a token. -/
def Progressing (step : β → Parse (Option β)) : Prop :=
  ∀ value s next s', step value s = .ok (some next) s' →
    s'.cursor.ahead.length < s.cursor.ahead.length

/-- One turn of a loop that may still take as many turns as there are tokens. -/
theorem repeatWithin_turn {step : β → Parse (Option β)} (hstep : Progressing step)
    (bound : List Token) (value : β) (s : ParseState)
    (h : s.cursor.ahead.length ≤ bound.length) :
    repeatWithin step bound value s =
      match step value s with
      | .ok none s' => .ok value s'
      | .ok (some next) s' => repeatWithin step bound.tail next s'
      | .error e s' => .error e s' := by
  cases bound with
  | nil =>
      change EStateM.bind (step value) (fun o => pure (o.getD value)) s = _
      unfold EStateM.bind
      cases hrun : step value s with
      | error e s' => rfl
      | ok next s' =>
          cases next with
          | none => rfl
          | some next =>
              have hlt := hstep value s next s' hrun
              simp only [List.length_nil] at h
              omega
  | cons token bound =>
      change EStateM.bind (step value) _ s = _
      unfold EStateM.bind
      cases hrun : step value s with
      | error e s' => rfl
      | ok next s' => cases next <;> rfl

/-- How many turns a loop may take does not matter once there are enough. -/
theorem repeatWithin_eq_of_length_le {step : β → Parse (Option β)}
    (hstep : Progressing step) (bound bound' : List Token) (value : β)
    (s : ParseState) (h : s.cursor.ahead.length ≤ bound.length)
    (h' : s.cursor.ahead.length ≤ bound'.length) :
    repeatWithin step bound value s = repeatWithin step bound' value s := by
  -- Both loops take the same turns, and each turn leaves less ahead.
  induction hlength : s.cursor.ahead.length using Nat.strongRecOn
    generalizing bound bound' value s with
  | ind length ih =>
      rw [repeatWithin_turn hstep bound value s h,
        repeatWithin_turn hstep bound' value s h']
      cases hrun : step value s with
      | error e s' => rfl
      | ok next s' =>
          cases next with
          | none => rfl
          | some next =>
              have hlt := hstep value s next s' hrun
              apply ih s'.cursor.ahead.length (hlength ▸ hlt)
              · rw [List.length_tail]
                omega
              · rw [List.length_tail]
                omega
              · rfl

/-- A loop is its step, followed by the same loop where the step went on. -/
theorem loop_eq {step : β → Parse (Option β)} (hstep : Progressing step)
    (value : β) :
    loop step value = (do
      match ← step value with
      | none => return value
      | some next => loop step next) := by
  funext s
  change repeatWithin step s.cursor.rest value s = EStateM.bind (step value) _ s
  rw [repeatWithin_turn hstep s.cursor.rest value s s.cursor.length_ahead_le]
  unfold EStateM.bind
  cases hrun : step value s with
  | error e s' => rfl
  | ok next s' =>
      cases next with
      | none => rfl
      | some next =>
          have hlt := hstep value s next s' hrun
          apply repeatWithin_eq_of_length_le hstep
          · have hle := s.cursor.length_ahead_le
            rw [List.length_tail]
            omega
          · exact s'.cursor.length_ahead_le

/-- A loop whose steps pass tokens keeps what each of them keeps. -/
theorem ensures_loop {step : β → Parse (Option β)}
    {Q : β → ParseState → Prop} {E : ParseError → ParseState → Prop}
    (Inv : β → ParseState → Prop)
    (hturn : ∀ value s, Inv value s →
      Ensures (step value) s
        (fun next s' => match next with
          | none => Q value s'
          | some next =>
              Inv next s' ∧ s'.cursor.ahead.length < s.cursor.ahead.length)
        E)
    {value : β} {s : ParseState} (hinv : Inv value s) :
    Ensures (loop step value) s Q E := by
  have within : ∀ (bound : List Token) (value : β) (s : ParseState),
      Inv value s → s.cursor.ahead.length ≤ bound.length →
        Ensures (repeatWithin step bound value) s Q E := by
    intro bound
    induction bound with
    | nil =>
        intro value s hinv hlength
        rw [repeatWithin, ensures_bind]
        apply (hturn value s hinv).mono
        · intro next s' hnext
          cases next with
          | none => exact hnext
          | some next =>
              have hlt := hnext.2
              simp only [List.length_nil] at hlength
              omega
        · exact fun e s' he => he
    | cons token bound ih =>
        intro value s hinv hlength
        rw [repeatWithin, ensures_bind]
        apply (hturn value s hinv).mono
        · intro next s' hnext
          cases next with
          | none => exact hnext
          | some next =>
              apply ih next s' hnext.1
              have hlt := hnext.2
              simp only [List.length_cons] at hlength
              omega
        · exact fun e s' he => he
  exact within s.cursor.rest value s hinv s.cursor.length_ahead_le

/-- A parse that only tests the state. -/
theorem ensures_test {stop : Parse Bool} {test : ParseState → Bool}
    (hstop : ∀ s, stop s = .ok (test s) s) {s : ParseState}
    {P : Bool → ParseState → Prop} {E : ParseError → ParseState → Prop} :
    Ensures stop s P E ↔ P (test s) s := by
  simp only [Ensures, hstop]

/-- One turn of collecting: stop, or add a value to those found. -/
def collectTurn (stop : Parse Bool) (parse : Parse α) (found : Array α) :
    Parse (Option (Array α)) := do
  if ← stop then return none
  else return some (found.push (← parse))

theorem collectUntil_eq (stop : Parse Bool) (parse : Parse α) :
    collectUntil stop parse = (do
      let found ← loop (collectTurn stop parse) #[]
      return found.toList) := rfl

/-- Where values that are found take up tokens, so does a turn that finds one. -/
theorem collectTurn_progressing {stop : Parse Bool} {parse : Parse α}
    (test : ParseState → Bool) (hstop : ∀ s, stop s = .ok (test s) s)
    (hprogress : ∀ s, test s = false →
      Ensures parse s
        (fun _ s' => s'.cursor.ahead.length < s.cursor.ahead.length)
        (fun _ _ => True)) :
    Progressing (collectTurn stop parse) := by
  intro found s next s' hrun
  have hturn : Ensures (collectTurn stop parse found) s
      (fun next s' => next.isSome →
        s'.cursor.ahead.length < s.cursor.ahead.length)
      (fun _ _ => True) := by
    rw [collectTurn, ensures_bind, ensures_test hstop, ensures_ite]
    by_cases htest : test s = true
    · rw [if_pos htest, ensures_pure]
      exact fun hsome => absurd hsome Bool.false_ne_true
    · rw [if_neg htest, ensures_bind]
      apply (hprogress s (Bool.eq_false_iff.2 htest)).mono
      · exact fun _ _ hlt _ => hlt
      · exact fun _ _ _ => trivial
  exact hturn.of_ok hrun rfl

/-- Values are collected one after the other as long as each of them passes
tokens. -/
theorem ensures_collectUntil {stop : Parse Bool} {parse : Parse α}
    {Q : List α → ParseState → Prop} {E : ParseError → ParseState → Prop}
    {test : ParseState → Bool} (hstop : ∀ s, stop s = .ok (test s) s)
    (Inv : List α → ParseState → Prop)
    (hdone : ∀ found s, Inv found s → test s = true → Q found s)
    (hnext : ∀ found s, Inv found s → test s = false →
      Ensures parse s
        (fun a s' => Inv (found ++ [a]) s' ∧
          s'.cursor.ahead.length < s.cursor.ahead.length)
        E)
    {s : ParseState} (hinv : Inv [] s) :
    Ensures (collectUntil stop parse) s Q E := by
  rw [collectUntil_eq, ensures_bind]
  apply ensures_loop (fun found s => Inv found.toList s)
  · intro found s hfound
    rw [collectTurn, ensures_bind, ensures_test hstop, ensures_ite]
    cases htest : test s with
    | true =>
        rw [if_pos rfl, ensures_pure, ensures_pure]
        exact hdone _ _ hfound htest
    | false =>
        rw [if_neg Bool.false_ne_true, ensures_bind]
        apply (hnext _ _ hfound htest).mono
        · intro a s' ha
          rw [ensures_pure]
          simpa using ha
        · exact fun _ _ h => h
  · exact hinv

end MiniC.Parse
