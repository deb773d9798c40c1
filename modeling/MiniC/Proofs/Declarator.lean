/-
Reading declarators and parameters, against their grammar.
-/
import MiniC.Proofs.Blame
import MiniC.Proofs.Grammar.Statement

namespace MiniC

open Grammar

theorem DeclType.isSpecifier_iff {kind : TokenKind} :
    isSpecifier kind = true ↔ kind ∈ specifierKinds := by
  cases kind <;> decide

/-- The cursor is at the word that stands for no parameters. -/
def Cursor.AtVoid (cursor : Cursor) : Prop :=
  cursor.kind = .kwVoid ∧ cursor.nextKind = .rightParen

instance (cursor : Cursor) : Decidable cursor.AtVoid :=
  inferInstanceAs (Decidable (_ ∧ _))

namespace Grammar

theorem Declarator.exists_cons {tokens : List Token} {type : DeclType}
    {name : String} (h : Declarator tokens type name) :
    ∃ first rest, tokens = first :: rest ∧
      (first.kind ∈ specifierKinds ∨ first.kind = .identifier) := by
  obtain ⟨hspecifiers, hname⟩ := h
  rename_i specifiers name
  cases specifiers with
  | nil => exact ⟨name, [], rfl, Or.inr hname⟩
  | cons first rest =>
      exact ⟨first, rest ++ [name], rfl,
        Or.inl (hspecifiers first List.mem_cons_self)⟩

/-- Behind a first token that is not the name, another one follows. -/
theorem Declarator.exists_cons_cons {tokens : List Token} {type : DeclType}
    {name : String} (h : Declarator tokens type name) {first : Token}
    (hhead : tokens.head? = some first) (hfirst : first.kind ≠ .identifier) :
    ∃ second rest, tokens = first :: second :: rest ∧
      (second.kind ∈ specifierKinds ∨ second.kind = .identifier) := by
  obtain ⟨hspecifiers, hname⟩ := h
  rename_i specifiers name
  cases specifiers with
  | nil =>
      obtain rfl := Option.some.inj hhead
      exact absurd hname hfirst
  | cons first' rest =>
      obtain rfl := Option.some.inj hhead
      have hrest : Declarator (rest ++ [name]) _ _ :=
        .mk (fun token htoken => hspecifiers token (List.mem_cons_of_mem _ htoken))
          hname
      obtain ⟨second, rest', heq, hsecond⟩ := hrest.exists_cons
      exact ⟨second, rest', by rw [List.cons_append, heq], hsecond⟩

/-- Declarators with commas between them begin with a declarator. -/
theorem Declarators.exists_declarator {tokens : List Token} {params : List Param}
    (h : Declarators tokens params) :
    ∃ first rest type name, tokens = first ++ rest ∧
      Declarator first type name := by
  cases h with
  | one h => exact ⟨_, [], _, _, (List.append_nil _).symm, h⟩
  | more h _ _ => exact ⟨_, _, _, _, rfl, h⟩

theorem ne_rightParen_of_specifier {kind : TokenKind}
    (h : kind ∈ specifierKinds ∨ kind = .identifier) : kind ≠ .rightParen := by
  rcases h with h | rfl
  · rintro rfl
    exact absurd h (by decide)
  · decide

end Grammar

namespace Parse

/-- All specifiers are passed, and no name follows them. -/
def NameMissing (start : Cursor) (e : ParseError) (s : ParseState) : Prop :=
  ∃ specifiers, start.Passes specifiers s.cursor ∧
    (∀ token ∈ specifiers, token.kind ∈ specifierKinds) ∧
    s.cursor.kind ∉ specifierKinds ∧
    e = .expected .identifier "in declaration" s.cursor.current

/-- A declarator is read where one stands.  Otherwise the name is missing. -/
theorem declarator_spec (s : ParseState) :
    Ensures declarator s
      (fun result s' => ∃ tokens, Declarator tokens result.1 result.2 ∧
        s.cursor.Passes tokens s'.cursor)
      (NameMissing s.cursor) := by
  unfold declarator
  refine (takeWhile_spec _ s).bind ?_ ?_
  · exact fun _ _ h => h.elim
  intro specifiers s₁ hread
  obtain ⟨hpasses, htaken, hnext⟩ := hread
  have hspecifiers : ∀ token ∈ specifiers, token.kind ∈ specifierKinds :=
    fun token htoken => DeclType.isSpecifier_iff.1 (htaken token htoken)
  have hother : s₁.cursor.kind ∉ specifierKinds := by
    rcases hnext with heof | hnot
    · rw [heof]
      decide
    · rw [← DeclType.isSpecifier_iff, hnot]
      exact Bool.false_ne_true
  refine ensures_expect_bind (by decide) ?_ ?_
  · exact ⟨specifiers, hpasses, hspecifiers, hother, rfl⟩
  intro name s₂ hname hpasses'
  rw [ensures_pure, DeclType.ofSpecifiers_eq_described]
  exact ⟨_, .mk hspecifiers hname, hpasses.trans hpasses'⟩

/-- Where a declarator stands, it is read. -/
theorem declarator_reads {tokens : List Token} {type : DeclType} {name : String}
    (h : Declarator tokens type name) {s : ParseState} {stop : Cursor}
    (hpasses : s.cursor.Passes tokens stop) :
    Ensures declarator s
      (fun result s' => result = (type, name) ∧ s'.cursor = stop)
      (fun _ _ => False) := by
  obtain ⟨hspecifiers, hname⟩ := h
  rename_i specifiers name
  obtain ⟨middle, hfirst, hlast⟩ := hpasses.split
  have htaken : ∀ token ∈ specifiers, DeclType.isSpecifier token.kind :=
    fun token htoken => DeclType.isSpecifier_iff.2 (hspecifiers token htoken)
  have hmiddle : DeclType.isSpecifier middle.kind = false := by
    rw [hlast.kind_eq, hname]
    decide
  unfold declarator
  rw [ensures_bind, ensures_takeWhile_of_passes hfirst htaken (Or.inr hmiddle),
    ensures_bind, ensures_expect, if_pos (hlast.kind_eq.trans hname), ensures_pure]
  constructor
  · rw [hlast.current_eq, DeclType.ofSpecifiers_eq_described]
  · exact hlast.advance_eq

theorem param_spec (s : ParseState) :
    Ensures param s
      (fun found s' => ∃ tokens, Declarator tokens found.type found.name ∧
        s.cursor.Passes tokens s'.cursor)
      (NameMissing s.cursor) := by
  unfold param
  rw [ensures_bind]
  exact (declarator_spec s).mono (fun _ _ h => h) (fun _ _ h => h)

theorem param_reads {tokens : List Token} {type : DeclType} {name : String}
    (h : Declarator tokens type name) {s : ParseState} {stop : Cursor}
    (hpasses : s.cursor.Passes tokens stop) :
    Ensures param s
      (fun found s' => found = ⟨name, type⟩ ∧ s'.cursor = stop)
      (fun _ _ => False) := by
  unfold param
  rw [ensures_bind]
  apply (declarator_reads h hpasses).mono
  · intro _ s' hread
    obtain ⟨rfl, hstop⟩ := hread
    exact ⟨rfl, hstop⟩
  · exact fun _ _ h => h

/-- A name could have followed where one was missing. -/
theorem declarator_of_specifiers {specifiers : List Token}
    (h : ∀ token ∈ specifiers, token.kind ∈ specifierKinds) :
    ∃ type name, Declarator (specifiers ++ [.sample .identifier]) type name :=
  ⟨_, _, .mk h rfl⟩

/-- Read one more parameter if a comma follows. -/
def moreParams (found : Array Param) : Parse (Option (Array Param)) := do
  if ← check .comma then
    let _ ← advance
    return some (found.push (← param))
  else return none

/-- Read some parameters. -/
def someParams : Parse (List Param) := do
  let found ← loop moreParams #[← param]
  return found.toList

/-- Read the word for no parameters, or some parameters. -/
def voidOrSomeParams : Parse (List Param) := do
  if (← check .kwVoid) && (← get).cursor.nextKind = .rightParen then
    let _ ← advance
    return []
  else someParams

theorem params_eq :
    params = (do
      if ← check .rightParen then return [] else voidOrSomeParams) := rfl

/-- The word is looked at together with what follows it. -/
theorem voidOrSomeParams_eq (s : ParseState) :
    voidOrSomeParams s =
      if s.cursor.AtVoid then .ok [] { s with cursor := s.cursor.advance }
      else someParams s := by
  have htest : (decide (s.cursor.kind = .kwVoid) &&
      decide (s.cursor.nextKind = .rightParen)) = decide s.cursor.AtVoid := by
    rw [Bool.eq_iff_iff, Bool.and_eq_true, decide_eq_true_iff,
      decide_eq_true_iff, decide_eq_true_iff]
    exact Iff.rfl
  change (if decide (s.cursor.kind = .kwVoid) &&
    decide (s.cursor.nextKind = .rightParen) then _ else _ : Parse (List Param)) s =
      _
  rw [htest]
  by_cases hvoid : s.cursor.AtVoid
  · rw [if_pos hvoid, if_pos (decide_eq_true hvoid)]
    rfl
  · rw [if_neg hvoid, if_neg (by simpa using hvoid)]

theorem ensures_voidOrSomeParams {s : ParseState}
    {Q : List Param → ParseState → Prop} {E : ParseError → ParseState → Prop} :
    Ensures voidOrSomeParams s Q E ↔
      if s.cursor.AtVoid then Q [] { s with cursor := s.cursor.advance }
      else Ensures someParams s Q E := by
  unfold Ensures
  rw [voidOrSomeParams_eq]
  by_cases hvoid : s.cursor.AtVoid <;> simp [hvoid]

/-- After a comma a parameter is read, and without one nothing is. -/
theorem moreParams_spec (found : Array Param) (s : ParseState) :
    Ensures (moreParams found) s
      (fun next s' => match next with
        | none => s' = s
        | some next => ∃ comma last param, next = found.push param ∧
            comma.kind = .comma ∧ Declarator last param.type param.name ∧
            s.cursor.Passes (comma :: last) s'.cursor)
      (fun e s' => ∃ comma middle, comma.kind = .comma ∧
        s.cursor.Passes [comma] middle ∧ NameMissing middle e s') := by
  unfold moreParams
  rw [ensures_bind, ensures_check, ensures_ite]
  by_cases hcomma : s.cursor.kind = .comma
  · rw [if_pos (by simpa using hcomma), ensures_bind, ensures_advance,
      ensures_bind]
    have hadvance : s.cursor.Passes [s.cursor.current] s.cursor.advance := by
      apply Cursor.passes_advance
      rw [hcomma]
      decide
    apply (param_spec _).mono
    · intro param s' hread
      obtain ⟨last, hlast, hpasses⟩ := hread
      exact ⟨_, last, param, rfl, hcomma, hlast, hadvance.trans hpasses⟩
    · exact fun e s' hmissing => ⟨_, _, hcomma, hadvance, hmissing⟩
  · rw [if_neg (by simpa using hcomma), ensures_pure]

theorem moreParams_progressing : Progressing moreParams := by
  intro found s next s' hrun
  obtain ⟨comma, last, param, _, _, _, hpasses⟩ :=
    (moreParams_spec found s).of_ok hrun
  exact hpasses.length_lt

/-- Where a name is missing, parameters could have stood. -/
theorem someParams_spec (s : ParseState) :
    Ensures someParams s
      (fun found s' => ∃ tokens, Declarators tokens found ∧
        s.cursor.Passes tokens s'.cursor)
      (Fails (fun tokens => ∃ params, Declarators tokens params) s.cursor) := by
  unfold someParams
  refine (param_spec s).bind ?_ ?_
  · intro e s' herror
    obtain ⟨specifiers, hpasses, hspecifiers, _, rfl⟩ := herror
    obtain ⟨type, name, hlast⟩ := declarator_of_specifiers hspecifiers
    exact Fails.expected hpasses _ ⟨_, .one hlast⟩
  intro param s₁ hread
  obtain ⟨tokens, hfirst, hpasses⟩ := hread
  rw [ensures_bind]
  apply ensures_loop
    (fun found s' => ∃ tokens, Declarators tokens found.toList ∧
      s.cursor.Passes tokens s'.cursor)
  · intro found s₂ hread
    obtain ⟨tokens, hfound, hpasses⟩ := hread
    apply (moreParams_spec found s₂).mono
    · rintro (_ | next) s₃ hnext
      · obtain rfl := hnext
        exact ⟨tokens, hfound, hpasses⟩
      · obtain ⟨comma, last, param, rfl, hcomma, hlast, hpasses'⟩ := hnext
        refine ⟨⟨_, ?_, hpasses.trans hpasses'⟩, hpasses'.length_lt⟩
        rw [Array.toList_push]
        exact hfound.snoc hcomma hlast
    · intro e s₃ herror
      obtain ⟨comma, middle, hcomma, hpasses₁, specifiers, hpasses₂, hspecifiers,
        _, rfl⟩ := herror
      obtain ⟨type, name, hlast⟩ := declarator_of_specifiers hspecifiers
      refine Fails.expected (hpasses.trans (hpasses₁.trans hpasses₂))
        [.sample .identifier] ⟨found.toList ++ [⟨name, type⟩], ?_⟩
      simpa [List.append_assoc] using hfound.snoc hcomma hlast
  · exact ⟨tokens, .one hfirst, hpasses⟩

/-- Parameters are read where they stand. -/
theorem params_spec (s : ParseState) :
    Ensures params s
      (fun found s' => ∃ tokens, Parameters tokens found ∧
        s.cursor.Passes tokens s'.cursor)
      (Fails (fun tokens => ∃ params, Parameters tokens params) s.cursor) := by
  rw [params_eq, ensures_bind, ensures_check, ensures_ite]
  by_cases hnone : s.cursor.kind = .rightParen
  · rw [if_pos (by simpa using hnone), ensures_pure]
    exact ⟨[], .none, .refl _⟩
  rw [if_neg (by simpa using hnone), ensures_voidOrSomeParams]
  by_cases hvoid : s.cursor.AtVoid
  · rw [if_pos hvoid]
    refine ⟨[s.cursor.current], .void hvoid.1, Cursor.passes_advance ?_⟩
    rw [hvoid.1]
    decide
  · rw [if_neg hvoid]
    apply (someParams_spec s).mono
    · intro found s' hread
      obtain ⟨tokens, hfound, hpasses⟩ := hread
      exact ⟨tokens, .some hfound, hpasses⟩
    · intro e s' hfails
      apply hfails.prepend (.refl _)
      intro tokens hviable
      obtain ⟨found, hfound⟩ := hviable
      exact ⟨[], found, by simpa using Parameters.some hfound⟩

/-- Declarators with commas between them are read to the last. -/
theorem declarators_read {tokens : List Token} {params : List Param}
    (h : Declarators tokens params) (found : Array Param) {s : ParseState}
    {stop : Cursor} (hpasses : s.cursor.Passes tokens stop)
    (hstop : stop.kind ≠ .comma) :
    Ensures (do loop moreParams (found.push (← param))) s
      (fun all s' => all.toList = found.toList ++ params ∧ s'.cursor = stop)
      (fun _ _ => False) := by
  induction h generalizing found s with
  | one hlast =>
      rw [ensures_bind]
      apply (param_reads hlast hpasses).mono
      · intro _ s' hread
        obtain ⟨rfl, rfl⟩ := hread
        rw [loop_eq moreParams_progressing, ensures_bind, moreParams,
          ensures_bind, ensures_check, ensures_ite, if_neg (by simpa using hstop),
          ensures_pure, ensures_pure]
        exact ⟨Array.toList_push, rfl⟩
      · exact fun _ _ h => h
  | @more _ _ type name _ _ hfirst hcomma hrest ih =>
      obtain ⟨middle, hbefore, hafter⟩ := hpasses.split
      rw [ensures_bind]
      apply (param_reads hfirst hbefore).mono
      · intro _ s' hread
        obtain ⟨rfl, rfl⟩ := hread
        have hkind := hafter.kind_eq.trans hcomma
        rw [loop_eq moreParams_progressing, ensures_bind, moreParams,
          ensures_bind, ensures_check, ensures_ite, if_pos (by simpa using hkind),
          ensures_bind, ensures_advance]
        have hread := ih (found.push ⟨name, type⟩)
          (s := { s' with cursor := s'.cursor.advance }) hafter.advance
        rw [ensures_bind] at hread ⊢
        apply hread.mono
        · intro param s₂ hloop
          rw [ensures_pure]
          simpa using hloop
        · exact fun _ _ h => h
      · exact fun _ _ h => h

/-- Declarators do not look like the word for no parameters. -/
theorem not_atVoid_of_declarators {tokens : List Token} {params : List Param}
    (h : Declarators tokens params) {start stop : Cursor}
    (hpasses : start.Passes tokens stop) : ¬ start.AtVoid := by
  obtain ⟨declarator, rest, type, name, rfl, hdeclarator⟩ := h.exists_declarator
  obtain ⟨first, rest', rfl, _⟩ := hdeclarator.exists_cons
  rintro ⟨hword, hnext⟩
  rw [hpasses.kind_eq] at hword
  obtain ⟨second, rest'', heq, hsecond⟩ :=
    hdeclarator.exists_cons_cons rfl (by rw [hword]; decide)
  rw [heq] at hpasses
  rw [hpasses.nextKind_eq, hpasses.advance.kind_eq] at hnext
  exact ne_rightParen_of_specifier hsecond hnext

/-- Where parameters stand before a closing parenthesis, they are read. -/
theorem params_reads {tokens : List Token} {found : List Param}
    (h : Parameters tokens found) {s : ParseState} {stop : Cursor}
    (hpasses : s.cursor.Passes tokens stop) (hstop : stop.kind = .rightParen) :
    Ensures params s
      (fun found' s' => found' = found ∧ s'.cursor = stop)
      (fun _ _ => False) := by
  rw [params_eq, ensures_bind, ensures_check, ensures_ite]
  cases h with
  | none =>
      obtain rfl := Cursor.passes_nil_iff.1 hpasses
      rw [if_pos (by simpa using hstop), ensures_pure]
      exact ⟨rfl, rfl⟩
  | void hword =>
      have hkind := hpasses.kind_eq.trans hword
      have hnext : s.cursor.advance = stop := hpasses.advance_eq
      have hvoid : s.cursor.AtVoid := by
        refine ⟨hkind, ?_⟩
        rw [hpasses.nextKind_eq, hnext, hstop]
      rw [if_neg (by simp [hkind]), ensures_voidOrSomeParams, if_pos hvoid]
      exact ⟨rfl, hnext⟩
  | some hparams =>
      obtain ⟨declarator, rest, type, name, rfl, hdeclarator⟩ :=
        hparams.exists_declarator
      obtain ⟨first, rest', rfl, hfirst⟩ := hdeclarator.exists_cons
      have hnone : s.cursor.kind ≠ .rightParen := by
        rw [hpasses.kind_eq]
        exact ne_rightParen_of_specifier hfirst
      have hread := declarators_read hparams #[] hpasses (by
        rw [hstop]
        decide)
      rw [if_neg (by simpa using hnone), ensures_voidOrSomeParams,
        if_neg (not_atVoid_of_declarators hparams hpasses), someParams, ensures_bind]
      rw [ensures_bind] at hread
      apply hread.mono
      · intro param s₁ hloop
        rw [ensures_bind]
        exact hloop
      · exact fun _ _ h => h

end Parse

end MiniC
