/-
Blame: which token an error is about, and what a failed parse has shown about
the tokens before it.
-/
import MiniC.Nesting
import MiniC.Proofs.Parse

namespace MiniC

/-- Some token of a kind. -/
def Token.sample (kind : TokenKind) : Token := ⟨kind, "", .nowhere⟩

theorem Token.sample_kind (kind : TokenKind) : (sample kind).kind = kind := rfl

namespace ParseError

/-- The token that an error is about. -/
def offender? : ParseError → Option Token
  | missingPrefix found | missingInfix found | expected _ _ found => some found
  | invalidNumber literal => some literal
  | _ => none

/-- How many tokens are passed with the one that an error is about.  A number
is passed before it turns out to be beyond its range; any other token stays at
the cursor. -/
def overshoot : ParseError → Nat
  | invalidNumber _ => 1
  | _ => 0

/-- The error is about the token that follows `before`. -/
def Blames (e : ParseError) (start : Cursor) (before : List Token)
    (stop : Cursor) : Prop :=
  match e with
  | missingPrefix found | missingInfix found | expected _ _ found =>
      start.Passes before stop ∧ stop.current = found
  | invalidNumber literal => start.Passes (before ++ [literal]) stop
  | _ => False

/-- Who starts earlier blames the same token. -/
theorem Blames.prepend {e : ParseError} {start middle stop : Cursor}
    {first before : List Token} (hpasses : start.Passes first middle)
    (h : e.Blames middle before stop) : e.Blames start (first ++ before) stop := by
  cases e with
  | scan error => exact h
  | missingPrefix found => exact ⟨hpasses.trans h.1, h.2⟩
  | missingInfix found => exact ⟨hpasses.trans h.1, h.2⟩
  | expected kind context found => exact ⟨hpasses.trans h.1, h.2⟩
  | invalidNumber literal =>
      change start.Passes (first ++ before ++ [literal]) stop
      rw [List.append_assoc]
      exact hpasses.trans h
  | nestingTooDeep limit location => exact h

/-- The token to blame stands behind `before`, and either the parse stopped at
it or it was passed last. -/
theorem Blames.cases_offender {e : ParseError} {start stop : Cursor}
    {before : List Token} {found : Token} (h : e.Blames start before stop)
    (hfound : e.offender? = some found) :
    (e.overshoot = 0 ∧ start.Passes before stop ∧ stop.current = found) ∨
      (e.overshoot = 1 ∧ start.Passes (before ++ [found]) stop) := by
  cases e with
  | scan error => cases hfound
  | missingPrefix token =>
      obtain rfl := Option.some.inj hfound
      exact Or.inl ⟨rfl, h⟩
  | missingInfix token =>
      obtain rfl := Option.some.inj hfound
      exact Or.inl ⟨rfl, h⟩
  | expected kind context token =>
      obtain rfl := Option.some.inj hfound
      exact Or.inl ⟨rfl, h⟩
  | invalidNumber literal =>
      obtain rfl := Option.some.inj hfound
      exact Or.inr ⟨rfl, h⟩
  | nestingTooDeep limit location => cases hfound

/-- The token to blame is the one at the cursor where `before` has been
passed. -/
theorem Blames.exists_passes {e : ParseError} {start stop : Cursor}
    {before : List Token} {found : Token} (h : e.Blames start before stop)
    (hfound : e.offender? = some found) :
    ∃ middle : Cursor, start.Passes before middle ∧ middle.current = found := by
  rcases h.cases_offender hfound with ⟨_, hbefore, hcurrent⟩ | ⟨_, hlast⟩
  · exact ⟨stop, hbefore, hcurrent⟩
  · obtain ⟨middle, hbefore, hafter⟩ := hlast.split
    exact ⟨middle, hbefore, hafter.current_eq⟩

/-- The cursor is as far behind `before` as the error goes. -/
theorem Blames.exists_passes_stop {e : ParseError} {start stop : Cursor}
    {before : List Token} {found : Token} (h : e.Blames start before stop)
    (hfound : e.offender? = some found) :
    ∃ passed, start.Passes passed stop ∧
      passed.length = before.length + e.overshoot := by
  rcases h.cases_offender hfound with ⟨hzero, hbefore, _⟩ | ⟨hone, hlast⟩
  · exact ⟨before, hbefore, by rw [hzero]; rfl⟩
  · exact ⟨_, hlast, by rw [hone, List.length_append]; rfl⟩

end ParseError

namespace Parse

/-- A parse fails because it goes too deep, or because of a token before which
everything could still have come to a good end. -/
def Fails (viable : List Token → Prop) (start : Cursor) (e : ParseError)
    (s : ParseState) : Prop :=
  (∃ location, e = .nestingTooDeep maxNesting location) ∨
    ∃ before, e.Blames start before s.cursor ∧ ∃ more, viable (before ++ more)

section

variable {viable viable' : List Token → Prop} {start middle : Cursor}
  {s : ParseState}

/-- A part that fails makes the whole fail, if any good end of the part leads to
a good end of the whole. -/
theorem Fails.prepend {e : ParseError} {first : List Token}
    (h : Fails viable' middle e s) (hpasses : start.Passes first middle)
    (hviable : ∀ tokens, viable' tokens →
      ∃ more, viable (first ++ tokens ++ more)) :
    Fails viable start e s := by
  rcases h with hdeep | ⟨before, hblames, more, hmore⟩
  · exact Or.inl hdeep
  · obtain ⟨more', hmore'⟩ := hviable _ hmore
    refine Or.inr ⟨first ++ before, hblames.prepend hpasses, more ++ more', ?_⟩
    simpa [List.append_assoc] using hmore'

theorem Fails.expected {kind : TokenKind} {context : String}
    {before : List Token} (hpasses : start.Passes before s.cursor)
    (more : List Token) (hmore : viable (before ++ more)) :
    Fails viable start (.expected kind context s.cursor.current) s :=
  Or.inr ⟨before, ⟨hpasses, rfl⟩, more, hmore⟩

end

end Parse

end MiniC
