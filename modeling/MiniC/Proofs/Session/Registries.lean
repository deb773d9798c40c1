/-
Which registrations a session can tell apart: of the kinds that it meets no more
than the last ones, and of other kinds none.
-/
import MiniC.Proofs.Registry.Last
import MiniC.Proofs.Session.Kinds

namespace MiniC

open Registration

/-- With either registry every session over the tokens comes to the same results,
errors among them, and leaves the same cursor. -/
def Registry.SameSessions (registry registry' : Registry) (tokens : List Token) : Prop :=
  ∀ operations,
    registry'.session (.ofTokens tokens) operations =
      registry.session (.ofTokens tokens) operations ∧
    (registry'.stateAfter (.ofTokens tokens) operations).cursor =
      (registry.stateAfter (.ofTokens tokens) operations).cursor

namespace Likeness

/-- A list is like itself, with the end marker that is put behind it. -/
theorem cursor_among (tokens : List Token) :
    (among (Token.terminated tokens)).cursor (.ofTokens tokens) (.ofTokens tokens) :=
  rows_of_forall₂ (List.forall₂_same.2 fun _ h => ⟨rfl, h⟩)
    (Cursor.exists_eof_terminated tokens)

end Likeness

/-- Registries that know the same about the kinds that are met do the same. -/
theorem Registry.sameSessions_of_entry_eq {registry registry' : Registry}
    {tokens : List Token}
    (h : ∀ token ∈ Token.terminated tokens,
      registry'.entry token.kind = registry.entry token.kind) :
    registry.SameSessions registry' tokens := by
  intro operations
  have hregistry : (Likeness.among (Token.terminated tokens)).AlikeRegistry registry
      registry' := by
    rintro token _ ⟨rfl, htoken⟩
    exact h token htoken
  have hstart : (Likeness.among (Token.terminated tokens)).cursor
      (ParseState.ofTokens tokens).cursor (ParseState.ofTokens tokens).cursor :=
    Likeness.cursor_among tokens
  constructor
  · have hresults := Likeness.alike_session hregistry
      (fun _ _ (_ : _ ∈ operations) => rfl) hstart
    have hsame := hresults.imp fun _ _ => Likeness.eq_of_result_same
    rw [List.forall₂_eq_eq_eq] at hsame
    exact hsame.symm
  · have hcursor := Likeness.cursor_stateAfter hregistry (fun _ => rfl) operations hstart
    exact Likeness.eq_of_reaches hcursor
      (registry.reaches_stateAfter _ operations)
      (registry'.reaches_stateAfter _ operations)

/-- Of the registrations that a registry is made from, in any order and with any
sorts mixed, it knows this about each kind: the power that was registered last,
and the last form of each sort.  A session over some tokens can tell no more, and
of no kind that is not among them.  So it is no matter what is registered for other kinds, in which order the
registrations of different kinds come, and what is overwritten later on. -/
theorem last_registrations_count :
    (∀ (registrations : List Registration) (kind : TokenKind),
      (Registry.empty.registerAll registrations).entry kind =
        ⟨lastPower kind registrations, lastOf prefixForm? kind registrations,
          lastOf infixForm? kind registrations,
          lastOf statementForm? kind registrations⟩) ∧
    (∀ (registrations registrations' : List Registration) (tokens : List Token),
      (∀ token ∈ Token.terminated tokens,
        SameLast token.kind registrations registrations') →
      (Registry.empty.registerAll registrations).SameSessions
        (.registerAll .empty registrations') tokens) ∧
    (∀ (registrations registrations' : List Registration) (tokens : List Token),
      (∀ token ∈ Token.terminated tokens,
        ofKind token.kind registrations' = ofKind token.kind registrations) →
      (Registry.empty.registerAll registrations).SameSessions
        (.registerAll .empty registrations') tokens) ∧
    ∀ (before between after : List Registration) (earlier later : Registration)
      (tokens : List Token), later.Overwrites earlier →
      (Registry.empty.registerAll
        (before ++ earlier :: (between ++ later :: after))).SameSessions
          (.registerAll .empty (before ++ (between ++ later :: after))) tokens := by
  refine ⟨Registry.entry_registerAll_empty, ?_, ?_, ?_⟩
  · intro registrations registrations' tokens h
    exact Registry.sameSessions_of_entry_eq fun token htoken =>
      Registry.entry_eq_of_sameLast (h token htoken)
  · intro registrations registrations' tokens h
    exact Registry.sameSessions_of_entry_eq fun token htoken =>
      Registry.entry_eq_of_sameLast (sameLast_of_ofKind_eq (h token htoken))
  · intro before between after earlier later tokens h
    exact Registry.sameSessions_of_entry_eq fun token _ =>
      Registry.entry_eq_of_sameLast (h.sameLast token.kind before between after)

/-- A plus that would assign, without binding, is made to add after all, and a minus
is there that is never met; the name and the plus change places; and the first of two
registrations of the plus is left out.  What is known of the plus in the end is enough
to read the sum. -/
theorem last_registrations_count_sum :
    let tokens : List Token := [.sample .identifier, .sample .plus, .sample .identifier]
    let name : Registration := .prefixForm .identifier .primary
    let sum : Registration := .infixForm .plus .additive .binary
    let mixed : List Registration :=
      [sum, .infixForm .minus .additive .binary, .infixForm .plus .default .assignment,
        .infixForm .plus .additive .binary, name]
    (Registry.empty.registerAll mixed).entry .plus =
      ⟨.additive, none, some .binary, none⟩ ∧
    (Registry.empty.registerAll [name, sum]).SameSessions (.registerAll .empty mixed)
      tokens ∧
    (Registry.empty.registerAll mixed).session (.ofTokens tokens) [.expression .default] =
      [.ok (.expression (.binary (.symbol "") (.sample .plus) (.symbol "")))] ∧
    (Registry.empty.registerAll [name, sum]).SameSessions
      (.registerAll .empty [sum, name]) tokens ∧
    (Registry.empty.registerAll
      [.infixForm .plus .multiplicative .assignment, name, sum]).SameSessions
        (.registerAll .empty [name, sum]) tokens := by
  intro tokens name sum mixed
  obtain ⟨hknows, hlast, hkinds, hoverwritten⟩ := last_registrations_count
  have hmixed : (Registry.empty.registerAll [name, sum]).SameSessions
      (.registerAll .empty mixed) tokens := hlast _ _ tokens (by decide)
  refine ⟨(hknows mixed .plus).trans (by decide), hmixed, ?_,
    hkinds _ _ tokens (by decide), hoverwritten [] [name] [] _ sum tokens .infixForm⟩
  rw [(hmixed [.expression .default]).1]
  rfl

end MiniC
