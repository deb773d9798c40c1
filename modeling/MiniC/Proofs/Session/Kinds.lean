/-
Kinds decide the course of a session: the texts and places of the tokens turn up in
its results, but nothing that is read and no cursor depends on them.
-/
import MiniC.Proofs.Likeness.Blurred
import MiniC.Proofs.Session.Barrier

namespace MiniC

open Parse

/-- The node without places, and perhaps without texts. -/
def Node.blurred (keepTexts : Bool) : Node → Node
  | statement s => statement (s.blurred keepTexts)
  | expression e => expression (e.blurred keepTexts)

/-- A result without places, and perhaps without texts. -/
def blurResult {α : Type} (keepTexts : Bool) (blur : Bool → α → α) :
    Except ParseError α → Except ParseError α
  | .ok a => .ok (blur keepTexts a)
  | .error e => .error (e.blurred keepTexts)

/-- Over both lists a session goes the same way: after any operations the cursors stand
at the same index, and all trees and errors so far are of one shape. -/
def Registry.SameCourse (registry : Registry) (keepTexts : Bool)
    (tokens tokens' : List Token) : Prop :=
  ∀ operations,
    (registry.session (.ofTokens tokens) operations).map
        (blurResult keepTexts Node.blurred) =
      (registry.session (.ofTokens tokens') operations).map
        (blurResult keepTexts Node.blurred) ∧
    ∃ i, (registry.stateAfter (.ofTokens tokens) operations).cursor.StandsAt tokens i ∧
      (registry.stateAfter (.ofTokens tokens') operations).cursor.StandsAt tokens' i

/-- How far on a place is says how much is ahead of it. -/
theorem Cursor.StandsAt.add_ahead {tokens : List Token} {i : Nat} {cursor : Cursor}
    (h : cursor.StandsAt tokens i) :
    i + cursor.ahead.length = (ofTokens tokens).ahead.length := by
  have hle := h.le_firstEnd
  have hlt := firstEnd_lt_length tokens
  rw [h.passes.ahead_eq, List.length_append, List.length_take]
  omega

namespace Likeness

variable {L : Likeness} {tokens tokens' : List Token}

/-- After the same operations over alike tokens the cursors are alike. -/
theorem cursor_stateAfter {registry registry' : Registry}
    (hregistry : L.AlikeRegistry registry registry') (hleft : ∀ e, L.expr e e)
    (operations : List Operation) {s s' : ParseState} (h : L.cursor s.cursor s'.cursor) :
    L.cursor (registry.stateAfter s operations).cursor
      (registry'.stateAfter s' operations).cursor := by
  induction operations generalizing s s' with
  | nil => exact h
  | cons operation operations ih =>
      apply ih
      exact (alike_operation hregistry operation (fun _ left _ => hleft left) s s'
        h).run.2

/-- Alike lists are alike with the end markers that are put behind them. -/
theorem cursor_ofTokens_blurred {keepTexts : Bool}
    (h : List.Forall₂ (blurred keepTexts).token tokens tokens') :
    (blurred keepTexts).cursor (.ofTokens tokens) (.ofTokens tokens') := by
  have hlast : tokens'.getLast?.map Token.kind = tokens.getLast?.map Token.kind := by
    rw [← List.getLast?_map, ← List.getLast?_map, map_kind_eq h]
  have hterminated : List.Forall₂ (blurred keepTexts).token (Token.terminated tokens)
      (Token.terminated tokens') := by
    unfold Token.terminated
    rw [hlast]
    split
    · exact h
    · exact List.rel_append h (.cons ⟨rfl, fun _ => ⟨rfl, rfl⟩⟩ .nil)
  exact rows_of_forall₂ hterminated (Cursor.exists_eof_terminated tokens)

/-- Results that are alike are of one shape. -/
theorem blurred_eq_of_result {keepTexts : Bool} {r r' : Except ParseError Node}
    (h : (blurred keepTexts).result r r') :
    blurResult keepTexts Node.blurred r = blurResult keepTexts Node.blurred r' := by
  rcases r with e | (s | e) <;> rcases r' with e' | (s' | e')
  · exact congrArg Except.error h
  · exact h.elim
  · exact h.elim
  · exact h.elim
  · exact congrArg (Except.ok ∘ Node.statement) h
  · exact h.elim
  · exact h.elim
  · exact h.elim
  · exact congrArg (Except.ok ∘ Node.expression) h

/-- Statements that are alike are of one shape, and so are errors. -/
theorem blurred_eq_of_outcome {keepTexts : Bool} {r r' : Except ParseError Stmt}
    (h : (blurred keepTexts).Outcome (blurred keepTexts).stmt r r') :
    blurResult keepTexts Stmt.blurred r = blurResult keepTexts Stmt.blurred r' := by
  cases r <;> cases r'
  · exact congrArg Except.error h
  · exact h.elim
  · exact h.elim
  · exact congrArg Except.ok h

theorem sameCourse_of_forall₂ {keepTexts : Bool} (registry : Registry)
    (h : List.Forall₂ (blurred keepTexts).token tokens tokens') :
    registry.SameCourse keepTexts tokens tokens' := by
  intro operations
  have hstart : (blurred keepTexts).cursor (ParseState.ofTokens tokens).cursor
      (ParseState.ofTokens tokens').cursor := cursor_ofTokens_blurred h
  have hresults := alike_session (.refl registry) (fun _ _ (_ : _ ∈ operations) => rfl)
    hstart
  refine ⟨forall₂_iff_map_eq.1 (hresults.imp fun _ _ => blurred_eq_of_result), ?_⟩
  obtain ⟨i, _, hi⟩ := registry.standsAt_stateAfter (s := .ofTokens tokens) operations
    (Cursor.standsAt_ofTokens tokens)
  obtain ⟨j, _, hj⟩ := registry.standsAt_stateAfter (s := .ofTokens tokens') operations
    (Cursor.standsAt_ofTokens tokens')
  have hcursor := cursor_stateAfter (.refl registry) (fun _ => rfl) operations hstart
  have hij : i = j := by
    have hall := length_ahead hstart
    have hahead := length_ahead hcursor
    have hi' := hi.add_ahead
    have hj' := hj.add_ahead
    change (Cursor.ofTokens tokens).ahead.length = (Cursor.ofTokens tokens').ahead.length
      at hall
    omega
  exact ⟨i, hi, hij ▸ hj⟩

/-- Tokens of the same kinds are alike, if numbers are in range. -/
theorem forall₂_of_converts (hkinds : tokens.map Token.kind = tokens'.map Token.kind)
    (hconverts : ∀ token ∈ tokens ++ tokens', token.converts = true) :
    List.Forall₂ (blurred false).token tokens tokens' := by
  rw [List.forall_mem_append] at hconverts
  obtain ⟨hlength, hpairs⟩ := List.forall₂_iff_zip.1 (forall₂_iff_map_eq.2 hkinds)
  refine List.forall₂_iff_zip.2 ⟨hlength, fun {token token'} hmem => ?_⟩
  obtain ⟨htoken, htoken'⟩ := List.of_mem_zip hmem
  exact ⟨Token.blurred_eq_iff.2 ⟨hpairs hmem, rfl⟩,
    fun _ => ⟨hconverts.1 token htoken, hconverts.2 token' htoken'⟩⟩

/-- Tokens of the same kinds and texts are alike. -/
theorem forall₂_of_texts (hkinds : tokens.map Token.kind = tokens'.map Token.kind)
    (htexts : tokens.map Token.text = tokens'.map Token.text) :
    List.Forall₂ (blurred true).token tokens tokens' := by
  obtain ⟨hlength, hpairs⟩ := List.forall₂_iff_zip.1 (forall₂_iff_map_eq.2 hkinds)
  obtain ⟨_, hsame⟩ := List.forall₂_iff_zip.1 (forall₂_iff_map_eq.2 htexts)
  refine List.forall₂_iff_zip.2 ⟨hlength, fun hmem => ?_⟩
  exact ⟨Token.blurred_eq_iff.2 ⟨hpairs hmem, hsame hmem⟩, nofun⟩

end Likeness

/-- Kinds decide the course of a session, whatever the registry is: over two lists of the
same kinds in which all numbers are in range, the results are of one shape and the
cursors come to the same places.  With the same texts as well, numbers need not be in
range, and nothing but places differs.  So sources whose tokens have the same kinds and
texts are read as the same program. -/
theorem kinds_decide_course :
    (∀ (registry : Registry) (tokens tokens' : List Token),
      tokens.map Token.kind = tokens'.map Token.kind →
      (∀ token ∈ tokens ++ tokens', token.converts = true) →
      registry.SameCourse false tokens tokens') ∧
    (∀ (registry : Registry) (tokens tokens' : List Token),
      tokens.map Token.kind = tokens'.map Token.kind →
      tokens.map Token.text = tokens'.map Token.text →
      registry.SameCourse true tokens tokens') ∧
    ∀ keepComments keepComments' source source' tokens tokens',
      tokenize keepComments source = .ok tokens →
      tokenize keepComments' source' = .ok tokens' →
      tokens.map Token.kind = tokens'.map Token.kind →
      tokens.map Token.text = tokens'.map Token.text →
      blurResult true Stmt.blurred (parseSource keepComments source) =
        blurResult true Stmt.blurred (parseSource keepComments' source') := by
  refine ⟨?_, ?_, ?_⟩
  · intro registry tokens tokens' hkinds hconverts
    exact Likeness.sameCourse_of_forall₂ registry
      (Likeness.forall₂_of_converts hkinds hconverts)
  · intro registry tokens tokens' hkinds htexts
    exact Likeness.sameCourse_of_forall₂ registry
      (Likeness.forall₂_of_texts hkinds htexts)
  · intro _ _ _ _ tokens tokens' htokens htokens' hkinds htexts
    have hstart := Likeness.cursor_ofTokens_blurred
      (Likeness.forall₂_of_texts hkinds htexts)
    have halike := Likeness.alike_program (.refl Registry.standard) (.ofTokens tokens)
      (.ofTokens tokens') hstart
    rw [parseSource, parseSource, htokens, htokens']
    exact Likeness.blurred_eq_of_outcome halike.run.1

/-- Another number and another name; a number out of range at two places; and a comment
and a line feed inside an assignment. -/
theorem kinds_decide_course_sum :
    Registry.standard.SameCourse false
      [⟨.integer, "1", ⟨1, 1⟩⟩, ⟨.plus, "+", ⟨1, 2⟩⟩, ⟨.identifier, "a", ⟨1, 3⟩⟩]
      [⟨.integer, "0x2", ⟨1, 1⟩⟩, ⟨.plus, "+", ⟨7, 1⟩⟩, ⟨.identifier, "b", ⟨7, 5⟩⟩] ∧
    Registry.standard.SameCourse true [⟨.integer, "9223372036854775808", ⟨1, 1⟩⟩]
      [⟨.integer, "9223372036854775808", ⟨3, 9⟩⟩] ∧
    blurResult true Stmt.blurred (parseSource false "a=1;") =
      blurResult true Stmt.blurred (parseSource false "a/**/=\n1;") := by
  obtain ⟨hkinds, htexts, hsources⟩ := kinds_decide_course
  have htokens : tokenize false "a=1;" =
      .ok [⟨.identifier, "a", ⟨1, 1⟩⟩, ⟨.assign, "=", ⟨1, 2⟩⟩, ⟨.integer, "1", ⟨1, 3⟩⟩,
        ⟨.semicolon, ";", ⟨1, 4⟩⟩, .endMarker ⟨1, 5⟩] := by rfl
  have htokens' : tokenize false "a/**/=\n1;" =
      .ok [⟨.identifier, "a", ⟨1, 1⟩⟩, ⟨.assign, "=", ⟨1, 6⟩⟩, ⟨.integer, "1", ⟨2, 1⟩⟩,
        ⟨.semicolon, ";", ⟨2, 2⟩⟩, .endMarker ⟨2, 3⟩] := by rfl
  exact ⟨hkinds _ _ _ (by decide) (by decide), htexts _ _ _ (by decide) (by decide),
    hsources false false _ _ _ _ htokens htokens' (by decide) (by decide)⟩

end MiniC
