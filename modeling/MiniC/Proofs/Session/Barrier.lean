/-
The end marker as a barrier: no operation of a session brings the cursor behind
the first end marker, and nothing that stands behind it changes a result.
-/
import MiniC.Proofs.Likeness.Same

namespace MiniC

open Parse

/-- The index of the first end marker among the tokens that are read. -/
def Token.firstEnd (tokens : List Token) : Nat :=
  (Token.terminated tokens).findIdx Cursor.isEnd

/-- `cursor` stands at index `i` of the tokens that are read, and the first end
marker is not before it. -/
structure Cursor.StandsAt (tokens : List Token) (i : Nat) (cursor : Cursor) :
    Prop where
  rest_eq : cursor.rest = (Token.terminated tokens).drop i
  le_firstEnd : i ≤ Token.firstEnd tokens

/-- An operation carried out when the parses of what stands inside are given.
Operations of a session have all levels left for these. -/
def Operation.parseWithin (registry : Registry) (inner : Inner) :
    Operation → Parse Node
  | program => .statement <$> do
      return .block (← collectUntil (check .eof) inner.statement)
  | statement => .statement <$> inner.statement
  | expression floor => .expression <$> inner.expression floor
  | prefixForm form => .expression <$> form.parse inner
  | infixForm form left => .expression <$> form.parse registry inner left
  | statementForm form => .statement <$> form.parse inner

/-- The state that a session leaves. -/
def Registry.stateAfter (registry : Registry) (s : ParseState)
    (operations : List Operation) : ParseState :=
  operations.foldl (fun s operation => ((operation.parse registry).run s).2) s

namespace Cursor

variable {tokens : List Token} {i : Nat} {cursor start stop : Cursor}

theorem firstEnd_lt_length (tokens : List Token) :
    Token.firstEnd tokens < (Token.terminated tokens).length := by
  obtain ⟨token, htoken, hkind⟩ := exists_eof_terminated tokens
  exact List.findIdx_lt_length_of_exists ⟨token, htoken, by simpa [isEnd] using hkind⟩

/-- The place reached over some tokens is as far on as there are tokens. -/
theorem StandsAt.of_passes {passed : List Token}
    (h : (ofTokens tokens).Passes passed cursor) :
    StandsAt tokens passed.length cursor := by
  have hrest : Token.terminated tokens = passed ++ cursor.rest := h.1
  constructor
  · rw [hrest, List.drop_left]
  · have hnone : passed.findIdx isEnd = passed.length := by
      rw [List.findIdx_eq_length]
      simpa [isEnd] using h.2
    rw [Token.firstEnd, hrest, List.findIdx_append, hnone]
    simp

/-- The tokens up to a place at or before the first end marker can be passed. -/
theorem StandsAt.passes (h : StandsAt tokens i cursor) :
    (ofTokens tokens).Passes ((Token.terminated tokens).take i) cursor := by
  constructor
  · rw [h.rest_eq]
    exact (List.take_append_drop i _).symm
  · intro token htoken
    obtain ⟨j, hj, rfl⟩ := List.mem_take_iff_getElem.1 htoken
    have hlt : j < Token.firstEnd tokens := by
      have hle := h.le_firstEnd
      omega
    simpa [isEnd] using List.not_of_lt_findIdx hlt

theorem standsAt_ofTokens (tokens : List Token) :
    StandsAt tokens 0 (ofTokens tokens) :=
  .of_passes (.refl _)

/-- Going forward from a place one comes to a later one, which the first end
marker is not before either. -/
theorem StandsAt.of_reaches (h : StandsAt tokens i start)
    (hreaches : start.Reaches stop) : ∃ j, i ≤ j ∧ StandsAt tokens j stop := by
  obtain ⟨passed, hpasses⟩ := hreaches
  refine ⟨_, ?_, .of_passes (h.passes.trans hpasses)⟩
  have hle := h.le_firstEnd
  have hlt := firstEnd_lt_length tokens
  rw [List.length_append, List.length_take]
  omega

/-- The token at the cursor is the one at its index. -/
theorem StandsAt.getElem?_eq (h : StandsAt tokens i cursor) :
    (Token.terminated tokens)[i]? = some cursor.current := by
  rw [← List.head?_drop, ← h.rest_eq, cursor.rest_eq_cons]
  rfl

end Cursor

theorem Operation.parse_eq_parseWithin (registry : Registry)
    (operation : Operation) :
    operation.parse registry = operation.parseWithin registry registry.outermost := by
  cases operation <;> rfl

/-- No operation moves the cursor back, with any number of levels left. -/
theorem Operation.parseWithin_forward (registry : Registry) (levels : Nat)
    (operation : Operation) :
    Forward (operation.parseWithin registry (.ofLevels registry levels)) := by
  have hinner := Inner.ofLevels_advances registry levels
  cases operation with
  | program =>
      refine Forward.map _ (Forward.bind ?_ fun _ => forward_pure _)
      exact forward_untilEnd hinner
  | statement =>
      refine Forward.map _ fun s => ?_
      exact (hinner.statement s).mono (fun _ _ h => h.1) (fun _ _ h => h)
  | expression floor => exact (hinner.expression floor).forward.map _
  | prefixForm form => exact (form.parse_consuming hinner).forward.map _
  | infixForm form left => exact (form.parse_consuming hinner left).forward.map _
  | statementForm form =>
      refine Forward.map _ fun s => ?_
      exact (form.parse_advances hinner s).mono (fun _ _ h => h.1) (fun _ _ h => h)

/-- One operation: the cursor goes on from its place to one that is not before
it, and stops at the first end marker if not earlier. -/
theorem Operation.standsAt_run {tokens : List Token} {i : Nat} {s : ParseState}
    (registry : Registry) (levels : Nat) (operation : Operation)
    (h : s.cursor.StandsAt tokens i) :
    ∃ j, i ≤ j ∧ Cursor.StandsAt tokens j
      ((operation.parseWithin registry (.ofLevels registry levels)).run s).2.cursor := by
  have hforward := operation.parseWithin_forward registry levels
  exact h.of_reaches (hforward.reaches_run s)

theorem Registry.stateAfter_append (registry : Registry) (s : ParseState)
    (operations more : List Operation) :
    registry.stateAfter s (operations ++ more) =
      registry.stateAfter (registry.stateAfter s operations) more :=
  List.foldl_append

/-- A whole session: from one operation to the next the cursor goes on. -/
theorem Registry.reaches_stateAfter (registry : Registry) (s : ParseState)
    (operations : List Operation) :
    s.cursor.Reaches (registry.stateAfter s operations).cursor := by
  induction operations generalizing s with
  | nil => exact .refl _
  | cons operation operations ih =>
      have hforward := operation.parseWithin_forward registry maxNesting
      have hfirst := hforward.reaches_run s
      rw [← Registry.outermost, ← operation.parse_eq_parseWithin] at hfirst
      exact hfirst.trans (ih _)

/-- So it does not get behind the first end marker. -/
theorem Registry.standsAt_stateAfter {tokens : List Token} {i : Nat}
    {s : ParseState} (registry : Registry) (operations : List Operation)
    (h : s.cursor.StandsAt tokens i) :
    ∃ j, i ≤ j ∧ (registry.stateAfter s operations).cursor.StandsAt tokens j :=
  h.of_reaches (registry.reaches_stateAfter s operations)

namespace Likeness

/-- Lists with the same tokens up to the first end marker, and this one too. -/
theorem rows_same_of_take_eq {rest rest' : List Token}
    (heof : ∃ token ∈ rest, token.kind = .eof)
    (h : rest'.take (rest.findIdx Cursor.isEnd + 1) =
      rest.take (rest.findIdx Cursor.isEnd + 1)) : same.Rows rest rest' := by
  induction rest generalizing rest' with
  | nil => simp at heof
  | cons token rest ih =>
      cases rest' with
      | nil => simp at h
      | cons token' rest' =>
          rw [List.take_succ_cons, List.take_succ_cons, List.cons.injEq] at h
          obtain ⟨htoken, hrest⟩ := h
          by_cases hkind : token.kind = .eof
          · exact .last htoken.symm hkind
          · have hfirst : Cursor.isEnd token = false := by
              simpa [Cursor.isEnd] using hkind
            rw [List.findIdx_cons, hfirst] at hrest
            refine .next htoken.symm (ih ?_ hrest)
            simpa [hkind] using heof

end Likeness

/-- Over lists that agree up to the first end marker, a session comes to the
same results. -/
theorem Registry.session_eq_of_take_eq (registry : Registry)
    {tokens tokens' : List Token}
    (h : (Token.terminated tokens').take (Token.firstEnd tokens + 1) =
      (Token.terminated tokens).take (Token.firstEnd tokens + 1))
    (operations : List Operation) :
    registry.session (.ofTokens tokens') operations =
      registry.session (.ofTokens tokens) operations := by
  have hcursor : Likeness.same.cursor (ParseState.ofTokens tokens).cursor
      (ParseState.ofTokens tokens').cursor :=
    Likeness.rows_same_of_take_eq (Cursor.exists_eof_terminated tokens) h
  have hresults := Likeness.alike_session (.refl registry)
    (fun _ _ (_ : _ ∈ operations) => rfl) hcursor
  have hsame := hresults.imp fun _ _ => Likeness.eq_of_result_same
  rw [List.forall₂_eq_eq_eq] at hsame
  exact hsame.symm

/-- The end marker is a barrier.  There is one among the tokens that are read.
Whatever the registry is and whatever is asked for in a session, also after
operations that failed, the cursor stands at a token, goes no way but forward
and never stands behind the first end marker.  From any such place, to take one
token keeps to this, and so does an operation with any number of levels left.
What stands behind the first end marker has no part in the results. -/
theorem session_stops_at_firstEnd (registry : Registry) (tokens : List Token) :
    Token.firstEnd tokens < (Token.terminated tokens).length ∧
    (∀ operations more, ∃ i j, i ≤ j ∧
      (registry.stateAfter (.ofTokens tokens) operations).cursor.StandsAt tokens i ∧
      (registry.stateAfter (.ofTokens tokens) (operations ++ more)).cursor.StandsAt
        tokens j) ∧
    (∀ cursor i, Cursor.StandsAt tokens i cursor →
      (Token.terminated tokens)[i]? = some cursor.current ∧
      ∃ j, i ≤ j ∧ cursor.advance.StandsAt tokens j) ∧
    (∀ levels operation s i, s.cursor.StandsAt tokens i →
      ∃ j, i ≤ j ∧ Cursor.StandsAt tokens j
        ((Operation.parseWithin registry (.ofLevels registry levels) operation).run
          s).2.cursor) ∧
    ∀ tokens', (Token.terminated tokens').take (Token.firstEnd tokens + 1) =
        (Token.terminated tokens).take (Token.firstEnd tokens + 1) →
      ∀ operations, registry.session (.ofTokens tokens') operations =
        registry.session (.ofTokens tokens) operations := by
  refine ⟨Cursor.firstEnd_lt_length tokens, ?_, ?_, ?_, ?_⟩
  · intro operations more
    have hstart : (ParseState.ofTokens tokens).cursor.StandsAt tokens 0 :=
      Cursor.standsAt_ofTokens tokens
    obtain ⟨i, _, hi⟩ := registry.standsAt_stateAfter operations hstart
    obtain ⟨j, hij, hj⟩ := registry.standsAt_stateAfter more hi
    exact ⟨i, j, hij, hi, registry.stateAfter_append _ operations more ▸ hj⟩
  · intro cursor i hi
    exact ⟨hi.getElem?_eq, hi.of_reaches cursor.reaches_advance⟩
  · exact fun levels operation s i hi => operation.standsAt_run registry levels hi
  · exact fun tokens' h => registry.session_eq_of_take_eq h

/-- A grammar in which the end marker begins a statement and an expression, and
goes on with one. -/
def Registry.endOpens : Registry :=
  empty.registerAll [.infixForm .eof .additive .binary, .prefixForm .eof .grouping,
    .statementForm .eof .comment, .prefixForm .identifier .primary]

/-- The name behind the end marker is never read, though one comment after the
other is made of the end marker. -/
theorem session_stops_at_firstEnd_endOpens :
    let tokens : List Token := [.sample .identifier, .sample .eof, .sample .identifier]
    let ended : List Token := [.sample .identifier, .sample .eof]
    (Token.terminated ended).take 2 = (Token.terminated tokens).take 2 ∧
    (Cursor.ofTokens tokens).StandsAt tokens 0 ∧
    (∃ j, (Cursor.ofTokens tokens).advance.StandsAt tokens j) ∧
    ∀ operations, Registry.endOpens.session (.ofTokens ended) operations =
      Registry.endOpens.session (.ofTokens tokens) operations := by
  intro tokens ended
  have hstart : (Cursor.ofTokens tokens).StandsAt tokens 0 := ⟨rfl, Nat.zero_le _⟩
  have hagree : (Token.terminated ended).take (Token.firstEnd tokens + 1) =
      (Token.terminated tokens).take (Token.firstEnd tokens + 1) := by decide
  obtain ⟨_, _, hplace, _, hsame⟩ :=
    session_stops_at_firstEnd Registry.endOpens tokens
  obtain ⟨_, j, _, hj⟩ := hplace (.ofTokens tokens) 0 hstart
  exact ⟨by decide, hstart, ⟨j, hj⟩, hsame ended hagree⟩

end MiniC
