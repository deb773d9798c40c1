/-
What reading an expression recognizes: exactly the phrases of the grammar, read
as far as operators above the floor go.
-/
import MiniC.Proofs.Expression.Complete

namespace MiniC

open Grammar Parse Registry

theorem Grammar.Phrase.yield_ne_nil (phrase : Phrase) : phrase.yield ≠ [] := by
  cases phrase <;> simp [Phrase.yield]

/-- Passing from one place of a list to another is passing what lies between. -/
theorem Cursor.passes_drop_drop_iff {cursor : Cursor} {i j : Nat}
    {tokens : List Token} (hne : tokens ≠ []) :
    (cursor.drop i).Passes tokens (cursor.drop j) ↔
      tokens = (cursor.ahead.drop i).take (j - i) := by
  constructor
  · intro hpasses
    have hahead := hpasses.ahead_eq
    rw [Cursor.ahead_drop, Cursor.ahead_drop] at hahead
    have hlength := congrArg List.length hahead
    have hpos := List.length_pos_iff.2 hne
    simp only [List.length_append, List.length_drop] at hlength
    rw [hahead]
    by_cases hj : j ≤ cursor.ahead.length
    · rw [List.take_left']
      omega
    · rw [List.drop_eq_nil_of_le (by omega), List.append_nil,
        List.take_of_length_le]
      omega
  · rintro rfl
    have hij : i < j := by
      apply Nat.lt_of_not_le
      intro hle
      apply hne
      rw [Nat.sub_eq_zero_of_le hle, List.take_zero]
    have hpasses := (cursor.drop i).passes_take_drop (j - i)
    rwa [Cursor.ahead_drop, Cursor.drop_drop,
      Nat.add_sub_cancel' (Nat.le_of_lt hij)] at hpasses

/-- Unless it goes too deep, reading an expression from place `i` of a list of
tokens succeeds with `e` at place `j` exactly when the tokens between are those
of a phrase for `e` above the floor, and the token at `j` does not bind above
the floor. -/
theorem expression_read_iff (tokens : List Token) (i levels : Nat)
    (floor : Power) (log : Array Record) {result : Except ParseError Expr}
    {stop : ParseState}
    (hrun : ((Inner.ofLevels standard levels).expression floor).run
      ⟨(Cursor.ofTokens tokens).drop i, log⟩ = (result, stop))
    (hlimit : ∀ limit location,
      result ≠ .error (.nestingTooDeep limit location))
    (e : Expr) (j : Nat) :
    (result = .ok e ∧ stop.cursor = (Cursor.ofTokens tokens).drop j) ↔
      standard.power ((Cursor.ofTokens tokens).drop j).kind ≤ floor ∧
        ∃ phrase : Phrase, phrase.WellFormed ∧ phrase.Above floor ∧
          phrase.yield = ((Cursor.ofTokens tokens).ahead.drop i).take (j - i) ∧
          phrase.erase = e := by
  constructor
  · rintro ⟨rfl, hstop⟩
    obtain ⟨_, _, ⟨phrase, hphrase, habove, rfl, herase, _⟩, _, hpasses, hpower⟩ :=
      (expression_sound levels floor _).of_run hrun
    rw [hstop] at hpasses hpower
    exact ⟨hpower, phrase, hphrase, habove,
      (Cursor.passes_drop_drop_iff phrase.yield_ne_nil).1 hpasses, herase⟩
  · rintro ⟨hpower, phrase, hphrase, habove, hyield, rfl⟩
    have hpasses := (Cursor.passes_drop_drop_iff phrase.yield_ne_nil).2 hyield
    have hexpression : Expression floor phrase.yield phrase.erase
        (phrase.depth + 1) := ⟨phrase, hphrase, habove, rfl, rfl, rfl⟩
    have hread := (expression_complete levels hexpression
      (s := ⟨(Cursor.ofTokens tokens).drop i, log⟩) hpasses hpower).of_run hrun
    cases result with
    | ok e =>
        obtain ⟨_, rfl, hstop⟩ := hread
        exact ⟨rfl, hstop⟩
    | error e =>
        obtain ⟨_, location, rfl⟩ := hread
        exact absurd rfl (hlimit _ location)

/-- A name, less a name, less a name, and a semicolon. -/
def Token.differences : List Token :=
  [.sample .identifier, .sample .minus, .sample .identifier, .sample .minus,
   .sample .identifier, .sample .semicolon]

/-- Of two differences in a row, the first one is the left operand of the
second. -/
theorem expression_read_differences :
    ∃ phrase : Phrase, phrase.WellFormed ∧ phrase.Above .default ∧
      phrase.yield = Token.differences.take 5 ∧
      phrase.erase = .binary (.binary (.symbol "") (.sample .minus) (.symbol ""))
        (.sample .minus) (.symbol "") := by
  have hread := expression_read_iff Token.differences 0 2 .default #[] rfl
    (fun _ _ h => nomatch h)
    (.binary (.binary (.symbol "") (.sample .minus) (.symbol ""))
      (.sample .minus) (.symbol "")) 5
  exact (hread.1 ⟨rfl, rfl⟩).2

end MiniC
