/-
Correct prefixes: a program is rejected at the first token with which no program
can go on.
-/
import MiniC.Proofs.Locality
import MiniC.Proofs.Program.Recognition

namespace MiniC

open Grammar Parse Registry

namespace Cursor

/-- Where `before` has been passed, the list goes on with the token at the
cursor. -/
theorem Passes.terminated_eq {tokens before : List Token} {stop : Cursor}
    (h : (ofTokens tokens).Passes before stop) :
    ∃ rest, Token.terminated tokens = before ++ stop.current :: rest :=
  ⟨stop.rest.tail, by rw [← stop.rest_eq_cons]; exact h.1⟩

/-- A list begins where its first token stands, be it the end marker. -/
theorem current_ofTokens (token : Token) (more : List Token) :
    (ofTokens (token :: more)).current = token := by
  have hrest : ∃ more', (ofTokens (token :: more)).rest = token :: more' := by
    change ∃ more', Token.terminated (token :: more) = _
    unfold Token.terminated
    split
    · exact ⟨_, rfl⟩
    · exact ⟨_, List.cons_append⟩
  obtain ⟨more', hrest⟩ := hrest
  exact current_eq_of_rest_eq hrest

end Cursor

/-- A parse that fails over a token fails over the first one that no program has
in its place: the error is about the token at `k`, what stands before it begins
a program, and whatever stands behind it the error is the same. -/
theorem program_blames_first_wrong (tokens : List Token) {e : ParseError}
    {stop : ParseState} {found : Token}
    (hrun : standard.parseProgram.run (.ofTokens tokens) = (.error e, stop))
    (hfound : e.offender? = some found) :
    ∃ k, stop.cursor = (Cursor.ofTokens tokens).drop (k + e.overshoot) ∧
      k + e.overshoot ≤ (Cursor.ofTokens tokens).ahead.length ∧
      (Token.terminated tokens)[k]? = some found ∧
      (∃ more result,
        parseTokens ((Token.terminated tokens).take k ++ more) = .ok result) ∧
      ∀ more,
        parseTokens ((Token.terminated tokens).take (k + 1) ++ more) =
          .error e := by
  have hfails := (parseProgram_sound (.ofTokens tokens)).of_run hrun
  have hsettled := (parseProgram_local standard (.ofTokens tokens)).of_run hrun
  rcases hfails with ⟨location, rfl⟩ | ⟨before, hblames, more, hviable⟩
  · cases hfound
  obtain ⟨passed, hpassed, hlength⟩ := hblames.exists_passes_stop hfound
  obtain ⟨middle, hbefore, rfl⟩ := hblames.exists_passes hfound
  obtain ⟨rest, hterminated⟩ := hbefore.terminated_eq
  have hendless : Endless before := fun _ htoken => hbefore.kind_ne_eof htoken
  have htake : (Token.terminated tokens).take (before.length + 1) =
      before ++ [middle.current] := by
    rw [hterminated, List.take_length_add_append]
    rfl
  refine ⟨before.length, ?_, ?_, ?_, ?_, ?_⟩
  · rw [← hlength]
    exact hpassed.eq_drop
  · have hahead : (Cursor.ofTokens tokens).ahead = passed ++ stop.cursor.ahead :=
      hpassed.ahead_eq
    rw [← hlength, hahead, List.length_append]
    exact Nat.le_add_right _ _
  · rw [hterminated, List.getElem?_append_right (Nat.le_refl _)]
    simp
  · obtain ⟨body, levels, hprogram, hlevels⟩ := hviable
    refine ⟨more, .block body, ?_⟩
    rw [hterminated, List.take_left]
    exact parseTokens_of_program hprogram hlevels
  · intro more
    have hother := Cursor.passes_ofTokens hendless middle.current more
    obtain ⟨s', hrun'⟩ := hsettled.elsewhere hblames hfound hother
      (Cursor.current_ofTokens _ _)
    rw [htake, List.append_assoc]
    have hrun'' : standard.parseProgram
        (.ofTokens (before ++ ([middle.current] ++ more))) = .error e s' := hrun'
    unfold parseTokens Parse.run
    rw [hrun'']

/-- A declaration whose initial value is missing. -/
def Token.withoutInitial : List Token :=
  [.sample .kwInt, .sample .identifier, .sample .assign, .sample .semicolon]

/-- The semicolon is blamed, and so it is whatever follows. -/
theorem program_blames_withoutInitial :
    ∃ k, (Token.terminated Token.withoutInitial)[k]? = some (.sample .semicolon) ∧
      ∀ more,
        parseTokens ((Token.terminated Token.withoutInitial).take (k + 1) ++ more) =
          .error (.missingPrefix (.sample .semicolon)) := by
  obtain ⟨k, _, _, hfound, _, hsame⟩ :=
    program_blames_first_wrong Token.withoutInitial rfl rfl
  exact ⟨k, hfound, hsame⟩

end MiniC
