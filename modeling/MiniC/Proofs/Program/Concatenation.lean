/-
Programs one after the other: two source texts that a line feed joins are read as
the statements of the first and those of the second.
-/
import MiniC.Proofs.Likeness.Moved
import MiniC.Proofs.Likeness.Reading
import MiniC.Proofs.Program.Recognition

namespace MiniC

open Grammar Parse Registry

/-- What a program is read as depends on what its loop ends with. -/
theorem parseTokens_eq_loop (tokens : List Token) :
    parseTokens tokens =
      match loop standard.programTurn #[] (.ofTokens tokens) with
      | .ok found _ => .ok (.block found.toList)
      | .error e _ => .error e := by
  have hprogram : standard.parseProgram = (do
      let found ← loop standard.programTurn #[]
      return .block found.toList) := by
    rw [Registry.parseProgram, collectUntil_eq, bind_assoc]
    rfl
  unfold parseTokens Parse.run
  rw [hprogram]
  cases hrun : loop standard.programTurn #[] (.ofTokens tokens) with
  | ok found s' => rw [bind_of_ok hrun]; rfl
  | error e s' => rw [bind_of_error hrun]

/-- A statement of the grammar is read in one turn. -/
theorem Grammar.Statement.programTurn_eq {tokens : List Token} {statement : Stmt}
    {n : Nat} (h : Statement tokens statement n) (hn : n ≤ maxNesting)
    (found : Array Stmt) {s : ParseState} {stop : Cursor}
    (hpasses : s.cursor.Passes tokens stop) :
    ∃ s', s'.cursor = stop ∧
      standard.programTurn found s = .ok (some (found.push statement)) s' := by
  obtain ⟨first, rest, rfl, _⟩ := h.exists_cons
  have hkind : s.cursor.kind ≠ .eof := by
    rw [hpasses.kind_eq]
    exact hpasses.kind_ne_eof List.mem_cons_self
  have hread := (inner_complete maxNesting).statement h hpasses
  cases hrun : standard.outermost.statement s with
  | error e s' =>
      obtain ⟨hlt, _⟩ := hread.of_error hrun
      exact absurd hn (Nat.not_le_of_lt hlt)
  | ok statement' s' =>
      obtain ⟨_, rfl, hcursor⟩ := hread.of_ok hrun
      refine ⟨s', hcursor, ?_⟩
      have hcheck : check .eof s = .ok false s := by
        rw [check]
        simp [hkind]
      rw [Registry.programTurn, collectTurn, bind_of_ok hcheck, if_neg Bool.false_ne_true,
        bind_of_ok hrun]
      rfl

/-- Statements in a row are read turn by turn, and the loop goes on behind
them. -/
theorem Grammar.Sequence.loop_eq {tokens : List Token} {body : List Stmt} {n : Nat}
    (h : Sequence Statement tokens body n) (hn : n ≤ maxNesting)
    (found : Array Stmt) {s : ParseState} {stop : Cursor}
    (hpasses : s.cursor.Passes tokens stop) :
    ∃ s', s'.cursor = stop ∧
      loop standard.programTurn found s =
        loop standard.programTurn (found ++ body.toArray) s' := by
  induction h generalizing found s with
  | nil =>
      obtain rfl := Cursor.passes_nil_iff.1 hpasses
      exact ⟨s, rfl, by rw [Array.append_empty]⟩
  | cons hstatement _ ih =>
      obtain ⟨hfirstLevels, hrestLevels⟩ := Nat.max_le.1 hn
      obtain ⟨middle, hfirst, hrest⟩ := hpasses.split
      obtain ⟨s₁, rfl, hturn⟩ := hstatement.programTurn_eq hfirstLevels found hfirst
      obtain ⟨s', hcursor, hloop⟩ := ih hrestLevels (found.push _) hrest
      refine ⟨s', hcursor, ?_⟩
      rw [Parse.loop_eq standard.programTurn_progressing, bind_of_ok hturn]
      simpa using hloop

/-- Tokens that close a list are all that is read, and so are the same tokens
further down. -/
theorem Likeness.cursor_moved {tokens : List Token}
    (hlast : tokens.getLast?.map Token.kind = some .eof) (lines bytes : Nat) :
    (Likeness.moved lines bytes).cursor (.ofTokens tokens)
      (.ofTokens (tokens.map (Token.moved lines))) := by
  have hmoved : (tokens.map (Token.moved lines)).getLast?.map Token.kind =
      some .eof := by
    rw [List.getLast?_map, Option.map_map]
    exact hlast
  have heof := Cursor.exists_eof_terminated tokens
  change (Likeness.moved lines bytes).Rows (Token.terminated tokens)
    (Token.terminated (tokens.map (Token.moved lines)))
  rw [Token.terminated, if_pos hlast] at heof ⊢
  rw [Token.terminated, if_pos hmoved]
  exact rows_moved lines bytes heof

/-- Behind a program, tokens are read as they are at the start, if some lines
further down. -/
theorem parseTokens_append {first more : List Token} {body : List Stmt} {n : Nat}
    (hfirst : Program first body n) (hn : n ≤ maxNesting)
    (hlast : more.getLast?.map Token.kind = some .eof) (lines bytes : Nat) :
    match parseTokens more with
    | .ok root => ∃ body', root = .block body' ∧
        parseTokens (first ++ more.map (.moved lines)) =
          .ok (.block (body ++ body'.map (.moved lines)))
    | .error e => parseTokens (first ++ more.map (.moved lines)) =
        .error (e.moved lines bytes) := by
  have hpasses : (Cursor.ofTokens (first ++ more.map (Token.moved lines))).Passes
      first (.ofTokens (more.map (Token.moved lines))) := by
    obtain ⟨token, rest, rfl⟩ : ∃ token rest, more = token :: rest := by
      apply List.exists_cons_of_ne_nil
      rintro rfl
      cases hlast
    exact Cursor.passes_ofTokens hfirst.endless _ _
  obtain ⟨s', hcursor, hloop⟩ := Sequence.loop_eq hfirst hn #[]
    (s := .ofTokens (first ++ more.map (Token.moved lines))) hpasses
  have hfound : (Likeness.moved lines bytes).statements body #[]
      (#[] ++ body.toArray) := ⟨[], by simp, .nil⟩
  have hstart : (Likeness.moved lines bytes).cursor (.ofTokens more) s'.cursor :=
    hcursor ▸ Likeness.cursor_moved hlast lines bytes
  -- Both loops are where the second list begins: the one has found nothing, the
  -- other has found all of the first program.
  have hends := Likeness.alike_programLoop (.refl standard) hfound
    (.ofTokens more) s' hstart
  rw [parseTokens_eq_loop, parseTokens_eq_loop, hloop]
  cases hrun : loop standard.programTurn #[] (.ofTokens more) with
  | ok found t =>
      obtain ⟨found', t', hrun', ⟨body', hbody, hmoved⟩, _⟩ := hends.of_ok hrun
      rw [hrun']
      refine ⟨found.toList, rfl, ?_⟩
      rw [← Stmt.movedAll_eq_map, Stmt.movedAll_eq_of_forall₂ hmoved, ← hbody]
  | error e t =>
      obtain ⟨e', t', hrun', herror, _⟩ := hends.of_error hrun
      rw [hrun']
      exact congrArg Except.error herror.symm

/-- All that stands before the end marker is ahead at the start. -/
theorem Cursor.ahead_ofTokens_append {tokens : List Token} (h : Endless tokens)
    (location : Location) :
    (Cursor.ofTokens (tokens ++ [.endMarker location])).ahead = tokens := by
  rw [ahead_ofTokens, List.takeWhile_append_of_pos]
  · simp [Token.endMarker]
  · exact fun token htoken => decide_eq_true (h token htoken)

/-- Programs may be put one behind the other.  Where the first text is read as a
block, the two texts with a line feed between them are read as the statements of
the first and those of the second, whose operators stand further down: by one
line more than the first text has line feeds.  Where the second text fails, both
together fail with the same error, further down by as many lines and, if it is
an error of the scanner, further on by one byte more than the first text has. -/
theorem programs_concatenate {keepComments : Bool} {first : String}
    {body : List Stmt} (h : parseSource keepComments first = .ok (.block body))
    (second : String) :
    match parseSource keepComments second with
    | .ok root => ∃ body', root = .block body' ∧
        parseSource keepComments (first ++ "\n" ++ second) =
          .ok (.block (body ++
            body'.map (.moved (1 + first.toList.count '\n'))))
    | .error e => parseSource keepComments (first ++ "\n" ++ second) =
        .error (e.moved (1 + first.toList.count '\n')
          (first.utf8ByteSize + 1)) := by
  unfold parseSource at h ⊢
  cases hfirst : tokenize keepComments first with
  | error e =>
      rw [hfirst] at h
      cases h
  | ok tokens =>
      rw [hfirst] at h
      obtain ⟨found, location, rfl, hkinds, hjoined⟩ := tokenize_append hfirst second
      obtain ⟨_, levels, hbody, hprogram, hlevels⟩ := program_of_parseTokens h
      cases hbody
      rw [Cursor.ahead_ofTokens_append hkinds] at hprogram
      rw [hjoined]
      cases hsecond : tokenize keepComments second with
      | error e => rfl
      | ok more =>
          exact parseTokens_append hprogram hlevels (getLast?_of_tokenize hsecond) _ _

/-- The operator of a second program stands on the fourth line, and so does a
character that is not a lexeme. -/
theorem programs_concatenate_fourthLine :
    parseSource false "a;\n\n//" = .ok (.block [.expression (.symbol "a")]) ∧
      parseSource false ("a;\n\n//" ++ "\n" ++ "b=c;") =
        .ok (.block [.expression (.symbol "a"), .expression
          (.binary (.symbol "b") ⟨.assign, "=", ⟨4, 2⟩⟩ (.symbol "c"))]) ∧
      parseSource false ("a;\n\n//" ++ "\n" ++ "b=@") =
        .error (.scan (.noMatch ⟨⟨4, 3⟩, 9⟩ "@")) := by
  have hfirst : parseSource false "a;\n\n//" =
      .ok (.block [.expression (.symbol "a")]) := by rfl
  have hread : parseSource false "b=c;" = .ok (.block [.expression
      (.binary (.symbol "b") ⟨.assign, "=", ⟨1, 2⟩⟩ (.symbol "c"))]) := by rfl
  have hfails : parseSource false "b=@" =
      .error (.scan (.noMatch ⟨⟨1, 3⟩, 2⟩ "@")) := by rfl
  have hjoined := programs_concatenate hfirst "b=c;"
  have hfailed := programs_concatenate hfirst "b=@"
  rw [hread] at hjoined
  rw [hfails] at hfailed
  obtain ⟨_, hbody, hjoined⟩ := hjoined
  cases hbody
  exact ⟨hfirst, hjoined, hfailed⟩

end MiniC
