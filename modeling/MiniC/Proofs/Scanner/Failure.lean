/-
Scans that fail and scans that are over: what an error says of the text where it was
found, and that asking again gives the same answer.
-/
import MiniC.Proofs.Lexeme.Hopeless
import MiniC.Proofs.Scanner.Join
import MiniC.Proofs.Scanner.Shorter

namespace MiniC

namespace Scanner

/-- A scan of `passed ++ rest` comes to look for a lexeme at the front of `rest`: it
begins there, or the lexeme that it took last ends there. -/
inductive ComesTo : (passed rest : List Char) → Prop
  | start {rest : List Char} : ComesTo [] rest
  | behind {passed lexeme rest : List Char} {category : Category} :
      ComesTo passed (lexeme ++ rest) →
      Front.of (lexeme ++ rest) = .lexeme category lexeme.length →
      ComesTo (passed ++ lexeme) rest

/-- How a walk ends, by what stands where it stops. -/
inductive Halts (here : Position) : List Char → Except ScanError Unit → Prop
  | done : Halts here [] (.ok ())
  | unterminated {c : Char} {text : List Char} {what : String} :
      Front.of (c :: text) = .unterminated what →
      Halts here (c :: text) (.error (.unterminated here what))
  | unknown {c : Char} {text : List Char} :
      Front.of (c :: text) = .unknown →
      Halts here (c :: text) (.error (.noMatch here (String.ofList (c :: text))))

variable {keepComments : Bool} {here : Position} {text : List Char}

theorem walk_halts (text : List Char) (here : Position) (found : Findings) :
    Halts (walk keepComments 0 here found text).stopped.position
      (walk keepComments 0 here found text).stopped.rest
      (walk keepComments 0 here found text).result := by
  induction text using walk_induction generalizing here found with
  | nil => exact .done
  | blank c text hc ih =>
      rw [walk_blank hc]
      exact ih _ found
  | lexeme category lexeme rest _ hshape hfront ih =>
      rw [walk_lexeme hfront hshape.ne_nil]
      exact ih _ _
  | unterminated c text what hfront =>
      rw [walk_unterminated hfront]
      exact .unterminated hfront
  | unknown c text hfront =>
      rw [walk_unknown hfront]
      exact .unknown hfront

theorem Halts.of_noMatch {rest : List Char} {position : Position} {remainder : String}
    (h : Halts here rest (.error (.noMatch position remainder))) :
    Front.of rest = .unknown ∧ remainder = String.ofList rest := by
  cases h with
  | unknown hfront => exact ⟨hfront, rfl⟩

/-- A walk that begins where one would end does not move. -/
theorem Halts.walk {result : Except ScanError Unit} (h : Halts here text result)
    (found : Findings) :
    walk keepComments 0 here found text = ⟨found, result, ⟨here, text⟩⟩ := by
  cases h with
  | done => rfl
  | unterminated hfront => exact walk_unterminated hfront
  | unknown hfront => exact walk_unknown hfront

theorem ComesTo.walk {passed rest : List Char} (h : ComesTo passed rest) :
    ∃ found, Scanner.walk keepComments 0 .start .none (passed ++ rest) =
      Scanner.walk keepComments 0 (Position.start.after passed) found rest := by
  induction h with
  | start => exact ⟨.none, rfl⟩
  | @behind passed lexeme rest category _ hfront ih =>
      obtain ⟨found, hfound⟩ := ih
      have hlongest := (Front.of_eq_lexeme_iff.1 hfront).2
      rw [walk_lexeme hfront hlongest.ne_nil] at hfound
      rw [List.append_assoc, Position.after_append]
      exact ⟨_, hfound⟩

/-- A scan that is over, in whatever way, finds nothing more and is over in the same
way. -/
theorem scan_stopped (keepComments : Bool) (scanner : Scanner) :
    (scanner.scan keepComments).stopped.scan keepComments =
      ⟨.none, (scanner.scan keepComments).result, (scanner.scan keepComments).stopped⟩ :=
  (walk_halts scanner.rest scanner.position .none).walk .none

theorem repeated_stopped (keepComments : Bool) (scanner : Scanner) (times : Nat) :
    repeated keepComments times (scanner.scan keepComments).stopped =
      List.replicate times ((scanner.scan keepComments).stopped.scan keepComments).tokenList := by
  induction times with
  | zero => rfl
  | succ times ih =>
      have hstays : ((scanner.scan keepComments).stopped.scan keepComments).stopped =
          (scanner.scan keepComments).stopped := by
        rw [scan_stopped]
      rw [repeated, hstays, ih]
      rfl

end Scanner

theorem Munched.comesTo {keepComments : Bool} {before text left : List Char}
    {tokens : List Token} (h : Munched keepComments before tokens text left)
    (hbefore : Scanner.ComesTo before text) :
    ∃ passed, text = passed ++ left ∧ Scanner.ComesTo (before ++ passed) left := by
  induction h with
  | stop => exact ⟨[], rfl, by rwa [List.append_nil]⟩
  | drop hclosed hlongest _ _ ih | token hclosed hlongest _ _ _ _ _ ih =>
      have hfront := Front.of_eq_lexeme_iff.2 ⟨hclosed, hlongest⟩
      obtain ⟨passed, rfl, hcomes⟩ := ih (.behind hbefore hfront)
      rw [List.append_assoc] at hcomes
      exact ⟨_, (List.append_assoc _ _ _).symm, hcomes⟩

/-- What an error says of the text that stands where it was found. -/
structure ScanError.Explains (e : ScanError) (rest : List Char) : Prop where
  comment_iff : e = .unterminated e.position "block comment" ↔ ['/', '*'] <+: rest
  comment_open : ['/', '*'] <+: rest → ¬ ['*', '/'] <:+: rest.drop 2
  string_iff : e = .unterminated e.position "string literal" ↔ ['"'] <+: rest
  string_open : ['"'] <+: rest →
    (∀ lexeme ∈ Category.string.lexemes, ¬ lexeme <+: rest) ∧
      ∀ body ∈ beforeQuote rest.tail, '\n' ∈ body
  otherwise : ¬ ['/', '*'] <+: rest → ¬ ['"'] <+: rest →
    e = .noMatch e.position (String.ofList rest)

namespace ScanError

theorem explains_comment {rest : List Char} (h : Front.Unclosed rest) (here : Position) :
    Explains (.unterminated here "block comment") rest := by
  have hquote : ¬ ['"'] <+: rest := by
    obtain ⟨⟨more, rfl⟩, _⟩ := h
    simp
  exact {
    comment_iff := ⟨fun _ => h.1, fun _ => rfl⟩
    comment_open := fun _ => h.not_infix
    string_iff := ⟨fun heq => by simp at heq, fun hopen => absurd hopen hquote⟩
    string_open := fun hopen => absurd hopen hquote
    otherwise := fun hnone _ => absurd h.1 hnone }

theorem explains_string {rest : List Char} (h : Front.OpenQuote rest) (here : Position) :
    Explains (.unterminated here "string literal") rest := by
  have hcomment : ¬ ['/', '*'] <+: rest := by
    obtain ⟨⟨more, rfl⟩, _⟩ := h
    simp
  exact {
    comment_iff := ⟨fun heq => by simp at heq, fun hopen => absurd hopen hcomment⟩
    comment_open := fun hopen => absurd hopen hcomment
    string_iff := ⟨fun _ => h.1, fun _ => rfl⟩
    string_open := fun _ => ⟨h.2, h.mem_of_beforeQuote⟩
    otherwise := fun _ hnone => absurd h.1 hnone }

theorem explains_hopeless {c : Char} {text : List Char} (h : Front.Hopeless c text)
    (here : Position) :
    Explains (.noMatch here (String.ofList (c :: text))) (c :: text) := by
  have hcomment : ¬ ['/', '*'] <+: c :: text := by
    rw [List.cons_prefix_cons]
    rintro ⟨rfl, _⟩
    exact h.not_fixed ("/", .slash) (by decide) rfl
  have hquote : ¬ ['"'] <+: c :: text := by
    rw [List.cons_prefix_cons]
    rintro ⟨rfl, _⟩
    exact h.not_quote rfl
  exact {
    comment_iff := ⟨fun heq => by simp at heq, fun hopen => absurd hopen hcomment⟩
    comment_open := fun hopen => absurd hopen hcomment
    string_iff := ⟨fun heq => by simp at heq, fun hopen => absurd hopen hquote⟩
    string_open := fun hopen => absurd hopen hquote
    otherwise := fun _ _ => rfl }

end ScanError

theorem Scanner.Halts.explains {here : Position} {rest : List Char} {e : ScanError}
    (h : Halts here rest (.error e)) : e.position = here ∧ rest ≠ [] ∧ e.Explains rest := by
  cases h with
  | @unterminated c text what hfront =>
      refine ⟨rfl, List.cons_ne_nil _ _, ?_⟩
      rcases Front.of_cases (c :: text) with
        ⟨hof, hopen⟩ | ⟨hof, hopen⟩ | ⟨_, _, hof⟩ | ⟨hof, _⟩
      · cases hof.symm.trans hfront
        exact ScanError.explains_comment hopen here
      · cases hof.symm.trans hfront
        exact ScanError.explains_string hopen here
      · cases hof.symm.trans hfront
      · cases hof.symm.trans hfront
  | unknown hfront =>
      exact ⟨rfl, List.cons_ne_nil _ _,
        ScanError.explains_hopeless (Front.of_eq_unknown_iff.1 hfront) here⟩

variable {keepComments : Bool} {source : String}

/-- A scan comes to where it stops, and cuts the text before that place into tokens. -/
theorem Scanner.scan_comesTo (keepComments : Bool) (source : String) :
    ∃ passed, source.toList = passed ++ ((ofSource source).scan keepComments).stopped.rest ∧
      ComesTo passed ((ofSource source).scan keepComments).stopped.rest ∧
      ((ofSource source).scan keepComments).stopped.position =
        Position.start.after passed ∧
      tokenize keepComments (String.ofList passed) =
        .ok (((ofSource source).scan keepComments).tokens.toList ++
          [.endMarker (.behind passed)]) := by
  have hstart : (ofSource source).position.location = .behind [] := rfl
  obtain ⟨_, _, hmunched, _⟩ := walk_munches source.toList hstart .none
  obtain ⟨before, hbefore, hcomes⟩ := hmunched.comesTo .start
  obtain ⟨passed, htext, hstopped, hwalk⟩ :=
    walk_shorter source.toList (ofSource source).position .none
  obtain rfl : before = passed := List.append_cancel_right (hbefore.symm.trans htext)
  exact ⟨before, htext, hcomes, hstopped, tokenize_of_walk hwalk⟩

theorem Scanner.halts_of_error {e : ScanError} (h : tokenize keepComments source = .error e) :
    Halts ((ofSource source).scan keepComments).stopped.position
      ((ofSource source).scan keepComments).stopped.rest (.error e) := by
  rw [← Scan.tokenList_eq_error h]
  exact walk_halts source.toList .start .none

theorem tokenize_before_error {e : ScanError} (h : tokenize keepComments source = .error e) :
    ∃ passed rest, source.toList = passed ++ rest ∧ rest ≠ [] ∧
      Scanner.ComesTo passed rest ∧ e.position = Position.start.after passed ∧
      (∃ found, tokenize keepComments (String.ofList passed) =
        .ok (found ++ [.endMarker e.position.location])) ∧
      e.Explains rest := by
  obtain ⟨hposition, hne, hexplains⟩ := (Scanner.halts_of_error h).explains
  obtain ⟨passed, htext, hcomes, hstopped, hbefore⟩ :=
    Scanner.scan_comesTo keepComments source
  have hplace := hposition.trans hstopped
  rw [← Position.after_start_location, ← hplace] at hbefore
  exact ⟨_, _, htext, hne, hcomes, hplace, ⟨_, hbefore⟩, hexplains⟩

/-- Where a scan comes to, nothing is a lexeme if and only if the text is hopeless. -/
theorem noMatch_iff_hopeless {passed text : List Char} {c : Char}
    (htext : source.toList = passed ++ c :: text)
    (h : Scanner.ComesTo passed (c :: text)) :
    tokenize keepComments source =
        .error (.noMatch (Position.start.after passed) (String.ofList (c :: text))) ↔
      Front.Hopeless c text := by
  rw [← Front.of_eq_unknown_iff]
  constructor
  · intro herror
    obtain ⟨hfront, hremainder⟩ := (Scanner.halts_of_error herror).of_noMatch
    rwa [String.ofList_injective hremainder]
  · intro hfront
    obtain ⟨found, hwalk⟩ := h.walk
    rw [Scanner.walk_unknown hfront] at hwalk
    rw [tokenize, Scanner.scan, Scanner.ofSource, htext, hwalk]
    rfl

theorem repeated_of_error {e : ScanError} (h : tokenize keepComments source = .error e)
    (times : Nat) :
    Scanner.repeated keepComments times (.ofSource source) =
      List.replicate times (.error e) := by
  cases times with
  | zero => rfl
  | succ times =>
      rw [Scanner.repeated, Scanner.repeated_stopped, Scanner.scan_stopped,
        Scan.tokenList_eq_error h]
      exact congrArg (· :: List.replicate times (.error e)) h

theorem repeated_of_ok {tokens : List Token} (h : tokenize keepComments source = .ok tokens) :
    ∃ found location, tokens = found ++ [.endMarker location] ∧
      ∀ times, Scanner.repeated keepComments (times + 1) (.ofSource source) =
        .ok tokens :: List.replicate times (.ok [.endMarker location]) := by
  obtain ⟨hresult, htokens⟩ := Scan.tokenList_eq_ok h
  refine ⟨_, _, htokens, fun times => ?_⟩
  rw [Scanner.repeated, Scanner.repeated_stopped, Scanner.scan_stopped, hresult]
  exact congrArg (· :: List.replicate times _) h

/-- Scanning fails exactly where it has to, says so exactly, and stays where it is.
Before the error stands a text that is cut into tokens and ends at the place of the
error.  Wherever the scan comes to, it reports that nothing there is a lexeme if and only
if the text there is hopeless.  To ask again is to be given the same error again, or
behind all of the text the end marker. -/
theorem scan_fails_exactly (keepComments : Bool) (source : String) :
    (∀ e, tokenize keepComments source = .error e →
      (∃ passed rest, source.toList = passed ++ rest ∧ rest ≠ [] ∧
        Scanner.ComesTo passed rest ∧ e.position = Position.start.after passed ∧
        e.position.offset = (String.ofList passed).utf8ByteSize ∧
        (∃ found, tokenize keepComments (String.ofList passed) =
          .ok (found ++ [.endMarker e.position.location])) ∧
        e.Explains rest) ∧
      ∀ times, Scanner.repeated keepComments times (.ofSource source) =
        List.replicate times (.error e)) ∧
    (∀ passed c text, source.toList = passed ++ c :: text →
      Scanner.ComesTo passed (c :: text) →
      (tokenize keepComments source =
          .error (.noMatch (Position.start.after passed) (String.ofList (c :: text))) ↔
        Front.Hopeless c text)) ∧
    ∀ tokens, tokenize keepComments source = .ok tokens →
      ∃ found location, tokens = found ++ [.endMarker location] ∧
        ∀ times, Scanner.repeated keepComments (times + 1) (.ofSource source) =
          .ok tokens :: List.replicate times (.ok [.endMarker location]) := by
  refine ⟨fun e h => ⟨?_, repeated_of_error h⟩,
    fun passed c text htext h => noMatch_iff_hopeless htext h, fun tokens h => repeated_of_ok h⟩
  obtain ⟨passed, rest, htext, hne, hcomes, hplace, hbefore, hexplains⟩ :=
    tokenize_before_error h
  refine ⟨passed, rest, htext, hne, hcomes, hplace, ?_, hbefore, hexplains⟩
  rw [hplace, Position.after_offset]
  exact Nat.zero_add _

/-- A comment is opened on the second line and not closed. -/
theorem scan_fails_exactly_openComment :
    (∃ passed rest, "b\n/*é".toList = passed ++ rest ∧ rest ≠ [] ∧
      Scanner.ComesTo passed rest ∧ (⟨⟨2, 1⟩, 2⟩ : Position) = Position.start.after passed ∧
      2 = (String.ofList passed).utf8ByteSize ∧
      (∃ found, tokenize false (String.ofList passed) =
        .ok (found ++ [.endMarker ⟨2, 1⟩])) ∧
      (ScanError.unterminated ⟨⟨2, 1⟩, 2⟩ "block comment").Explains rest) ∧
    ∀ times, Scanner.repeated false times (.ofSource "b\n/*é") =
      List.replicate times (.error (.unterminated ⟨⟨2, 1⟩, 2⟩ "block comment")) := by
  have hfails : tokenize false "b\n/*é" =
      .error (.unterminated ⟨⟨2, 1⟩, 2⟩ "block comment") := by rfl
  exact (scan_fails_exactly false "b\n/*é").1 _ hfails

end MiniC
