/-
Texts cut short: what a scan finds in front of a place does not hang on what stands
behind it.
-/
import MiniC.Proofs.Scanner.Munch

namespace MiniC

/-- The longest lexeme of a text is the longest of every shorter text that holds it. -/
theorem Category.Longest.of_prefix {category : Category} {lexeme less text : List Char}
    (h : category.Longest lexeme text) (hfront : lexeme <+: less) (hless : less <+: text) :
    category.Longest lexeme less where
  ne_nil := h.ne_nil
  front := hfront
  mem_iff := h.mem_iff
  length_le other word hword hbegins :=
    h.length_le other word hword (hbegins.trans hless)

namespace Front

/-- A comment that is closed within the longest lexeme stays closed where the text is
cut short behind that lexeme. -/
theorem not_unclosed_of_shorter {category : Category} {lexeme less text : List Char}
    (hclosed : ¬ Unclosed text) (hlongest : category.Longest lexeme text)
    (hfront : lexeme <+: less) (hless : less <+: text) : ¬ Unclosed less := by
  rintro ⟨hopen, hnone⟩
  apply hclosed
  refine ⟨hopen.trans hless, fun comment hcomment hprefix => ?_⟩
  have hle := hlongest.length_le .blockComment comment hcomment hprefix
  exact hnone comment hcomment
    (List.prefix_of_prefix_length_le hprefix hless (hle.trans hfront.length_le))

/-- What is found at the front of a text is found where the text is cut short behind
it. -/
theorem of_append_of_prefix {category : Category} {lexeme less rest : List Char}
    (h : of (lexeme ++ rest) = .lexeme category lexeme.length) (hless : less <+: rest) :
    of (lexeme ++ less) = .lexeme category lexeme.length := by
  obtain ⟨hclosed, hlongest⟩ := of_eq_lexeme_iff.1 h
  have hfront := List.prefix_append lexeme less
  have hshorter := (List.prefix_append_right_inj lexeme).2 hless
  exact of_eq_lexeme_iff.2 ⟨not_unclosed_of_shorter hclosed hlongest hfront hshorter,
    hlongest.of_prefix hfront hshorter⟩

end Front

/-- A walk passes the text up to where it stops, and over that text alone it finds the
same tokens and reaches the end. -/
theorem Scanner.walk_shorter {keepComments : Bool} (text : List Char) (here : Position)
    (found : Findings) :
    ∃ passed, text = passed ++ (walk keepComments 0 here found text).stopped.rest ∧
      (walk keepComments 0 here found text).stopped.position = here.after passed ∧
      walk keepComments 0 here found passed =
        ⟨(walk keepComments 0 here found text).toFindings, .ok (),
          ⟨here.after passed, []⟩⟩ := by
  induction text using walk_induction generalizing here found with
  | nil => exact ⟨[], rfl, rfl, rfl⟩
  | blank c text hc ih =>
      obtain ⟨passed, htext, hposition, hwalk⟩ := ih (here.next c) found
      rw [walk_blank hc]
      refine ⟨c :: passed, congrArg (c :: ·) htext, hposition, ?_⟩
      rw [walk_blank hc]
      exact hwalk
  | lexeme category lexeme rest _ hshape hfront ih =>
      rw [walk_lexeme hfront hshape.ne_nil]
      obtain ⟨passed, hrest, hposition, hwalk⟩ := ih (here.after lexeme)
        ((category.token? keepComments here.location lexeme).elim found found.push)
      have hless : passed <+: rest := ⟨_, hrest.symm⟩
      refine ⟨lexeme ++ passed, ?_, ?_, ?_⟩
      · rw [List.append_assoc, ← hrest]
      · rw [Position.after_append]
        exact hposition
      · rw [walk_lexeme (Front.of_append_of_prefix hfront hless) hshape.ne_nil,
          Position.after_append]
        exact hwalk
  | unterminated c text what hfront =>
      rw [walk_unterminated hfront]
      exact ⟨[], rfl, rfl, rfl⟩
  | unknown c text hfront =>
      rw [walk_unknown hfront]
      exact ⟨[], rfl, rfl, rfl⟩

theorem Scan.tokenList_eq_ok {scan : Scan} {tokens : List Token}
    (h : scan.tokenList = .ok tokens) :
    scan.result = .ok () ∧
      tokens = scan.tokens.toList ++ [.endMarker scan.stopped.position.location] := by
  unfold tokenList at h
  cases hresult : scan.result with
  | error e =>
      rw [hresult] at h
      cases h
  | ok =>
      rw [hresult] at h
      cases h
      exact ⟨rfl, Array.toList_push⟩

theorem Scan.tokenList_eq_error {scan : Scan} {e : ScanError}
    (h : scan.tokenList = .error e) : scan.result = .error e := by
  unfold tokenList at h
  cases hresult : scan.result with
  | error _ =>
      rw [hresult] at h
      cases h
      rfl
  | ok =>
      rw [hresult] at h
      cases h

theorem Position.after_start_location (text : List Char) :
    (start.after text).location = .behind text := by
  have hstart : start.location = .behind [] := rfl
  exact after_location hstart text

/-- A walk over a whole text that reaches the end gives its tokens, with the end marker
behind the text. -/
theorem tokenize_of_walk {keepComments : Bool} {text : List Char} {found : Findings}
    (h : Scanner.walk keepComments 0 .start .none text =
      ⟨found, .ok (), ⟨Position.start.after text, []⟩⟩) :
    tokenize keepComments (String.ofList text) =
      .ok (found.tokens.toList ++ [.endMarker (.behind text)]) := by
  have hscan : (Scanner.ofSource (String.ofList text)).scan keepComments =
      ⟨found, .ok (), ⟨Position.start.after text, []⟩⟩ := by
    rw [Scanner.scan, Scanner.ofSource, String.toList_ofList, h]
  rw [tokenize, hscan, Scan.tokenList, Position.after_start_location, Array.toList_push]
  rfl

end MiniC
