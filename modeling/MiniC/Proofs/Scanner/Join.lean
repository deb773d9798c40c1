/-
Texts joined by a line feed: the tokens of the first are found as before, and
those of the second are found further down.
-/
import MiniC.Proofs.Lexeme.Line
import MiniC.Proofs.Scanner.Walk

namespace MiniC

namespace Front

/-- Before a lexeme is found, what is opened at the front has been seen to be
closed. -/
theorem closed_of_eq_lexeme {text : List Char} {category : Category} {length : Nat}
    (h : of text = .lexeme category length) :
    (['/', '*'].isPrefixOf text → (Category.blockComment.extent text).isSome) ∧
      (['"'].isPrefixOf text → (Category.string.extent text).isSome) := by
  unfold of at h
  split at h
  · cases h
  split at h
  · cases h
  rename_i hcomment hstring
  constructor
  · intro hopen
    simpa [hopen, Option.isSome_iff_ne_none] using hcomment
  · intro hopen
    simpa [hopen, Option.isSome_iff_ne_none] using hstring

/-- Blanks apart, what is found at the front of a text is found there too when
the text goes on with a line feed. -/
theorem of_append_lineFeed {text : List Char} {category : Category} {length : Nat}
    (h : of text = .lexeme category length) (hblank : category ≠ .blank)
    (more : List Char) : of (text ++ '\n' :: more) = .lexeme category length := by
  obtain ⟨hcomment, hstring⟩ := closed_of_eq_lexeme h
  cases text with
  | nil =>
      have hnil : of [] = .unknown := by decide
      rw [hnil] at h
      cases h
  | cons c text =>
  have hc : isBlank c = false := by
    by_contra hc
    rw [of_of_isBlank (by simpa using hc)] at h
    cases h
    exact hblank rfl
  have hopen := Extent.isPrefixOf_append_lineFeed ['/', '*'] (by decide)
    (c :: text) more
  have hquote := Extent.isPrefixOf_append_lineFeed ['"'] (by decide)
    (c :: text) more
  have hblock : Category.blockComment.extent (c :: text ++ '\n' :: more) =
      Category.blockComment.extent (c :: text) := by
    by_cases hfits : ['/', '*'].isPrefixOf (c :: text) = true
    · obtain ⟨n, hn⟩ := Option.isSome_iff_exists.1 (hcomment hfits)
      rw [hn]
      exact Category.extent_blockComment_append hn _
    · have hfits' : ['/', '*'].isPrefixOf (c :: text ++ '\n' :: more) ≠ true := by
        rwa [hopen]
      rw [Category.extent_blockComment_of_not hfits,
        Category.extent_blockComment_of_not hfits']
  have hextent : ∀ category : Category,
      category.extent (c :: text ++ '\n' :: more) = category.extent (c :: text) := by
    intro category
    by_cases hblank : category = .blank
    · rw [hblank, List.cons_append, Category.extent_blank_of_not hc,
        Category.extent_blank_of_not hc]
    by_cases hcategory : category = .blockComment
    · rw [hcategory, hblock]
    exact Category.extent_withinLine hblank hcategory (c :: text) more
  rw [of_of_closed hcomment hstring] at h
  rw [of_of_closed]
  · simpa only [hextent] using h
  · rw [hopen, hblock]
    exact hcomment
  · rw [hquote, hextent]
    exact hstring

end Front

namespace Scanner

variable {keepComments : Bool}

/-- A walk over the first text goes on behind the line feed as if it began there,
with all that was found before. -/
theorem walk_append_lineFeed (text more : List Char) {here : Position}
    {found all : Findings} {stopped : Scanner}
    (h : walk keepComments 0 here found text = ⟨all, .ok (), stopped⟩) :
    walk keepComments 0 here found (text ++ '\n' :: more) =
      walk keepComments 0 ((here.after text).next '\n') all more := by
  induction text using walk_induction generalizing here found with
  | nil =>
      cases h
      exact walk_blank (by decide) more
  | blank c text hc ih =>
      rw [walk_blank hc] at h
      rw [List.cons_append, walk_blank hc]
      exact ih h
  | lexeme category lexeme rest hblank hshape hfront ih =>
      rw [walk_lexeme hfront hshape.ne_nil] at h
      have hfront' := Front.of_append_lineFeed hfront hblank more
      rw [List.append_assoc] at hfront' ⊢
      rw [walk_lexeme hfront' hshape.ne_nil, ih h, Position.after_append]
  | unterminated c text what hfront =>
      rw [walk_unterminated hfront] at h
      cases h
  | unknown c text hfront =>
      rw [walk_unknown hfront] at h
      cases h

end Scanner

/-- A place so many lines further down, in the same column. -/
def Location.moved (lines : Nat) (location : Location) : Location :=
  ⟨location.line + lines, location.column⟩

/-- A position so many lines and bytes further on, in the same column. -/
def Position.moved (lines bytes : Nat) (position : Position) : Position :=
  ⟨position.location.moved lines, position.offset + bytes⟩

/-- A token so many lines further down. -/
def Token.moved (lines : Nat) (token : Token) : Token :=
  { token with location := token.location.moved lines }

/-- An error of the scanner so many lines and bytes further on. -/
def ScanError.moved (lines bytes : Nat) : ScanError → ScanError
  | noMatch position remainder => noMatch (position.moved lines bytes) remainder
  | unterminated position what => unterminated (position.moved lines bytes) what

/-- A record of a token or of a statement so many lines further down. -/
def Record.moved (lines : Nat) : Record → Record
  | lexed token => lexed (token.moved lines)
  | statement kind location => statement kind (location.moved lines)
  | record => record

/-- What was found so many lines further down, behind what was found before. -/
def Findings.moved (lines : Nat) (before found : Findings) : Findings :=
  ⟨before.tokens ++ found.tokens.map (.moved lines),
    before.log ++ found.log.map (.moved lines)⟩

theorem Findings.moved_none (lines : Nat) (before : Findings) :
    moved lines before .none = before := by
  simp [moved, none]

theorem Findings.moved_push (lines : Nat) (before found : Findings) (token : Token) :
    moved lines before (found.push token) =
      (moved lines before found).push (token.moved lines) := by
  simp [moved, push, Record.moved]

/-- A scan so many lines and bytes further on, behind what was found before. -/
def Scan.moved (lines bytes : Nat) (before : Findings) (scan : Scan) : Scan :=
  ⟨.moved lines before scan.toFindings, scan.result.mapError (.moved lines bytes),
    ⟨scan.stopped.position.moved lines bytes, scan.stopped.rest⟩⟩

theorem Scan.tokenList_moved (lines bytes : Nat) (before : Findings) (scan : Scan) :
    (scan.moved lines bytes before).tokenList =
      match scan.tokenList with
      | .ok tokens => .ok (before.tokens.toList ++ tokens.map (.moved lines))
      | .error e => .error (e.moved lines bytes) := by
  unfold tokenList moved Findings.moved
  cases scan.result with
  | error e => rfl
  | ok =>
      simp only [Except.map, Except.mapError, Array.toList_push, Array.toList_append,
        Array.toList_map, List.map_append, List.append_assoc]
      rfl

theorem Position.moved_next (lines bytes : Nat) (here : Position) (c : Char) :
    (here.next c).moved lines bytes = (here.moved lines bytes).next c := by
  by_cases hc : c = '\n' <;>
    simp [next, moved, Location.next, Location.moved, hc, Nat.add_right_comm]

theorem Position.moved_after (lines bytes : Nat) (here : Position)
    (text : List Char) :
    (here.after text).moved lines bytes = (here.moved lines bytes).after text := by
  induction text generalizing here with
  | nil => rfl
  | cons c text ih => rw [after_cons, after_cons, ih, moved_next]

theorem Category.token?_moved (keepComments : Bool) (lines : Nat)
    (location : Location) (lexeme : List Char) (category : Category) :
    category.token? keepComments (location.moved lines) lexeme =
      (category.token? keepComments location lexeme).map (.moved lines) := by
  unfold token?
  cases category.kind? keepComments lexeme <;> rfl

namespace Scanner

/-- A walk that starts further on takes the same course, and what it finds is
further on. -/
theorem walk_moved (keepComments : Bool) (lines bytes : Nat) (text : List Char)
    (here : Position) (before found : Findings) :
    walk keepComments 0 (here.moved lines bytes) (.moved lines before found) text =
      (walk keepComments 0 here found text).moved lines bytes before := by
  induction text using walk_induction generalizing here found with
  | nil => rfl
  | blank c text hc ih =>
      rw [walk_blank hc, walk_blank hc, ← Position.moved_next]
      exact ih _ found
  | lexeme category lexeme rest _ hshape hfront ih =>
      rw [walk_lexeme hfront hshape.ne_nil, walk_lexeme hfront hshape.ne_nil,
        ← Position.moved_after, ← ih]
      congr 1
      change (category.token? keepComments (here.location.moved lines) lexeme).elim _ _ = _
      rw [Category.token?_moved]
      cases category.token? keepComments here.location lexeme with
      | none => rfl
      | some token => exact (Findings.moved_push lines before found token).symm
  | unterminated c text what hfront =>
      rw [walk_unterminated hfront, walk_unterminated hfront]
      rfl
  | unknown c text hfront =>
      rw [walk_unknown hfront, walk_unknown hfront]
      rfl

end Scanner

/-- The byte offset grows by the length of the text in bytes. -/
theorem Position.after_offset (here : Position) (text : List Char) :
    (here.after text).offset = here.offset + (String.ofList text).utf8ByteSize := by
  induction text generalizing here with
  | nil => rfl
  | cons c text ih =>
      rw [after_cons, ih, String.ofList_cons, String.utf8ByteSize_append,
        String.utf8ByteSize_singleton, ← Nat.add_assoc]
      rfl

/-- Behind a first text and a line feed, the second begins further on than at the
start: by one line more than the first has line feeds, and by one byte more than
it has bytes. -/
theorem Position.next_after_start (first : String) :
    (start.after first.toList).next '\n' =
      start.moved (1 + first.toList.count '\n') (first.utf8ByteSize + 1) := by
  have hstart : start.location = .behind [] := rfl
  have hlocation := after_location hstart first.toList
  have hoffset := after_offset start first.toList
  rw [String.ofList_toList] at hoffset
  unfold next moved
  rw [hlocation, hoffset]
  simp [Location.behind, Location.next, Location.moved, start, Location.start,
    Char.utf8Size, Nat.add_comm]

/-- A scan of two texts that a line feed joins goes through the first and then
through the second, further on. -/
theorem Scanner.scan_append {keepComments : Bool} {first : String}
    {all : Findings} {stopped : Scanner}
    (h : (ofSource first).scan keepComments = ⟨all, .ok (), stopped⟩)
    (second : String) :
    (ofSource (first ++ "\n" ++ second)).scan keepComments =
      ((ofSource second).scan keepComments).moved (1 + first.toList.count '\n')
        (first.utf8ByteSize + 1) all := by
  have hsource : ofSource (first ++ "\n" ++ second) =
      ⟨.start, first.toList ++ '\n' :: second.toList⟩ := by
    simp [ofSource]
  have hmoved := walk_moved keepComments (1 + first.toList.count '\n')
    (first.utf8ByteSize + 1) second.toList .start all .none
  rw [Findings.moved_none, ← Position.next_after_start] at hmoved
  rw [hsource]
  exact (walk_append_lineFeed first.toList second.toList h).trans hmoved

/-- The last token of a text is the end marker. -/
theorem getLast?_of_tokenize {keepComments : Bool} {source : String}
    {tokens : List Token} (h : tokenize keepComments source = .ok tokens) :
    tokens.getLast?.map Token.kind = some .eof := by
  unfold tokenize Scan.tokenList at h
  cases hresult : ((Scanner.ofSource source).scan keepComments).result with
  | error e =>
      rw [hresult] at h
      cases h
  | ok =>
      rw [hresult] at h
      cases h
      rw [Array.toList_push, List.getLast?_concat]
      rfl

/-- The tokens of two texts that a line feed joins are those of the first and
those of the second, further down.  An error in the second is the error of the
whole, further on. -/
theorem tokenize_append {keepComments : Bool} {first : String} {tokens : List Token}
    (h : tokenize keepComments first = .ok tokens) (second : String) :
    ∃ found location, tokens = found ++ [.endMarker location] ∧
      (∀ token ∈ found, token.kind ≠ .eof) ∧
      tokenize keepComments (first ++ "\n" ++ second) =
        match tokenize keepComments second with
        | .ok more =>
            .ok (found ++ more.map (.moved (1 + first.toList.count '\n')))
        | .error e =>
            .error (e.moved (1 + first.toList.count '\n')
              (first.utf8ByteSize + 1)) := by
  cases hscan : (Scanner.ofSource first).scan keepComments with
  | mk found result stopped =>
      rw [tokenize, hscan, Scan.tokenList] at h
      cases result with
      | error e => cases h
      | ok =>
          cases h
          have hstart : (Scanner.ofSource first).position.location = .behind [] := rfl
          obtain ⟨new, hfound, hkinds, _, _⟩ := Scanner.walk_cuts hstart hscan
          have hnew : found.tokens.toList = new := hfound
          refine ⟨new, stopped.position.location, ?_, hkinds, ?_⟩
          · rw [Array.toList_push, hnew]
          · rw [tokenize, Scanner.scan_append hscan, Scan.tokenList_moved, hnew]
            rfl

/-- A line feed separates two texts, of which the first is cut into tokens: the whole
has the tokens of the first without their end marker, unchanged, and then those of the
second so many lines further down, or the error of the second so many lines and bytes
further on. -/
theorem lineFeed_separates {keepComments : Bool} {first : String} {tokens : List Token}
    (h : tokenize keepComments first = .ok tokens) (second : String) :
    (∃ location, tokens.getLast? = some (.endMarker location)) ∧
      tokenize keepComments (first ++ "\n" ++ second) =
        match tokenize keepComments second with
        | .ok more =>
            .ok (tokens.dropLast ++ more.map (.moved (1 + first.toList.count '\n')))
        | .error e =>
            .error (e.moved (1 + first.toList.count '\n') (first.utf8ByteSize + 1)) := by
  obtain ⟨found, location, rfl, _, hwhole⟩ := tokenize_append h second
  rw [List.getLast?_concat, List.dropLast_concat]
  exact ⟨⟨location, rfl⟩, hwhole⟩

/-- A comment ends with its line.  The string behind the line feed is not closed, and
the error counts the bytes of the line before it. -/
theorem lineFeed_separates_openString :
    tokenize false "\"é\" //b" = .ok [⟨.string, "é", ⟨1, 1⟩⟩, .endMarker ⟨1, 8⟩] ∧
      tokenize false ("\"é\" //b" ++ "\n" ++ "\"c") =
        .error (.unterminated ⟨⟨2, 1⟩, 9⟩ "string literal") := by
  have hfirst : tokenize false "\"é\" //b" =
      .ok [⟨.string, "é", ⟨1, 1⟩⟩, .endMarker ⟨1, 8⟩] := by rfl
  have hsecond : tokenize false "\"c" =
      .error (.unterminated ⟨⟨1, 1⟩, 0⟩ "string literal") := by rfl
  have hwhole := (lineFeed_separates hfirst "\"c").2
  rw [hsecond] at hwhole
  exact ⟨hfirst, hwhole⟩

end MiniC
