/-
Include directives in source texts: the name of the header is what stands between the
delimiters, character for character, whatever it looks like.
-/
import MiniC.Proofs.Include
import MiniC.Proofs.Parse
import MiniC.Proofs.Scanner.Kind

namespace MiniC

open Parse

namespace Include

/-- A header name with its delimiters is on one line and closed once. -/
theorem exists_name {opening closing : Char} {header : List Char}
    (h : header ∈ Pattern.header opening closing) :
    ∃ name, header = opening :: (name ++ [closing]) ∧ '\n' ∉ name ∧ closing ∉ name := by
  obtain ⟨_, ⟨o, rfl, ho⟩, _, ⟨name, hname, _, ⟨c, rfl, hc⟩, rfl⟩, rfl⟩ := h
  obtain rfl := eq_of_beq ho
  obtain rfl := eq_of_beq hc
  refine ⟨name, rfl, fun hmem => ?_, fun hmem => ?_⟩
  · simpa using hname _ hmem
  · simpa using hname _ hmem

/-- The lexemes of the category are the texts of directives. -/
theorem exists_written {text : String}
    (h : text.toList ∈ Category.includeDirective.lexemes) :
    ∃ directive : Include, directive.text = text ∧ directive.Written := by
  obtain ⟨_, rfl, _, ⟨blanks, hblanks, header, hheader, rfl⟩, htext⟩ := h
  obtain ⟨isSystem, hheader⟩ : ∃ isSystem : Bool,
      header ∈ Pattern.header (if isSystem then '<' else '"') (if isSystem then '>' else '"') := by
    rcases hheader with hangle | hquote
    · exact ⟨true, hangle⟩
    · exact ⟨false, hquote⟩
  obtain ⟨name, rfl, hline, hcloses⟩ := exists_name hheader
  refine ⟨⟨text, String.ofList name, isSystem⟩, rfl, ⟨String.ofList blanks, ?_, ?_⟩, ?_, ?_⟩
  · intro c hc
    simpa using hblanks c (by simpa using hc)
  · rw [← String.toList_inj, ← htext]
    simp [opening, closing]
  · simpa using hline
  · simpa [closing] using hcloses

/-- The text of a directive is a lexeme of the category. -/
theorem Written.mem_lexemes {directive : Include} (h : directive.Written) :
    directive.text.toList ∈ Category.includeDirective.lexemes := by
  obtain ⟨blanks, hblanks, htext⟩ := h.toList_text
  have hname : ∀ c ∈ directive.target.toList,
      (c != directive.closing && c != '\n') = true := by
    intro c hc
    rw [Bool.and_eq_true, bne_iff_ne, bne_iff_ne]
    exact ⟨fun heq => h.closes (heq ▸ hc), fun heq => h.line (heq ▸ hc)⟩
  have hheader : directive.opening :: (directive.target.toList ++ [directive.closing]) ∈
      Pattern.header directive.opening directive.closing :=
    ⟨_, ⟨_, rfl, beq_self_eq_true _⟩, _, ⟨_, hname, _, ⟨_, rfl, beq_self_eq_true _⟩, rfl⟩, rfl⟩
  refine ⟨_, rfl, _, ⟨blanks, ?_, _, ?_, rfl⟩, htext.symm⟩
  · intro c hc
    simpa using hblanks c hc
  · cases hsystem : directive.isSystem
    · simp only [opening, closing, hsystem] at hheader ⊢
      exact .inr hheader
    · simp only [opening, closing, hsystem] at hheader ⊢
      exact .inl hheader

end Include

/-- Wherever the token stands, to read it as an include directive comes to `directive`, and
the cursor goes on. -/
def Token.ReadAsInclude (token : Token) (directive : Include) : Prop :=
  ∀ (inner : Inner) (s : ParseState), s.cursor.current = token →
    (StatementForm.includeDirective.parse inner).run s =
      (.ok (.includeDirective directive), { s with cursor := s.cursor.advance })

theorem Token.readAsInclude_ofText {token : Token} (h : token.kind = .includeDirective) :
    token.ReadAsInclude (.ofText token.text) := by
  rintro inner s rfl
  rw [Parse.run, StatementForm.parse, bind_of_ok (expect_of_eq h)]
  rfl

/-- Include directives are taken apart exactly.  Every token of the kind in any text is
written as one directive and no other, and this is what it is read as.  The text of every
directive is found as such a token, so no name of a header is lost or cut, whatever
characters of a line it has apart from the closing one. -/
theorem includes_taken_apart (keepComments : Bool) (source : String) :
    (∀ token ∈ ((Scanner.ofSource source).scan keepComments).tokens.toList,
      token.kind = .includeDirective →
        ∃ directive : Include, token.ReadAsInclude directive ∧
          directive.text = token.text ∧ directive.Written ∧
          ∀ other : Include, other.text = token.text → other.Written → other = directive) ∧
    ∀ directive : Include, directive.Written →
      ∃ token : Token, token.text = directive.text ∧
        tokenize keepComments directive.text =
          .ok [token, .endMarker (.behind directive.text.toList)] ∧
        token.kind = .includeDirective ∧ token.ReadAsInclude directive := by
  constructor
  · intro token htoken hkind
    have hlexeme := Scanner.isLexeme_of_scan keepComments source token htoken
    have hmem : token.text.toList ∈ Category.includeDirective.lexemes :=
      hlexeme.text_mem_lexemes (by rw [hkind]; rfl) (by decide)
    obtain ⟨directive, htext, hwritten⟩ := Include.exists_written hmem
    refine ⟨directive, ?_, htext, hwritten, fun other hother hotherWritten => ?_⟩
    · rw [← hwritten.ofText_eq, htext]
      exact token.readAsInclude_ofText hkind
    · exact hotherWritten.takenApart.unique hwritten.takenApart (hother.trans htext.symm)
  · intro directive hwritten
    let token : Token := ⟨.includeDirective, directive.text, .start⟩
    have hmem : token.lexeme ∈ Category.includeDirective.lexemes := hwritten.mem_lexemes
    have hlexeme : token.IsLexeme keepComments := Token.isLexeme_of_mem hmem rfl rfl
    refine ⟨token, rfl, ?_, rfl, ?_⟩
    · have hscan := hlexeme.tokenize
      rwa [show token.lexeme = directive.text.toList from rfl, String.ofList_toList] at hscan
    · have hread := token.readAsInclude_ofText rfl
      rwa [hwritten.ofText_eq] at hread

/-- A name that has blanks at both ends and another directive inside, and one that is
empty. -/
theorem includes_taken_apart_insideAnother :
    (⟨.includeDirective, "#include \t< #include \"é\" >", ⟨1, 3⟩⟩ : Token).ReadAsInclude
      ⟨"#include \t< #include \"é\" >", " #include \"é\" ", true⟩ ∧
    ∃ token : Token, token.text = "#include\"\"" ∧
      tokenize true "#include\"\"" = .ok [token, .endMarker (.behind "#include\"\"".toList)] ∧
      token.kind = .includeDirective ∧
      token.ReadAsInclude ⟨"#include\"\"", "", false⟩ := by
  obtain ⟨hfound, hwhole⟩ := includes_taken_apart true "x;#include \t< #include \"é\" >"
  obtain ⟨directive, hread, _, _, hunique⟩ :=
    hfound ⟨.includeDirective, "#include \t< #include \"é\" >", ⟨1, 3⟩⟩ (by decide) rfl
  have hwritten : Include.Written
      ⟨"#include \t< #include \"é\" >", " #include \"é\" ", true⟩ :=
    ⟨⟨" \t", by simp, by decide⟩, by decide, by decide⟩
  refine ⟨?_, hwhole ⟨"#include\"\"", "", false⟩ ⟨⟨"", by simp, by decide⟩, by decide, by decide⟩⟩
  rwa [hunique _ rfl hwritten]

end MiniC
