/-
What the kind of a token says about the characters it was written with: the category
that they come from, and all of them where a kind is spelled in one way only.
-/
import MiniC.Proofs.Scanner.Rescan

namespace MiniC

namespace TokenKind

/-- The category of the lexemes that stand for tokens of the kind.  No lexeme stands for
the end marker. -/
def category? : TokenKind → Option Category
  | eof => none
  | lineComment => some .lineComment
  | blockComment => some .blockComment
  | floating => some .floating
  | unsignedInteger => some .unsignedInteger
  | integer => some .integer
  | string => some .string
  | character => some .character
  | includeDirective => some .includeDirective
  | identifier => some .word
  | kind =>
      if kind ∈ Vocabulary.keywords.map Prod.snd then some .word else some .fixed

/-- The text of all tokens of a kind that carries none: reserved words, punctuation and
operators have one spelling each, and the end marker has no text. -/
def spelling (kind : TokenKind) : String :=
  ((Vocabulary.keywords ++ Vocabulary.fixed).find? fun entry => entry.2 = kind).elim ""
    Prod.fst

theorem spelling_of_mem : ∀ entry ∈ Vocabulary.keywords ++ Vocabulary.fixed,
    entry.2.spelling = entry.1 := by
  decide

end TokenKind

/-- A lexeme by itself is the longest one in it. -/
theorem Category.longest_self {category : Category} {lexeme : List Char}
    (h : lexeme ∈ category.lexemes) : category.Longest lexeme lexeme := by
  obtain ⟨c, more, hne, _⟩ := category.lexemes_beginIn lexeme h
  refine ⟨by simp [hne], List.prefix_rfl, fun other => ?_, ?_⟩
  · constructor
    · exact fun hother => eq_of_mem_lexemes hother h
    · rintro rfl
      exact h
  · exact fun _ _ _ hfront => hfront.length_le

/-- No lexeme opens a comment without closing it. -/
theorem Category.not_unclosed_of_mem {category : Category} {lexeme : List Char}
    (h : lexeme ∈ category.lexemes) : ¬ Front.Unclosed lexeme := by
  rintro ⟨hopened, hnone⟩
  obtain ⟨c, more, rfl, hc⟩ := category.lexemes_beginIn lexeme h
  obtain ⟨rfl, _⟩ := List.cons_prefix_cons.1 hopened
  cases category with
  | blockComment => exact hnone _ h List.prefix_rfl
  | lineComment =>
      obtain ⟨_, rfl, body, _, htext⟩ := h
      rw [← htext] at hopened
      simp at hopened
  | fixed =>
      have hall : ∀ entry ∈ Vocabulary.fixed, ¬ ['/', '*'] <+: entry.1.toList := by decide
      obtain ⟨entry, hentry, htext⟩ := h
      rw [htext] at hopened
      exact hall entry hentry hopened
  | _ => exact absurd hc (by decide)

/-- A lexeme of a category that is not dropped makes up tokens of each kind that it
denotes. -/
theorem Token.isLexeme_of_mem {keepComments : Bool} {token : Token} {category : Category}
    (h : token.lexeme ∈ category.lexemes) (hkept : category.dropped keepComments = false)
    (hdenotes : category.Denotes token.lexeme token.kind) : token.IsLexeme keepComments := by
  refine ⟨category, ?_, hkept, hdenotes⟩
  have halone : Front.of (token.lexeme ++ []) = .lexeme category token.lexeme.length := by
    rw [Front.of_eq_lexeme_iff, List.append_nil]
    exact ⟨Category.not_unclosed_of_mem h, Category.longest_self h⟩
  rwa [List.append_nil] at halone

/-- A lexeme stands for tokens of kinds of its category only. -/
theorem Category.Denotes.category?_eq {category : Category} {lexeme : List Char}
    {kind : TokenKind} (h : category.Denotes lexeme kind) :
    kind.category? = some category := by
  cases category with
  | blank => exact h.elim
  | word =>
      have hwords : ∀ entry ∈ Vocabulary.keywords, entry.2.category? = some .word := by decide
      rcases h with hword | ⟨rfl, _⟩
      · exact hwords _ hword
      · rfl
  | fixed =>
      have hfixed : ∀ entry ∈ Vocabulary.fixed, entry.2.category? = some .fixed := by decide
      exact hfixed _ h
  | _ =>
      obtain rfl := h
      rfl

/-- A lexeme whose kind carries no text is the spelling of this kind. -/
theorem Category.Denotes.eq_spelling {category : Category} {lexeme : List Char}
    {kind : TokenKind} (h : category.Denotes lexeme kind)
    (hkind : kind.carriesText = false) : String.ofList lexeme = kind.spelling := by
  cases category with
  | blank => exact h.elim
  | word =>
      rcases h with hword | ⟨rfl, _⟩
      · exact (TokenKind.spelling_of_mem _ (List.mem_append_left _ hword)).symm
      · cases hkind
  | fixed => exact (TokenKind.spelling_of_mem _ (List.mem_append_right _ h)).symm
  | _ =>
      obtain rfl := h
      cases hkind

namespace Token.IsLexeme

variable {keepComments : Bool} {token : Token}

/-- A token is written with a lexeme of the category that its kind comes from. -/
theorem mem_lexemes (h : token.IsLexeme keepComments) {category : Category}
    (hkind : token.kind.category? = some category) : token.lexeme ∈ category.lexemes := by
  obtain ⟨found, hfront, _, hdenotes⟩ := h
  obtain rfl : found = category := Option.some.inj (hdenotes.category?_eq.symm.trans hkind)
  have halone : Front.of (token.lexeme ++ []) = .lexeme found token.lexeme.length := by
    rwa [List.append_nil]
  exact ((Front.of_eq_lexeme_iff.1 halone).2.mem_iff found).2 rfl

/-- Only string literals are written with more than their text. -/
theorem text_mem_lexemes (h : token.IsLexeme keepComments) {category : Category}
    (hkind : token.kind.category? = some category) (hstring : category ≠ .string) :
    token.text.toList ∈ category.lexemes := by
  have hother : token.kind ≠ .string := by
    intro heq
    rw [heq] at hkind
    exact hstring (Option.some.inj hkind).symm
  have hwritten := h.mem_lexemes hkind
  rwa [Token.lexeme, if_neg hother] at hwritten

/-- Where a kind carries no text, it says what the text is. -/
theorem text_eq_spelling (h : token.IsLexeme keepComments)
    (hkind : token.kind.carriesText = false) : token.text = token.kind.spelling := by
  obtain ⟨category, _, _, hdenotes⟩ := h
  have hstring : token.kind ≠ .string := by
    intro hstring
    rw [hstring] at hkind
    cases hkind
  have hwritten := hdenotes.eq_spelling hkind
  rwa [Token.lexeme, if_neg hstring, String.ofList_toList] at hwritten

end Token.IsLexeme

end MiniC
