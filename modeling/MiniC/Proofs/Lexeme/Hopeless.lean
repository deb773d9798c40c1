/-
Fronts without a lexeme: a comment or a string that is opened and not closed, and
texts that begin like nothing in the language.
-/
import MiniC.Proofs.Lexeme.Longest
import MiniC.Proofs.Scanner.Walk

namespace MiniC

/-- The text before the first double quote that no backslash escapes, if there is one.
A backslash escapes whatever character stands behind it. -/
def beforeQuote : List Char → Option (List Char)
  | '\\' :: c :: text => (beforeQuote text).map fun body => '\\' :: c :: body
  | '"' :: _ => some []
  | c :: text => (beforeQuote text).map (c :: ·)
  | [] => none

namespace Category

/-- A block comment is closed wherever `*/` stands in the text. -/
theorem not_infix_of_throughCommentEnd {n : Nat} {text : List Char}
    (h : throughCommentEnd n text = none) : ¬ ['*', '/'] <:+: text := by
  fun_induction throughCommentEnd n text with
  | case1 => cases h
  | case2 n c text hnot ih =>
      rw [List.infix_cons_iff]
      rintro (⟨rest, hrest⟩ | hinside)
      · obtain ⟨rfl, rfl⟩ := List.cons.inj hrest
        exact hnot rest rfl rfl
      · exact ih h hinside
  | case3 => decide

/-- A string is closed by the first quote that is not escaped, if that stands on the
same line. -/
theorem throughQuote_eq_none {n : Nat} {text : List Char}
    (h : throughQuote false n text = none) : ∀ body ∈ beforeQuote text, '\n' ∈ body := by
  fun_induction beforeQuote text generalizing n with
  | case1 c text ih =>
      intro body hbody
      obtain ⟨inner, hinner, rfl⟩ := Option.map_eq_some_iff.1 hbody
      by_cases hc : c = '\n'
      · simp [hc]
      · have hrest : throughQuote false (n + 1 + 1) text = none := by
          simpa [throughQuote, hc] using h
        exact List.mem_cons_of_mem _ (List.mem_cons_of_mem _ (ih hrest inner hinner))
  | case2 text => simp [throughQuote] at h
  | case3 c text hescape hquote ih =>
      intro body hbody
      obtain ⟨inner, hinner, rfl⟩ := Option.map_eq_some_iff.1 hbody
      by_cases hc : c = '\n'
      · simp [hc]
      · have hplain : c ≠ '\\' := by
          rintro rfl
          cases text with
          | nil => cases hinner
          | cons d text => exact hescape d text rfl rfl
        have hrest : throughQuote false (n + 1) text = none := by
          have hne : c ≠ '"' := hquote
          simpa [throughQuote, hc, hne, beq_false_of_ne hplain] using h
        exact List.mem_cons_of_mem _ (ih hrest inner hinner)
  | case4 => simp

/-- Words go on with digits and with what they start with. -/
theorem continuesWord_eq (c : Char) : continuesWord c = (c.isDigit || startsWord c) := by
  simp only [continuesWord, startsWord, Char.isAlphanum]
  grind

end Category

namespace Front

/-- What is opened like a comment and never closed has no `*/` behind its opening. -/
theorem Unclosed.not_infix {text : List Char} (h : Unclosed text) :
    ¬ ['*', '/'] <:+: text.drop 2 := by
  obtain ⟨⟨rest, rfl⟩, hnone⟩ := h
  have hextent := Category.extent_eq_none_iff.2 hnone
  cases hend : Category.throughCommentEnd 0 rest with
  | none => exact Category.not_infix_of_throughCommentEnd hend
  | some n =>
      have hsome : Category.blockComment.extent (['/', '*'] ++ rest) = some (2 + n) :=
        Extent.followedBy_eq_some.2 ⟨2, n, rfl, hend, rfl⟩
      rw [hextent] at hsome
      cases hsome

/-- A string is opened at the front of the text and not closed on its line. -/
def OpenQuote (text : List Char) : Prop :=
  ['"'] <+: text ∧ ∀ lexeme ∈ Category.string.lexemes, ¬ lexeme <+: text

theorem OpenQuote.mem_of_beforeQuote {text : List Char} (h : OpenQuote text) :
    ∀ body ∈ beforeQuote text.tail, '\n' ∈ body := by
  obtain ⟨⟨rest, rfl⟩, hnone⟩ := h
  have hextent := Category.extent_eq_none_iff.2 hnone
  cases hend : Category.throughQuote false 0 rest with
  | none => exact Category.throughQuote_eq_none hend
  | some n =>
      have hsome : Category.string.extent (['"'] ++ rest) = some (1 + n) :=
        Extent.followedBy_eq_some.2 ⟨1, n, rfl, hend, rfl⟩
      rw [hextent] at hsome
      cases hsome

/-- The four things that can be at the front of a text. -/
theorem of_cases (text : List Char) :
    (of text = .unterminated "block comment" ∧ Unclosed text) ∨
      (of text = .unterminated "string literal" ∧ OpenQuote text) ∨
      (∃ category length, of text = .lexeme category length) ∨
      (of text = .unknown ∧ ¬ ['"'] <+: text ∧
        ∀ category : Category, ∀ lexeme ∈ category.lexemes, ¬ lexeme <+: text) := by
  unfold of
  split
  · next hcomment => exact .inl ⟨rfl, unclosed_iff.2 hcomment⟩
  split
  · next hquote =>
    rw [Bool.and_eq_true, List.isPrefixOf_iff_prefix, Option.isNone_iff_eq_none,
      Category.extent_eq_none_iff] at hquote
    exact .inr (.inl ⟨rfl, hquote⟩)
  next hclosed =>
  split
  · next found hfound =>
    obtain ⟨category, _, hcategory⟩ := List.exists_of_findSome?_eq_some hfound
    obtain ⟨length, _, rfl⟩ := Option.map_eq_some_iff.1 hcategory
    exact .inr (.inr (.inl ⟨category, length, rfl⟩))
  · next hnone =>
    have hextent : ∀ category : Category, category.extent text = none := fun category =>
      Option.map_eq_none_iff.1
        (List.findSome?_eq_none_iff.1 hnone category (Category.mem_all category))
    refine .inr (.inr (.inr ⟨rfl, ?_, fun category =>
      Category.extent_eq_none_iff.1 (hextent category)⟩))
    intro hopen
    apply hclosed
    rw [hextent .string, List.isPrefixOf_iff_prefix.2 hopen]
    rfl

/-- The text begins like nothing in the language: not with a blank, with what words and
numbers are made of, or with a double quote, nor with a mark that stands for itself or
with a character literal. -/
structure Hopeless (c : Char) (text : List Char) : Prop where
  not_blank : isBlank c = false
  not_word : Category.continuesWord c = false
  not_quote : c ≠ '"'
  not_fixed : ∀ entry ∈ Vocabulary.fixed, entry.1.toList ≠ [c]
  not_character : ∀ lexeme ∈ Category.character.lexemes, ¬ lexeme <+: c :: text

theorem mem_someOf {p q : Char → Bool} {c : Char} (h : p c) :
    [c] ∈ Pattern.one p * Pattern.run q :=
  ⟨[c], ⟨c, rfl, h⟩, [], fun _ hnil => absurd hnil List.not_mem_nil, rfl⟩

theorem Hopeless.of_no_lexeme {c : Char} {text : List Char}
    (hquote : ¬ ['"'] <+: c :: text)
    (hnone : ∀ category : Category, ∀ lexeme ∈ category.lexemes, ¬ lexeme <+: c :: text) :
    Hopeless c text := by
  have halone : ∀ category : Category, [c] ∉ category.lexemes :=
    fun category hlexeme => hnone category [c] hlexeme (by simp)
  constructor
  case not_blank =>
    by_contra hblank
    exact halone .blank (mem_someOf (by simpa using hblank))
  case not_word =>
    by_contra hword
    rw [Category.continuesWord_eq, Bool.not_eq_false, Bool.or_eq_true] at hword
    rcases hword with hdigit | hletter
    · exact halone .integer (.inr (mem_someOf hdigit))
    · exact halone .word (mem_someOf hletter)
  case not_quote =>
    rintro rfl
    exact hquote (by simp)
  case not_fixed =>
    intro entry hentry hc
    exact halone .fixed ⟨entry, hentry, hc.symm⟩
  case not_character => exact hnone .character

/-- Every mark begins with one that stands for itself alone. -/
theorem exists_fixed_of_head : ∀ entry ∈ Vocabulary.fixed, ∃ single ∈ Vocabulary.fixed,
    single.1.toList = entry.1.toList.take 1 := by
  decide

theorem Hopeless.opening {c : Char} {text : List Char} (h : Hopeless c text) :
    Opening.of c = .apostrophe ∨ Opening.of c = .mark := by
  have hslash : c ≠ '/' := by
    rintro rfl
    exact h.not_fixed ("/", .slash) (by decide) rfl
  have hpound : c ≠ '#' := by
    rintro rfl
    exact h.not_fixed ("#", .pound) (by decide) rfl
  have hword := h.not_word
  rw [Category.continuesWord_eq, Bool.or_eq_false_iff] at hword
  by_cases hapostrophe : c = '\''
  · exact .inl (by simp [Opening.of, hapostrophe])
  · exact .inr (by simp [Opening.of, hslash, hpound, hapostrophe, h.not_quote, hword,
      h.not_blank])

theorem Hopeless.no_lexeme {c : Char} {text : List Char} (h : Hopeless c text)
    (category : Category) : ∀ lexeme ∈ category.lexemes, ¬ lexeme <+: c :: text := by
  intro lexeme hlexeme hprefix
  obtain ⟨d, more, rfl, hd⟩ := category.lexemes_beginIn lexeme hlexeme
  obtain ⟨rfl, _⟩ := List.cons_prefix_cons.1 hprefix
  cases category with
  | fixed =>
      obtain ⟨entry, hentry, hlexeme⟩ := hlexeme
      obtain ⟨single, hsingle, htake⟩ := exists_fixed_of_head entry hentry
      rw [← hlexeme] at htake
      exact h.not_fixed single hsingle htake
  | character => exact h.not_character _ hlexeme hprefix
  | _ => rcases h.opening with hopening | hopening <;> simp [hopening, Category.openings] at hd

/-- Nothing is known at the front of a text if and only if it is hopeless. -/
theorem of_eq_unknown_iff {c : Char} {text : List Char} :
    of (c :: text) = .unknown ↔ Hopeless c text := by
  constructor
  · intro h
    rcases of_cases (c :: text) with
      ⟨hof, _⟩ | ⟨hof, _⟩ | ⟨_, _, hof⟩ | ⟨_, hquote, hnone⟩
    · cases hof.symm.trans h
    · cases hof.symm.trans h
    · cases hof.symm.trans h
    · exact .of_no_lexeme hquote hnone
  · intro h
    rcases of_cases (c :: text) with
      ⟨_, hopen, _⟩ | ⟨_, hopen, _⟩ | ⟨category, length, hof⟩ | ⟨hof, _⟩
    · obtain ⟨rfl, _⟩ := List.cons_prefix_cons.1 hopen
      exact absurd rfl (h.not_fixed ("/", .slash) (by decide))
    · obtain ⟨rfl, _⟩ := List.cons_prefix_cons.1 hopen
      exact absurd rfl h.not_quote
    · obtain ⟨_, lexeme, _, _, _, hlongest⟩ := longest_of_eq_lexeme hof
      exact absurd hlongest.front
        (h.no_lexeme category lexeme ((hlongest.mem_iff category).2 rfl))
    · exact hof

end Front

end MiniC
