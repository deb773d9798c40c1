/-
What the lexemes of each category look like.
-/
import MiniC.Lexeme.Category
import MiniC.Proofs.Lexeme.Extent

namespace MiniC.Category

open Extent

/-- What is known about a lexeme of the category and the text behind it: of what
blanks, comments and strings are made, which spellings are fixed, and that no
other lexeme is empty. -/
def Shape : Category → (lexeme rest : List Char) → Prop
  | blank, lexeme, _ => lexeme ≠ [] ∧ ∀ c ∈ lexeme, isBlank c
  | lineComment, lexeme, rest => ∃ body, lexeme = '/' :: '/' :: body ∧
      '\n' ∉ body ∧ ∀ c ∈ rest.head?, c = '\n'
  | blockComment, lexeme, _ => ∃ body,
      lexeme = '/' :: '*' :: (body ++ ['*', '/']) ∧
      ¬ ['*', '/'] <:+: body ++ ['*']
  | string, lexeme, _ => ∃ body, lexeme = '"' :: (body ++ ['"'])
  | fixed, lexeme, _ => ∃ entry ∈ Vocabulary.fixed, lexeme = entry.1.toList
  | _, lexeme, _ => lexeme ≠ []

theorem consumes_digits : digits.Consumes := consumes_someOf _

theorem consumes_hexadecimal : hexadecimal.Consumes :=
  (consumes_one _).followedBy
    ((consumes_one _).followedBy (consumes_someOf _).fits).fits

theorem fits_exponent : exponent.Fits :=
  (fits_one _).followedBy ((fits_one _).optional.followedBy consumes_digits.fits)

theorem consumes_floatingForm : floatingForm.Consumes := by
  refine Consumes.followedBy (Reads.orElse ?_ ?_) (fits_one _).optional
  · exact consumes_digits.followedBy ((fits_one _).followedBy
      (consumes_digits.fits.followedBy fits_exponent.optional))
  · exact consumes_digits.followedBy fits_exponent

theorem consumes_wholeForm : wholeForm.Consumes :=
  consumes_hexadecimal.orElse consumes_digits

theorem fits_escapeForm : escapeForm.Fits := by
  refine (fits_one _).followedBy (Reads.orElse ?_ (Reads.orElse ?_ (fits_one _)))
  · exact (fits_one _).followedBy (consumes_someOf _).fits
  · exact (fits_one _).followedBy
      ((fits_one _).optional.followedBy (fits_one _).optional)

theorem consumes_characterForm : characterForm.Consumes :=
  (consumes_one _).followedBy
    (Fits.followedBy (Reads.orElse fits_escapeForm (fits_one _)) (fits_one _))

theorem fits_headerForm (opening closing : Char) :
    (headerForm opening closing).Fits :=
  (fits_one _).followedBy ((fits_run _).followedBy (fits_one _))

/-- A block comment ends with the first end of a comment. -/
theorem throughCommentEnd_eq_some {n m : Nat} {text : List Char}
    (h : throughCommentEnd n text = some m) :
    ∃ body rest, text = body ++ '*' :: '/' :: rest ∧
      n + (body.length + 2) = m ∧ ¬ ['*', '/'] <:+: body ++ ['*'] := by
  fun_induction throughCommentEnd n text with
  | case1 n rest =>
      cases h
      exact ⟨[], rest, rfl, by simp, by decide⟩
  | case2 n c text hnot ih =>
      obtain ⟨body, rest, rfl, hlength, hfirst⟩ := ih h
      refine ⟨c :: body, rest, rfl, ?_, ?_⟩
      · rw [List.length_cons]
        omega
      · rw [List.cons_append, List.infix_cons_iff]
        rintro (hfront | hinside)
        · obtain ⟨rfl, hbody⟩ := List.cons_prefix_cons.1 hfront
          cases body with
          | nil => exact absurd hbody (by decide)
          | cons d body =>
              obtain ⟨rfl, _⟩ := List.cons_prefix_cons.1 hbody
              exact hnot _ rfl rfl
        · exact hfirst hinside
  | case3 n => cases h

/-- A block comment ends where the first end of a comment is. -/
theorem throughCommentEnd_of_split {body : List Char}
    (h : ¬ ['*', '/'] <:+: body ++ ['*']) (n : Nat) (rest : List Char) :
    throughCommentEnd n (body ++ '*' :: '/' :: rest) = some (n + body.length + 2) := by
  induction body generalizing n with
  | nil => rfl
  | cons c body ih =>
      rw [List.cons_append, List.infix_cons_iff, not_or] at h
      obtain ⟨hfront, hinside⟩ := h
      have hnext := ih hinside (n + 1)
      rw [List.cons_append, throughCommentEnd]
      · rw [hnext, List.length_cons]
        congr 1
        omega
      · rintro text rfl htext
        apply hfront
        cases body with
        | nil => simp at htext
        | cons d body =>
            obtain ⟨rfl, _⟩ := List.cons.inj htext
            simp

theorem extent_blockComment_of_not {text : List Char}
    (h : ['/', '*'].isPrefixOf text ≠ true) : blockComment.extent text = none := by
  simp only [extent, followedBy, exactly, if_neg h]
  rfl

/-- A block comment that is closed ends there, whatever follows. -/
theorem extent_blockComment_append {text : List Char} {n : Nat}
    (h : blockComment.extent text = some n) (more : List Char) :
    blockComment.extent (text ++ more) = some n := by
  obtain ⟨m, k, hopen, hend, rfl⟩ := followedBy_eq_some.1 h
  obtain ⟨_, rest, rfl, rfl, rfl⟩ := reads_exactly _ _ _ hopen
  obtain ⟨body, rest, rfl, hlength, hbody⟩ := throughCommentEnd_eq_some hend
  refine followedBy_eq_some.2 ⟨2, k, rfl, ?_, rfl⟩
  have hend' := throughCommentEnd_of_split hbody 0 (rest ++ more)
  rw [Nat.add_assoc, hlength] at hend'
  simpa using hend'

/-- A string ends with a double quote. -/
theorem throughQuote_eq_some {escaped : Bool} {n m : Nat} {text : List Char}
    (h : throughQuote escaped n text = some m) :
    ∃ body rest, text = body ++ '"' :: rest ∧ n + (body.length + 1) = m := by
  fun_induction throughQuote escaped n text with
  | case1 => cases h
  | case2 => cases h
  | case3 _ c text _ ih =>
      obtain ⟨body, rest, rfl, hlength⟩ := ih h
      refine ⟨c :: body, rest, rfl, ?_⟩
      rw [List.length_cons]
      omega
  | case4 _ _ text =>
      cases h
      exact ⟨[], text, rfl, rfl⟩
  | case5 _ _ c text _ _ _ ih =>
      obtain ⟨body, rest, rfl, hlength⟩ := ih h
      refine ⟨c :: body, rest, rfl, ?_⟩
      rw [List.length_cons]
      omega

theorem reads_throughCommentEnd :
    (throughCommentEnd 0).Reads fun lexeme _ => ∃ body,
      lexeme = body ++ ['*', '/'] ∧ ¬ ['*', '/'] <:+: body ++ ['*'] := by
  intro text n hform
  obtain ⟨body, rest, rfl, hlength, hfirst⟩ := throughCommentEnd_eq_some hform
  refine ⟨body ++ ['*', '/'], rest, by simp, ?_, body, rfl, hfirst⟩
  rw [← hlength, List.length_append, Nat.zero_add]
  rfl

theorem reads_throughQuote :
    (throughQuote false 0).Reads fun lexeme _ => ∃ body,
      lexeme = body ++ ['"'] := by
  intro text n hform
  obtain ⟨body, rest, rfl, hlength⟩ := throughQuote_eq_some hform
  refine ⟨body ++ ['"'], rest, by simp, ?_, body, rfl⟩
  rw [← hlength, List.length_append, Nat.zero_add]
  rfl

theorem reads_fixed :
    (extent .fixed).Reads fun lexeme _ =>
      ∃ entry ∈ Vocabulary.fixed, lexeme = entry.1.toList := by
  intro text n hform
  obtain ⟨entry, hentry, rfl⟩ := Option.map_eq_some_iff.1 hform
  unfold Vocabulary.fixedAt? at hentry
  have hmem := List.mem_of_find?_eq_some hentry
  have hfront := List.find?_some hentry
  obtain ⟨rest, hrest⟩ := List.isPrefixOf_iff_prefix.1 hfront
  exact ⟨_, rest, hrest.symm, String.length_toList, entry, hmem, rfl⟩

/-- Every category reads lexemes of its own shape. -/
theorem extent_reads (category : Category) :
    category.extent.Reads category.Shape := by
  cases category with
  | blank =>
      apply (reads_someOf isBlank).mono
      exact fun lexeme rest h => ⟨h.1, h.2.1⟩
  | lineComment =>
      apply ((reads_exactly _).followedBy (reads_run _)).mono
      intro _ rest hread
      obtain ⟨_, body, rfl, rfl, hbody, hrest⟩ := hread
      refine ⟨body, rfl, ?_, ?_⟩
      · intro hmem
        exact absurd (hbody _ hmem) (by decide)
      · intro c hc
        simpa [staysOnLine] using hrest c hc
  | blockComment =>
      apply ((reads_exactly _).followedBy reads_throughCommentEnd).mono
      intro _ rest hread
      obtain ⟨_, _, rfl, rfl, body, rfl, hfirst⟩ := hread
      exact ⟨body, rfl, hfirst⟩
  | floating => exact consumes_floatingForm
  | unsignedInteger => exact consumes_wholeForm.followedBy (fits_one _)
  | integer => exact consumes_wholeForm
  | string =>
      apply ((reads_one _).followedBy reads_throughQuote).mono
      intro _ rest hread
      obtain ⟨_, _, rfl, ⟨c, rfl, hc⟩, body, rfl⟩ := hread
      obtain rfl := eq_of_beq hc
      exact ⟨body, rfl⟩
  | character => exact consumes_characterForm
  | includeDirective =>
      have hword : (exactly "#include".toList).Consumes := by
        apply (reads_exactly _).mono
        rintro _ rest rfl
        decide
      exact hword.followedBy ((fits_run _).followedBy
        (Reads.orElse (fits_headerForm _ _) (fits_headerForm _ _)))
  | word => exact (consumes_one _).followedBy (fits_run _)
  | fixed => exact reads_fixed

/-- No lexeme is empty. -/
theorem Shape.ne_nil {category : Category} {lexeme rest : List Char}
    (h : category.Shape lexeme rest) : lexeme ≠ [] := by
  cases category with
  | blank => exact h.1
  | lineComment =>
      obtain ⟨body, rfl, _⟩ := h
      exact List.cons_ne_nil _ _
  | blockComment =>
      obtain ⟨body, rfl, _⟩ := h
      exact List.cons_ne_nil _ _
  | string =>
      obtain ⟨body, rfl⟩ := h
      exact List.cons_ne_nil _ _
  | fixed =>
      obtain ⟨entry, hentry, rfl⟩ := h
      have hall : ∀ entry ∈ Vocabulary.fixed, entry.1.toList ≠ [] := by decide
      exact hall entry hentry
  | floating => exact h
  | unsignedInteger => exact h
  | integer => exact h
  | character => exact h
  | includeDirective => exact h
  | word => exact h

theorem mem_keywords_of_keyword? {word : String} {kind : TokenKind}
    (h : Vocabulary.keyword? word = some kind) :
    (word, kind) ∈ Vocabulary.keywords := by
  obtain ⟨before, after, hkeywords, _⟩ := List.lookup_eq_some_iff.1 h
  simp [hkeywords]

theorem mem_of_kind?_word {keepComments : Bool} {lexeme : List Char}
    {kind : TokenKind} (h : word.kind? keepComments lexeme = some kind) :
    kind ∈ .identifier :: Vocabulary.keywords.map Prod.snd := by
  cases hword : Vocabulary.keyword? (String.ofList lexeme) with
  | none =>
      simp only [kind?, hword, Option.getD_none, Option.some.injEq] at h
      exact h ▸ List.mem_cons_self
  | some found =>
      simp only [kind?, hword, Option.getD_some, Option.some.injEq] at h
      subst h
      exact List.mem_cons_of_mem _
        (List.mem_map_of_mem (mem_keywords_of_keyword? hword))

theorem mem_of_kind?_fixed {keepComments : Bool} {lexeme : List Char}
    {kind : TokenKind} (h : fixed.kind? keepComments lexeme = some kind) :
    kind ∈ Vocabulary.fixed.map Prod.snd := by
  obtain ⟨entry, hentry, rfl⟩ := Option.map_eq_some_iff.1 h
  exact List.mem_map_of_mem (List.mem_of_find?_eq_some hentry)

/-- The kinds of fixed spellings and of words are neither those of strings nor
the end marker. -/
theorem kind?_of_ne_string {category : Category} (hcategory : category ≠ string)
    {keepComments : Bool} {lexeme : List Char} {kind : TokenKind}
    (h : category.kind? keepComments lexeme = some kind) :
    kind ≠ .string ∧ kind ≠ .eof := by
  cases category with
  | blank => cases h
  | lineComment =>
      obtain ⟨_, hkind⟩ := Option.ite_none_right_eq_some.1 h
      cases hkind
      decide
  | blockComment =>
      obtain ⟨_, hkind⟩ := Option.ite_none_right_eq_some.1 h
      cases hkind
      decide
  | floating => cases h; decide
  | unsignedInteger => cases h; decide
  | integer => cases h; decide
  | string => exact absurd rfl hcategory
  | character => cases h; decide
  | includeDirective => cases h; decide
  | word =>
      have hall : ∀ kind ∈ .identifier :: Vocabulary.keywords.map Prod.snd,
          kind ≠ .string ∧ kind ≠ .eof := by decide
      exact hall kind (mem_of_kind?_word h)
  | fixed =>
      have hall : ∀ kind ∈ Vocabulary.fixed.map Prod.snd,
          kind ≠ .string ∧ kind ≠ .eof := by decide
      exact hall kind (mem_of_kind?_fixed h)

/-- What stands for no token is blank, or a comment where none is kept. -/
theorem eq_blank_or_comment_of_kind?_eq_none {category : Category}
    {keepComments : Bool} {lexeme rest : List Char}
    (hshape : category.Shape lexeme rest)
    (h : category.kind? keepComments lexeme = none) :
    category = blank ∨ (keepComments = false ∧
      (category = lineComment ∨ category = blockComment)) := by
  cases category with
  | blank => exact Or.inl rfl
  | lineComment =>
      cases keepComments with
      | false => exact Or.inr ⟨rfl, Or.inl rfl⟩
      | true => cases h
  | blockComment =>
      cases keepComments with
      | false => exact Or.inr ⟨rfl, Or.inr rfl⟩
      | true => cases h
  | floating => cases h
  | unsignedInteger => cases h
  | integer => cases h
  | string => cases h
  | character => cases h
  | includeDirective => cases h
  | word => cases h
  | fixed =>
      obtain ⟨entry, hentry, rfl⟩ := hshape
      have hnone := Option.map_eq_none_iff.1 h
      unfold Vocabulary.fixedAt? at hnone
      rw [List.find?_eq_none] at hnone
      exact absurd (List.isPrefixOf_iff_prefix.2 (List.prefix_refl _))
        (hnone entry hentry)

end MiniC.Category
