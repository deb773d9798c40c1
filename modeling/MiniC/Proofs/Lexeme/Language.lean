/-
The language of each lexical category, and that extents read it: they take
lexemes of the category, and the longest that there is.
-/
import MiniC.Proofs.Lexeme.Category
import MiniC.Proofs.Lexeme.Pattern

namespace MiniC

open Computability

namespace Pattern

/-- Digits of base ten. -/
def digits : Language Char := someOf Char.isDigit

/-- `0x` or `0X` and digits of base sixteen. -/
def hexadecimal : Language Char :=
  one (· == '0') * (one (fun c => c == 'x' || c == 'X') * someOf Category.isHexDigit)

/-- `e` or `E`, perhaps a sign, and digits. -/
def exponent : Language Char :=
  one (fun c => c == 'e' || c == 'E') *
    (optional (one fun c => c == '+' || c == '-') * digits)

/-- Digits, a point and digits, perhaps with an exponent. -/
def pointed : Language Char :=
  digits * (one (· == '.') * (digits * optional exponent))

/-- A number without a point. -/
def whole : Language Char := hexadecimal + digits

/-- Text up to the first `*/` and with it. -/
def commentTail : Language Char :=
  {w | ∃ body, w = body ++ ['*', '/'] ∧ ¬ ['*', '/'] <:+: body ++ ['*']}

/-- One character of a string, or two of which the first is a backslash. -/
def stringPiece : Language Char :=
  one (fun c => c != '"' && c != '\\' && c != '\n') +
    one (· == '\\') * one Category.staysOnLine

/-- One to three digits of base eight. -/
def octal : Language Char :=
  {w | w ≠ [] ∧ w.length ≤ 3 ∧ ∀ c ∈ w, Category.isOctalDigit c}

/-- What a backslash and the characters behind it stand for one character. -/
def escape : Language Char :=
  one (· == '\\') *
    (one (· == 'x') * someOf Category.isHexDigit + (octal + one Category.staysOnLine))

/-- What may stand between apostrophes. -/
def characterBody : Language Char :=
  escape + one fun c => c != '\\' && c != '\'' && c != '\n'

/-- A header name between `opening` and `closing`. -/
def header (opening closing : Char) : Language Char :=
  one (· == opening) *
    (run (fun c => c != closing && c != '\n') * one (· == closing))

end Pattern

open Pattern in
/-- The lexemes of a category. -/
def Category.lexemes : Category → Language Char
  | blank => someOf isBlank
  | lineComment => exactly ['/', '/'] * run staysOnLine
  | blockComment => exactly ['/', '*'] * commentTail
  | floating =>
      (pointed + Pattern.digits * Pattern.exponent) *
        optional (one fun c => c == 'f' || c == 'F')
  | unsignedInteger => whole * one fun c => c == 'u' || c == 'U'
  | integer => whole
  | string => one (· == '"') * (stringPiece∗ * one (· == '"'))
  | character => one (· == '\'') * (characterBody * one (· == '\''))
  | includeDirective =>
      exactly "#include".toList *
        (run (fun c => c == ' ' || c == '\t') * (header '<' '>' + header '"' '"'))
  | word => one startsWord * run continuesWord
  | fixed => {w | ∃ entry ∈ Vocabulary.fixed, w = entry.1.toList}

namespace Extent

open Pattern

theorem startsOutside_digit {q : Char → Bool} (h : ∀ c, q c → c.isDigit = false)
    (L : Language Char) : StartsOutside Char.isDigit (Pattern.one q * L) :=
  (startsOutside_one h).mul

theorem readsIn_digits : Category.digits.ReadsIn Pattern.digits := readsIn_someOf _

theorem covers_digits : Category.digits.Covers Pattern.digits := covers_someOf _

theorem readsIn_hexadecimal : Category.hexadecimal.ReadsIn Pattern.hexadecimal :=
  ReadsIn.followedBy (reads_one _) (ReadsIn.followedBy (reads_one _) (readsIn_someOf _))

theorem covers_hexadecimal : Category.hexadecimal.Covers Pattern.hexadecimal :=
  Covers.followedBy (stopsBefore_one _ _)
    (Covers.followedBy (stopsBefore_one _ _) (covers_someOf _))

theorem readsIn_exponent : Category.exponent.ReadsIn Pattern.exponent :=
  ReadsIn.followedBy (reads_one _)
    (ReadsIn.followedBy (ReadsIn.optional (reads_one _)) readsIn_digits)

/-- No digit is a sign. -/
theorem covers_exponent : Category.exponent.Covers Pattern.exponent := by
  apply Covers.followedBy (stopsBefore_one _ _)
  refine Covers.followedBy ((stopsBefore_one _ _).optional ?_) covers_digits
  apply one_startsOutside (startsOutside_someOf _)
  intro c hc
  by_contra hsign
  simp only [Bool.not_eq_false, Bool.or_eq_true, beq_iff_eq] at hsign
  rcases hsign with rfl | rfl <;> exact absurd hc (by decide)

theorem readsIn_pointed :
    (Category.digits.followedBy <| (one (· == '.')).followedBy <|
      Category.digits.followedBy Category.exponent.optional).ReadsIn pointed :=
  readsIn_digits.followedBy (ReadsIn.followedBy (reads_one _)
    (readsIn_digits.followedBy readsIn_exponent.optional))

theorem covers_pointed :
    (Category.digits.followedBy <| (one (· == '.')).followedBy <|
      Category.digits.followedBy Category.exponent.optional).Covers pointed := by
  refine Covers.followedBy (stopsBefore_someOf ?_)
    (Covers.followedBy (stopsBefore_one _ _)
      (covers_digits.followedBy_optional (stopsBefore_someOf ?_) covers_exponent))
  · apply startsOutside_digit
    simp
  · apply startsOutside_digit
    intro c hc
    simp only [Bool.or_eq_true, beq_iff_eq] at hc
    rcases hc with rfl | rfl <;> rfl

theorem readsIn_floating : Category.floatingForm.ReadsIn Category.floating.lexemes :=
  ReadsIn.followedBy
    (readsIn_pointed.orElse (readsIn_digits.followedBy readsIn_exponent))
    (ReadsIn.optional (reads_one _))

/-- Behind the same digits there is either a point or an exponent. -/
theorem covers_floating : Category.floatingForm.Covers Category.floating.lexemes := by
  apply Covers.followedBy_optional_one
  have hletter : StartsOutside Char.isDigit Pattern.exponent := by
    apply startsOutside_digit
    intro c hc
    simp only [Bool.or_eq_true, beq_iff_eq] at hc
    rcases hc with rfl | rfl <;> rfl
  apply covers_pointed.orElse (Covers.followedBy (stopsBefore_someOf hletter) covers_exponent)
  intro text n m hpointed hplain
  obtain ⟨k, _, hk, hpoint, _⟩ := followedBy_eq_some.1 hpointed
  obtain ⟨k', _, hk', hexponent, _⟩ := followedBy_eq_some.1 hplain
  obtain rfl : k = k' := Option.some.inj (hk.symm.trans hk')
  obtain ⟨_, _, hdot, _⟩ := followedBy_eq_some.1 hpoint
  obtain ⟨_, _, hmark, _⟩ := followedBy_eq_some.1 hexponent
  obtain ⟨_, rest, hrest, _, c, rfl, hc⟩ := reads_one _ _ _ hdot
  rw [hrest, List.singleton_append, one_cons, eq_of_beq hc] at hmark
  cases hmark

theorem readsIn_whole : Category.wholeForm.ReadsIn whole :=
  readsIn_hexadecimal.orElse readsIn_digits

/-- Digits of base sixteen are announced by a zero and a letter that is no digit. -/
theorem begins_of_hexadecimal {text : List Char} {n : Nat}
    (h : Category.hexadecimal text = some n) :
    2 ≤ n ∧ ∃ x more, text = '0' :: x :: more ∧ (x == 'x' || x == 'X') = true ∧
      x.isDigit = false := by
  obtain ⟨_, rest, rfl, rfl, _, ⟨zero, rfl, hzero⟩, _, ⟨_, ⟨x, rfl, hx⟩, more, _, rfl⟩,
    rfl⟩ := readsIn_hexadecimal _ _ h
  obtain rfl := eq_of_beq hzero
  refine ⟨by simp, x, more ++ rest, rfl, hx, ?_⟩
  simp only [Bool.or_eq_true, beq_iff_eq] at hx
  rcases hx with rfl | rfl <;> rfl

theorem covers_whole : Category.wholeForm.Covers whole := by
  apply covers_hexadecimal.orElse covers_digits
  intro text n m hn hm
  obtain ⟨hle, x, more, rfl, _, hdigit⟩ := begins_of_hexadecimal hn
  have hone : Category.digits ('0' :: x :: more) = some 1 := by
    simp [Category.digits, someOf, followedBy, one, run, hdigit]
  obtain rfl : 1 = m := Option.some.inj (hone.symm.trans hm)
  omega

/-- Before a character that is no digit of base sixteen, and no `x`, a number without
a point has come to its end. -/
theorem stopsBefore_whole {next : Language Char}
    (h : StartsOutside (fun c => Category.isHexDigit c || (c == 'x' || c == 'X')) next) :
    Category.wholeForm.StopsBefore whole next := by
  have hhex : StartsOutside Category.isHexDigit next := by
    intro w hw
    obtain ⟨c, more, rfl, hc⟩ := h w hw
    exact ⟨c, more, rfl, (Bool.or_eq_false_iff.1 hc).1⟩
  have hdigit : StartsOutside Char.isDigit next := by
    intro w hw
    obtain ⟨c, more, rfl, hc⟩ := hhex w hw
    refine ⟨c, more, rfl, ?_⟩
    simp only [Category.isHexDigit, Bool.or_eq_false_iff] at hc
    exact hc.1.1
  refine StopsBefore.orElse ?_ (stopsBefore_someOf hdigit) ?_
  · exact (stopsBefore_one _ _).followedBy
      ((stopsBefore_one _ _).followedBy (stopsBefore_someOf hhex))
  · intro lexeme hlexeme following hfollowing rest n hn
    -- The letter would have to be a digit, or the character that follows.
    exfalso
    obtain ⟨_, x, _, htext, hx, hletter⟩ := begins_of_hexadecimal hn
    obtain ⟨_, ⟨d, rfl, _⟩, digits, hdigits, rfl⟩ := hlexeme
    obtain ⟨c, more, rfl, hc⟩ := h following hfollowing
    cases digits with
    | nil =>
        obtain ⟨_, rfl, _⟩ : d = '0' ∧ c = x ∧ _ := by simpa using htext
        simp [hx] at hc
    | cons e digits =>
        obtain ⟨_, rfl, _⟩ : d = '0' ∧ e = x ∧ _ := by simpa using htext
        have he : e.isDigit = true := hdigits e List.mem_cons_self
        rw [hletter] at he
        cases he

theorem readsIn_unsignedInteger :
    (Category.extent .unsignedInteger).ReadsIn Category.unsignedInteger.lexemes :=
  readsIn_whole.followedBy (reads_one _)

theorem covers_unsignedInteger :
    (Category.extent .unsignedInteger).Covers Category.unsignedInteger.lexemes := by
  apply Covers.followedBy (stopsBefore_whole (startsOutside_one _)) (covers_one _)
  intro c hc
  simp only [Bool.or_eq_true, beq_iff_eq] at hc
  rcases hc with rfl | rfl <;> rfl

/-- Up to three digits of base eight, as the extent of an escape takes them. -/
def octalForm : Extent :=
  (one Category.isOctalDigit).followedBy <|
    (one Category.isOctalDigit).optional.followedBy (one Category.isOctalDigit).optional

theorem readsIn_octal : octalForm.ReadsIn octal := by
  have hmore : (one Category.isOctalDigit).optional.Reads fun lexeme _ =>
      lexeme.length ≤ 1 ∧ ∀ c ∈ lexeme, Category.isOctalDigit c := by
    apply (Reads.optional (reads_one _)).mono
    rintro _ _ (rfl | ⟨c, rfl, hc⟩)
    · simp
    · simpa using hc
  apply ((reads_one _).followedBy (hmore.followedBy hmore)).mono
  rintro _ _ ⟨_, _, rfl, ⟨c, rfl, hc⟩, front, back, rfl, ⟨hfront, hfronts⟩, hback, hbacks⟩
  refine ⟨List.cons_ne_nil _ _, ?_, ?_⟩
  · simp only [List.singleton_append, List.length_cons, List.length_append]
    omega
  · simp only [List.singleton_append, List.forall_mem_cons, List.forall_mem_append]
    exact ⟨hc, hfronts, hbacks⟩

theorem stopsBefore_octal {next : Language Char}
    (h : StartsOutside Category.isOctalDigit next) : octalForm.StopsBefore octal next := by
  rintro lexeme ⟨hne, hlength, hall⟩ following hfollowing rest
  obtain ⟨c, more, rfl, hc⟩ := h following hfollowing
  rcases lexeme with _ | ⟨a, _ | ⟨b, _ | ⟨d, _ | ⟨_, lexeme⟩⟩⟩⟩
  · exact absurd rfl hne
  · simp_all [octalForm, followedBy, Extent.optional, one]
  · simp_all [octalForm, followedBy, Extent.optional, one]
  · simp_all [octalForm, followedBy, Extent.optional, one]
  · simp only [List.length_cons] at hlength
    omega

/-- The extent of what may stand between apostrophes. -/
def characterBodyForm : Extent :=
  Category.escapeForm.orElse (one fun c => c != '\\' && c != '\'' && c != '\n')

theorem readsIn_characterBody : characterBodyForm.ReadsIn characterBody :=
  ReadsIn.orElse
    (ReadsIn.followedBy (reads_one _)
      (ReadsIn.orElse (ReadsIn.followedBy (reads_one _) (readsIn_someOf _))
        (readsIn_octal.orElse (reads_one _))))
    (reads_one _)

/-- Before an apostrophe, an escape has come to its end. -/
theorem stopsBefore_characterBody :
    characterBodyForm.StopsBefore characterBody (Pattern.one (· == '\'')) := by
  have hquote : ∀ c, (c == '\'') = true → Category.isHexDigit c = false ∧
      Category.isOctalDigit c = false := by
    intro c hc
    obtain rfl := eq_of_beq hc
    decide
  have hcode : ((one (· == 'x')).followedBy (someOf Category.isHexDigit)).StopsBefore
      (Pattern.one (· == 'x') * Pattern.someOf Category.isHexDigit)
      (Pattern.one (· == '\'')) :=
    (stopsBefore_one _ _).followedBy
      (stopsBefore_someOf (startsOutside_one fun c hc => (hquote c hc).1))
  have hoctal : octalForm.StopsBefore octal (Pattern.one (· == '\'')) :=
    stopsBefore_octal (startsOutside_one fun c hc => (hquote c hc).2)
  refine StopsBefore.orElse ?_ (stopsBefore_one _ _) ?_
  · refine (stopsBefore_one _ _).followedBy (StopsBefore.orElse hcode ?_ ?_)
    · apply hoctal.orElse (stopsBefore_one _ _)
      rintro _ ⟨c, rfl, _⟩ _ ⟨d, rfl, hd⟩ rest n hn
      obtain rfl := eq_of_beq hd
      by_cases hc : Category.isOctalDigit c = true
      · simp_all [octalForm, followedBy, Extent.optional, one]
      · simp_all [octalForm, followedBy, Extent.optional, one]
    · -- The code of a character goes on behind its `x` with a digit.
      rintro lexeme hlexeme _ ⟨d, rfl, hd⟩ rest n hn
      exfalso
      obtain ⟨_, _, hletter, hdigit, _⟩ := followedBy_eq_some.1 hn
      obtain ⟨_, _, htext, rfl, x, rfl, hx⟩ := reads_one _ _ _ hletter
      obtain rfl := eq_of_beq hx
      rcases hlexeme with ⟨hne, _, hall⟩ | ⟨c, rfl, _⟩
      · obtain ⟨c, lexeme, rfl⟩ := List.exists_cons_of_ne_nil hne
        obtain ⟨rfl, _⟩ := List.cons.inj htext
        exact absurd (hall 'x' List.mem_cons_self) (by decide)
      · rw [List.singleton_append] at hdigit
        simp [someOf, followedBy, one, (hquote d hd).1] at hdigit
  · rintro _ ⟨c, rfl, hc⟩ _ ⟨d, rfl, _⟩ rest n hn
    simp only [Bool.and_eq_true, bne_iff_ne] at hc
    simp [Category.escapeForm, followedBy, one, hc.1.1] at hn

theorem readsIn_character :
    Category.characterForm.ReadsIn Category.character.lexemes :=
  ReadsIn.followedBy (reads_one _) (readsIn_characterBody.followedBy (reads_one _))

theorem covers_character : Category.characterForm.Covers Category.character.lexemes :=
  Covers.followedBy (stopsBefore_one _ _)
    (Covers.followedBy stopsBefore_characterBody (covers_one _))

theorem readsIn_header (opening closing : Char) :
    (Category.headerForm opening closing).ReadsIn (header opening closing) :=
  ReadsIn.followedBy (reads_one _) ((readsIn_run _).followedBy (reads_one _))

theorem covers_header (opening closing : Char) :
    (Category.headerForm opening closing).Covers (header opening closing) := by
  apply Covers.followedBy (stopsBefore_one _ _)
  apply Covers.followedBy (stopsBefore_run (startsOutside_one _)) (covers_one _)
  intro c hc
  simp [eq_of_beq hc]

theorem readsIn_includeDirective :
    (Category.extent .includeDirective).ReadsIn Category.includeDirective.lexemes :=
  ReadsIn.followedBy (reads_exactly _)
    ((readsIn_run _).followedBy ((readsIn_header _ _).orElse (readsIn_header _ _)))

theorem covers_includeDirective :
    (Category.extent .includeDirective).Covers Category.includeDirective.lexemes := by
  apply Covers.followedBy (stopsBefore_exactly _ _)
  refine Covers.followedBy (stopsBefore_run ?_)
    ((covers_header _ _).orElse (covers_header _ _) ?_)
  · apply StartsOutside.add <;> refine (startsOutside_one ?_).mul <;> intro c hc <;>
      rw [eq_of_beq hc] <;> rfl
  · intro text n m hn hm
    obtain ⟨_, _, hangle, _⟩ := followedBy_eq_some.1 hn
    obtain ⟨_, _, hquote, _⟩ := followedBy_eq_some.1 hm
    obtain ⟨_, _, rfl, _, c, rfl, hc⟩ := reads_one _ _ _ hangle
    rw [List.singleton_append, one_cons, eq_of_beq hc] at hquote
    cases hquote

theorem readsIn_blockComment :
    (Category.extent .blockComment).ReadsIn Category.blockComment.lexemes :=
  ReadsIn.followedBy (reads_exactly _) Category.reads_throughCommentEnd

theorem covers_blockComment :
    (Category.extent .blockComment).Covers Category.blockComment.lexemes := by
  apply Covers.followedBy (stopsBefore_exactly _ _)
  rintro _ ⟨body, rfl, hfirst⟩ rest
  have hend := Category.throughCommentEnd_of_split hfirst 0 rest
  refine ⟨_, by simpa using hend, by simp⟩

theorem append_mem_kstar {L : Language Char} {piece w : List Char} (hpiece : piece ∈ L)
    (hw : w ∈ L∗) : piece ++ w ∈ L∗ := by
  obtain ⟨pieces, rfl, hpieces⟩ := hw
  refine ⟨piece :: pieces, rfl, ?_⟩
  rw [List.forall_mem_cons]
  exact ⟨hpiece, hpieces⟩

/-- Up to the quote that ends a string there are whole pieces, where a backslash that
was passed belongs to the first of them. -/
theorem throughQuote_pieces {escaped : Bool} {n m : Nat} {text : List Char}
    (h : Category.throughQuote escaped n text = some m) :
    ∃ body rest, text = body ++ '"' :: rest ∧ n + (body.length + 1) = m ∧
      (if escaped then '\\' :: body else body) ∈ stringPiece∗ := by
  fun_induction Category.throughQuote escaped n text with
  | case1 => cases h
  | case2 => cases h
  | case3 n c text hline ih =>
      obtain ⟨body, rest, rfl, hlength, hbody⟩ := ih h
      refine ⟨c :: body, rest, rfl, ?_, ?_⟩
      · rw [List.length_cons]
        omega
      · have hpiece : ['\\', c] ∈ stringPiece :=
          .inr ⟨['\\'], ⟨_, rfl, rfl⟩, [c], ⟨c, rfl, by simpa [Category.staysOnLine]⟩, rfl⟩
        exact append_mem_kstar hpiece hbody
  | case4 escaped n text =>
      cases h
      refine ⟨[], text, rfl, rfl, ?_⟩
      simp_all [Language.nil_mem_kstar]
  | case5 escaped n c text hline hescaped hquote ih =>
      obtain ⟨body, rest, rfl, hlength, hbody⟩ := ih h
      refine ⟨c :: body, rest, rfl, ?_, ?_⟩
      · rw [List.length_cons]
        omega
      · rw [if_neg hescaped]
        by_cases hc : c = '\\'
        · simpa [hc] using hbody
        · have hpiece : [c] ∈ stringPiece := .inl ⟨c, rfl, by simp [hline, hquote, hc]⟩
          exact append_mem_kstar hpiece (by simpa [hc] using hbody)

/-- A piece of a string is passed as a whole. -/
theorem throughQuote_append {piece : List Char} (h : piece ∈ stringPiece) (n : Nat)
    (text : List Char) : Category.throughQuote false n (piece ++ text) =
      Category.throughQuote false (n + piece.length) text := by
  rcases h with ⟨c, rfl, hc⟩ | ⟨_, ⟨b, rfl, hb⟩, _, ⟨c, rfl, hc⟩, rfl⟩
  · simp only [Bool.and_eq_true, bne_iff_ne] at hc
    have hplain : (c == '\\') = false := beq_false_of_ne hc.1.2
    simp [Category.throughQuote, hc.1.1, hplain, hc.2]
  · obtain rfl := eq_of_beq hb
    simp only [Category.staysOnLine, bne_iff_ne] at hc
    simp [Category.throughQuote, hc]

theorem throughQuote_of_pieces {body : List Char} (h : body ∈ stringPiece∗) (n : Nat)
    (rest : List Char) : Category.throughQuote false n (body ++ '"' :: rest) =
      some (n + body.length + 1) := by
  obtain ⟨pieces, rfl, hpieces⟩ := h
  induction pieces generalizing n with
  | nil => rfl
  | cons piece pieces ih =>
      rw [List.forall_mem_cons] at hpieces
      rw [List.flatten_cons, List.append_assoc, throughQuote_append hpieces.1,
        ih _ hpieces.2, List.length_append, Nat.add_assoc n]

theorem readsIn_string :
    (Category.extent .string).ReadsIn Category.string.lexemes := by
  apply ReadsIn.followedBy (reads_one _)
  intro text n h
  obtain ⟨body, rest, rfl, hlength, hbody⟩ := throughQuote_pieces h
  refine ⟨body ++ ['"'], rest, by simp, ?_, body, hbody, ['"'], ⟨_, rfl, rfl⟩, rfl⟩
  simpa using hlength

theorem covers_string :
    (Category.extent .string).Covers Category.string.lexemes := by
  apply Covers.followedBy (stopsBefore_one _ _)
  rintro _ ⟨body, hbody, _, ⟨c, rfl, hc⟩, rfl⟩ rest
  obtain rfl := eq_of_beq hc
  have hend := throughQuote_of_pieces hbody 0 rest
  refine ⟨_, by simpa using hend, by simp⟩

/-- No fixed spelling begins with one that comes before it in the list. -/
theorem fixed_pairwise : Vocabulary.fixed.Pairwise fun earlier later =>
    earlier.1.toList.isPrefixOf later.1.toList = false := by
  decide

/-- The first spelling that fits is the longest that fits. -/
theorem covers_fixed : (Category.extent .fixed).Covers Category.fixed.lexemes := by
  rintro _ ⟨entry, hentry, rfl⟩ rest
  have hfits : entry.1.toList.isPrefixOf (entry.1.toList ++ rest) = true :=
    List.isPrefixOf_iff_prefix.2 (List.prefix_append _ _)
  cases hfound : Vocabulary.fixedAt? (entry.1.toList ++ rest) with
  | none =>
      rw [Vocabulary.fixedAt?, List.find?_eq_none] at hfound
      exact absurd hfits (hfound entry hentry)
  | some found =>
      refine ⟨found.1.length, congrArg (Option.map _) hfound, ?_⟩
      rw [Vocabulary.fixedAt?, List.find?_eq_some_iff_append] at hfound
      obtain ⟨hfront, before, after, hlist, hbefore⟩ := hfound
      have hpairwise := fixed_pairwise
      rw [hlist, List.pairwise_append, List.pairwise_cons] at hpairwise
      have hlater : entry = found ∨ entry ∈ after := by
        rw [hlist, List.mem_append, List.mem_cons] at hentry
        rcases hentry with hentry | hentry
        · have hnot := hbefore entry hentry
          rw [hfits] at hnot
          cases hnot
        · exact hentry
      rcases hlater with rfl | hafter
      · rw [String.length_toList]
      · have hnot := hpairwise.2.1.1 entry hafter
        rw [List.isPrefixOf_iff_prefix] at hfront
        rcases List.prefix_or_prefix_of_prefix hfront (List.prefix_append _ rest) with
          hle | hle
        · rw [← List.isPrefixOf_iff_prefix, hnot] at hle
          cases hle
        · rw [← String.length_toList]
          exact hle.length_le

end Extent

namespace Category

/-- An extent takes lexemes of its category. -/
theorem extent_readsIn (category : Category) :
    category.extent.ReadsIn category.lexemes := by
  cases category with
  | blank => exact Extent.readsIn_someOf _
  | lineComment =>
      exact Extent.ReadsIn.followedBy (Extent.reads_exactly _) (Extent.readsIn_run _)
  | blockComment => exact Extent.readsIn_blockComment
  | floating => exact Extent.readsIn_floating
  | unsignedInteger => exact Extent.readsIn_unsignedInteger
  | integer => exact Extent.readsIn_whole
  | string => exact Extent.readsIn_string
  | character => exact Extent.readsIn_character
  | includeDirective => exact Extent.readsIn_includeDirective
  | word => exact Extent.ReadsIn.followedBy (Extent.reads_one _) (Extent.readsIn_run _)
  | fixed => exact reads_fixed

/-- Where a lexeme of its category stands at the front, an extent takes no less. -/
theorem extent_covers (category : Category) :
    category.extent.Covers category.lexemes := by
  cases category with
  | blank => exact Extent.covers_someOf _
  | lineComment =>
      exact Extent.Covers.followedBy (Extent.stopsBefore_exactly _ _) (Extent.covers_run _)
  | blockComment => exact Extent.covers_blockComment
  | floating => exact Extent.covers_floating
  | unsignedInteger => exact Extent.covers_unsignedInteger
  | integer => exact Extent.covers_whole
  | string => exact Extent.covers_string
  | character => exact Extent.covers_character
  | includeDirective => exact Extent.covers_includeDirective
  | word =>
      exact Extent.Covers.followedBy (Extent.stopsBefore_one _ _) (Extent.covers_run _)
  | fixed => exact Extent.covers_fixed

end Category

end MiniC
