/-
Longest match: to take the first category that fits is to take the longest lexeme
of any category.
-/
import Mathlib.Data.List.Pairwise
import MiniC.Proofs.Lexeme.Language
import MiniC.Proofs.Scanner.Tokenize

namespace MiniC

/-- What a lexeme begins with. -/
inductive Opening
  | slash | quote | apostrophe | pound | digit | letter | blank | mark
deriving DecidableEq

namespace Opening

/-- The sort of a character that a lexeme may begin with. -/
def of (c : Char) : Opening :=
  if c = '/' then slash
  else if c = '"' then quote
  else if c = '\'' then apostrophe
  else if c = '#' then pound
  else if c.isDigit then digit
  else if Category.startsWord c then letter
  else if isBlank c then blank
  else mark

theorem toNat_of_isDigit {c : Char} (h : c.isDigit = true) :
    48 ≤ c.toNat ∧ c.toNat ≤ 57 := by
  simpa [Char.isDigit, UInt32.le_iff_toNat_le] using h

theorem toNat_of_startsWord {c : Char} (h : Category.startsWord c = true) :
    65 ≤ c.toNat ∧ c.toNat ≤ 122 := by
  change (decide (65 ≤ c.val ∧ c.val ≤ 90) || (decide (97 ≤ c.val) && decide (c.val ≤ 122)) ||
    c == '_') = true at h
  simp only [Bool.or_eq_true, Bool.and_eq_true, decide_eq_true_eq,
    UInt32.le_iff_toNat_le, beq_iff_eq] at h
  change ((65 ≤ c.toNat ∧ c.toNat ≤ 90) ∨ (97 ≤ c.toNat ∧ c.toNat ≤ 122)) ∨ c = '_' at h
  rcases h with (h | h) | rfl
  · omega
  · omega
  · decide

theorem toNat_of_isBlank {c : Char} (h : isBlank c = true) :
    c.toNat ≤ 32 ∨ 133 ≤ c.toNat := by
  simp only [isBlank, Bool.or_eq_true, Bool.and_eq_true, decide_eq_true_eq,
    beq_iff_eq] at h
  omega

theorem of_isDigit {c : Char} (h : c.isDigit = true) : of c = digit := by
  have hne : c ≠ '/' ∧ c ≠ '"' ∧ c ≠ '\'' ∧ c ≠ '#' := by
    refine ⟨?_, ?_, ?_, ?_⟩ <;> rintro rfl <;> exact absurd h (by decide)
  simp [of, hne, h]

theorem of_startsWord {c : Char} (h : Category.startsWord c = true) :
    of c = letter := by
  have hne : c ≠ '/' ∧ c ≠ '"' ∧ c ≠ '\'' ∧ c ≠ '#' := by
    refine ⟨?_, ?_, ?_, ?_⟩ <;> rintro rfl <;> exact absurd h (by decide)
  have hdigit : ¬ c.isDigit = true := by
    intro hdigit
    have hlow := toNat_of_isDigit hdigit
    have hhigh := toNat_of_startsWord h
    omega
  simp [of, hne, hdigit, h]

theorem of_isBlank {c : Char} (h : isBlank c = true) : of c = blank := by
  have hne : c ≠ '/' ∧ c ≠ '"' ∧ c ≠ '\'' ∧ c ≠ '#' := by
    refine ⟨?_, ?_, ?_, ?_⟩ <;> rintro rfl <;> exact absurd h (by decide)
  have hrange := toNat_of_isBlank h
  have hdigit : ¬ c.isDigit = true := by
    intro hdigit
    have hlow := toNat_of_isDigit hdigit
    omega
  have hletter : ¬ Category.startsWord c = true := by
    intro hletter
    have hhigh := toNat_of_startsWord hletter
    omega
  simp [of, hne, hdigit, hletter, h]

end Opening

namespace Category

open Extent

/-- What the lexemes of a category begin with. -/
def openings : Category → List Opening
  | blank => [.blank]
  | lineComment | blockComment => [.slash]
  | floating | unsignedInteger | integer => [.digit]
  | string => [.quote]
  | character => [.apostrophe]
  | includeDirective => [.pound]
  | word => [.letter]
  | fixed => [.slash, .pound, .mark]

/-- The texts of a language begin in one of these ways. -/
def BeginsIn (L : Language Char) (openings : List Opening) : Prop :=
  ∀ w ∈ L, ∃ c more, w = c :: more ∧ Opening.of c ∈ openings

theorem beginsIn_one {p : Char → Bool} {openings : List Opening}
    (h : ∀ c, p c → Opening.of c ∈ openings) : BeginsIn (Pattern.one p) openings := by
  rintro _ ⟨c, rfl, hc⟩
  exact ⟨c, [], rfl, h c hc⟩

theorem BeginsIn.mul {L : Language Char} {openings : List Opening}
    (h : BeginsIn L openings) (M : Language Char) : BeginsIn (L * M) openings := by
  rintro _ ⟨front, hfront, back, _, rfl⟩
  obtain ⟨c, more, rfl, hc⟩ := h front hfront
  exact ⟨c, more ++ back, rfl, hc⟩

theorem BeginsIn.add {L M : Language Char} {openings : List Opening}
    (hL : BeginsIn L openings) (hM : BeginsIn M openings) :
    BeginsIn (L + M) openings := by
  rintro w (hw | hw)
  · exact hL w hw
  · exact hM w hw

theorem beginsIn_char (c : Char) : BeginsIn (Pattern.one (· == c)) [Opening.of c] := by
  apply beginsIn_one
  intro d hd
  rw [eq_of_beq hd]
  exact List.mem_singleton_self _

theorem beginsIn_exactly (c : Char) (word : List Char) :
    BeginsIn (Pattern.exactly (c :: word)) [Opening.of c] := by
  rintro _ rfl
  exact ⟨c, word, rfl, List.mem_singleton_self _⟩

theorem beginsIn_digits : BeginsIn Pattern.digits [.digit] := by
  refine (beginsIn_one ?_).mul _
  intro c hc
  rw [Opening.of_isDigit hc]
  exact List.mem_singleton_self _

theorem beginsIn_whole : BeginsIn Pattern.whole [.digit] :=
  ((beginsIn_char '0').mul _).add beginsIn_digits

/-- Every lexeme begins as those of its category do. -/
theorem lexemes_beginIn (category : Category) :
    BeginsIn category.lexemes category.openings := by
  cases category with
  | blank =>
      refine (beginsIn_one ?_).mul _
      intro c hc
      rw [Opening.of_isBlank hc]
      exact List.mem_singleton_self _
  | lineComment => exact (beginsIn_exactly '/' ['/']).mul _
  | blockComment => exact (beginsIn_exactly '/' ['*']).mul _
  | floating => exact ((beginsIn_digits.mul _).add (beginsIn_digits.mul _)).mul _
  | unsignedInteger => exact beginsIn_whole.mul _
  | integer => exact beginsIn_whole
  | string => exact (beginsIn_char '"').mul _
  | character => exact (beginsIn_char '\'').mul _
  | includeDirective => exact (beginsIn_exactly '#' "include".toList).mul _
  | word =>
      refine (beginsIn_one ?_).mul _
      intro c hc
      rw [Opening.of_startsWord hc]
      exact List.mem_singleton_self _
  | fixed =>
      have hall : ∀ entry ∈ Vocabulary.fixed,
          entry.1.toList.head?.all fun c => Opening.of c ∈ openings fixed := by decide
      have hne : ∀ entry ∈ Vocabulary.fixed, entry.1.toList ≠ [] := by decide
      rintro _ ⟨entry, hentry, rfl⟩
      obtain ⟨c, more, hword⟩ := List.exists_cons_of_ne_nil (hne entry hentry)
      have hc := hall entry hentry
      rw [hword] at hc
      exact ⟨c, more, hword, by simpa using hc⟩

theorem orElse_eq_some {first second : Extent} {text : List Char} {n : Nat}
    (h : first.orElse second text = some n) :
    first text = some n ∨ second text = some n := by
  cases hrun : first text with
  | some m => exact .inl (by simpa [orElse, hrun] using h)
  | none => exact .inr (by simpa [orElse, hrun] using h)

/-- The pairs of categories whose lexemes may begin alike. -/
def overlaps : List (Category × Category) :=
  [(lineComment, blockComment), (lineComment, fixed), (blockComment, fixed),
   (floating, unsignedInteger), (floating, integer), (unsignedInteger, integer),
   (includeDirective, fixed)]

theorem openings_pairwise : all.Pairwise fun earlier later =>
    (earlier, later) ∈ overlaps ∨
      ∀ opening ∈ earlier.openings, opening ∉ later.openings := by
  decide

/-- The first character decides which categories may fit. -/
theorem opening_of_extent {category : Category} {text : List Char} {n : Nat}
    (h : category.extent text = some n) :
    ∃ c more, text = c :: more ∧ Opening.of c ∈ category.openings := by
  obtain ⟨_, rest, rfl, _, hlexeme⟩ := category.extent_readsIn text n h
  obtain ⟨c, more, rfl, hc⟩ := category.lexemes_beginIn _ hlexeme
  exact ⟨c, more ++ rest, rfl, hc⟩

theorem begins_of_lineComment {text : List Char} {n : Nat}
    (h : lineComment.extent text = some n) :
    2 ≤ n ∧ ∃ rest, text = '/' :: '/' :: rest := by
  obtain ⟨_, rest, rfl, rfl, _, rfl, body, _, rfl⟩ := extent_readsIn _ _ _ h
  exact ⟨by simp, body ++ rest, rfl⟩

theorem begins_of_blockComment {text : List Char} {n : Nat}
    (h : blockComment.extent text = some n) :
    2 ≤ n ∧ ∃ rest, text = '/' :: '*' :: rest := by
  obtain ⟨_, rest, rfl, rfl, _, rfl, body, _, rfl⟩ := extent_readsIn _ _ _ h
  exact ⟨by simp, body ++ rest, rfl⟩

theorem begins_of_includeDirective {text : List Char} {n : Nat}
    (h : includeDirective.extent text = some n) :
    2 ≤ n ∧ ∃ rest, text = '#' :: rest := by
  obtain ⟨_, rest, rfl, rfl, _, rfl, name, _, rfl⟩ := extent_readsIn _ _ _ h
  exact ⟨by simp, "include".toList ++ name ++ rest, rfl⟩

/-- Digits and, behind them, what makes the number one with a point or exponent: the
digits are all of a number without a point that stands there. -/
theorem wholeForm_of_floating {text : List Char} {n : Nat}
    (h : floating.extent text = some n) :
    ∃ k c more, wholeForm text = some k ∧ k < n ∧ text.drop k = c :: more ∧
      (c = '.' ∨ c = 'e' ∨ c = 'E') := by
  have hdigits : ∃ k c more, digits text = some k ∧ k < n ∧ text.drop k = c :: more ∧
      (c = '.' ∨ c = 'e' ∨ c = 'E') := by
    obtain ⟨j, _, hj, _, rfl⟩ := followedBy_eq_some.1 h
    rcases orElse_eq_some hj with hpoint | hexponent
    · obtain ⟨k, _, hk, hbehind, rfl⟩ := followedBy_eq_some.1 hpoint
      obtain ⟨_, _, hone, _, rfl⟩ := followedBy_eq_some.1 hbehind
      obtain ⟨_, rest, hdrop, rfl, c, rfl, hc⟩ := reads_one _ _ _ hone
      exact ⟨k, c, rest, hk, by simp; omega, hdrop, .inl (by simpa using hc)⟩
    · obtain ⟨k, _, hk, hbehind, rfl⟩ := followedBy_eq_some.1 hexponent
      obtain ⟨_, _, hone, _, rfl⟩ := followedBy_eq_some.1 hbehind
      obtain ⟨_, rest, hdrop, rfl, c, rfl, hc⟩ := reads_one _ _ _ hone
      exact ⟨k, c, rest, hk, by simp; omega, hdrop, .inr (by simpa using hc)⟩
  obtain ⟨k, c, more, hk, hlt, hdrop, hc⟩ := hdigits
  refine ⟨k, c, more, ?_, hlt, hdrop, hc⟩
  cases hhex : hexadecimal text with
  | none => simp [wholeForm, orElse, hhex, hk]
  | some m =>
      exfalso
      obtain ⟨_, x, more, rfl, hx, hdigit⟩ := begins_of_hexadecimal hhex
      have hone : digits ('0' :: x :: more) = some 1 := by
        simp [digits, someOf, followedBy, one, run, hdigit]
      obtain rfl : 1 = k := Option.some.inj (hone.symm.trans hk)
      obtain ⟨rfl, _⟩ := List.cons.inj hdrop
      rcases hc with rfl | rfl | rfl <;> cases hx

theorem unsignedInteger_eq_some {text : List Char} {n : Nat}
    (h : unsignedInteger.extent text = some n) :
    ∃ k c more, wholeForm text = some k ∧ k + 1 = n ∧ text.drop k = c :: more ∧
      (c = 'u' ∨ c = 'U') := by
  obtain ⟨k, m, hk, hm, rfl⟩ := followedBy_eq_some.1 h
  obtain ⟨_, rest, hdrop, rfl, c, rfl, hc⟩ := reads_one _ _ _ hm
  exact ⟨k, c, rest, hk, rfl, hdrop, by simpa using hc⟩

/-- Where two categories fit, the earlier one reaches farther. -/
def Outreaches (earlier later : Category) : Prop :=
  ∀ text n m, earlier.extent text = some n → later.extent text = some m → m < n

theorem outreaches_of_overlaps : ∀ pair ∈ overlaps, Outreaches pair.1 pair.2 := by
  simp only [overlaps, List.forall_mem_cons, List.not_mem_nil, false_implies,
    implies_true, and_true]
  refine ⟨?_, ?_, ?_, ?_, ?_, ?_, ?_⟩
  · intro text n m hline hblock
    obtain ⟨_, rest, rfl⟩ := begins_of_lineComment hline
    obtain ⟨_, _, htext⟩ := begins_of_blockComment hblock
    simp at htext
  · intro text n m hline hfixed
    obtain ⟨hn, rest, rfl⟩ := begins_of_lineComment hline
    obtain rfl : 1 = m := Option.some.inj hfixed
    exact hn
  · intro text n m hblock hfixed
    obtain ⟨hn, rest, rfl⟩ := begins_of_blockComment hblock
    obtain rfl : 1 = m := Option.some.inj hfixed
    exact hn
  · intro text n m hfloating hunsigned
    obtain ⟨k, c, _, hk, _, hdrop, hc⟩ := wholeForm_of_floating hfloating
    obtain ⟨k', c', _, hk', _, hdrop', hc'⟩ := unsignedInteger_eq_some hunsigned
    obtain rfl : k = k' := Option.some.inj (hk.symm.trans hk')
    obtain ⟨rfl, _⟩ := List.cons.inj (hdrop.symm.trans hdrop')
    rcases hc with rfl | rfl | rfl <;> simp at hc'
  · intro text n m hfloating hinteger
    obtain ⟨k, _, _, hk, hlt, _⟩ := wholeForm_of_floating hfloating
    obtain rfl : k = m := Option.some.inj (hk.symm.trans hinteger)
    exact hlt
  · intro text n m hunsigned hinteger
    obtain ⟨k, _, _, hk, rfl, _⟩ := unsignedInteger_eq_some hunsigned
    obtain rfl : k = m := Option.some.inj (hk.symm.trans hinteger)
    exact Nat.lt_succ_self k
  · intro text n m hinclude hfixed
    obtain ⟨hn, rest, rfl⟩ := begins_of_includeDirective hinclude
    obtain rfl : 1 = m := Option.some.inj hfixed
    exact hn

theorem outreaches_pairwise : all.Pairwise Outreaches := by
  apply openings_pairwise.imp
  rintro earlier later (hpair | hdisjoint)
  · exact outreaches_of_overlaps _ hpair
  · intro text n m hn hm
    obtain ⟨c, more, rfl, hearlier⟩ := opening_of_extent hn
    obtain ⟨d, _, htext, hlater⟩ := opening_of_extent hm
    obtain ⟨rfl, _⟩ := List.cons.inj htext
    exact absurd hlater (hdisjoint _ hearlier)

/-- Of a lexeme, the extent of its category takes all. -/
theorem extent_of_mem {category : Category} {lexeme : List Char}
    (h : lexeme ∈ category.lexemes) :
    category.extent lexeme = some lexeme.length := by
  obtain ⟨n, hn, hle⟩ := category.extent_covers lexeme h []
  rw [List.append_nil] at hn
  obtain ⟨front, back, htext, rfl, _⟩ := category.extent_readsIn lexeme n hn
  have hlength := congrArg List.length htext
  rw [List.length_append] at hlength
  rw [hn]
  congr 1
  omega

theorem mem_all (category : Category) : category ∈ all := by
  cases category <;> decide

/-- No lexeme is of two categories. -/
theorem eq_of_mem_lexemes {first second : Category} {lexeme : List Char}
    (hfirst : lexeme ∈ first.lexemes) (hsecond : lexeme ∈ second.lexemes) :
    first = second := by
  by_contra hne
  have hapart : all.Pairwise fun c d => ¬ (lexeme ∈ c.lexemes ∧ lexeme ∈ d.lexemes) := by
    apply outreaches_pairwise.imp
    rintro c d hlt ⟨hc, hd⟩
    exact Nat.lt_irrefl _ (hlt _ _ _ (extent_of_mem hc) (extent_of_mem hd))
  have hsymm : Std.Symm fun c d : Category =>
      ¬ (lexeme ∈ c.lexemes ∧ lexeme ∈ d.lexemes) := ⟨fun _ _ => mt And.symm⟩
  exact hapart.forall (mem_all first) (mem_all second) hne ⟨hfirst, hsecond⟩

/-- The lexeme stands at the front of the text, and no other lexeme there is longer,
of whatever category.  It is itself of one category only. -/
structure Longest (category : Category) (lexeme text : List Char) : Prop where
  ne_nil : lexeme ≠ []
  front : lexeme <+: text
  mem_iff : ∀ other : Category, lexeme ∈ other.lexemes ↔ other = category
  length_le : ∀ other : Category, ∀ word ∈ other.lexemes, word <+: text →
    word.length ≤ lexeme.length

/-- There is one longest lexeme at most, and it is of one category. -/
theorem Longest.unique {first second : Category} {text lexeme word : List Char}
    (hfirst : first.Longest lexeme text) (hsecond : second.Longest word text) :
    first = second ∧ lexeme = word := by
  have hlexeme := (hfirst.mem_iff first).2 rfl
  have hword := (hsecond.mem_iff second).2 rfl
  have hle := hsecond.length_le first lexeme hlexeme hfirst.front
  have hge := hfirst.length_le second word hword hsecond.front
  obtain rfl : lexeme = word :=
    (List.prefix_of_prefix_length_le hfirst.front hsecond.front hle).eq_of_length
      (Nat.le_antisymm hle hge)
  exact ⟨(hsecond.mem_iff first).1 hlexeme, rfl⟩

/-- The first category that fits takes the longest lexeme. -/
theorem longest_of_first {before after : List Category} {category : Category}
    (hall : all = before ++ category :: after) {text : List Char} {n : Nat}
    (hbefore : ∀ other ∈ before, other.extent text = none)
    (h : category.extent text = some n) :
    ∃ lexeme rest, text = lexeme ++ rest ∧ lexeme.length = n ∧
      category.Longest lexeme text := by
  have hlater : ∀ other ∈ after, Outreaches category other := by
    have hpairwise := outreaches_pairwise
    rw [hall, List.pairwise_append, List.pairwise_cons] at hpairwise
    exact hpairwise.2.1.1
  obtain ⟨lexeme, rest, rfl, rfl, hlexeme⟩ := category.extent_readsIn _ _ h
  obtain ⟨c, more, hne, _⟩ := category.lexemes_beginIn lexeme hlexeme
  refine ⟨lexeme, rest, rfl, rfl, by simp [hne], List.prefix_append _ _, ?_, ?_⟩
  · intro other
    constructor
    · exact fun hother => eq_of_mem_lexemes hother hlexeme
    · rintro rfl
      exact hlexeme
  · rintro other word hword ⟨behind, hfront⟩
    obtain ⟨m, hm, hle⟩ := other.extent_covers word hword behind
    rw [hfront] at hm
    apply Nat.le_trans hle
    have hother := mem_all other
    rw [hall, List.mem_append, List.mem_cons] at hother
    rcases hother with hother | rfl | hother
    · rw [hbefore other hother] at hm
      cases hm
    · exact Nat.le_of_eq (Option.some.inj (hm.symm.trans h))
    · exact Nat.le_of_lt (hlater other hother _ _ _ h hm)

/-- A category does not fit where none of its lexemes stands at the front. -/
theorem extent_eq_none_iff {category : Category} {text : List Char} :
    category.extent text = none ↔ ∀ lexeme ∈ category.lexemes, ¬ lexeme <+: text := by
  constructor
  · rintro h lexeme hlexeme ⟨rest, rfl⟩
    obtain ⟨n, hn, _⟩ := category.extent_covers lexeme hlexeme rest
    rw [h] at hn
    cases hn
  · intro h
    by_contra hne
    obtain ⟨n, hn⟩ := Option.ne_none_iff_exists'.1 hne
    obtain ⟨lexeme, rest, rfl, _, hlexeme⟩ := category.extent_readsIn _ _ hn
    exact h lexeme hlexeme (List.prefix_append _ _)

end Category

namespace Front

/-- A comment is opened at the front of the text and never closed. -/
def Unclosed (text : List Char) : Prop :=
  ['/', '*'] <+: text ∧ ∀ lexeme ∈ Category.blockComment.lexemes, ¬ lexeme <+: text

theorem unclosed_iff {text : List Char} :
    Unclosed text ↔
      (['/', '*'].isPrefixOf text && (Category.blockComment.extent text).isNone) = true := by
  rw [Unclosed, Bool.and_eq_true, List.isPrefixOf_iff_prefix, Option.isNone_iff_eq_none,
    Category.extent_eq_none_iff]

/-- What is found at the front of a text is the longest lexeme there. -/
theorem longest_of_eq_lexeme {text : List Char} {category : Category} {length : Nat}
    (h : of text = .lexeme category length) :
    ¬ Unclosed text ∧ ∃ lexeme rest, text = lexeme ++ rest ∧ lexeme.length = length ∧
      category.Longest lexeme text := by
  unfold of at h
  split at h
  · cases h
  rename_i hclosed
  split at h
  · cases h
  split at h
  · next found hfound =>
    subst h
    obtain ⟨before, tried, after, hall, htried, hbefore⟩ :=
      List.findSome?_eq_some_iff.1 hfound
    obtain ⟨n, hextent, hlexeme⟩ := Option.map_eq_some_iff.1 htried
    cases hlexeme
    simp only [Option.map_eq_none_iff] at hbefore
    exact ⟨mt unclosed_iff.1 hclosed,
      Category.longest_of_first hall hbefore hextent⟩
  · cases h

/-- No lexeme is to be taken from the front of the text: none stands there, or a
comment is opened and never closed. -/
def Stuck (text : List Char) : Prop :=
  Unclosed text ∨
    ∀ category : Category, ∀ lexeme ∈ category.lexemes, ¬ lexeme <+: text

/-- Where no lexeme is found, none is to be taken. -/
theorem stuck_of_ne_lexeme {text : List Char}
    (h : ∀ category length, of text ≠ .lexeme category length) : Stuck text := by
  by_cases hunclosed : Unclosed text
  · exact .inl hunclosed
  refine .inr fun category => Category.extent_eq_none_iff.1 ?_
  unfold of at h
  rw [if_neg (mt unclosed_iff.2 hunclosed)] at h
  split at h
  · next hquote =>
    -- Only strings begin with a double quote, and this one is not closed.
    rw [Bool.and_eq_true, List.isPrefixOf_iff_prefix, Option.isNone_iff_eq_none] at hquote
    by_contra hne
    obtain ⟨n, hn⟩ := Option.ne_none_iff_exists'.1 hne
    obtain ⟨c, more, rfl, hc⟩ := Category.opening_of_extent hn
    obtain ⟨rfl, _⟩ := List.cons_prefix_cons.1 hquote.1
    have hcategory : category = .string := by
      revert hc
      cases category <;> decide
    rw [hcategory, hquote.2] at hn
    cases hn
  · split at h
    · next found hfound =>
      obtain ⟨tried, _, htried⟩ := List.exists_of_findSome?_eq_some hfound
      obtain ⟨n, _, rfl⟩ := Option.map_eq_some_iff.1 htried
      exact absurd rfl (h tried n)
    · next hnone =>
      rw [List.findSome?_eq_none_iff] at hnone
      exact Option.map_eq_none_iff.1 (hnone category (Category.mem_all category))

theorem ne_lexeme_of_stuck {text : List Char} (h : Stuck text) (category : Category)
    (length : Nat) : of text ≠ .lexeme category length := by
  intro hfound
  obtain ⟨hclosed, lexeme, _, _, _, hlongest⟩ := longest_of_eq_lexeme hfound
  rcases h with hunclosed | hnone
  · exact hclosed hunclosed
  · exact hnone category lexeme ((hlongest.mem_iff category).2 rfl) hlongest.front

/-- What is found at the front of a text is the longest lexeme there, and is found
wherever there is one, unless a comment is opened and never closed. -/
theorem of_eq_lexeme_iff {category : Category} {lexeme rest : List Char} :
    of (lexeme ++ rest) = .lexeme category lexeme.length ↔
      ¬ Unclosed (lexeme ++ rest) ∧ category.Longest lexeme (lexeme ++ rest) := by
  constructor
  · intro h
    obtain ⟨hclosed, word, behind, htext, hlength, hlongest⟩ := longest_of_eq_lexeme h
    obtain ⟨rfl, _⟩ := List.append_inj htext hlength.symm
    exact ⟨hclosed, hlongest⟩
  · rintro ⟨hclosed, hlongest⟩
    by_contra hne
    have hnone : ∀ other length, of (lexeme ++ rest) ≠ .lexeme other length := by
      intro other length hfound
      obtain ⟨_, word, _, _, rfl, hother⟩ := longest_of_eq_lexeme hfound
      obtain ⟨rfl, rfl⟩ := hlongest.unique hother
      exact hne hfound
    rcases stuck_of_ne_lexeme hnone with hunclosed | hstuck
    · exact hclosed hunclosed
    · exact hstuck category lexeme ((hlongest.mem_iff category).2 rfl) hlongest.front

end Front

end MiniC
