/-
Maximal munch: a scan takes the longest lexeme of all at every place, and there is
no other way to do so.
-/
import MiniC.Proofs.Lexeme.Longest
import MiniC.Proofs.Scanner.Walk

namespace MiniC

namespace Category

/-- Blanks are passed over, and so are comments where they are not kept. -/
def dropped (keepComments : Bool) : Category → Bool
  | blank => true
  | lineComment | blockComment => !keepComments
  | _ => false

/-- The kinds of lexemes.  A word is of the kind that the table of reserved words
gives it, and an identifier only if it does not stand there. -/
def Denotes (lexeme : List Char) (kind : TokenKind) : Category → Prop
  | blank => False
  | lineComment => kind = .lineComment
  | blockComment => kind = .blockComment
  | floating => kind = .floating
  | unsignedInteger => kind = .unsignedInteger
  | integer => kind = .integer
  | string => kind = .string
  | character => kind = .character
  | includeDirective => kind = .includeDirective
  | word =>
      (String.ofList lexeme, kind) ∈ Vocabulary.keywords ∨
        kind = .identifier ∧
          ∀ entry ∈ Vocabulary.keywords, entry.1 ≠ String.ofList lexeme
  | fixed => (String.ofList lexeme, kind) ∈ Vocabulary.fixed

theorem kind?_word_eq_some_iff {keepComments : Bool} {lexeme : List Char}
    {kind : TokenKind} :
    word.kind? keepComments lexeme = some kind ↔ word.Denotes lexeme kind := by
  have hall : ∀ entry ∈ Vocabulary.keywords,
      Vocabulary.keyword? entry.1 = some entry.2 := by decide
  cases hword : Vocabulary.keyword? (String.ofList lexeme) with
  | some found =>
      have hmem := mem_keywords_of_keyword? hword
      simp only [kind?, Denotes, hword, Option.getD_some, Option.some.injEq]
      constructor
      · rintro rfl
        exact .inl hmem
      · rintro (hkind | ⟨_, hnone⟩)
        · have hsame := hall _ hkind
          rw [hword] at hsame
          exact Option.some.inj hsame
        · exact absurd rfl (hnone _ hmem)
  | none =>
      simp only [kind?, Denotes, hword, Option.getD_none, Option.some.injEq]
      constructor
      · rintro rfl
        refine .inr ⟨rfl, fun entry hentry hsame => ?_⟩
        have hfound := hall entry hentry
        rw [hsame, hword] at hfound
        cases hfound
      · rintro (hkind | ⟨rfl, _⟩)
        · have hfound := hall _ hkind
          rw [hword] at hfound
          cases hfound
        · rfl

theorem fixedAt?_of_mem : ∀ entry ∈ Vocabulary.fixed,
    Vocabulary.fixedAt? entry.1.toList = some entry := by
  decide

theorem kind?_fixed_eq_some_iff {keepComments : Bool} {lexeme : List Char}
    {kind : TokenKind} (hlexeme : lexeme ∈ fixed.lexemes) :
    fixed.kind? keepComments lexeme = some kind ↔ fixed.Denotes lexeme kind := by
  obtain ⟨entry, hentry, rfl⟩ := hlexeme
  simp only [kind?, Denotes, fixedAt?_of_mem entry hentry, Option.map_some, Option.some.injEq,
    String.ofList_toList]
  constructor
  · rintro rfl
    exact hentry
  · intro hkind
    have hsame := fixedAt?_of_mem _ hkind
    rw [fixedAt?_of_mem entry hentry] at hsame
    exact congrArg Prod.snd (Option.some.inj hsame)

/-- A lexeme that is not dropped stands for a token of its kind. -/
theorem kind?_eq_some_iff {category : Category} {keepComments : Bool}
    {lexeme : List Char} {kind : TokenKind} (hlexeme : lexeme ∈ category.lexemes) :
    category.kind? keepComments lexeme = some kind ↔
      category.dropped keepComments = false ∧ category.Denotes lexeme kind := by
  cases category with
  | blank => simp [kind?, Denotes]
  | word => simp [kind?_word_eq_some_iff, dropped]
  | fixed => simp [kind?_fixed_eq_some_iff hlexeme, dropped]
  | lineComment | blockComment =>
      cases keepComments with
      | false => simp [kind?, dropped]
      | true => exact ⟨fun h => ⟨rfl, by cases h; rfl⟩, fun h => congrArg some h.2.symm⟩
  | _ => exact ⟨fun h => ⟨rfl, by cases h; rfl⟩, fun h => congrArg some h.2.symm⟩

/-- A lexeme that is dropped stands for no token. -/
theorem kind?_eq_none_iff {category : Category} {keepComments : Bool}
    {lexeme : List Char} (hlexeme : lexeme ∈ category.lexemes) :
    category.kind? keepComments lexeme = none ↔ category.dropped keepComments = true := by
  cases category with
  | fixed =>
      obtain ⟨entry, hentry, rfl⟩ := hlexeme
      simp [kind?, dropped, fixedAt?_of_mem entry hentry]
  | lineComment | blockComment => cases keepComments <;> simp [kind?, dropped]
  | _ => simp [kind?, dropped]

end Category

/-- A token is known by its kind, the characters it was written with, and its place. -/
theorem Token.eq_of_lexeme {first second : Token} (hkind : first.kind = second.kind)
    (hlexeme : first.lexeme = second.lexeme)
    (hlocation : first.location = second.location) : first = second := by
  have htext : first.text.toList = second.text.toList := by
    unfold lexeme at hlexeme
    rw [hkind] at hlexeme
    split at hlexeme
    · exact List.append_cancel_right (List.cons.inj hlexeme).2
    · exact hlexeme
  cases first
  cases second
  simp_all [String.toList_inj]

/-- A lexeme stands for a token that is written as the lexeme and is of its kind,
unless it is dropped. -/
theorem Category.token?_eq_some_iff {category : Category} {keepComments : Bool}
    {location : Location} {lexeme : List Char} {token : Token}
    (hlexeme : lexeme ∈ category.lexemes) :
    category.token? keepComments location lexeme = some token ↔
      category.dropped keepComments = false ∧ category.Denotes lexeme token.kind ∧
        token.lexeme = lexeme ∧ token.location = location := by
  have hwritten : ∀ kind, category.kind? keepComments lexeme = some kind →
      Token.lexeme ⟨kind, String.ofList (category.content lexeme), location⟩ = lexeme := by
    intro kind hkind
    obtain ⟨word, rest, htext, hlength, hshape⟩ :=
      category.extent_reads _ _ (extent_of_mem hlexeme)
    obtain ⟨rfl, rfl⟩ : word = lexeme ∧ rest = [] :=
      List.append_inj (htext.symm.trans (List.append_nil _).symm) hlength
    exact hshape.token_lexeme hkind location
  rw [token?, Option.map_eq_some_iff]
  constructor
  · rintro ⟨kind, hkind, rfl⟩
    obtain ⟨hkept, hdenotes⟩ := (kind?_eq_some_iff hlexeme).1 hkind
    exact ⟨hkept, hdenotes, hwritten kind hkind, rfl⟩
  · rintro ⟨hkept, hdenotes, htoken, rfl⟩
    have hkind := (kind?_eq_some_iff hlexeme).2 ⟨hkept, hdenotes⟩
    exact ⟨token.kind, hkind,
      Token.eq_of_lexeme rfl ((hwritten _ hkind).trans htoken.symm) rfl⟩

/-- The longest lexemes of a text, one after the other.  The text stands behind
`before`, and `left` is where there is nothing more to take.  Every lexeme is dropped
or stands for a token of its kind at its place. -/
inductive Munched (keepComments : Bool) :
    (before : List Char) → List Token → (text left : List Char) → Prop
  | stop {before text : List Char} :
      Front.Stuck text → Munched keepComments before [] text text
  | drop {before lexeme rest left : List Char} {category : Category}
      {tokens : List Token} :
      ¬ Front.Unclosed (lexeme ++ rest) → category.Longest lexeme (lexeme ++ rest) →
      category.dropped keepComments = true →
      Munched keepComments (before ++ lexeme) tokens rest left →
      Munched keepComments before tokens (lexeme ++ rest) left
  | token {before lexeme rest left : List Char} {category : Category} {token : Token}
      {tokens : List Token} :
      ¬ Front.Unclosed (lexeme ++ rest) → category.Longest lexeme (lexeme ++ rest) →
      category.dropped keepComments = false → category.Denotes lexeme token.kind →
      token.lexeme = lexeme → token.location = .behind before →
      Munched keepComments (before ++ lexeme) tokens rest left →
      Munched keepComments before (token :: tokens) (lexeme ++ rest) left

/-- One more lexeme, with the token that it stands for if it stands for one. -/
theorem Munched.lexeme {keepComments : Bool} {before lexeme rest left : List Char}
    {category : Category} {tokens : List Token}
    (hfront : Front.of (lexeme ++ rest) = .lexeme category lexeme.length)
    (h : Munched keepComments (before ++ lexeme) tokens rest left) :
    Munched keepComments before
      ((category.token? keepComments (.behind before) lexeme).toList ++ tokens)
      (lexeme ++ rest) left := by
  obtain ⟨hclosed, hlongest⟩ := Front.of_eq_lexeme_iff.1 hfront
  have hlexeme := (hlongest.mem_iff category).2 rfl
  cases htoken : category.token? keepComments (.behind before) lexeme with
  | none =>
      rw [Category.token?, Option.map_eq_none_iff] at htoken
      exact .drop hclosed hlongest ((Category.kind?_eq_none_iff hlexeme).1 htoken) h
  | some token =>
      obtain ⟨hkept, hdenotes, hwritten, hlocation⟩ :=
        (Category.token?_eq_some_iff hlexeme).1 htoken
      exact .token hclosed hlongest hkept hdenotes hwritten hlocation h

namespace Scanner

variable {keepComments : Bool}

/-- A walk stops where no lexeme is found, and only at the end does it succeed. -/
theorem walk_stops {text : List Char}
    (h : ∀ category length, Front.of text ≠ .lexeme category length) {here : Position}
    {found : Findings} :
    (walk keepComments 0 here found text).tokens = found.tokens ∧
      (walk keepComments 0 here found text).stopped.rest = text ∧
      ((walk keepComments 0 here found text).result = .ok () ↔ text = []) := by
  cases text with
  | nil => exact ⟨rfl, rfl, by simp [walk]⟩
  | cons c text =>
      cases hfront : Front.of (c :: text) with
      | lexeme category length => exact absurd hfront (h category length)
      | unterminated what => simp [walk_unterminated hfront]
      | unknown => simp [walk_unknown hfront]

/-- A walk takes the longest lexemes, up to where it stops. -/
theorem walk_munches {before : List Char} (text : List Char) {here : Position}
    (hhere : here.location = .behind before) (found : Findings) :
    ∃ tokens,
      (walk keepComments 0 here found text).tokens.toList = found.tokens.toList ++ tokens ∧
      Munched keepComments before tokens text
        (walk keepComments 0 here found text).stopped.rest ∧
      ((walk keepComments 0 here found text).result = .ok () ↔
        (walk keepComments 0 here found text).stopped.rest = []) := by
  induction hlength : text.length using Nat.strongRecOn
    generalizing text before here found with
  | ind n ih =>
      by_cases hfront : ∃ category length, Front.of text = .lexeme category length
      · obtain ⟨category, length, hfront⟩ := hfront
        obtain ⟨lexeme, rest, rfl, rfl, hshape⟩ := Front.of_eq_lexeme hfront
        have hpos := List.length_pos_iff.2 hshape.ne_nil
        rw [List.length_append] at hlength
        obtain ⟨tokens, htokens, hmunched, hresult⟩ := ih _ (by omega) rest
          (Position.after_location hhere lexeme)
          ((category.token? keepComments here.location lexeme).elim found found.push) rfl
        rw [walk_lexeme hfront hshape.ne_nil]
        refine ⟨_, ?_, .lexeme hfront hmunched, hresult⟩
        rw [htokens, tokens_elim_push, hhere, List.append_assoc]
      · have hnone : ∀ category length, Front.of text ≠ .lexeme category length :=
          fun category length h => hfront ⟨category, length, h⟩
        obtain ⟨htokens, hrest, hresult⟩ := walk_stops hnone
        rw [htokens, hrest]
        exact ⟨[], (List.append_nil _).symm, .stop (Front.stuck_of_ne_lexeme hnone), hresult⟩

/-- Who takes the longest lexemes walks as the scanner does. -/
theorem walk_of_munched {before text left : List Char} {tokens : List Token}
    (h : Munched keepComments before tokens text left) {here : Position}
    (hhere : here.location = .behind before) (found : Findings) :
    (walk keepComments 0 here found text).tokens.toList = found.tokens.toList ++ tokens ∧
      (walk keepComments 0 here found text).stopped.rest = left := by
  induction h generalizing here found with
  | stop hstop =>
      have hnone := Front.ne_lexeme_of_stuck hstop
      obtain ⟨htokens, hrest, _⟩ := walk_stops hnone
      rw [htokens, hrest]
      exact ⟨(List.append_nil _).symm, rfl⟩
  | @drop before lexeme rest _ category _ hclosed hlongest hdropped _ ih =>
      have hlexeme := (hlongest.mem_iff category).2 rfl
      rw [walk_of_kind?_eq_none (Front.of_eq_lexeme_iff.2 ⟨hclosed, hlongest⟩)
        hlongest.ne_nil ((Category.kind?_eq_none_iff hlexeme).2 hdropped)]
      exact ih (Position.after_location hhere lexeme) found
  | @token before lexeme rest _ category token tokens hclosed hlongest hkept hdenotes
      hwritten hlocation _ ih =>
      have hlexeme := (hlongest.mem_iff category).2 rfl
      have htoken := (Category.token?_eq_some_iff hlexeme).2
        ⟨hkept, hdenotes, hwritten, hlocation.trans hhere.symm⟩
      obtain ⟨htokens, hstopped⟩ :=
        ih (Position.after_location hhere lexeme) (found.push token)
      rw [walk_lexeme (Front.of_eq_lexeme_iff.2 ⟨hclosed, hlongest⟩) hlongest.ne_nil,
        htoken]
      refine ⟨htokens.trans ?_, hstopped⟩
      simp [Findings.push]

end Scanner

/-- A scan takes the longest lexeme at every place that it comes to. -/
theorem scan_takes_longest (keepComments : Bool) (source : String) :
    let scan := (Scanner.ofSource source).scan keepComments
    Munched keepComments [] scan.tokens.toList source.toList scan.stopped.rest ∧
      (∀ tokens left, Munched keepComments [] tokens source.toList left →
        tokens = scan.tokens.toList ∧ left = scan.stopped.rest) ∧
      (scan.result = .ok () ↔ scan.stopped.rest = []) := by
  intro scan
  have hstart : (Scanner.ofSource source).position.location = .behind [] := rfl
  obtain ⟨tokens, htokens, hmunched, hresult⟩ :=
    Scanner.walk_munches source.toList hstart .none
  obtain rfl : scan.tokens.toList = tokens := htokens
  refine ⟨hmunched, ?_, hresult⟩
  intro tokens left h
  obtain ⟨hscan, hstopped⟩ := Scanner.walk_of_munched h hstart .none
  exact ⟨hscan.symm, hstopped.symm⟩

example :
    ((Scanner.ofSource "1e5 0x1Fu<<=#include").scan false).tokens.toList.map
      Token.lexeme = ["1e5".toList, "0x1Fu".toList, "<<=".toList, "#".toList,
        "include".toList] := by
  decide

end MiniC
