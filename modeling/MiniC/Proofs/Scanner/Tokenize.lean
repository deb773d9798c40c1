/-
What scanning a source text comes to: a cut of the whole text, with the end
marker behind it.
-/
import MiniC.Proofs.Lexeme.Category
import MiniC.Proofs.Scanner.Cut
import MiniC.Scanner.Basic

namespace MiniC

/-- Where a lexeme is found, it stands at the front of the text and has the shape
of its category. -/
theorem Front.of_eq_lexeme {text : List Char} {category : Category} {length : Nat}
    (h : Front.of text = .lexeme category length) :
    ∃ lexeme rest, text = lexeme ++ rest ∧ lexeme.length = length ∧
      category.Shape lexeme rest := by
  unfold Front.of at h
  split at h
  · cases h
  split at h
  · cases h
  split at h
  · next found hfound =>
    subst h
    obtain ⟨tried, _, htried⟩ := List.exists_of_findSome?_eq_some hfound
    obtain ⟨n, hextent, hlexeme⟩ := Option.map_eq_some_iff.1 htried
    cases hlexeme
    exact category.extent_reads text length hextent
  · cases h

/-- A lexeme takes one character at least, and only what the text has. -/
theorem Front.length_of_eq_lexeme {text : List Char} {category : Category} {length : Nat}
    (h : Front.of text = .lexeme category length) : 0 < length ∧ length ≤ text.length := by
  obtain ⟨lexeme, rest, rfl, rfl, hshape⟩ := Front.of_eq_lexeme h
  exact ⟨List.length_pos_iff.2 hshape.ne_nil, by simp⟩

variable {keepComments : Bool}

theorem Gap.of_blanks {gap rest : List Char} (h : ∀ c ∈ gap, isBlank c) :
    Gap keepComments gap rest := by
  induction gap with
  | nil => exact .nil
  | cons c gap ih =>
      rw [List.forall_mem_cons] at h
      exact .blank h.1 (ih h.2)

/-- A lexeme that stands for no token is a gap. -/
theorem Category.Shape.gap {category : Category} {lexeme rest : List Char}
    (hshape : category.Shape lexeme rest)
    (hnone : category.kind? keepComments lexeme = none) :
    Gap keepComments lexeme rest := by
  rcases eq_blank_or_comment_of_kind?_eq_none hshape hnone with
    rfl | ⟨hkeep, rfl | rfl⟩
  · exact .of_blanks hshape.2
  · obtain ⟨body, rfl, hbody, hrest⟩ := hshape
    have hgap : Gap keepComments ('/' :: '/' :: (body ++ [])) rest :=
      .lineComment hkeep hbody hrest .nil
    rwa [List.append_nil] at hgap
  · obtain ⟨body, rfl, hbody⟩ := hshape
    exact .blockComment hkeep hbody .nil

/-- A token is written as the lexeme that it was made from. -/
theorem Category.Shape.token_lexeme {category : Category}
    {lexeme rest : List Char} (hshape : category.Shape lexeme rest)
    {kind : TokenKind} (hkind : category.kind? keepComments lexeme = some kind)
    (location : Location) :
    Token.lexeme ⟨kind, String.ofList (category.content lexeme), location⟩ =
      lexeme := by
  by_cases hstring : category = .string
  · subst hstring
    obtain ⟨body, rfl⟩ := hshape
    cases hkind
    simp [Token.lexeme, content]
  · have hne := (kind?_of_ne_string hstring hkind).1
    have hcontent : category.content lexeme = lexeme := by
      cases category with
      | string => exact absurd rfl hstring
      | _ => rfl
    simp [Token.lexeme, hne, hcontent]

/-- No lexeme is the end marker. -/
theorem Category.kind?_ne_eof {category : Category} {lexeme : List Char}
    {kind : TokenKind} (h : category.kind? keepComments lexeme = some kind) :
    kind ≠ .eof := by
  by_cases hstring : category = .string
  · subst hstring
    cases h
    decide
  · exact (kind?_of_ne_string hstring h).2

namespace Scanner

theorem token?_append (keepComments : Bool) (location : Location)
    (category : Category) (lexeme rest : List Char) :
    token? keepComments location category lexeme.length (lexeme ++ rest) =
      (category.kind? keepComments lexeme).map fun kind =>
        ⟨kind, String.ofList (category.content lexeme), location⟩ := by
  simp [token?]

/-- A lexeme is a gap or a token before the text that is cut behind it. -/
theorem cut_append {category : Category} {lexeme rest before : List Char}
    {location : Location} {tokens : List Token}
    (hshape : category.Shape lexeme rest) (hlocation : location = .behind before)
    (hcut : Cut keepComments (before ++ lexeme) tokens rest) :
    Cut keepComments before
      ((token? keepComments location category lexeme.length
        (lexeme ++ rest)).toList ++ tokens)
      (lexeme ++ rest) := by
  rw [token?_append]
  cases hkind : category.kind? keepComments lexeme with
  | none => exact hcut.prepend (hshape.gap hkind)
  | some kind =>
      exact .cons (hshape.token_lexeme hkind location) hlocation hshape.ne_nil hcut

theorem kind_ne_eof_of_token? {location : Location} {category : Category}
    {length : Nat} {text : List Char} {token : Token}
    (h : token? keepComments location category length text = some token) :
    token.kind ≠ .eof := by
  obtain ⟨kind, hkind, rfl⟩ := Option.map_eq_some_iff.1 h
  exact Category.kind?_ne_eof hkind

theorem tokens_elim_push (found : Findings) (token? : Option Token) :
    (token?.elim found found.push).tokens.toList =
      found.tokens.toList ++ token?.toList := by
  cases token? <;> simp [Findings.push]

/-- A walk that reaches the end cuts what was ahead of it, save for the
characters that still belonged to the lexeme found last. -/
theorem walk_cuts {pending : Nat} {here : Position}
    {before text : List Char} {found all : Findings} {stopped : Scanner}
    (hhere : here.location = .behind before)
    (h : walk keepComments pending here found text = ⟨all, .ok (), stopped⟩) :
    ∃ new, all.tokens.toList = found.tokens.toList ++ new ∧
      (∀ token ∈ new, token.kind ≠ .eof) ∧
      Cut keepComments (before ++ text.take pending) new (text.drop pending) ∧
      stopped.position.location = .behind (before ++ text) := by
  induction text generalizing pending here before found with
  | nil =>
      cases h
      refine ⟨[], by simp, by simp, ?_, by simpa using hhere⟩
      rw [List.drop_nil]
      exact .done .nil
  | cons c text ih =>
      have hnext : (here.next c).location = .behind (before ++ [c]) := by
        rw [Location.behind_snoc, ← hhere]
        rfl
      cases pending with
      | succ n =>
          obtain ⟨new, htokens, hkinds, hcut, hstopped⟩ := ih hnext h
          refine ⟨new, htokens, hkinds, ?_, ?_⟩
          · simpa using hcut
          · simpa using hstopped
      | zero =>
          rw [walk] at h
          cases hfront : Front.of (c :: text) with
          | unterminated what =>
              rw [hfront] at h
              cases h
          | unknown =>
              rw [hfront] at h
              cases h
          | lexeme category length =>
              rw [hfront] at h
              obtain ⟨lexeme, rest, htext, rfl, hshape⟩ := Front.of_eq_lexeme hfront
              obtain ⟨d, tail, rfl⟩ := List.exists_cons_of_ne_nil hshape.ne_nil
              rw [List.cons_append] at htext
              obtain ⟨rfl, rfl⟩ := List.cons.inj htext
              obtain ⟨new, htokens, hkinds, hcut, hstopped⟩ := ih hnext h
              have hcut' : Cut keepComments (before ++ c :: tail) new rest := by
                simpa using hcut
              rw [List.take_zero, List.append_nil, List.drop_zero]
              refine ⟨_, ?_, ?_, cut_append hshape hhere hcut', ?_⟩
              · rw [htokens, tokens_elim_push, List.append_assoc]
                rfl
              · intro token htoken
                rcases List.mem_append.1 htoken with htoken | htoken
                · exact kind_ne_eof_of_token? (Option.mem_toList.1 htoken)
                · exact hkinds token htoken
              · simpa using hstopped

end Scanner

/-- A source text that is cut into tokens is cut as a whole, from its first
character to its last.  The end marker stands behind it and is the last token,
and no other token is an end marker.  Each lexeme takes one character at least
and none beyond the end, wherever the scan looks for one. -/
theorem tokenize_cuts (keepComments : Bool) (source : String)
    {tokens : List Token} (h : tokenize keepComments source = .ok tokens) :
    ∃ found, tokens = found ++ [⟨.eof, "", .behind source.toList⟩] ∧
      (∀ token ∈ found, token.kind ≠ .eof) ∧
      Cut keepComments [] found source.toList ∧
      ∀ rest category length, rest <:+ source.toList →
        Front.of rest = .lexeme category length →
        0 < length ∧ length ≤ rest.length := by
  cases hscan : (Scanner.ofSource source).scan keepComments with
  | mk found result stopped =>
      rw [tokenize, hscan, Scan.tokenList] at h
      cases result with
      | error e => cases h
      | ok =>
          cases h
          have hstart : (Scanner.ofSource source).position.location =
              .behind [] := rfl
          obtain ⟨new, hfound, hkinds, hcut, hstopped⟩ :=
            Scanner.walk_cuts hstart hscan
          have hplace : stopped.position.location = .behind source.toList :=
            hstopped
          have hnew : found.tokens.toList = new := hfound
          refine ⟨new, ?_, hkinds, hcut, fun _ _ _ _ => Front.length_of_eq_lexeme⟩
          rw [Array.toList_push, hnew, hplace]
          rfl

/-- A comment and a line feed lie between two tokens. -/
theorem tokenize_cuts_comment :
    ∃ found,
      [⟨.identifier, "a", ⟨1, 1⟩⟩, ⟨.string, "b", ⟨2, 1⟩⟩, ⟨.eof, "", ⟨2, 4⟩⟩] =
        found ++ [⟨.eof, "", .behind "a/**/\n\"b\"".toList⟩] ∧
      (∀ token ∈ found, token.kind ≠ .eof) ∧
      Cut false [] found "a/**/\n\"b\"".toList ∧
      ∀ rest category length, rest <:+ "a/**/\n\"b\"".toList →
        Front.of rest = .lexeme category length →
        0 < length ∧ length ≤ rest.length := by
  have hread : tokenize false "a/**/\n\"b\"" =
      .ok [⟨.identifier, "a", ⟨1, 1⟩⟩, ⟨.string, "b", ⟨2, 1⟩⟩,
        ⟨.eof, "", ⟨2, 4⟩⟩] := by rfl
  exact tokenize_cuts false _ hread

end MiniC
