/-
Lines of a token dump and how they are read: index, kind and text of a token are all found
in its line, the text through the kind where the line does not show it.
-/
import MiniC.Proofs.Scanner.Kind
import MiniC.Proofs.Scanner.Shorter

namespace MiniC

namespace TokenKind

/-- The kind with the given name. -/
def ofName? (name : String) : Option TokenKind :=
  all.find? fun kind => kind.name = name

theorem ofName?_name (kind : TokenKind) : ofName? kind.name = some kind := by
  have hall : ∀ kind ∈ all, ofName? kind.name = some kind := by decide +kernel
  exact hall kind (mem_all kind)

/-- A name is one word. -/
theorem space_not_mem_name (kind : TokenKind) : ' ' ∉ kind.name.toList := by
  have hall : ∀ kind ∈ all, ' ' ∉ kind.name.toList := by decide +kernel
  exact hall kind (mem_all kind)

end TokenKind

/-- What a line of a dump says. -/
structure DumpEntry where
  index : Nat
  kind : TokenKind
  text : String
deriving DecidableEq, Repr

namespace DumpEntry

/-- Read a line.  The digits and the name end where they do, and all that stands between the
parentheses of the line is the text, whatever characters it has. -/
def ofLine? (line : String) : Option DumpEntry :=
  let numbered := line.toList.dropWhile (· = ' ')
  let named := (numbered.dropWhile Char.isDigit).drop 2
  let shown := ((named.dropWhile (· ≠ ' ')).drop 2).dropLast
  (TokenKind.ofName? (String.ofList (named.takeWhile (· ≠ ' ')))).map fun kind =>
    ⟨Nat.ofDigitChars 10 (numbered.takeWhile Char.isDigit) 0, kind,
      if kind.carriesText then String.ofList shown else kind.spelling⟩

end DumpEntry

namespace Token

open DumpEntry

/-- The text of a token as its line shows it. -/
def shown (token : Token) : String :=
  if token.kind.carriesText then token.text else ""

/-- The characters of a line. -/
theorem toList_dumpLine (index : Nat) (token : Token) :
    (token.dumpLine index).toList =
      List.replicate (3 - (toString index).length) ' ' ++ (Nat.toDigits 10 index ++
        ':' :: ' ' :: (token.kind.name.toList ++ ' ' :: '(' :: (token.shown.toList ++ [')']))) := by
  have hwritten : token.dumpLine index =
      String.ofList (List.replicate (3 - (toString index).length) ' ') ++ toString index ++ ": " ++
        token.kind.name ++ " (" ++ token.shown ++ ")" := rfl
  rw [hwritten]
  simp

/-- Where a kind that carries no text says what the text is, the line of a token is read as
what the token is. -/
theorem ofLine?_dumpLine {token : Token} (index : Nat)
    (h : token.kind.carriesText = false → token.text = token.kind.spelling) :
    ofLine? (token.dumpLine index) = some ⟨index, token.kind, token.text⟩ := by
  have hdigits : ∀ c ∈ Nat.toDigits 10 index, c.isDigit :=
    fun _ hc => Nat.isDigit_of_mem_toDigits (by decide) (by decide) hc
  let named := token.kind.name.toList ++ ' ' :: '(' :: (token.shown.toList ++ [')'])
  have hnumbered : (token.dumpLine index).toList.dropWhile (· = ' ') =
      Nat.toDigits 10 index ++ ':' :: ' ' :: named := by
    rw [toList_dumpLine]
    refine (Pattern.span_append _ (by simp) ?_).2
    intro c hc
    cases hnumber : Nat.toDigits 10 index with
    | nil =>
        rw [hnumber] at hc
        obtain rfl : ':' = c := by simpa using hc
        rfl
    | cons digit digits =>
        rw [hnumber] at hc hdigits
        obtain rfl : digit = c := by simpa using hc
        have hdigit := hdigits digit List.mem_cons_self
        exact decide_eq_false fun hspace => by simp [hspace] at hdigit
  obtain ⟨hnumber, hbehind⟩ := Pattern.span_append (':' :: ' ' :: named) hdigits (by simp)
  obtain ⟨hname, hrest⟩ := Pattern.span_append (p := fun c => decide (c ≠ ' '))
    (' ' :: '(' :: (token.shown.toList ++ [')']))
    (fun c hc => decide_eq_true (ne_of_mem_of_not_mem hc token.kind.space_not_mem_name)) (by simp)
  have htext : (if token.kind.carriesText then token.shown else token.kind.spelling) =
      token.text := by
    cases hcarries : token.kind.carriesText with
    | true => simp [shown, hcarries]
    | false => simp [h hcarries]
  unfold ofLine?
  simp only [hnumbered, hnumber, hbehind, List.drop_succ_cons, List.drop_zero, named, hname,
    hrest, String.ofList_toList, TokenKind.ofName?_name, Option.map_some,
    List.dropLast_concat, Nat.ofDigitChars_ten_toDigits, htext]

/-- The lines of a dump whose first token has the given index. -/
def dumpLines (first : Nat) (tokens : List Token) : List String :=
  tokens.mapIdx fun i token => token.dumpLine (first + i)

theorem dumpLines_cons (first : Nat) (token : Token) (tokens : List Token) :
    dumpLines first (token :: tokens) = token.dumpLine first :: dumpLines (first + 1) tokens := by
  simp [dumpLines, List.mapIdx_cons, Nat.add_comm, Nat.add_left_comm]

/-- What the lines of a dump are read as is the tokens, apart from where these stand. -/
theorem filterMap_ofLine?_dumpLines {tokens : List Token}
    (h : ∀ token ∈ tokens, token.kind.carriesText = false → token.text = token.kind.spelling)
    (first : Nat) :
    ((dumpLines first tokens).filterMap ofLine?).map (fun entry => (entry.kind, entry.text)) =
      tokens.map fun token => (token.kind, token.text) := by
  induction tokens generalizing first with
  | nil => rfl
  | cons token tokens ih =>
      obtain ⟨htoken, htokens⟩ := List.forall_mem_cons.1 h
      rw [dumpLines_cons, List.filterMap_cons_some (ofLine?_dumpLine first htoken),
        List.map_cons, List.map_cons, ih htokens]

end Token

/-- The kind of any token of a text, the end marker included, says what its text is unless
the dump shows it. -/
theorem Scanner.text_eq_spelling {keepComments : Bool} {source : String} {token : Token}
    {location : Location}
    (h : token ∈ ((ofSource source).scan keepComments).tokens.toList ++ [.endMarker location])
    (hkind : token.kind.carriesText = false) : token.text = token.kind.spelling := by
  rcases List.mem_append.1 h with hfound | hlast
  · exact (isLexeme_of_scan keepComments source token hfound).text_eq_spelling hkind
  · have hend : "" = TokenKind.eof.spelling := by decide
    rw [List.mem_singleton.1 hlast]
    exact hend

/-- A dump loses nothing.  From the line of any token that is found in a text, as from that
of the end marker, its index, its kind and its text are read back; so texts with the same
dump have the same tokens, apart from where these stand. -/
theorem dump_loses_nothing (keepComments : Bool) (source : String) :
    (∀ token ∈ ((Scanner.ofSource source).scan keepComments).tokens.toList ++
        [.endMarker ((Scanner.ofSource source).scan keepComments).stopped.position.location],
      ∀ index : Nat,
        DumpEntry.ofLine? (token.dumpLine index) = some ⟨index, token.kind, token.text⟩) ∧
    ∀ (keepComments' : Bool) (source' : String) (tokens tokens' : List Token) (first : Nat),
      tokenize keepComments source = .ok tokens →
      tokenize keepComments' source' = .ok tokens' →
      Token.dumpLines first tokens = Token.dumpLines first tokens' →
      tokens.length = tokens'.length ∧ tokens.map Token.kind = tokens'.map Token.kind ∧
        tokens.map Token.text = tokens'.map Token.text := by
  refine ⟨fun token htoken index =>
    Token.ofLine?_dumpLine index (Scanner.text_eq_spelling htoken), ?_⟩
  intro keepComments' source' tokens tokens' first hok hok' hlines
  have hsaid : ∀ {keepComments : Bool} {source : String} {tokens : List Token},
      tokenize keepComments source = .ok tokens →
      ((Token.dumpLines first tokens).filterMap DumpEntry.ofLine?).map
          (fun entry => (entry.kind, entry.text)) =
        tokens.map fun token => (token.kind, token.text) := by
    intro keepComments source tokens hok
    obtain ⟨_, rfl⟩ := Scan.tokenList_eq_ok hok
    exact Token.filterMap_ofLine?_dumpLines (fun _ => Scanner.text_eq_spelling) first
  have hsame : (tokens.map fun token => (token.kind, token.text)) =
      tokens'.map fun token => (token.kind, token.text) := by
    rw [← hsaid hok, hlines, hsaid hok']
  refine ⟨?_, ?_, ?_⟩
  · simpa using congrArg List.length hsame
  · simpa [Function.comp_def] using congrArg (List.map Prod.fst) hsame
  · simpa [Function.comp_def] using congrArg (List.map Prod.snd) hsame

/-- A dropped comment leaves no trace in a dump, and one that is kept may have the marks of
a line in it. -/
theorem dump_loses_nothing_marks :
    (DumpEntry.ofLine? ((⟨.blockComment, "/*) (\n 7: STRING (*/", ⟨1, 2⟩⟩ : Token).dumpLine 1234) =
        some ⟨1234, .blockComment, "/*) (\n 7: STRING (*/"⟩) ∧
      ∃ tokens tokens', tokenize true "if(x)" = .ok tokens ∧
        tokenize false "if /**/ (x) " = .ok tokens' ∧
        tokens.length = tokens'.length ∧ tokens.map Token.kind = tokens'.map Token.kind ∧
        tokens.map Token.text = tokens'.map Token.text := by
  constructor
  · exact (dump_loses_nothing true ";/*) (\n 7: STRING (*/").1 _ (by decide) 1234
  · have hok : tokenize true "if(x)" = .ok
        [⟨.kwIf, "if", ⟨1, 1⟩⟩, ⟨.leftParen, "(", ⟨1, 3⟩⟩, ⟨.identifier, "x", ⟨1, 4⟩⟩,
          ⟨.rightParen, ")", ⟨1, 5⟩⟩, .endMarker ⟨1, 6⟩] := by rfl
    have hok' : tokenize false "if /**/ (x) " = .ok
        [⟨.kwIf, "if", ⟨1, 1⟩⟩, ⟨.leftParen, "(", ⟨1, 9⟩⟩, ⟨.identifier, "x", ⟨1, 10⟩⟩,
          ⟨.rightParen, ")", ⟨1, 11⟩⟩, .endMarker ⟨1, 13⟩] := by rfl
    exact ⟨_, _, hok, hok', (dump_loses_nothing true "if(x)").2 false "if /**/ (x) " _ _ 0 hok hok'
      (by decide +kernel)⟩

end MiniC
