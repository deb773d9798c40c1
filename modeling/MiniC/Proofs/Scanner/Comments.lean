/-
Comments in a source text: what a scan that drops them finds, and which texts
hold nothing else.
-/
import MiniC.Proofs.Scanner.Walk

namespace MiniC

/-- Whether a token is a comment. -/
def Token.isComment (token : Token) : Bool :=
  token.kind = .lineComment || token.kind = .blockComment

/-- The tokens that are no comments. -/
def Token.dropComments (tokens : List Token) : List Token :=
  tokens.filter fun token => !token.isComment

theorem Token.dropComments_append (first second : List Token) :
    dropComments (first ++ second) = dropComments first ++ dropComments second :=
  List.filter_append ..

namespace Category

/-- Fixed spellings and words are no comments. -/
theorem kind?_ne_comment {category : Category} (hline : category ≠ lineComment)
    (hblock : category ≠ blockComment) {keepComments : Bool} {lexeme : List Char}
    {kind : TokenKind} (h : category.kind? keepComments lexeme = some kind) :
    kind ≠ .lineComment ∧ kind ≠ .blockComment := by
  cases category with
  | blank => cases h
  | lineComment => exact absurd rfl hline
  | blockComment => exact absurd rfl hblock
  | word =>
      have hall : ∀ kind ∈ .identifier :: Vocabulary.keywords.map Prod.snd,
          kind ≠ .lineComment ∧ kind ≠ .blockComment := by decide
      exact hall kind (mem_of_kind?_word h)
  | fixed =>
      have hall : ∀ kind ∈ Vocabulary.fixed.map Prod.snd,
          kind ≠ .lineComment ∧ kind ≠ .blockComment := by decide
      exact hall kind (mem_of_kind?_fixed h)
  | _ =>
      cases h
      decide

/-- Whether comments are kept makes a difference for comments alone. -/
theorem token?_false (category : Category) (lexeme : List Char)
    (location : Location) :
    (category.token? false location lexeme).toList =
      Token.dropComments (category.token? true location lexeme).toList := by
  by_cases hline : category = lineComment
  · subst hline
    rfl
  by_cases hblock : category = blockComment
  · subst hblock
    rfl
  have hsame : category.kind? false lexeme = category.kind? true lexeme := by
    cases category <;> first
      | rfl
      | contradiction
  rw [token?, token?, hsame]
  cases hkind : category.kind? true lexeme with
  | none => rfl
  | some kind =>
      obtain ⟨hline, hblock⟩ := kind?_ne_comment hline hblock hkind
      simp [Token.dropComments, Token.isComment, hline, hblock]

end Category

namespace Scanner

/-- The two walks over one text stop at the same place for the same reason, and
they find the same tokens but for the comments. -/
theorem walk_false (text : List Char) (here : Position) (found kept : Findings)
    (hfound : found.tokens.toList = Token.dropComments kept.tokens.toList) :
    (walk false 0 here found text).tokens.toList =
        Token.dropComments (walk true 0 here kept text).tokens.toList ∧
      (walk false 0 here found text).result = (walk true 0 here kept text).result ∧
      (walk false 0 here found text).stopped =
        (walk true 0 here kept text).stopped := by
  induction text using walk_induction generalizing here found kept with
  | nil => exact ⟨hfound, rfl, rfl⟩
  | blank c text hc ih =>
      rw [walk_blank hc, walk_blank hc]
      exact ih _ _ _ hfound
  | lexeme category lexeme rest _ hshape hfront ih =>
      rw [walk_lexeme hfront hshape.ne_nil, walk_lexeme hfront hshape.ne_nil]
      apply ih
      rw [tokens_elim_push, tokens_elim_push, Token.dropComments_append, hfound,
        category.token?_false]
  | unterminated c text what hfront =>
      rw [walk_unterminated hfront, walk_unterminated hfront]
      exact ⟨hfound, rfl, rfl⟩
  | unknown c text hfront =>
      rw [walk_unknown hfront, walk_unknown hfront]
      exact ⟨hfound, rfl, rfl⟩

end Scanner

/-- Scanning without comments is scanning with them and dropping them. -/
theorem tokenize_false (source : String) :
    tokenize false source = (tokenize true source).map Token.dropComments := by
  obtain ⟨htokens, hresult, hstopped⟩ :=
    Scanner.walk_false source.toList .start .none .none rfl
  have htokens : ((Scanner.ofSource source).scan false).tokens.toList =
    Token.dropComments ((Scanner.ofSource source).scan true).tokens.toList := htokens
  have hresult : ((Scanner.ofSource source).scan false).result =
    ((Scanner.ofSource source).scan true).result := hresult
  have hstopped : ((Scanner.ofSource source).scan false).stopped =
    ((Scanner.ofSource source).scan true).stopped := hstopped
  unfold tokenize Scan.tokenList
  rw [hresult, hstopped]
  cases ((Scanner.ofSource source).scan true).result with
  | error e => rfl
  | ok =>
      simp only [Except.map, Array.toList_push, htokens]
      simp [Token.dropComments, Token.isComment, Token.endMarker]

namespace Front

/-- A line comment goes up to a line feed or the end of the text. -/
theorem of_lineComment {body rest : List Char} (hbody : '\n' ∉ body)
    (hrest : ∀ c ∈ rest.head?, c = '\n') :
    of ('/' :: '/' :: (body ++ rest)) =
      .lexeme .lineComment (['/', '/'] ++ body).length := by
  have hline : (body ++ rest).takeWhile Category.staysOnLine = body := by
    have hstays : ∀ c ∈ body, Category.staysOnLine c := by
      intro c hc
      have hne : c ≠ '\n' := fun h => hbody (h ▸ hc)
      simpa [Category.staysOnLine] using hne
    have hstop : rest.takeWhile Category.staysOnLine = [] := by
      cases rest with
      | nil => rfl
      | cons c rest =>
          obtain rfl : c = '\n' := hrest c rfl
          rfl
    rw [List.takeWhile_append_of_pos hstays, hstop, List.append_nil]
  have hblank := Category.extent_blank_of_not (c := '/') (by decide)
    ('/' :: (body ++ rest))
  rw [of_of_closed (by simp) (by simp), Category.all, List.findSome?_cons, hblank]
  simp [Category.extent, Extent.followedBy, Extent.exactly, Extent.run, hline]
  omega

/-- A block comment goes up to the first end of a comment. -/
theorem of_blockComment {body : List Char} (hbody : ¬ ['*', '/'] <:+: body ++ ['*'])
    (rest : List Char) :
    of ('/' :: '*' :: (body ++ '*' :: '/' :: rest)) =
      .lexeme .blockComment ('/' :: '*' :: (body ++ ['*', '/'])).length := by
  have hend := Category.throughCommentEnd_of_split hbody 0 rest
  have hextent : Category.blockComment.extent
      ('/' :: '*' :: (body ++ '*' :: '/' :: rest)) =
        some ('/' :: '*' :: (body ++ ['*', '/'])).length := by
    simp [Category.extent, Extent.followedBy, Extent.exactly, hend]
    omega
  have hblank := Category.extent_blank_of_not (c := '/') (by decide)
    ('*' :: (body ++ '*' :: '/' :: rest))
  have hline : Category.lineComment.extent
      ('/' :: '*' :: (body ++ '*' :: '/' :: rest)) = none := by
    simp [Category.extent, Extent.followedBy, Extent.exactly]
  rw [of_of_closed (by simp [hextent]) (by simp), Category.all, List.findSome?_cons,
    hblank]
  dsimp only [Option.map_none]
  rw [List.findSome?_cons, hline]
  dsimp only [Option.map_none]
  rw [List.findSome?_cons, hextent]
  rfl

end Front

/-- A gap is passed over, and nothing is found in it. -/
theorem Gap.walk {gap rest : List Char} (h : Gap false gap rest) (here : Position)
    (found : Findings) :
    Scanner.walk false 0 here found (gap ++ rest) =
      Scanner.walk false 0 (here.after gap) found rest := by
  induction h generalizing here with
  | nil => rfl
  | blank hc _ ih =>
      rw [List.cons_append, Scanner.walk_blank hc, ih]
      rfl
  | @lineComment body gap rest _ hbody hhead _ ih =>
      have hwalk : Scanner.walk false 0 here found
          (['/', '/'] ++ body ++ (gap ++ rest)) = _ :=
        Scanner.walk_of_kind?_eq_none (Front.of_lineComment hbody hhead) (by simp) rfl
      have hgap := hwalk.trans (ih _)
      rw [← Position.after_append] at hgap
      simpa using hgap
  | @blockComment body gap rest _ hbody _ ih =>
      have hfront := Front.of_blockComment hbody (gap ++ rest)
      have hwalk : Scanner.walk false 0 here found
          ('/' :: '*' :: (body ++ ['*', '/']) ++ (gap ++ rest)) = _ :=
        Scanner.walk_of_kind?_eq_none (by simpa using hfront) (by simp) rfl
      have hgap := hwalk.trans (ih _)
      rw [← Position.after_append] at hgap
      simpa using hgap

/-- Without comments, nothing but the end marker is found in a text exactly when
all of it is a gap. -/
theorem tokenize_false_eq_endMarker_iff (source : String) :
    (∃ location, tokenize false source = .ok [.endMarker location]) ↔
      Gap false source.toList [] := by
  constructor
  · intro h
    obtain ⟨location, h⟩ := h
    cases hscan : (Scanner.ofSource source).scan false with
    | mk found result stopped =>
        rw [tokenize, hscan, Scan.tokenList] at h
        cases result with
        | error e => cases h
        | ok =>
            have hstart : (Scanner.ofSource source).position.location = .behind [] :=
              rfl
            obtain ⟨new, hfound, _, hcut, _⟩ := Scanner.walk_cuts hstart hscan
            have hnil : found.tokens.toList = [] := by
              simp only [Except.map, Array.toList_push, Except.ok.injEq] at h
              simpa using congrArg List.length h
            obtain rfl : [] = new := hnil.symm.trans hfound
            cases hcut with
            | done hgap => exact hgap
  · intro h
    have hwalk := h.walk .start .none
    rw [List.append_nil] at hwalk
    have hscan : (Scanner.ofSource source).scan false = _ := hwalk
    refine ⟨(Position.start.after source.toList).location, ?_⟩
    rw [tokenize, hscan]
    rfl

end MiniC
