/-
Declared names in a program: the tree holds all of them in their order, each with the
type that the specifiers before it describe together.
-/
import MiniC.Proofs.DeclType
import MiniC.Proofs.Program.Recognition

namespace MiniC

open Grammar Parse

namespace Stmt

/-- The type and name of a parameter. -/
def declaredParam (param : Param) : DeclType × String := (param.type, param.name)

mutual

/-- The names that a statement declares, each with its type, in their order: a function
comes before its parameters, and these before what is declared inside it. -/
def declared : Stmt → List (DeclType × String)
  | block body => declaredAll body
  | varDecl name type _ => [(type, name)]
  | function name type params body =>
      (type, name) :: (params.map declaredParam ++ declaredAll body)
  | _ => []

/-- The names that the statements of a row declare. -/
def declaredAll : List Stmt → List (DeclType × String)
  | [] => []
  | s :: rest => declared s ++ declaredAll rest

end

end Stmt

/-- The names that a list of tokens declares, each with the type that the specifiers
directly before it describe.  A name is declared behind specifiers other than stars, and
everywhere between the parentheses that stand directly behind a name.  `specifiers` are
those that stand directly before the list, `afterName` says whether a name does, and
`inParams` whether such parentheses are open there. -/
def Token.declarations (inParams afterName : Bool) (specifiers : List TokenKind) :
    List Token → List (DeclType × String)
  | [] => []
  | token :: rest =>
      if token.kind ∈ specifierKinds then
        declarations inParams false (specifiers ++ [token.kind]) rest
      else
        match token.kind with
        | .identifier =>
            if inParams || specifiers.any (· ≠ .star) then
              (.described specifiers, token.text) :: declarations inParams true [] rest
            else declarations inParams true [] rest
        | .leftParen => declarations afterName false [] rest
        | .rightParen => declarations false false [] rest
        | _ => declarations inParams false [] rest

namespace Token

variable {inParams afterName : Bool} {specifiers : List TokenKind} {rest : List Token}

/-- Specifiers are collected up to what follows them. -/
theorem declarations_specifiers {tokens : List Token}
    (h : ∀ token ∈ tokens, token.kind ∈ specifierKinds) :
    declarations inParams false specifiers (tokens ++ rest) =
      declarations inParams false (specifiers ++ tokens.map Token.kind) rest := by
  induction tokens generalizing specifiers with
  | nil => simp
  | cons token tokens ih =>
      obtain ⟨htoken, htokens⟩ := List.forall_mem_cons.1 h
      rw [List.cons_append, declarations, if_pos htoken, ih htokens]
      simp

/-- The kinds at which a reader of declarations does more than to go on. -/
def declaringKinds : List TokenKind :=
  .identifier :: .leftParen :: .rightParen :: specifierKinds

/-- At any other token, all that stood directly before it is done with. -/
theorem declarations_other {token : Token} {kind : TokenKind} (hkind : token.kind = kind)
    (hother : kind ∉ declaringKinds) :
    declarations inParams afterName specifiers (token :: rest) =
      declarations inParams false [] rest := by
  simp only [declaringKinds, List.mem_cons, not_or, ← hkind] at hother
  obtain ⟨hname, hopening, hclosing, hspecifier⟩ := hother
  rw [declarations, if_neg]
  · split <;> simp_all
  · simpa [specifierKinds] using hspecifier

theorem declarations_leftParen {token : Token} (h : token.kind = .leftParen) :
    declarations inParams afterName specifiers (token :: rest) =
      declarations afterName false [] rest := by
  rw [declarations, h, if_neg (by decide)]

theorem declarations_rightParen {token : Token} (h : token.kind = .rightParen) :
    declarations inParams afterName specifiers (token :: rest) =
      declarations false false [] rest := by
  rw [declarations, h, if_neg (by decide)]

theorem declarations_identifier {token : Token} (h : token.kind = .identifier) :
    declarations inParams afterName specifiers (token :: rest) =
      if inParams || specifiers.any (· ≠ .star) then
        (.described specifiers, token.text) :: declarations inParams true [] rest
      else declarations inParams true [] rest := by
  rw [declarations, h, if_neg (by decide)]

end Token

namespace Grammar

open Token

variable {rest : List Token}

/-- A declarator declares its name, with the type that all its specifiers describe. -/
theorem Declarator.declarations_append {tokens : List Token} {type : DeclType}
    {name : String} (h : Declarator tokens type name) {inParams : Bool}
    (hdeclares : inParams = true ∨ ∃ token ∈ tokens, token.kind ∈ specifierKinds ∧
      token.kind ≠ .star) :
    declarations inParams false [] (tokens ++ rest) =
      (type, name) :: declarations inParams true [] rest := by
  obtain ⟨hspecifiers, hname⟩ := h
  rename_i specifiers name
  have hreads : (inParams || (specifiers.map Token.kind).any (· ≠ .star)) = true := by
    rw [Bool.or_eq_true, List.any_eq_true]
    refine hdeclares.imp id ?_
    rintro ⟨token, htoken, hspecifier, hstar⟩
    rcases List.mem_append.1 htoken with hmem | hmem
    · exact ⟨token.kind, List.mem_map_of_mem hmem, decide_eq_true hstar⟩
    · rw [List.mem_singleton.1 hmem, hname] at hspecifier
      exact absurd hspecifier (by decide)
  rw [List.append_assoc, declarations_specifiers hspecifiers, List.nil_append,
    List.singleton_append, declarations_identifier hname, if_pos hreads]

theorem Declaration.declarations_append {tokens : List Token} {type : DeclType}
    {name : String} (h : Declaration tokens type name) :
    declarations false false [] (tokens ++ rest) =
      (type, name) :: declarations false true [] rest := by
  obtain ⟨hdeclarator, first, more, rfl, hspecifier, hstar⟩ := h
  exact hdeclarator.declarations_append (.inr ⟨first, List.mem_cons_self, hspecifier, hstar⟩)

theorem Declarators.declarations_append {tokens : List Token} {params : List Param}
    (h : Declarators tokens params) :
    declarations true false [] (tokens ++ rest) =
      params.map Stmt.declaredParam ++ declarations true true [] rest := by
  induction h with
  | one hlast => exact hlast.declarations_append (.inl rfl)
  | more hfirst hcomma _ ih =>
      rw [List.append_assoc, hfirst.declarations_append (.inl rfl), List.cons_append,
        declarations_other hcomma (by decide), ih]
      rfl

/-- Between the parentheses of a function its parameters are declared. -/
theorem Parameters.declarations_append {tokens : List Token} {params : List Param}
    (h : Parameters tokens params) {closing : Token} (hclosing : closing.kind = .rightParen) :
    declarations true false [] (tokens ++ closing :: rest) =
      params.map Stmt.declaredParam ++ declarations false false [] rest := by
  cases h with
  | none => exact declarations_rightParen hclosing
  | @void word hword =>
      have hspecifier : ∀ token ∈ [word], token.kind ∈ specifierKinds := by
        simp [hword, specifierKinds]
      rw [declarations_specifiers hspecifier, declarations_rightParen hclosing]
      rfl
  | some hparams => rw [hparams.declarations_append, declarations_rightParen hclosing]

/-- Operators that are no stars are passed over. -/
theorem eq_star_or_not_mem_of_level {kind : TokenKind} (h : (level? kind).isSome) :
    kind = .star ∨ kind ∉ declaringKinds := by
  revert h
  cases kind <;> decide

/-- Behind stars, or behind nothing at all, the tokens declare nothing. -/
def DeclareNothing (tokens : List Token) : Prop :=
  ∀ specifiers : List TokenKind, (∀ kind ∈ specifiers, kind = .star) → ∀ rest : List Token,
    ∃ afterName, declarations false false specifiers (tokens ++ rest) =
      declarations false afterName [] rest

/-- The tokens that stand for expressions are passed over, names included. -/
theorem declareNothing_leaf {token : Token} {value : Expr}
    (h : Expr.ofToken token = .ok value) : DeclareNothing [token] := by
  intro specifiers hstars rest
  rw [List.singleton_append]
  have hkind := Expr.mem_primaryKinds_of_ofToken h
  by_cases hname : token.kind = .identifier
  · have hnone : ¬(false || specifiers.any (· ≠ .star)) = true := by
      simpa using hstars
    rw [declarations_identifier hname, if_neg hnone]
    exact ⟨true, rfl⟩
  · have hother : ∀ kind ∈ Registry.primaryKinds, kind ≠ .identifier →
        kind ∉ declaringKinds := by decide
    exact ⟨false, declarations_other rfl (hother _ hkind hname)⟩

/-- A star that is an operator is collected as specifiers are, and nothing comes of it. -/
theorem DeclareNothing.operation {left right : List Token} {operator : Token}
    (hleft : DeclareNothing left) (hlevel : (level? operator.kind).isSome)
    (hright : DeclareNothing right) : DeclareNothing (left ++ operator :: right) := by
  intro specifiers hstars rest
  obtain ⟨afterLeft, hpassed⟩ := hleft specifiers hstars (operator :: (right ++ rest))
  rw [List.append_assoc, List.cons_append, hpassed]
  rcases eq_star_or_not_mem_of_level hlevel with hstar | hother
  · rw [declarations, if_pos (by rw [hstar]; decide), hstar]
    exact hright [.star] (by simp) rest
  · rw [declarations_other rfl hother]
    exact hright [] (by simp) rest

theorem DeclareNothing.grouped {opening closing : Token} {inner : List Token}
    (hopening : opening.kind = .leftParen) (hinner : DeclareNothing inner)
    (hclosing : closing.kind = .rightParen) :
    DeclareNothing (opening :: (inner ++ [closing])) := by
  intro specifiers _ rest
  obtain ⟨afterInner, hpassed⟩ := hinner [] (by simp) (closing :: rest)
  refine ⟨false, ?_⟩
  rw [List.cons_append, List.append_assoc, declarations_leftParen hopening,
    List.singleton_append, hpassed, declarations_rightParen hclosing]

/-- An expression declares nothing. -/
theorem Phrase.WellFormed.declareNothing {phrase : Phrase} (h : phrase.WellFormed) :
    DeclareNothing phrase.yield := by
  induction h with
  | leaf hvalue => exact declareNothing_leaf hvalue
  | grouped hopening _ hclosing ih => exact ih.grouped hopening hclosing
  | leftward hlevel _ _ _ _ ihleft ihright =>
      exact ihleft.operation (by simp [level?_of_leftLevel? hlevel]) ihright
  | assigning hassigns _ _ _ _ ihleft ihright =>
      exact ihleft.operation (by simp [level?_of_assigns hassigns]) ihright

/-- Up to the semicolon that ends it, an expression declares nothing. -/
theorem Expression.declarations_append {floor : Power} {tokens : List Token} {value : Expr}
    {n : Nat} (h : Expression floor tokens value n) {semicolon : Token}
    (hsemicolon : semicolon.kind = .semicolon) :
    declarations false false [] (tokens ++ semicolon :: rest) =
      declarations false false [] rest := by
  obtain ⟨phrase, hphrase, _, rfl, _, _⟩ := h
  obtain ⟨afterName, hpassed⟩ := hphrase.declareNothing [] (by simp) (semicolon :: rest)
  rw [hpassed, declarations_other hsemicolon (by decide)]

/-- A row of statements declares what they declare, one after the other. -/
theorem Sequence.declarations_append {levels : Nat}
    (hitem : ∀ tokens statement n, Statement tokens statement n → n ≤ levels → ∀ rest,
      declarations false false [] (tokens ++ rest) =
        statement.declared ++ declarations false false [] rest)
    {tokens : List Token} {body : List Stmt} {n : Nat} (h : Sequence Statement tokens body n)
    (hn : n ≤ levels) (rest : List Token) :
    declarations false false [] (tokens ++ rest) =
      Stmt.declaredAll body ++ declarations false false [] rest := by
  induction h with
  | nil => rfl
  | cons hfirst _ ih =>
      obtain ⟨hfirstLevels, hrestLevels⟩ := Nat.max_le.1 hn
      rw [List.append_assoc, hitem _ _ _ hfirst hfirstLevels, ih hrestLevels, Stmt.declaredAll,
        List.append_assoc]

/-- The induction is on the levels, as what stands inside a statement opens fewer of them. -/
theorem Statement.declarations_append {levels : Nat} {tokens : List Token}
    {statement : Stmt} {n : Nat} (h : Statement tokens statement n) (hn : n ≤ levels)
    (rest : List Token) :
    declarations false false [] (tokens ++ rest) =
      statement.declared ++ declarations false false [] rest := by
  induction levels generalizing tokens statement n rest with
  | zero => cases h <;> exact absurd hn (Nat.not_succ_le_zero _)
  | succ levels ih =>
      have hbody : ∀ {tokens body n}, Sequence Statement tokens body n →
          n + 1 ≤ levels + 1 → ∀ rest, declarations false false [] (tokens ++ rest) =
            Stmt.declaredAll body ++ declarations false false [] rest :=
        fun hbody hn => hbody.declarations_append (fun _ _ _ h hn => ih h hn)
          (Nat.le_of_succ_le_succ hn)
      cases h with
      | block hopening hinside hclosing =>
          rw [List.cons_append, declarations_other hopening (by decide), List.append_assoc,
            hbody hinside hn, List.singleton_append, declarations_other hclosing (by decide),
            Stmt.declared]
      | leaving hword hsemicolon =>
          exact (declarations_other hword (by decide)).trans (declarations_other hsemicolon (by decide))
      | returning hword hvalue hsemicolon =>
          rw [List.cons_append, declarations_other hword (by decide), List.append_assoc,
            List.singleton_append, hvalue.declarations_append hsemicolon]
          rfl
      | lineComment htoken => exact declarations_other htoken (by decide)
      | blockComment htoken => exact declarations_other htoken (by decide)
      | includeDirective htoken _ _ => exact declarations_other htoken (by decide)
      | declared hdeclaration hsemicolon =>
          rw [List.append_assoc, hdeclaration.declarations_append, List.singleton_append,
            declarations_other hsemicolon (by decide)]
          rfl
      | initialized hdeclaration hequals hvalue hsemicolon =>
          rw [List.append_assoc, hdeclaration.declarations_append, List.cons_append,
            declarations_other hequals (by decide), List.append_assoc,
            List.singleton_append, hvalue.declarations_append hsemicolon]
          rfl
      | function hdeclaration hopening hparams hclosing hopenBrace hinside hcloseBrace =>
          rw [List.append_assoc, hdeclaration.declarations_append, List.cons_append,
            declarations_leftParen hopening, List.append_assoc, List.cons_append,
            hparams.declarations_append hclosing, List.cons_append,
            declarations_other hopenBrace (by decide), List.append_assoc, hbody hinside hn,
            List.singleton_append, declarations_other hcloseBrace (by decide), Stmt.declared,
            List.cons_append, List.append_assoc]
      | expression hvalue hsemicolon =>
          rw [List.append_assoc, List.singleton_append,
            hvalue.declarations_append hsemicolon]
          rfl

end Grammar

/-- The names in the tree of a program are those that its tokens declare. -/
theorem declared_of_parseTokens {tokens : List Token} {root : Stmt}
    (h : parseTokens tokens = .ok root) :
    root.declared = Token.declarations false false []
      (tokens.takeWhile fun token => decide (token.kind ≠ .eof)) := by
  obtain ⟨body, levels, rfl, hprogram, _⟩ := program_of_parseTokens h
  rw [Cursor.ahead_ofTokens] at hprogram
  have hdeclares := Sequence.declarations_append
    (fun _ _ _ h hn => Statement.declarations_append h hn) hprogram (Nat.le_refl levels) []
  rw [List.append_nil] at hdeclares
  rw [hdeclares, Token.declarations, List.append_nil, Stmt.declared]

namespace Parse

/-- Specifiers are taken up to the first other token, and this one if it is a name. -/
theorem run_declarator {s : ParseState} {specifiers more : List Token} {token : Token}
    (hspecifiers : ∀ token ∈ specifiers, token.kind ∈ specifierKinds)
    (hother : token.kind ∉ specifierKinds)
    (hrest : s.cursor.rest = specifiers ++ token :: more) :
    ∃ s' : ParseState, s'.log = s.log ∧
      if token.kind = .identifier then
        declarator.run s =
            (.ok (.described (specifiers.map Token.kind), token.text), s') ∧
          s'.cursor.rest = more
      else
        declarator.run s = (.error (.expected .identifier "in declaration" token), s') ∧
          s'.cursor.rest = token :: more := by
  have hends : TokenKind.eof ∉ specifierKinds := by decide
  obtain ⟨stop, hpasses, hstop⟩ := Cursor.exists_passes hrest
    fun token htoken heof => hends (heof ▸ hspecifiers token htoken)
  have hcurrent : stop.current = token := Cursor.current_eq_of_rest_eq hstop
  have hkind : stop.kind = token.kind := congrArg Token.kind hcurrent
  have htaken : takeWhile DeclType.isSpecifier s = .ok specifiers { s with cursor := stop } := by
    refine takeWhile_of_passes hpasses
      (fun token htoken => DeclType.isSpecifier_iff.2 (hspecifiers token htoken)) (.inr ?_)
    rwa [← Bool.not_eq_true, DeclType.isSpecifier_iff, hkind]
  rw [run, declarator, bind_of_ok htaken]
  split
  case isTrue hname =>
    refine ⟨{ s with cursor := stop.advance }, rfl, ?_, ?_⟩
    · rw [bind_of_ok (expect_of_eq (hkind.trans hname)), DeclType.ofSpecifiers_eq_described,
        ← hcurrent]
      rfl
    · have hpassed : stop.advance.rest = stop.rest.tail :=
        Cursor.rest_advance (by rw [hkind, hname]; decide)
      rw [hpassed, hstop]
      rfl
  case isFalse hname =>
    refine ⟨{ s with cursor := stop }, rfl, ?_, hstop⟩
    rw [bind_of_error (expect_of_ne (hkind.symm ▸ hname)), ← hcurrent]

end Parse

/-- Specifiers describe a type together.  Wherever a run of them stands before another
token, it is read to its end, and what it describes is the last base type, the last
signedness, `const` if it is there at all, and the number of stars; so the stars and `const`
may stand anywhere in it.  A base type and a signedness may change places just where each may
pass what stands between them, neighbours always.  The names of all functions, parameters and
variables of a program have the type that the specifiers before them describe. -/
theorem specifiers_describe_types :
    (∀ (s : ParseState) (specifiers more : List Token) (token : Token),
      (∀ specifier ∈ specifiers, specifier.kind ∈ specifierKinds) →
      token.kind ∉ specifierKinds →
      s.cursor.rest = specifiers ++ token :: more →
      ∃ s' : ParseState, s'.log = s.log ∧
        if token.kind = .identifier then
          declarator.run s =
              (.ok (.described (specifiers.map Token.kind), token.text), s') ∧
            s'.cursor.rest = more
        else
          declarator.run s = (.error (.expected .identifier "in declaration" token), s') ∧
            s'.cursor.rest = token :: more) ∧
    (∀ kinds kinds' : List TokenKind,
      DeclType.ordered kinds = DeclType.ordered kinds' →
      (.kwConst ∈ kinds ↔ .kwConst ∈ kinds') →
      kinds.count .star = kinds'.count .star →
      DeclType.described kinds = DeclType.described kinds') ∧
    (∀ (before between after : List TokenKind) (base sign : TokenKind),
      (BaseType.ofKind? base).isSome → (DeclType.signedness? sign).isSome →
      (DeclType.described (before ++ base :: (between ++ sign :: after)) =
          DeclType.described (before ++ sign :: (between ++ base :: after)) ↔
        DeclType.MayPass BaseType.ofKind? base between after ∧
          DeclType.MayPass DeclType.signedness? sign between after)) ∧
    ∀ (tokens : List Token) (root : Stmt), parseTokens tokens = .ok root →
      root.declared = Token.declarations false false []
        (tokens.takeWhile fun token => decide (token.kind ≠ .eof)) :=
  ⟨fun _ _ _ _ => run_declarator, fun _ _ => DeclType.described_eq_of_ordered,
    fun _ _ _ _ _ => DeclType.described_swap_iff, fun _ _ => declared_of_parseTokens⟩

/-- A function whose types are written in several orders. -/
theorem specifiers_describe_types_sample :
    (∃ s' : ParseState, s'.log = #[] ∧
      declarator.run (.ofTokens Token.sampleFunction) =
        (.ok (⟨.char, true, false, 1⟩, "f"), s') ∧
      s'.cursor.kind = .leftParen) ∧
    DeclType.described [.star, .kwConst, .kwUnsigned, .kwConst, .kwChar] =
      DeclType.described [.kwUnsigned, .kwChar, .kwConst, .star] ∧
    DeclType.described [.kwChar, .kwInt, .kwUnsigned, .kwLong] =
      DeclType.described [.kwUnsigned, .kwInt, .kwChar, .kwLong] ∧
    ∃ root, parseTokens Token.sampleFunction = .ok root ∧
      root.declared = [(⟨.char, true, false, 1⟩, "f"), (⟨.short, false, true, 0⟩, "a"),
        (⟨.long, false, true, 1⟩, "b"), (⟨.int, false, true, 0⟩, "x")] := by
  obtain ⟨hread, hmove, hswap, hprogram⟩ := specifiers_describe_types
  refine ⟨?_, ?_, ?_, ?_⟩
  · obtain ⟨s', hlog, hrun, hrest⟩ := hread (.ofTokens Token.sampleFunction)
      (Token.sampleFunction.take 4) (Token.terminated (Token.sampleFunction.drop 5))
      ⟨.identifier, "f", .start⟩ (by decide) (by decide) rfl
    exact ⟨s', hlog, hrun, by rw [Cursor.kind, Cursor.current_eq_of_rest_eq hrest]⟩
  · exact hmove _ _ (by decide) (by decide) (by decide)
  · exact (hswap [] [.kwInt] [.kwLong] .kwChar .kwUnsigned rfl rfl).2
      ⟨.inl (by decide), .inr (by decide)⟩
  · have hok : (parseTokens Token.sampleFunction).isOk = true := by decide +kernel
    cases hroot : parseTokens Token.sampleFunction with
    | ok root => exact ⟨root, rfl, (hprogram _ _ hroot).trans (by decide)⟩
    | error e =>
        rw [hroot] at hok
        cases hok

/-- In `char int unsigned x` the base type and the signedness cannot change places: in
`unsigned int char x` the base type that stood between them is not the last one any more. -/
theorem specifiers_swapped_describe_another :
    ¬ ∀ (before between after : List Token) (base sign name : Token),
      (BaseType.ofKind? base.kind).isSome → (DeclType.signedness? sign.kind).isSome →
      name.kind = .identifier →
      (declarator.run (.ofTokens (before ++ base :: (between ++ sign :: (after ++ [name]))))).1 =
        (declarator.run
          (.ofTokens (before ++ sign :: (between ++ base :: (after ++ [name]))))).1 := by
  intro hsame
  have hsample := hsame [] [⟨.kwInt, "int", .start⟩] [] ⟨.kwChar, "char", .start⟩
    ⟨.kwUnsigned, "unsigned", .start⟩ ⟨.identifier, "x", .start⟩ rfl rfl rfl
  have hfirst : (declarator.run (.ofTokens [⟨.kwChar, "char", .start⟩, ⟨.kwInt, "int", .start⟩,
      ⟨.kwUnsigned, "unsigned", .start⟩, ⟨.identifier, "x", .start⟩])).1 =
      .ok (⟨.int, false, false, 0⟩, "x") := rfl
  have hsecond : (declarator.run (.ofTokens [⟨.kwUnsigned, "unsigned", .start⟩,
      ⟨.kwInt, "int", .start⟩, ⟨.kwChar, "char", .start⟩, ⟨.identifier, "x", .start⟩])).1 =
      .ok (⟨.char, false, false, 0⟩, "x") := rfl
  rw [List.nil_append, List.singleton_append, List.nil_append] at hsample
  cases hfirst.symm.trans (hsample.trans hsecond)

end MiniC
