/-
The grammar of statements, declarations and programs.
-/
import MiniC.Proofs.DeclType
import MiniC.Proofs.Grammar.Expression
import MiniC.Proofs.Include

namespace MiniC.Grammar

/-- Items in a row.  The levels that are open at once in a row are those of the
item that opens the most. -/
inductive Sequence {α : Type} (Item : List Token → α → Nat → Prop) :
    List Token → List α → Nat → Prop
  | nil : Sequence Item [] [] 0
  | cons {tokens rest : List Token} {item : α} {items : List α}
      {levels levels' : Nat} :
      Item tokens item levels → Sequence Item rest items levels' →
      Sequence Item (tokens ++ rest) (item :: items) (max levels levels')

/-- The kinds that may stand before a declared name. -/
def specifierKinds : List TokenKind :=
  [.kwVoid, .kwChar, .kwShort, .kwInt, .kwLong, .kwFloat, .kwDouble, .kwConst,
   .kwSigned, .kwUnsigned, .star]

/-- Specifiers, perhaps none, and the name that they declare, with the type that they
describe together. -/
inductive Declarator : List Token → DeclType → String → Prop
  | mk {specifiers : List Token} {name : Token} :
      (∀ token ∈ specifiers, token.kind ∈ specifierKinds) →
      name.kind = .identifier →
      Declarator (specifiers ++ [name])
        (.described (specifiers.map Token.kind)) name.text

/-- A declarator that has a specifier and does not begin with a star. -/
def Declaration (tokens : List Token) (type : DeclType) (name : String) : Prop :=
  Declarator tokens type name ∧
    ∃ first rest, tokens = first :: rest ∧ first.kind ∈ specifierKinds ∧
      first.kind ≠ .star

/-- Declarators with commas between them. -/
inductive Declarators : List Token → List Param → Prop
  | one {tokens : List Token} {type : DeclType} {name : String} :
      Declarator tokens type name → Declarators tokens [⟨name, type⟩]
  | more {tokens rest : List Token} {type : DeclType} {name : String}
      {comma : Token} {params : List Param} :
      Declarator tokens type name → comma.kind = .comma →
      Declarators rest params →
      Declarators (tokens ++ comma :: rest) (⟨name, type⟩ :: params)

/-- What stands between the parentheses of a function. -/
inductive Parameters : List Token → List Param → Prop
  | none : Parameters [] []
  | void {word : Token} : word.kind = .kwVoid → Parameters [word] []
  | some {tokens : List Token} {params : List Param} :
      Declarators tokens params → Parameters tokens params

/-- `tokens` are a statement with the given tree, and reading it opens `levels`
statements and expressions at once, itself included. -/
inductive Statement : List Token → Stmt → Nat → Prop
  | block {opening closing : Token} {tokens : List Token} {body : List Stmt}
      {levels : Nat} :
      opening.kind = .leftBrace → Sequence Statement tokens body levels →
      closing.kind = .rightBrace →
      Statement (opening :: (tokens ++ [closing])) (.block body) (levels + 1)
  | leaving {word semicolon : Token} :
      word.kind = .kwReturn → semicolon.kind = .semicolon →
      Statement [word, semicolon] (.returning none) 1
  | returning {word semicolon : Token} {tokens : List Token} {value : Expr}
      {levels : Nat} :
      word.kind = .kwReturn → Expression .default tokens value levels →
      semicolon.kind = .semicolon →
      Statement (word :: (tokens ++ [semicolon])) (.returning (some value))
        (levels + 1)
  | lineComment {token : Token} :
      token.kind = .lineComment →
      Statement [token] (.comment .singleLine token.text) 1
  | blockComment {token : Token} :
      token.kind = .blockComment →
      Statement [token] (.comment .multiLine token.text) 1
  | includeDirective {token : Token} {directive : Include} :
      token.kind = .includeDirective → directive.text = token.text →
      directive.TakenApart →
      Statement [token] (.includeDirective directive) 1
  | declared {tokens : List Token} {type : DeclType} {name : String}
      {semicolon : Token} :
      Declaration tokens type name → semicolon.kind = .semicolon →
      Statement (tokens ++ [semicolon]) (.varDecl name type none) 1
  | initialized {tokens initial : List Token} {type : DeclType} {name : String}
      {equals semicolon : Token} {value : Expr} {levels : Nat} :
      Declaration tokens type name → equals.kind = .assign →
      Expression .assignment initial value levels →
      semicolon.kind = .semicolon →
      Statement (tokens ++ equals :: (initial ++ [semicolon]))
        (.varDecl name type (some value)) (levels + 1)
  | function {tokens between inside : List Token} {type : DeclType}
      {name : String} {opening closing openBrace closeBrace : Token}
      {params : List Param} {body : List Stmt} {levels : Nat} :
      Declaration tokens type name → opening.kind = .leftParen →
      Parameters between params → closing.kind = .rightParen →
      openBrace.kind = .leftBrace → Sequence Statement inside body levels →
      closeBrace.kind = .rightBrace →
      Statement
        (tokens ++ opening ::
          (between ++ closing :: openBrace :: (inside ++ [closeBrace])))
        (.function name type params body) (levels + 1)
  | expression {tokens : List Token} {semicolon : Token} {value : Expr}
      {levels : Nat} :
      Expression .default tokens value levels → semicolon.kind = .semicolon →
      Statement (tokens ++ [semicolon]) (.expression value) (levels + 1)

/-- `tokens` are a program whose statements are `body`, and reading it opens
`levels` statements and expressions at once. -/
def Program (tokens : List Token) (body : List Stmt) (levels : Nat) : Prop :=
  Sequence Statement tokens body levels

/-- An item alone is a row. -/
theorem Sequence.single {α : Type} {Item : List Token → α → Nat → Prop}
    {tokens : List Token} {item : α} {levels : Nat} (h : Item tokens item levels) :
    Sequence Item tokens [item] levels := by
  have hcons := Sequence.cons h .nil
  rwa [List.append_nil, Nat.max_eq_left (Nat.zero_le _)] at hcons

/-- An item may follow the others. -/
theorem Sequence.snoc {α : Type} {Item : List Token → α → Nat → Prop}
    {tokens last : List Token} {items : List α} {item : α}
    {levels levels' : Nat} (hitems : Sequence Item tokens items levels)
    (hlast : Item last item levels') :
    Sequence Item (tokens ++ last) (items ++ [item]) (max levels levels') := by
  induction hitems with
  | nil =>
      have hsingle := Sequence.cons hlast Sequence.nil
      simpa [Nat.max_comm] using hsingle
  | cons hfirst hrest ih =>
      rw [List.append_assoc, List.cons_append, Nat.max_assoc]
      exact Sequence.cons hfirst ih

/-- A declarator may follow the others, after a comma. -/
theorem Declarators.snoc {tokens last : List Token} {params : List Param}
    {type : DeclType} {name : String} {comma : Token}
    (hparams : Declarators tokens params) (hcomma : comma.kind = .comma)
    (hlast : Declarator last type name) :
    Declarators (tokens ++ comma :: last) (params ++ [⟨name, type⟩]) := by
  induction hparams with
  | one hfirst => exact .more hfirst hcomma (.one hlast)
  | more hfirst hcomma' hrest ih =>
      rw [List.append_assoc, List.cons_append]
      exact .more hfirst hcomma' ih

theorem not_mem_outerKinds_of_specifier {kind : TokenKind}
    (h : kind ∈ specifierKinds) : kind ∉ outerKinds := by
  have hall : ∀ kind ∈ specifierKinds, kind ∉ outerKinds := by decide
  exact hall kind h

theorem Declarator.inward {tokens : List Token} {type : DeclType}
    {name : String} (h : Declarator tokens type name) : Inward tokens := by
  obtain ⟨hspecifiers, hname⟩ := h
  rw [inward_append, inward_cons, hname]
  refine ⟨?_, by decide, inward_nil⟩
  exact fun token htoken => not_mem_outerKinds_of_specifier (hspecifiers token htoken)

theorem Declarators.inward {tokens : List Token} {params : List Param}
    (h : Declarators tokens params) : Inward tokens := by
  induction h with
  | one h => exact h.inward
  | more h hcomma _ ih =>
      rw [inward_append, inward_cons, hcomma]
      exact ⟨h.inward, by decide, ih⟩

theorem Parameters.inward {tokens : List Token} {params : List Param}
    (h : Parameters tokens params) : Inward tokens := by
  cases h with
  | none => exact inward_nil
  | void hword =>
      rw [inward_cons, hword]
      exact ⟨by decide, inward_nil⟩
  | some h => exact h.inward

/-- Where no item within the levels has an end marker in it, no row has. -/
theorem Sequence.endless {α : Type} {Item : List Token → α → Nat → Prop}
    {levels : Nat}
    (hitem : ∀ tokens item n, Item tokens item n → n ≤ levels → Endless tokens)
    {tokens : List Token} {items : List α} {n : Nat}
    (h : Sequence Item tokens items n) (hn : n ≤ levels) : Endless tokens := by
  induction h with
  | nil => exact endless_nil
  | cons hfirst _ ih =>
      obtain ⟨hfirstLevels, hrestLevels⟩ := Nat.max_le.1 hn
      exact endless_append.2 ⟨hitem _ _ _ hfirst hfirstLevels, ih hrestLevels⟩

/-- The induction is on the levels: what stands inside a statement opens fewer
of them. -/
theorem Statement.endless_of_le {levels : Nat} {tokens : List Token}
    {statement : Stmt} {n : Nat} (h : Statement tokens statement n)
    (hn : n ≤ levels) : Endless tokens := by
  induction levels generalizing tokens statement n with
  | zero => cases h <;> exact absurd hn (Nat.not_succ_le_zero _)
  | succ levels ih =>
      have hbody : ∀ {tokens body n}, Sequence Statement tokens body n →
          n + 1 ≤ levels + 1 → Endless tokens :=
        fun hbody hn => hbody.endless (fun _ _ _ h hn => ih h hn)
          (Nat.le_of_succ_le_succ hn)
      cases h with
      | block hopening hinside hclosing =>
          simp [hopening, hbody hinside hn, hclosing]
      | leaving hword hsemicolon => simp [hword, hsemicolon]
      | returning hword hvalue hsemicolon =>
          simp [hword, hvalue.inward.endless, hsemicolon]
      | lineComment htoken => simp [htoken]
      | blockComment htoken => simp [htoken]
      | includeDirective htoken _ _ => simp [htoken]
      | declared hdeclaration hsemicolon =>
          simp [hdeclaration.1.inward.endless, hsemicolon]
      | initialized hdeclaration hequals hvalue hsemicolon =>
          simp [hdeclaration.1.inward.endless, hequals, hvalue.inward.endless, hsemicolon]
      | function hdeclaration hopening hparams hclosing hopenBrace hinside
          hcloseBrace =>
          simp [hdeclaration.1.inward.endless, hopening, hparams.inward.endless, hclosing,
            hopenBrace, hbody hinside hn, hcloseBrace]
      | expression hvalue hsemicolon => simp [hvalue.inward.endless, hsemicolon]

theorem Program.endless {tokens : List Token} {body : List Stmt} {n : Nat}
    (h : Program tokens body n) : Endless tokens :=
  Sequence.endless (fun _ _ _ h hn => h.endless_of_le hn) h (Nat.le_refl n)

end MiniC.Grammar
