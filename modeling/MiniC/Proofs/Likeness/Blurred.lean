/-
Trees and errors without their places, and perhaps without their texts: what is
left of them when only the kinds of the tokens are known.
-/
import MiniC.Proofs.Likeness.Basic

namespace MiniC

/-- A text, or nothing of it. -/
def blurText (keepTexts : Bool) (text : String) : String :=
  if keepTexts then text else ""

namespace Token

/-- A token without its place, and without its text if texts are not kept. -/
def blurred (keepTexts : Bool) (token : Token) : Token :=
  ⟨token.kind, blurText keepTexts token.text, .nowhere⟩

/-- Whether the token denotes a number, if it is of the kind of numbers. -/
def converts (token : Token) : Bool :=
  match token.kind with
  | .integer => (Numeral.integer? token.text.toList).isSome
  | .unsignedInteger => (Numeral.unsigned? token.text.toList).isSome
  | .floating => (Numeral.floating? token.text.toList).isSome
  | _ => true

theorem blurred_eq_iff {keepTexts : Bool} {token token' : Token} :
    token.blurred keepTexts = token'.blurred keepTexts ↔ token.kind = token'.kind ∧
      blurText keepTexts token.text = blurText keepTexts token'.text := by
  simp [blurred]

end Token

/-- An expression without the places of its operators, and without names, values and
texts if these are not kept. -/
def Expr.blurred (keepTexts : Bool) : Expr → Expr
  | integer value => integer (if keepTexts then value else 0)
  | unsigned value => unsigned (if keepTexts then value else 0)
  | floating value => floating (if keepTexts then value else .zero false)
  | character text => character (blurText keepTexts text)
  | string text => string (blurText keepTexts text)
  | symbol name => symbol (blurText keepTexts name)
  | binary left operator right =>
      binary (left.blurred keepTexts) (operator.blurred keepTexts)
        (right.blurred keepTexts)

/-- A parameter with its type, and without its name if texts are not kept. -/
def Param.blurred (keepTexts : Bool) (param : Param) : Param :=
  ⟨blurText keepTexts param.name, param.type⟩

/-- A directive, or nothing of it. -/
def Include.blurred (keepTexts : Bool) (directive : Include) : Include :=
  ⟨blurText keepTexts directive.text, blurText keepTexts directive.target,
    keepTexts && directive.isSystem⟩

namespace Stmt

mutual

/-- A statement without the places of its operators, and without names, values and
texts if these are not kept.  Declared types stay, and the sorts of comments. -/
def blurred (keepTexts : Bool) : Stmt → Stmt
  | block body => block (blurredAll keepTexts body)
  | expression value => expression (value.blurred keepTexts)
  | varDecl name type initial =>
      varDecl (blurText keepTexts name) type (initial.map (.blurred keepTexts))
  | function name type params body =>
      function (blurText keepTexts name) type (params.map (.blurred keepTexts))
        (blurredAll keepTexts body)
  | returning value => returning (value.map (.blurred keepTexts))
  | comment kind text => comment kind (blurText keepTexts text)
  | includeDirective directive => includeDirective (directive.blurred keepTexts)

/-- Statements in a row, each of them blurred. -/
def blurredAll (keepTexts : Bool) : List Stmt → List Stmt
  | [] => []
  | s :: rest => s.blurred keepTexts :: blurredAll keepTexts rest

end

theorem blurredAll_eq_map (keepTexts : Bool) (body : List Stmt) :
    blurredAll keepTexts body = body.map (blurred keepTexts) := by
  induction body with
  | nil => rfl
  | cons s body ih => rw [blurredAll, ih, List.map_cons]

end Stmt

/-- An error of the parser without its place, and without the text of its token if
texts are not kept.  Kinds and context stay. -/
def ParseError.blurred (keepTexts : Bool) : ParseError → ParseError
  | scan error => scan error
  | missingPrefix found => missingPrefix (found.blurred keepTexts)
  | missingInfix found => missingInfix (found.blurred keepTexts)
  | expected kind context found => expected kind context (found.blurred keepTexts)
  | invalidNumber literal => invalidNumber (literal.blurred keepTexts)
  | nestingTooDeep limit _ => nestingTooDeep limit .nowhere

/-- What a token stands for does not depend on its place. -/
theorem Expr.ofToken_relocated (kind : TokenKind) (text : String)
    (location location' : Location) :
    match ofToken ⟨kind, text, location⟩, ofToken ⟨kind, text, location'⟩ with
    | .ok e, .ok e' => e.blurred true = e'.blurred true
    | .error e, .error e' => e.blurred true = e'.blurred true
    | _, _ => False := by
  cases kind with
  | integer =>
      simp only [ofToken]
      cases Numeral.integer? text.toList <;> rfl
  | unsignedInteger =>
      simp only [ofToken]
      cases Numeral.unsigned? text.toList <;> rfl
  | floating =>
      simp only [ofToken]
      cases Numeral.floating? text.toList <;> rfl
  | _ => rfl

/-- Where numbers are in range, the kind of a token says whether it stands for an
expression and for which sort of expressions. -/
theorem Expr.ofToken_of_converts {kind : TokenKind} {text text' : String}
    (location location' : Location)
    (h : Token.converts ⟨kind, text, location⟩ = true)
    (h' : Token.converts ⟨kind, text', location'⟩ = true) :
    match ofToken ⟨kind, text, location⟩, ofToken ⟨kind, text', location'⟩ with
    | .ok e, .ok e' => e.blurred false = e'.blurred false
    | .error e, .error e' => e.blurred false = e'.blurred false
    | _, _ => False := by
  cases kind with
  | integer =>
      obtain ⟨n, hn⟩ := Option.isSome_iff_exists.1 h
      obtain ⟨n', hn'⟩ := Option.isSome_iff_exists.1 h'
      simp [ofToken, hn, hn', blurred]
  | unsignedInteger =>
      obtain ⟨n, hn⟩ := Option.isSome_iff_exists.1 h
      obtain ⟨n', hn'⟩ := Option.isSome_iff_exists.1 h'
      simp [ofToken, hn, hn', blurred]
  | floating =>
      obtain ⟨x, hx⟩ := Option.isSome_iff_exists.1 h
      obtain ⟨x', hx'⟩ := Option.isSome_iff_exists.1 h'
      simp [ofToken, hx, hx', blurred]
  | _ => rfl

/-- Lists have the same images when they have them in pairs. -/
theorem forall₂_iff_map_eq {α β : Type} {f : α → β} {xs ys : List α} :
    List.Forall₂ (fun x y => f x = f y) xs ys ↔ xs.map f = ys.map f := by
  rw [← List.forall₂_eq_eq_eq, List.forall₂_map_left_iff, List.forall₂_map_right_iff]

theorem Expr.map_blurred_of_rel {keepTexts : Bool} {value value' : Option Expr}
    (h : Option.Rel (fun e e' => e.blurred keepTexts = e'.blurred keepTexts) value value') :
    value.map (blurred keepTexts) = value'.map (blurred keepTexts) := by
  cases h with
  | none => rfl
  | some h => exact congrArg some h

namespace Likeness

/-- The likeness of what is of one shape.  Where texts are not kept, numbers have to be
in range, for else one of them may be an error and the other not. -/
def blurred (keepTexts : Bool) : Likeness where
  token t t' := t.blurred keepTexts = t'.blurred keepTexts ∧
    (keepTexts = false → t.converts = true ∧ t'.converts = true)
  text s s' := blurText keepTexts s = blurText keepTexts s'
  expr e e' := e.blurred keepTexts = e'.blurred keepTexts
  stmt s s' := s.blurred keepTexts = s'.blurred keepTexts
  error e e' := e.blurred keepTexts = e'.blurred keepTexts
  kind_eq h := (Token.blurred_eq_iff.1 h.1).1.symm
  text_of h := (Token.blurred_eq_iff.1 h.1).2
  ofToken := by
    rintro ⟨kind, text, location⟩ ⟨_, text', location'⟩ ⟨hblurred, hconverts⟩
    obtain ⟨rfl, htext⟩ := Token.blurred_eq_iff.1 hblurred
    cases keepTexts with
    | true =>
        obtain rfl : text = text' := htext
        exact Expr.ofToken_relocated kind text location location'
    | false =>
        obtain ⟨hvalue, hvalue'⟩ := hconverts rfl
        exact Expr.ofToken_of_converts location location' hvalue hvalue'
  binary := by
    intro _ _ _ _ _ _ hleft hoperator hright
    rw [Expr.blurred, hleft, hoperator.1, hright, Expr.blurred]
  block := by
    intro body body' hbody
    rw [Stmt.blurred, Stmt.blurred, Stmt.blurredAll_eq_map, Stmt.blurredAll_eq_map,
      forall₂_iff_map_eq.1 hbody]
  expression := by
    intro _ _ hvalue
    rw [Stmt.blurred, hvalue, Stmt.blurred]
  varDecl := by
    intro _ _ _ _ _ hname hinitial
    rw [Stmt.blurred, hname, Expr.map_blurred_of_rel hinitial, Stmt.blurred]
  function := by
    intro _ _ _ params params' _ _ hname hparams hbody
    have hparams' : params.map (Param.blurred keepTexts) =
        params'.map (.blurred keepTexts) := by
      apply forall₂_iff_map_eq.1
      apply hparams.imp
      rintro p p' ⟨hparam, htype⟩
      rw [Param.blurred, Param.blurred, hparam, htype]
    rw [Stmt.blurred, Stmt.blurred, Stmt.blurredAll_eq_map, Stmt.blurredAll_eq_map,
      hname, hparams', forall₂_iff_map_eq.1 hbody]
  returning := by
    intro _ _ hvalue
    rw [Stmt.blurred, Expr.map_blurred_of_rel hvalue, Stmt.blurred]
  comment := by
    intro _ _ _ htext
    rw [Stmt.blurred, htext, Stmt.blurred]
  includeDirective := by
    intro text₁ text₂ htext
    cases keepTexts with
    | false => rfl
    | true =>
        obtain rfl : text₁ = text₂ := htext
        rfl
  missingPrefix h := congrArg ParseError.missingPrefix h.1
  missingInfix h := congrArg ParseError.missingInfix h.1
  expected h := congrArg (ParseError.expected _ _) h.1
  nestingTooDeep _ := rfl

end Likeness

end MiniC
