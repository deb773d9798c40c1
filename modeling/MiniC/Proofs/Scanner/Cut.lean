/-
Cuts: how the tokens of a source text lie in it, and what may stand between
them.
-/
import MiniC.Text.Blank
import MiniC.Token.Basic

namespace MiniC

namespace Location

/-- The place behind a text: the lines are counted by the line feeds, the columns
by the characters of the last line. -/
def behind (text : List Char) : Location :=
  ⟨1 + text.count '\n', 1 + (text.reverse.takeWhile (· ≠ '\n')).length⟩

/-- The place behind a text that grows by a character is the next place. -/
theorem behind_snoc (text : List Char) (c : Char) :
    behind (text ++ [c]) = (behind text).next c := by
  by_cases hc : c = '\n'
  · simp [behind, next, hc, Nat.add_assoc]
  · simp [behind, next, hc, Nat.add_comm]

end Location

/-- Walking over a text leads to the place behind it. -/
theorem Position.after_location {here : Position} {before : List Char}
    (h : here.location = .behind before) (text : List Char) :
    (here.after text).location = .behind (before ++ text) := by
  induction text generalizing here before with
  | nil => simpa using h
  | cons c text ih =>
      have hnext : (here.next c).location = .behind (before ++ [c]) := by
        rw [Location.behind_snoc, ← h]
        rfl
      have hafter := ih hnext
      rwa [List.append_assoc] at hafter

/-- The characters that a token was written with.  A string keeps only what
stands between its quotes. -/
def Token.lexeme (token : Token) : List Char :=
  if token.kind = .string then '"' :: (token.text.toList ++ ['"'])
  else token.text.toList

/-- What may stand before `rest` without being a token: blanks, and complete
comments where comments are not kept.  A line comment goes up to a line feed or
to the end of the text, a block comment to the first `*/`. -/
inductive Gap (keepComments : Bool) : (gap rest : List Char) → Prop
  | nil {rest : List Char} : Gap keepComments [] rest
  | blank {c : Char} {gap rest : List Char} :
      isBlank c → Gap keepComments gap rest → Gap keepComments (c :: gap) rest
  | lineComment {body gap rest : List Char} :
      keepComments = false → '\n' ∉ body →
      (∀ c ∈ (gap ++ rest).head?, c = '\n') → Gap keepComments gap rest →
      Gap keepComments ('/' :: '/' :: (body ++ gap)) rest
  | blockComment {body gap rest : List Char} :
      keepComments = false → ¬ ['*', '/'] <:+: body ++ ['*'] →
      Gap keepComments gap rest →
      Gap keepComments ('/' :: '*' :: (body ++ '*' :: '/' :: gap)) rest

/-- The text behind `before` is cut into the tokens: each of them stands behind
a gap, at the place that its location says, and takes up one character at least;
a gap closes the text. -/
inductive Cut (keepComments : Bool) :
    (before : List Char) → List Token → (text : List Char) → Prop
  | done {before gap : List Char} :
      Gap keepComments gap [] → Cut keepComments before [] gap
  | token {before gap rest : List Char} {token : Token} {tokens : List Token} :
      Gap keepComments gap (token.lexeme ++ rest) →
      token.location = .behind (before ++ gap) → token.lexeme ≠ [] →
      Cut keepComments (before ++ gap ++ token.lexeme) tokens rest →
      Cut keepComments before (token :: tokens) (gap ++ (token.lexeme ++ rest))

variable {keepComments : Bool}

/-- Two gaps in a row are a gap. -/
theorem Gap.append {first second rest text : List Char}
    (hfirst : Gap keepComments first text) (htext : text = second ++ rest)
    (hsecond : Gap keepComments second rest) :
    Gap keepComments (first ++ second) rest := by
  induction hfirst with
  | nil => exact hsecond
  | blank hc _ ih => exact .blank hc (ih htext)
  | @lineComment body gap text hkeep hbody hhead _ ih =>
      rw [htext, ← List.append_assoc] at hhead
      have hgap := Gap.lineComment hkeep hbody hhead (ih htext)
      simpa using hgap
  | @blockComment body gap text hkeep hbody _ ih =>
      have hgap := Gap.blockComment hkeep hbody (ih htext)
      simpa using hgap

/-- A gap before a text that is cut belongs to its first gap. -/
theorem Cut.prepend {before first text : List Char} {tokens : List Token}
    (hfirst : Gap keepComments first text)
    (h : Cut keepComments (before ++ first) tokens text) :
    Cut keepComments before tokens (first ++ text) := by
  cases h with
  | done hgap =>
      exact .done (hfirst.append (List.append_nil _).symm hgap)
  | @token _ gap rest token tokens hgap hlocation hne hrest =>
      rw [← List.append_assoc]
      refine .token (hfirst.append rfl hgap) ?_ hne ?_
      · rw [hlocation, List.append_assoc]
      · rwa [List.append_assoc before first gap] at hrest

/-- A token may stand directly before a text that is cut. -/
theorem Cut.cons {before lexeme rest : List Char} {token : Token}
    {tokens : List Token} (hlexeme : token.lexeme = lexeme)
    (hlocation : token.location = .behind before) (hne : lexeme ≠ [])
    (hcut : Cut keepComments (before ++ lexeme) tokens rest) :
    Cut keepComments before (token :: tokens) (lexeme ++ rest) := by
  subst hlexeme
  have hplace : token.location = .behind (before ++ []) := by
    rwa [List.append_nil]
  have hrest : Cut keepComments (before ++ [] ++ token.lexeme) tokens rest := by
    rwa [List.append_nil]
  exact .token .nil hplace hne hrest

end MiniC
