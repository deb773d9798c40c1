/-
Extents: how far a form reaches at the front of a text.  Small extents combine
into the forms of whole lexemes.  Every extent takes as much as it can and never
gives back, which is enough for forms whose pieces begin with different
characters.
-/

namespace MiniC

/-- `some n` when the first `n` characters of the text are of the form, `none`
when the text does not begin with the form. -/
abbrev Extent := List Char → Option Nat

namespace Extent

/-- One character in `p`. -/
def one (p : Char → Bool) : Extent
  | c :: _ => if p c then some 1 else none
  | [] => none

/-- All leading characters in `p`, perhaps none. -/
def run (p : Char → Bool) : Extent :=
  fun text => some (text.takeWhile p).length

/-- The given characters. -/
def exactly (word : List Char) : Extent :=
  fun text => if word.isPrefixOf text then some word.length else none

/-- One form directly followed by another. -/
def followedBy (first second : Extent) : Extent := fun text => do
  let n ← first text
  let m ← second (text.drop n)
  return n + m

/-- The first form where it fits, otherwise the second. -/
def orElse (first second : Extent) : Extent :=
  fun text => first text <|> second text

/-- The form, or nothing at all. -/
def optional (form : Extent) : Extent :=
  fun text => some ((form text).getD 0)

/-- At least one character in `p`, and all that follow it. -/
def someOf (p : Char → Bool) : Extent :=
  (one p).followedBy (run p)

theorem one_cons (p : Char → Bool) (c : Char) (text : List Char) :
    one p (c :: text) = if p c then some 1 else none := rfl

theorem followedBy_eq_some {first second : Extent} {text : List Char} {k : Nat} :
    first.followedBy second text = some k ↔
      ∃ n m, first text = some n ∧ second (text.drop n) = some m ∧
        n + m = k := by
  simp [followedBy, Option.bind_eq_some_iff]

end Extent

end MiniC
