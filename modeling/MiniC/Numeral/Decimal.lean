/-
Decimal numbers as they are written, and the doubles they denote.
-/
import MiniC.Numeral.Binary64
import MiniC.Numeral.Whole

namespace MiniC

/-- A number of finitely many decimal places: `digits` times ten to the power
`exponent`, with a sign. -/
structure Decimal where
  negative : Bool
  digits : Nat
  exponent : Int
deriving DecidableEq, Repr

namespace Decimal

/-- How many decimal digits a number has; zero has none. -/
def digitCount (n : Nat) : Nat :=
  if n = 0 then 0 else (Nat.toDigits 10 n).length

/-- The double nearest to a decimal number.  A number of 310 or more places
before the point is beyond the largest double, and one that begins more than 330
places after it is nearer to zero than to the least; neither needs its power of
ten. -/
def toBinary64 (x : Decimal) : Binary64 :=
  let places := x.exponent + digitCount x.digits
  if x.digits = 0 ∨ places < -330 then .zero x.negative
  else if 310 ≤ places then .infinity x.negative
  else if x.exponent < 0 then
    ⟨x.negative,
      Binary64.nearestMagnitude x.digits (Nat.pow 10 (-x.exponent).toNat)⟩
  else
    ⟨x.negative,
      Binary64.nearestMagnitude (x.digits * Nat.pow 10 x.exponent.toNat) 1⟩

/-- The number that digits denote; no digits denote zero. -/
def valueOf (digits : List Char) : Nat :=
  (Numeral.natural? 10 digits).getD 0

/-- The number that the digits of an exponent denote.  From `2 ^ 16` on further
digits are passed over: the exponent is then far out of range already. -/
def exponentValue (digits : List Char) : Nat :=
  digits.foldl
    (fun value c =>
      if value < Nat.pow 2 16 then value * 10 + (c.toNat - '0'.toNat) else value)
    0

/-- Split off a sign. -/
def splitSign : List Char → Bool × List Char
  | '-' :: text => (true, text)
  | '+' :: text => (false, text)
  | text => (false, text)

/-- The exponent at the end of a decimal number, zero where there is none. -/
def exponent? : List Char → Option Int
  | [] => some 0
  | c :: text =>
      if c = 'e' ∨ c = 'E' then
        let (negative, digits) := splitSign text
        if digits.isEmpty ∨ !digits.all Char.isDigit then none
        else if negative then some (-(exponentValue digits : Int))
        else some (exponentValue digits)
      else none

/-- A decimal number without its sign: digits, which may stand on either side of
a point and have to stand on one, and perhaps an exponent. -/
def unsigned? (negative : Bool) (text : List Char) : Option Decimal := do
  let whole := text.takeWhile Char.isDigit
  let rest := text.dropWhile Char.isDigit
  let (fraction, rest) :=
    match rest with
    | '.' :: rest => (rest.takeWhile Char.isDigit, rest.dropWhile Char.isDigit)
    | _ => ([], rest)
  if whole.isEmpty && fraction.isEmpty then none
  else
    let exponent ← exponent? rest
    return ⟨negative, valueOf (whole ++ fraction), exponent - fraction.length⟩

/-- The words for what has no digits, in any case. -/
def named? (negative : Bool) (text : List Char) : Option Binary64 :=
  let word := text.map Char.toLower
  if word = "inf".toList ∨ word = "infinity".toList then
    some (.infinity negative)
  else if word = "nan".toList then some .nan
  else none

end Decimal

namespace Numeral

/-- The value of a floating literal.  Any number of closing `f` is passed over.
No number is too large or too small: it becomes infinite or zero. -/
def floating? (text : List Char) : Option Binary64 :=
  let (negative, text) :=
    Decimal.splitSign (dropRight (fun c => c == 'f' || c == 'F') text)
  match Decimal.unsigned? negative text with
  | some decimal => some decimal.toBinary64
  | none => Decimal.named? negative text

example : floating? "2.5e-3f".toList = some ⟨false, 0x3F647AE147AE147B⟩ := by
  decide +kernel

example : floating? "1e999999999".toList = some (.infinity false) := by
  decide +kernel

example : floating? "inf".toList = none := by decide +kernel

end Numeral

end MiniC
