/-
How a double is written in the outline of a tree.
-/
import MiniC.Numeral.Shortest

namespace MiniC.Binary64

/-- The choices of the format.  A number is written out in place when its point
stands no further than these many places from its first digit; otherwise with an
exponent. -/
structure Layout where
  leastPlaces : Int
  mostPlaces : Int

/-- Numbers from a ten-thousandth up to, but without, ten to the sixteenth are
written in place. -/
def outlineLayout : Layout := ⟨-3, 16⟩

/-- Zeros. -/
def zeros (count : Nat) : List Char :=
  List.replicate count '0'

/-- Write out digits with the point after the first `places` of them, filling up
with zeros; there is at least one digit on either side of the point. -/
def inPlace (digits : List Char) (places : Int) : List Char :=
  if places ≤ 0 then '0' :: '.' :: (zeros (-places).toNat ++ digits)
  else
    let whole := digits.take places.toNat
    let fraction := digits.drop places.toNat
    whole ++ zeros (places.toNat - digits.length) ++ '.' ::
      (if fraction.isEmpty then ['0'] else fraction)

/-- Write digits with the point after the first of them and a power of ten.  A
single digit has no point. -/
def withExponent (digits : List Char) (places : Int) : List Char :=
  let mantissa := match digits with
    | first :: second :: more => first :: '.' :: second :: more
    | few => few
  mantissa ++ 'e' :: (toString (places - 1)).toList

/-- A finite magnitude by the digits that tell it from every other. -/
def writeFinite (layout : Layout) (x : Binary64) : List Char :=
  if x.magnitude = 0 then ['0', '.', '0']
  else
    let (number, exponent) := Shortest.digits x
    let all := Nat.toDigits 10 number
    let places := exponent + all.length
    let digits := dropRight (· == '0') all
    if layout.leastPlaces ≤ places ∧ places ≤ layout.mostPlaces then
      inPlace digits places
    else withExponent digits places

/-- The text of a double.  What is no number has no sign. -/
def write (layout : Layout) (x : Binary64) : String :=
  if x.isNaN then "NaN"
  else
    let magnitude :=
      if x.isFinite then writeFinite layout x else ['i', 'n', 'f']
    String.ofList (if x.negative then '-' :: magnitude else magnitude)


end MiniC.Binary64
