/-
Double-precision numbers, as exact data: a sign and the bit pattern of the
magnitude.  Read as a number, that pattern grows with the value, so rounding to
the nearest double is a computation on natural numbers.
-/

namespace MiniC

/-- A double.  `magnitude` is the exponent field above the 52 bits of the
fraction; patterns from `infinite` on are the infinity and what is no number. -/
structure Binary64 where
  negative : Bool
  magnitude : Nat
deriving DecidableEq, Repr

namespace Binary64

/-- The magnitude of infinity: all exponent bits set, no fraction. -/
def infinite : Nat := 2047 * Nat.pow 2 52

/-- Zero of either sign. -/
def zero (negative : Bool) : Binary64 := ⟨negative, 0⟩

/-- Infinity of either sign. -/
def infinity (negative : Bool) : Binary64 := ⟨negative, infinite⟩

/-- The datum that is no number. -/
def nan : Binary64 := ⟨false, infinite + Nat.pow 2 51⟩

/-- Whether the datum is no number. -/
def isNaN (x : Binary64) : Bool :=
  infinite < x.magnitude

/-- Whether the datum is a number other than the infinities. -/
def isFinite (x : Binary64) : Bool :=
  x.magnitude < infinite

/-- All 64 bits as one number, the sign on top. -/
def bits (x : Binary64) : Nat :=
  (if x.negative then Nat.pow 2 63 else 0) + x.magnitude

/-- A finite magnitude is a significand times a power of two.  Below `2 ^ 52`
the pattern is the significand itself. -/
def significand (x : Binary64) : Nat :=
  if x.magnitude < Nat.pow 2 52 then x.magnitude
  else Nat.pow 2 52 + x.magnitude % Nat.pow 2 52

/-- The power of two that belongs to the significand. -/
def exponent (x : Binary64) : Int :=
  if x.magnitude < Nat.pow 2 52 then -1074
  else (x.magnitude / Nat.pow 2 52 : Nat) - 1075

/-- Equality of numbers: what is no number differs from everything, itself
included, and the two zeros are equal. -/
def same (x y : Binary64) : Bool :=
  !x.isNaN && !y.isNaN && (x == y || (x.magnitude == 0 && y.magnitude == 0))

/-- A number that is one equals itself. -/
theorem same_self {x : Binary64} (h : x.isNaN = false) : x.same x = true := by
  simp [same, h]

/-- The whole number nearest to a quotient, an even one where two are equally
near. -/
def roundQuotient (numerator denominator : Nat) : Nat :=
  let quotient := numerator / denominator
  let twice := 2 * (numerator % denominator)
  if twice > denominator ∨ (twice = denominator ∧ quotient % 2 = 1) then
    quotient + 1
  else quotient

/-- Numerator and denominator of a quotient divided by a power of two. -/
def scale (numerator denominator : Nat) (exponent : Int) : Nat × Nat :=
  if exponent < 0 then (numerator * Nat.pow 2 (-exponent).toNat, denominator)
  else (numerator, denominator * Nat.pow 2 exponent.toNat)

/-- The magnitude nearest to a positive quotient.  The exponent is the one that
makes the significand 53 bits long, or the least one there is; then the rounded
significand, added to the exponent field that counts from the least exponent, is
the pattern, also where rounding carries into the next exponent and where the
significand is too short to have its leading bit left out. -/
def nearestMagnitude (numerator denominator : Nat) : Nat :=
  let guess : Int := (numerator.log2 : Int) - denominator.log2 - 53
  let (n, d) := scale numerator denominator guess
  let fitting := if Nat.pow 2 53 * d ≤ n then guess + 1 else guess
  let exponent := max fitting (-1074)
  let (n, d) := scale numerator denominator exponent
  min ((exponent + 1074).toNat * Nat.pow 2 52 + roundQuotient n d) infinite

example : nearestMagnitude 1 1 = 0x3FF0000000000000 := by decide +kernel

example : nearestMagnitude 1 10 = 0x3FB999999999999A := by decide +kernel

end Binary64

end MiniC
