/-
Whole numbers as they are written: an optional base mark, an optional sign and
digits, within the range of a 64-bit word.
-/
import MiniC.Text.Blank

namespace MiniC.Numeral

/-- The value of a digit in bases up to sixteen, letters in either case. -/
def digitValue? (c : Char) : Option Nat :=
  if '0' ≤ c ∧ c ≤ '9' then some (c.toNat - '0'.toNat)
  else if 'a' ≤ c ∧ c ≤ 'f' then some (c.toNat - 'a'.toNat + 10)
  else if 'A' ≤ c ∧ c ≤ 'F' then some (c.toNat - 'A'.toNat + 10)
  else none

/-- Go on reading digits of the given base after ones that denote `value`. -/
def readOn (base : Nat) (value : Nat) : List Char → Option Nat
  | [] => some value
  | c :: digits =>
      match digitValue? c with
      | some d =>
          if d < base then readOn base (value * base + d) digits else none
      | none => none

/-- The number that digits of a base denote, the leading one first.  There has
to be at least one, and nothing else. -/
def natural? (base : Nat) : List Char → Option Nat
  | [] => none
  | digits => readOn base 0 digits

/-- Split off the mark of base sixteen.  Without one the base is ten. -/
def splitBase : List Char → Nat × List Char
  | '0' :: 'x' :: digits => (16, digits)
  | '0' :: 'X' :: digits => (16, digits)
  | digits => (10, digits)

/-- A sign and digits.  The sign stands after the base mark. -/
def signed? (base : Nat) : List Char → Option Int
  | '+' :: digits => (natural? base digits).map Int.ofNat
  | '-' :: digits => (natural? base digits).map fun n => -Int.ofNat n
  | digits => (natural? base digits).map Int.ofNat

/-- The value of an integer literal, if a signed 64-bit word can hold it. -/
def integer? (text : List Char) : Option Int :=
  let (base, digits) := splitBase text
  (signed? base digits).filter fun n =>
    -(Nat.pow 2 63 : Int) ≤ n ∧ n < Nat.pow 2 63

/-- The value of an unsigned literal, if an unsigned 64-bit word can hold it.
Any number of closing `u` is passed over, and only a plus is taken as a sign. -/
def unsigned? (text : List Char) : Option Nat :=
  let (base, digits) := splitBase (dropRight (fun c => c == 'u' || c == 'U') text)
  let value := match digits with
    | '+' :: unsignedDigits => natural? base unsignedDigits
    | _ => natural? base digits
  value.filter (· < Nat.pow 2 64)

example : integer? "0x1F".toList = some 31 := by decide

example : integer? "9223372036854775808".toList = none := by decide +kernel

example : unsigned? "0xFFu".toList = some 255 := by decide

example : unsigned? "u".toList = none := by decide

end MiniC.Numeral
