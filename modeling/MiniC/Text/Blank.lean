/-
Blank characters: the ones that only separate what stands around them.
-/

namespace MiniC

/-- The characters with the Unicode property White_Space. -/
def isBlank (c : Char) : Bool :=
  let n := c.toNat
  (0x09 ≤ n && n ≤ 0x0D) || n == 0x20 || n == 0x85 || n == 0xA0 || n == 0x1680
    || (0x2000 ≤ n && n ≤ 0x200A) || n == 0x2028 || n == 0x2029 || n == 0x202F
    || n == 0x205F || n == 0x3000

/-- Remove the characters in `p` from the end of a text. -/
def dropRight (p : Char → Bool) (text : List Char) : List Char :=
  (text.reverse.dropWhile p).reverse

theorem dropRight_append_self {p : Char → Bool} {front : List Char} {c : Char}
    (h : p c = true) : dropRight p (front ++ [c]) = dropRight p front := by
  simp [dropRight, h]

theorem dropRight_append_other {p : Char → Bool} {front : List Char} {c : Char}
    (h : p c = false) : dropRight p (front ++ [c]) = front ++ [c] := by
  simp [dropRight, h]

/-- Remove blank characters from both ends of a text. -/
def trimBlanks (text : List Char) : List Char :=
  dropRight isBlank (text.dropWhile isBlank)

example : trimBlanks ['\t', ' ', 'a', ' ', 'b', '\u00a0', '\n'] =
    ['a', ' ', 'b'] := by
  decide

end MiniC
