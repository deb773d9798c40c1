/-
Quoted text: how the outline of a tree writes a string.
-/
import MiniC.Text.Unprintable

namespace MiniC.Quoted

/-- A code point in lower-case hexadecimal, with no zeros in front. -/
def hexadecimal (n : Nat) : String :=
  String.ofList (Nat.toDigits 16 n)

/-- One character inside quotes.  The double quote, the backslash and four
control characters have short escapes, other characters without a glyph of their
own are written by number, and all else, the apostrophe included, stands for
itself. -/
def encodeChar (c : Char) : String :=
  match c with
  | '"' => "\\\""
  | '\\' => "\\\\"
  | '\n' => "\\n"
  | '\r' => "\\r"
  | '\t' => "\\t"
  | '\x00' => "\\0"
  | _ =>
      if Unprintable.contains c then
        "\\u\x7b" ++ hexadecimal c.toNat ++ "\x7d"
      else c.toString

/-- A text between double quotes. -/
def encode (text : String) : String :=
  "\"" ++ String.join (text.toList.map encodeChar) ++ "\""

end MiniC.Quoted
