/-
Outlines: labelled trees written over several lines, one element a line and
indented by depth.
-/

namespace MiniC

/-- What an outline is made of: a word written as it is, a name with unnamed
parts, a name with named parts, or a list. -/
inductive Outline
  | leaf (word : String)
  | tuple (name : String) (parts : List Outline)
  | record (name : String) (parts : List (String × Outline))
  | list (parts : List Outline)

namespace Outline

/-- Four blanks for every level, after the text written so far. -/
def indent (written : String) : (depth : Nat) → String
  | 0 => written
  | depth + 1 => indent (written ++ "    ") depth

mutual

/-- Write an outline after the text written so far, whose last line is already
indented to `depth`.  Parts stand one level deeper, each on a line of its own
that ends with a comma; a list without parts closes where it opens. -/
def writeAfter (written : String) (depth : Nat) : Outline → String
  | leaf word => written ++ word
  | tuple name parts =>
      indent (writeParts (written ++ name ++ "(\n") (depth + 1) parts) depth
        ++ ")"
  | record name parts =>
      indent (writeFields (written ++ name ++ " \x7b\n") (depth + 1) parts) depth
        ++ "\x7d"
  | list [] => written ++ "[]"
  | list parts =>
      indent (writeParts (written ++ "[\n") (depth + 1) parts) depth ++ "]"

/-- Write unnamed parts, one a line. -/
def writeParts (written : String) (depth : Nat) : List Outline → String
  | [] => written
  | part :: parts =>
      writeParts (writeAfter (indent written depth) depth part ++ ",\n") depth
        parts

/-- Write named parts, one a line. -/
def writeFields (written : String) (depth : Nat) :
    List (String × Outline) → String
  | [] => written
  | (name, part) :: parts =>
      let labelled := indent written depth ++ name ++ ": "
      writeFields (writeAfter labelled depth part ++ ",\n") depth parts

end

/-- The text of an outline. -/
def render (outline : Outline) : String := writeAfter "" 0 outline

instance : ToString Outline := ⟨render⟩

end Outline

end MiniC
