/-
Places in a source text: the line and column a person would point at, and the
byte offset of the same place in the text's UTF-8 encoding.
-/

namespace MiniC

/-- A line and a column, both counted from one; columns count characters. -/
structure Location where
  line : Nat
  column : Nat
deriving DecidableEq, Repr

namespace Location

/-- The place of the first character of a text. -/
def start : Location := ⟨1, 1⟩

/-- No place at all, the location of what ends an empty list of tokens. -/
def nowhere : Location := ⟨0, 0⟩

/-- The place just after `c`.  Only a line feed ends a line, so a carriage
return and a tab are one column wide like any other character. -/
def next (here : Location) (c : Char) : Location :=
  if c = '\n' then ⟨here.line + 1, 1⟩ else ⟨here.line, here.column + 1⟩

instance : ToString Location :=
  ⟨fun here => s!"line {here.line}, column {here.column}"⟩

end Location

/-- A location together with its byte offset from the start of the text. -/
structure Position where
  location : Location
  offset : Nat
deriving DecidableEq, Repr

namespace Position

/-- Where every text begins. -/
def start : Position := ⟨.start, 0⟩

/-- The position just after `c`, which takes as many bytes as its encoding. -/
def next (here : Position) (c : Char) : Position :=
  ⟨here.location.next c, here.offset + c.utf8Size⟩

/-- The position after a run of characters. -/
def after (here : Position) (text : List Char) : Position :=
  text.foldl next here

@[simp] theorem after_nil (here : Position) : here.after [] = here := rfl

@[simp] theorem after_cons (here : Position) (c : Char) (text : List Char) :
    here.after (c :: text) = (here.next c).after text := rfl

/-- Positions compose: walking over two runs is walking over their join. -/
theorem after_append (here : Position) (first second : List Char) :
    here.after (first ++ second) = (here.after first).after second :=
  List.foldl_append

end Position

example : Position.start.after ['a', 'é', '\n', '\r'] = ⟨⟨2, 2⟩, 5⟩ := by decide

end MiniC
