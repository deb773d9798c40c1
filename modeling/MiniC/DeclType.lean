/-
Declared types, and how a run of specifiers makes one.
-/
import MiniC.Token.Kind

namespace MiniC

/-- The types that a type keyword names. -/
inductive BaseType
  | void | int | float | double | char | short | long
deriving DecidableEq, Repr

namespace BaseType

/-- Every base type once. -/
def all : List BaseType :=
  [void, int, float, double, char, short, long]

/-- The base type that a keyword names. -/
def ofKind? : TokenKind → Option BaseType
  | .kwVoid => some void
  | .kwInt => some int
  | .kwFloat => some float
  | .kwDouble => some double
  | .kwChar => some char
  | .kwShort => some short
  | .kwLong => some long
  | _ => none

/-- The name of the type inside the outline of a tree. -/
def label : BaseType → String
  | void => "Void"
  | int => "Int"
  | float => "Float"
  | double => "Double"
  | char => "Char"
  | short => "Short"
  | long => "Long"

end BaseType

/-- The type of a declared name.  A type is signed unless something says
otherwise, and `pointerLevel` counts the stars. -/
structure DeclType where
  base : BaseType
  isConst : Bool
  isSigned : Bool
  pointerLevel : Nat
deriving DecidableEq, Repr

namespace DeclType

/-- A base type by itself. -/
def ofBase (base : BaseType) : DeclType :=
  ⟨base, false, true, 0⟩

/-- What is declared where nothing is specified. -/
def standard : DeclType := ofBase .int

/-- The constant variant of a type. -/
def const (type : DeclType) : DeclType := { type with isConst := true }

/-- The signed variant of a type. -/
def signed (type : DeclType) : DeclType := { type with isSigned := true }

/-- The unsigned variant of a type. -/
def unsigned (type : DeclType) : DeclType := { type with isSigned := false }

/-- A pointer to a type. -/
def pointer (type : DeclType) : DeclType :=
  { type with pointerLevel := type.pointerLevel + 1 }

/-- Whether a token of this kind may stand before a declared name. -/
def isSpecifier (kind : TokenKind) : Bool :=
  kind = .kwConst || kind = .kwSigned || kind = .kwUnsigned || kind = .star
    || (BaseType.ofKind? kind).isSome

/-- What one specifier adds to a type.  A base type replaces the one before it,
and so does a signedness. -/
def specify (type : DeclType) (kind : TokenKind) : DeclType :=
  match kind with
  | .kwConst => type.const
  | .kwSigned => type.signed
  | .kwUnsigned => type.unsigned
  | .star => type.pointer
  | kind =>
      match BaseType.ofKind? kind with
      | some base => { type with base }
      | none => type

/-- The type that a run of specifiers describes, in whatever order they come. -/
def ofSpecifiers (kinds : List TokenKind) : DeclType :=
  kinds.foldl specify standard

example : ofSpecifiers [.kwChar, .kwConst, .star, .kwUnsigned, .star] =
    ⟨.char, true, false, 2⟩ := by decide

example : ofSpecifiers [.kwShort, .kwInt] = standard := by decide

end DeclType

end MiniC
