/-
The standard registry: the grammar of the language.
-/
import MiniC.Registry.Basic

namespace MiniC.Registry

/-- The operators whose left operand takes in as much as it can, with their
powers. -/
def binaryOperators : List (TokenKind × Power) :=
  [(.comma, .comma), (.logicalAnd, .logical), (.logicalOr, .logical),
   (.equal, .relational), (.notEqual, .relational), (.less, .relational),
   (.lessEqual, .relational), (.greater, .relational),
   (.greaterEqual, .relational), (.plus, .additive), (.minus, .additive),
   (.star, .multiplicative), (.slash, .multiplicative),
   (.percent, .multiplicative)]

/-- The operators that assign. -/
def assignmentOperators : List TokenKind :=
  [.assign, .plusAssign, .minusAssign, .starAssign, .slashAssign,
   .percentAssign]

/-- The kinds that are expressions by themselves. -/
def primaryKinds : List TokenKind :=
  [.integer, .unsignedInteger, .floating, .character, .string, .identifier]

/-- The kinds that a declaration begins with.  A star may stand further on in a
declaration but does not begin one. -/
def declarationKinds : List TokenKind :=
  [.kwVoid, .kwChar, .kwShort, .kwInt, .kwLong, .kwFloat, .kwDouble, .kwSigned,
   .kwUnsigned, .kwConst]

/-- Everything that the standard registry knows. -/
def standardRegistrations : List Registration :=
  binaryOperators.map (fun entry => .infixForm entry.1 entry.2 .binary)
    ++ assignmentOperators.map (.infixForm · .assignment .assignment)
    ++ primaryKinds.map (.prefixForm · .primary)
    ++ [.prefixForm .leftParen .grouping,
        .statementForm .leftBrace .block,
        .statementForm .lineComment .comment,
        .statementForm .blockComment .comment,
        .statementForm .includeDirective .includeDirective,
        .statementForm .kwReturn .returning]
    ++ declarationKinds.map (.statementForm · .declaration)

/-- The grammar of the language. -/
def standard : Registry := empty.registerAll standardRegistrations

/-- No kind is registered twice, so the order of the registrations does not
matter. -/
example : (standardRegistrations.map Registration.kind).Nodup := by decide

end MiniC.Registry
