/-
The closed list of token kinds, with the names that dumps and diagnostics use
for them.
-/

namespace MiniC

/-- What a token is.  A comment is a token only when comments are kept; `eof`
marks the end of a token list; the constructors that begin with `kw` are the
reserved words. -/
inductive TokenKind
  | eof
  | lineComment | blockComment
  | identifier
  | leftParen | rightParen | leftBrace | rightBrace | leftBracket
  | rightBracket | comma | semicolon | colon | dot | question | pound
  | integer | unsignedInteger | floating | character | string
  | includeDirective
  | plus | minus | star | slash | percent | ampersand | pipe | caret | tilde
  | increment | decrement
  | equal | notEqual | less | lessEqual | greater | greaterEqual
  | assign | plusAssign | minusAssign | starAssign | slashAssign
  | percentAssign | ampersandAssign | pipeAssign | caretAssign
  | shiftLeftAssign | shiftRightAssign | arrow
  | shiftLeft | shiftRight | logicalAnd | logicalOr | logicalNot
  | kwVoid | kwChar | kwShort | kwInt | kwLong | kwFloat | kwDouble | kwSigned
  | kwUnsigned
  | kwSizeof | kwTypedef | kwStruct | kwEnum | kwUnion
  | kwIf | kwElse | kwFor | kwWhile | kwDo | kwSwitch | kwCase | kwDefault
  | kwBreak | kwContinue | kwReturn | kwGoto
  | kwExtern | kwStatic | kwRegister | kwAuto | kwConst | kwVolatile
deriving DecidableEq, Repr

namespace TokenKind

/-- Every kind once, in the order of their declaration. -/
def all : List TokenKind :=
  [.eof, .lineComment, .blockComment, .identifier, .leftParen, .rightParen,
   .leftBrace, .rightBrace, .leftBracket, .rightBracket, .comma, .semicolon,
   .colon, .dot, .question, .pound, .integer, .unsignedInteger, .floating,
   .character, .string, .includeDirective, .plus, .minus, .star, .slash,
   .percent, .ampersand, .pipe, .caret, .tilde, .increment, .decrement, .equal,
   .notEqual, .less, .lessEqual, .greater, .greaterEqual, .assign, .plusAssign,
   .minusAssign, .starAssign, .slashAssign, .percentAssign, .ampersandAssign,
   .pipeAssign, .caretAssign, .shiftLeftAssign, .shiftRightAssign, .arrow,
   .shiftLeft, .shiftRight, .logicalAnd, .logicalOr, .logicalNot, .kwVoid,
   .kwChar, .kwShort, .kwInt, .kwLong, .kwFloat, .kwDouble, .kwSigned,
   .kwUnsigned, .kwSizeof, .kwTypedef, .kwStruct, .kwEnum, .kwUnion, .kwIf,
   .kwElse, .kwFor, .kwWhile, .kwDo, .kwSwitch, .kwCase, .kwDefault, .kwBreak,
   .kwContinue, .kwReturn, .kwGoto, .kwExtern, .kwStatic, .kwRegister, .kwAuto,
   .kwConst, .kwVolatile]

theorem mem_all (kind : TokenKind) : kind ∈ all := by
  cases kind <;> decide

/-- The name of a kind in diagnostics and token dumps. -/
def name : TokenKind → String
  | .eof => "EOF"
  | .lineComment => "SINGLE_LINE_COMMENT"
  | .blockComment => "MULTI_LINE_COMMENT"
  | .identifier => "IDENTIFIER"
  | .leftParen => "LPAREN"
  | .rightParen => "RPAREN"
  | .leftBrace => "LBRACE"
  | .rightBrace => "RBRACE"
  | .leftBracket => "LBRACKET"
  | .rightBracket => "RBRACKET"
  | .comma => "COMMA"
  | .semicolon => "SEMICOLON"
  | .colon => "COLON"
  | .dot => "DOT"
  | .question => "QUESTION"
  | .pound => "POUND"
  | .integer => "INTEGER"
  | .unsignedInteger => "UNSIGNED_INTEGER"
  | .floating => "FLOATING"
  | .character => "CHARACTER"
  | .string => "STRING"
  | .includeDirective => "INCLUDE_DIRECTIVE"
  | .plus => "PLUS"
  | .minus => "MINUS"
  | .star => "STAR"
  | .slash => "SLASH"
  | .percent => "PERCENT"
  | .ampersand => "AMPERSAND"
  | .pipe => "PIPE"
  | .caret => "CARET"
  | .tilde => "TILDE"
  | .increment => "INCREMENT"
  | .decrement => "DECREMENT"
  | .equal => "EQUAL"
  | .notEqual => "NOT_EQUAL"
  | .less => "LESS"
  | .lessEqual => "LESS_EQUAL"
  | .greater => "GREATER"
  | .greaterEqual => "GREATER_EQUAL"
  | .assign => "ASSIGN"
  | .plusAssign => "PLUS_ASSIGN"
  | .minusAssign => "MINUS_ASSIGN"
  | .starAssign => "STAR_ASSIGN"
  | .slashAssign => "SLASH_ASSIGN"
  | .percentAssign => "PERCENT_ASSIGN"
  | .ampersandAssign => "AMPERSAND_ASSIGN"
  | .pipeAssign => "PIPE_ASSIGN"
  | .caretAssign => "CARET_ASSIGN"
  | .shiftLeftAssign => "SHIFT_LEFT_ASSIGN"
  | .shiftRightAssign => "SHIFT_RIGHT_ASSIGN"
  | .arrow => "ARROW"
  | .shiftLeft => "SHIFT_LEFT"
  | .shiftRight => "SHIFT_RIGHT"
  | .logicalAnd => "LOGICAL_AND"
  | .logicalOr => "LOGICAL_OR"
  | .logicalNot => "LOGICAL_NOT"
  | .kwVoid => "VOID"
  | .kwChar => "CHAR"
  | .kwShort => "SHORT"
  | .kwInt => "INT"
  | .kwLong => "LONG"
  | .kwFloat => "FLOAT"
  | .kwDouble => "DOUBLE"
  | .kwSigned => "SIGNED"
  | .kwUnsigned => "UNSIGNED"
  | .kwSizeof => "SIZEOF"
  | .kwTypedef => "TYPEDEF"
  | .kwStruct => "STRUCT"
  | .kwEnum => "ENUM"
  | .kwUnion => "UNION"
  | .kwIf => "IF"
  | .kwElse => "ELSE"
  | .kwFor => "FOR"
  | .kwWhile => "WHILE"
  | .kwDo => "DO"
  | .kwSwitch => "SWITCH"
  | .kwCase => "CASE"
  | .kwDefault => "DEFAULT"
  | .kwBreak => "BREAK"
  | .kwContinue => "CONTINUE"
  | .kwReturn => "RETURN"
  | .kwGoto => "GOTO"
  | .kwExtern => "EXTERN"
  | .kwStatic => "STATIC"
  | .kwRegister => "REGISTER"
  | .kwAuto => "AUTO"
  | .kwConst => "CONST"
  | .kwVolatile => "VOLATILE"

/-- The name of a kind inside the outline of a tree. -/
def label : TokenKind → String
  | .eof => "Eof"
  | .lineComment => "SingleLineComment"
  | .blockComment => "MultiLineComment"
  | .identifier => "Identifier"
  | .leftParen => "LParen"
  | .rightParen => "RParen"
  | .leftBrace => "LBrace"
  | .rightBrace => "RBrace"
  | .leftBracket => "LBracket"
  | .rightBracket => "RBracket"
  | .comma => "Comma"
  | .semicolon => "Semicolon"
  | .colon => "Colon"
  | .dot => "Dot"
  | .question => "Question"
  | .pound => "Pound"
  | .integer => "Integer"
  | .unsignedInteger => "UnsignedInteger"
  | .floating => "Floating"
  | .character => "Character"
  | .string => "String"
  | .includeDirective => "IncludeDirective"
  | .plus => "Plus"
  | .minus => "Minus"
  | .star => "Star"
  | .slash => "Slash"
  | .percent => "Percent"
  | .ampersand => "Ampersand"
  | .pipe => "Pipe"
  | .caret => "Caret"
  | .tilde => "Tilde"
  | .increment => "Increment"
  | .decrement => "Decrement"
  | .equal => "Equal"
  | .notEqual => "NotEqual"
  | .less => "Less"
  | .lessEqual => "LessEqual"
  | .greater => "Greater"
  | .greaterEqual => "GreaterEqual"
  | .assign => "Assign"
  | .plusAssign => "PlusAssign"
  | .minusAssign => "MinusAssign"
  | .starAssign => "StarAssign"
  | .slashAssign => "SlashAssign"
  | .percentAssign => "PercentAssign"
  | .ampersandAssign => "AmpersandAssign"
  | .pipeAssign => "PipeAssign"
  | .caretAssign => "CaretAssign"
  | .shiftLeftAssign => "ShiftLeftAssign"
  | .shiftRightAssign => "ShiftRightAssign"
  | .arrow => "Arrow"
  | .shiftLeft => "ShiftLeft"
  | .shiftRight => "ShiftRight"
  | .logicalAnd => "LogicalAnd"
  | .logicalOr => "LogicalOr"
  | .logicalNot => "LogicalNot"
  | .kwVoid => "Void"
  | .kwChar => "Char"
  | .kwShort => "Short"
  | .kwInt => "Int"
  | .kwLong => "Long"
  | .kwFloat => "Float"
  | .kwDouble => "Double"
  | .kwSigned => "Signed"
  | .kwUnsigned => "Unsigned"
  | .kwSizeof => "Sizeof"
  | .kwTypedef => "Typedef"
  | .kwStruct => "Struct"
  | .kwEnum => "Enum"
  | .kwUnion => "Union"
  | .kwIf => "If"
  | .kwElse => "Else"
  | .kwFor => "For"
  | .kwWhile => "While"
  | .kwDo => "Do"
  | .kwSwitch => "Switch"
  | .kwCase => "Case"
  | .kwDefault => "Default"
  | .kwBreak => "Break"
  | .kwContinue => "Continue"
  | .kwReturn => "Return"
  | .kwGoto => "Goto"
  | .kwExtern => "Extern"
  | .kwStatic => "Static"
  | .kwRegister => "Register"
  | .kwAuto => "Auto"
  | .kwConst => "Const"
  | .kwVolatile => "Volatile"

instance : ToString TokenKind := ⟨name⟩

/-- The kinds whose tokens differ in their text, so that a dump has to show it.
A token of any other kind is spelled in one way only. -/
def carriesText : TokenKind → Bool
  | .integer | .unsignedInteger | .floating | .character | .string
  | .identifier | .includeDirective | .lineComment | .blockComment => true
  | _ => false

end TokenKind

end MiniC
