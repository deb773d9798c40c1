/-
The fixed spellings of the language: reserved words, punctuation and operators.
-/
import MiniC.Token.Kind

namespace MiniC.Vocabulary

/-- The reserved words and their kinds. -/
def keywords : List (String × TokenKind) :=
  [("void", .kwVoid), ("char", .kwChar), ("short", .kwShort), ("int", .kwInt),
   ("long", .kwLong), ("float", .kwFloat), ("double", .kwDouble),
   ("signed", .kwSigned), ("unsigned", .kwUnsigned), ("sizeof", .kwSizeof),
   ("typedef", .kwTypedef), ("struct", .kwStruct), ("enum", .kwEnum),
   ("union", .kwUnion), ("if", .kwIf), ("else", .kwElse), ("for", .kwFor),
   ("while", .kwWhile), ("do", .kwDo), ("switch", .kwSwitch), ("case", .kwCase),
   ("default", .kwDefault), ("break", .kwBreak), ("continue", .kwContinue),
   ("return", .kwReturn), ("goto", .kwGoto), ("extern", .kwExtern),
   ("static", .kwStatic), ("register", .kwRegister), ("auto", .kwAuto),
   ("const", .kwConst), ("volatile", .kwVolatile)]

/-- The kind of a reserved word.  Any other word is an ordinary identifier, and
a reserved word has to be written in lower case. -/
def keyword? (word : String) : Option TokenKind :=
  keywords.lookup word

/-- Punctuation marks, each a single character. -/
def punctuation : List (String × TokenKind) :=
  [("(", .leftParen), (")", .rightParen), ("\x7b", .leftBrace),
   ("\x7d", .rightBrace), ("[", .leftBracket), ("]", .rightBracket),
   (",", .comma), (";", .semicolon), (":", .colon), (".", .dot),
   ("?", .question), ("#", .pound)]

/-- Operators, longer spellings first: an operator comes before every other one
that it begins with, so the first that fits is the longest that fits. -/
def operators : List (String × TokenKind) :=
  [("<<=", .shiftLeftAssign), (">>=", .shiftRightAssign), ("==", .equal),
   ("!=", .notEqual), ("<=", .lessEqual), (">=", .greaterEqual),
   ("+=", .plusAssign), ("-=", .minusAssign), ("*=", .starAssign),
   ("/=", .slashAssign), ("%=", .percentAssign), ("&=", .ampersandAssign),
   ("|=", .pipeAssign), ("^=", .caretAssign), ("->", .arrow),
   ("++", .increment), ("--", .decrement), ("<<", .shiftLeft),
   (">>", .shiftRight), ("&&", .logicalAnd), ("||", .logicalOr), ("+", .plus),
   ("-", .minus), ("*", .star), ("/", .slash), ("%", .percent),
   ("&", .ampersand), ("|", .pipe), ("^", .caret), ("~", .tilde),
   ("!", .logicalNot), ("=", .assign), ("<", .less), (">", .greater)]

/-- All spellings that stand for themselves, in the order they are tried. -/
def fixed : List (String × TokenKind) :=
  punctuation ++ operators

/-- The first fixed spelling at the front of a text, with its kind. -/
def fixedAt? (text : List Char) : Option (String × TokenKind) :=
  fixed.find? fun entry => entry.1.toList.isPrefixOf text

example : keyword? "return" = some .kwReturn := by decide

example : keyword? "Return" = none := by decide

example : fixedAt? ['<', '<', '=', '='] = some ("<<=", .shiftLeftAssign) := by
  decide

end MiniC.Vocabulary
