/-
Lexical categories: the forms that lexemes take, in the order in which a scanner
tries them.
-/
import MiniC.Lexeme.Extent
import MiniC.Text.Blank
import MiniC.Token.Vocabulary

namespace MiniC

/-- What a lexeme can be. -/
inductive Category
  | blank
  | lineComment | blockComment
  | floating | unsignedInteger | integer
  | string | character | includeDirective
  | word
  | fixed
deriving DecidableEq, Repr

namespace Category

open Extent

/-- Every category, in the order of trial: of two categories that fit, the
earlier one is meant. -/
def all : List Category :=
  [.blank, .lineComment, .blockComment, .floating, .unsignedInteger, .integer,
   .string, .character, .includeDirective, .word, .fixed]

/-- The digits of numbers written in base sixteen. -/
def isHexDigit (c : Char) : Bool :=
  c.isDigit || ('a' ≤ c && c ≤ 'f') || ('A' ≤ c && c ≤ 'F')

/-- The digits of numbers written in base eight. -/
def isOctalDigit (c : Char) : Bool :=
  '0' ≤ c && c ≤ '7'

/-- Letters without accents, and the underscore. -/
def startsWord (c : Char) : Bool :=
  c.isAlpha || c == '_'

/-- What a word goes on with. -/
def continuesWord (c : Char) : Bool :=
  c.isAlphanum || c == '_'

/-- Any character of the same line. -/
def staysOnLine (c : Char) : Bool :=
  c != '\n'

/-- Decimal digits, at least one. -/
def digits : Extent :=
  someOf Char.isDigit

/-- `0x` or `0X` and at least one digit. -/
def hexadecimal : Extent :=
  (one (· == '0')).followedBy <|
    (one fun c => c == 'x' || c == 'X').followedBy (someOf isHexDigit)

/-- `e` or `E`, an optional sign, and digits. -/
def exponent : Extent :=
  (one fun c => c == 'e' || c == 'E').followedBy <|
    (one fun c => c == '+' || c == '-').optional.followedBy digits

/-- Digits on both sides of a point and perhaps an exponent, or digits with an
exponent alone; a letter `f` may close either. -/
def floatingForm : Extent :=
  (orElse
    (digits.followedBy <| (one (· == '.')).followedBy <|
      digits.followedBy exponent.optional)
    (digits.followedBy exponent)).followedBy
    (one fun c => c == 'f' || c == 'F').optional

/-- A number without a point, in base sixteen or ten. -/
def wholeForm : Extent :=
  hexadecimal.orElse digits

/-- Up to and including the first `*/`; `n` characters have been passed. -/
def throughCommentEnd (n : Nat) : Extent
  | '*' :: '/' :: _ => some (n + 2)
  | _ :: text => throughCommentEnd (n + 1) text
  | [] => none

/-- Up to and including the first double quote that no backslash escapes, as
long as it stands on the same line; `n` characters have been passed, and
`escaped` says whether the last of them was such a backslash. -/
def throughQuote (escaped : Bool) (n : Nat) : Extent
  | [] => none
  | c :: text =>
      if c = '\n' then none
      else if escaped then throughQuote false (n + 1) text
      else if c = '"' then some (n + 1)
      else throughQuote (c == '\\') (n + 1) text

/-- What may follow the backslash of a character literal: `x` and digits, up to
three octal digits, or any one character. -/
def escapeForm : Extent :=
  (one (· == '\\')).followedBy <|
    orElse ((one (· == 'x')).followedBy (someOf isHexDigit)) <|
    orElse
      ((one isOctalDigit).followedBy <|
        (one isOctalDigit).optional.followedBy (one isOctalDigit).optional)
      (one staysOnLine)

/-- A single character or escape between apostrophes. -/
def characterForm : Extent :=
  (one (· == '\'')).followedBy <|
    (escapeForm.orElse
      (one fun c => c != '\\' && c != '\'' && c != '\n')).followedBy
    (one (· == '\''))

/-- A header name between `opening` and `closing`, on one line. -/
def headerForm (opening closing : Char) : Extent :=
  (one (· == opening)).followedBy <|
    (run fun c => c != closing && c != '\n').followedBy (one (· == closing))

/-- How far a lexeme of the category reaches. -/
def extent : Category → Extent
  | blank => someOf isBlank
  | lineComment => (exactly ['/', '/']).followedBy (run staysOnLine)
  | blockComment => (exactly ['/', '*']).followedBy (throughCommentEnd 0)
  | floating => floatingForm
  | unsignedInteger =>
      wholeForm.followedBy (one fun c => c == 'u' || c == 'U')
  | integer => wholeForm
  | string => (one (· == '"')).followedBy (throughQuote false 0)
  | character => characterForm
  | includeDirective =>
      (exactly "#include".toList).followedBy <|
        (run fun c => c == ' ' || c == '\t').followedBy <|
        (headerForm '<' '>').orElse (headerForm '"' '"')
  | word => (one startsWord).followedBy (run continuesWord)
  | fixed => fun text =>
      (Vocabulary.fixedAt? text).map fun entry => entry.1.length

/-- The kind of token that a lexeme of the category stands for.  Blanks stand
for none, and comments only where they are kept. -/
def kind? (keepComments : Bool) (lexeme : List Char) : Category → Option TokenKind
  | blank => none
  | lineComment => if keepComments then some .lineComment else none
  | blockComment => if keepComments then some .blockComment else none
  | floating => some .floating
  | unsignedInteger => some .unsignedInteger
  | integer => some .integer
  | string => some .string
  | character => some .character
  | includeDirective => some .includeDirective
  | word =>
      some ((Vocabulary.keyword? (String.ofList lexeme)).getD .identifier)
  | fixed => (Vocabulary.fixedAt? lexeme).map Prod.snd

/-- The text that the token keeps: all of the lexeme, but without the quotes of
a string. -/
def content (lexeme : List Char) : Category → List Char
  | string => lexeme.tail.dropLast
  | _ => lexeme

end Category

/-- What stands at the front of a text that is not empty. -/
inductive Front
  | lexeme (category : Category) (length : Nat)
  | unterminated (what : String)
  | unknown
deriving DecidableEq, Repr

namespace Front

open Category

/-- The front of a text.  A comment or string that is opened and not closed is
found before anything else, since its opening could pass for an operator;
otherwise the first category that fits is taken. -/
def of (text : List Char) : Front :=
  if ['/', '*'].isPrefixOf text && (extent .blockComment text).isNone then
    .unterminated "block comment"
  else if ['"'].isPrefixOf text && (extent .string text).isNone then
    .unterminated "string literal"
  else
    match all.findSome? fun category =>
        (category.extent text).map (Front.lexeme category) with
    | some found => found
    | none => .unknown

example : of "<<=1".toList = .lexeme .fixed 3 := by decide

example : of "1.5e".toList = .lexeme .floating 3 := by decide

example : of "0xFFu;".toList = .lexeme .unsignedInteger 5 := by decide

example : of "\"a\\\"b\" c".toList = .lexeme .string 6 := by decide

example : of "/* * /".toList = .unterminated "block comment" := by decide

end Front

end MiniC
