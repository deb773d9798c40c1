/-
The scanner: it walks over a source text once and cuts it into tokens.
-/
import MiniC.Lexeme.Category
import MiniC.Parse.Record
import MiniC.Scanner.Error

namespace MiniC

/-- A text on its way through scanning: what is left of it, and where that
begins. -/
structure Scanner where
  position : Position
  rest : List Char
deriving DecidableEq, Repr

/-- What a scan has found so far: the tokens, and the records made of them. -/
structure Findings where
  tokens : Array Token
  log : Array Record

namespace Findings

/-- What has been found at the start. -/
def none : Findings := ⟨#[], #[]⟩

/-- One more token is found, and noted at once. -/
def push (found : Findings) (token : Token) : Findings :=
  ⟨found.tokens.push token, found.log.push (.lexed token)⟩

end Findings

/-- What a scan has produced: what was found, whether the end of the text was
reached, and the scanner where it stopped. -/
structure Scan extends Findings where
  result : Except ScanError Unit
  stopped : Scanner

namespace Scanner

/-- A scanner at the start of a source text. -/
def ofSource (source : String) : Scanner :=
  ⟨.start, source.toList⟩

/-- The token that the first `length` characters of the text stand for, if they
stand for one. -/
def token? (keepComments : Bool) (location : Location) (category : Category)
    (length : Nat) (text : List Char) : Option Token :=
  let lexeme := text.take length
  (category.kind? keepComments lexeme).map fun kind =>
    ⟨kind, String.ofList (category.content lexeme), location⟩

/-- Walk over the text one character at a time.  `pending` counts the characters
that still belong to the lexeme found last; when there are none, the front of
the text says what comes next.  A scan that fails stops on the character it
cannot get past. -/
def walk (keepComments : Bool) (pending : Nat) (here : Position)
    (found : Findings) : List Char → Scan
  | [] => ⟨found, .ok (), ⟨here, []⟩⟩
  | c :: text =>
      match pending with
      | n + 1 => walk keepComments n (here.next c) found text
      | 0 =>
          match Front.of (c :: text) with
          | .lexeme category length =>
              let token :=
                token? keepComments here.location category length (c :: text)
              walk keepComments (length - 1) (here.next c)
                (token.elim found found.push) text
          | .unterminated what =>
              ⟨found, .error (.unterminated here what), ⟨here, c :: text⟩⟩
          | .unknown =>
              ⟨found, .error (.noMatch here (String.ofList (c :: text))),
                ⟨here, c :: text⟩⟩

/-- Scan all that is left. -/
def scan (keepComments : Bool) (scanner : Scanner) : Scan :=
  walk keepComments 0 scanner.position .none scanner.rest

end Scanner

/-- The tokens of a scan that reached the end, closed by an end marker there. -/
def Scan.tokenList (scan : Scan) : Except ScanError (List Token) :=
  scan.result.map fun _ =>
    (scan.tokens.push (.endMarker scan.stopped.position.location)).toList

/-- Cut a source text into tokens, the last of which is the end marker. -/
def tokenize (keepComments : Bool) (source : String) :
    Except ScanError (List Token) :=
  ((Scanner.ofSource source).scan keepComments).tokenList

namespace Scanner

/-- Ask for all tokens several times over.  Each time begins where the last one
stopped: at the end after a success, and otherwise at the character in the
way. -/
def repeated (keepComments : Bool) :
    Nat → Scanner → List (Except ScanError (List Token))
  | 0, _ => []
  | times + 1, scanner =>
      let scan := scanner.scan keepComments
      scan.tokenList :: repeated keepComments times scan.stopped

end Scanner

end MiniC
