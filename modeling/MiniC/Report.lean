/-
Reports: what the command line writes about one file.
-/
import MiniC.Outline.Tree
import MiniC.Program

namespace MiniC.Report

/-- What to report on. -/
structure Options where
  keepComments : Bool
  showTokens : Bool
  showTree : Bool

/-- All that a run of the command line leaves behind. -/
structure Outcome where
  code : Nat
  output : String
  errors : String
deriving DecidableEq, Repr

/-- Why a file that is not there cannot be read. -/
def noSuchFile : String := "No such file or directory (os error 2)"

/-- Why the contents of a file are no text. -/
def notText : String := "stream did not contain valid UTF-8"

/-- The text that the bytes of a file encode, or why there is none. -/
def decode (bytes : ByteArray) : Except String String :=
  match String.fromUTF8? bytes with
  | some text => .ok text
  | none => .error notText

/-- A report that ends in failure, after what has been written already. -/
def failure (output message : String) : Outcome :=
  ⟨1, output, message ++ "\n"⟩

/-- The heading over a section. -/
def heading (title : String) : String :=
  "------\n" ++ title ++ "\n------\n"

/-- The section that lists the tokens. -/
def tokenSection (tokens : List Token) : String :=
  heading "TOKENS"
    ++ String.join (tokens.mapIdx fun i token => token.dumpLine i ++ "\n")

/-- The section that shows the tree. -/
def treeSection (program : Stmt) : String :=
  "\n" ++ heading "AST" ++ toString program.outline ++ "\n"

/-- Report on a source text.  A text that cannot be scanned leaves no output;
one that cannot be parsed leaves its tokens. -/
def ofSource (options : Options) (source : String) : Outcome :=
  match tokenize options.keepComments source with
  | .error e => failure "" e.message
  | .ok tokens =>
      let listed := if options.showTokens then tokenSection tokens else ""
      match parseTokens tokens with
      | .error e => failure listed e.message
      | .ok program =>
          ⟨0, listed ++ if options.showTree then treeSection program else "", ""⟩

/-- Report on the file of the given name, whose text may be unreadable. -/
def ofFile (options : Options) (path : String)
    (contents : Except String String) : Outcome :=
  match contents with
  | .error reason => failure "" s!"Error: cannot read '{path}': {reason}"
  | .ok source => ofSource options source

end MiniC.Report
