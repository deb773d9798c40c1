/-
The command line: report on the tokens and the tree of one file.
-/
import MiniC.Report

namespace MiniC.Report

/-- The name of a file and what to report on.  Options may stand on either side
of the name; there has to be one name. -/
def readArguments : List String → Option (String × Options)
  | [] => none
  | arguments =>
      let (options, names) := arguments.partition (·.startsWith "--")
      let known := ["--keep-comments", "--no-tokens", "--no-ast"]
      match names with
      | [path] =>
          if options.all known.contains then
            some (path,
              { keepComments := options.contains "--keep-comments"
                showTokens := !options.contains "--no-tokens"
                showTree := !options.contains "--no-ast" })
          else none
      | _ => none

/-- How to call the command. -/
def usage : String :=
  "usage: minic [--keep-comments] [--no-tokens] [--no-ast] FILE\n"

/-- Why a file cannot be read. -/
def reason : IO.Error → String
  | .noFileOrDirectory _ _ _ => noSuchFile
  | .permissionDenied _ code details => s!"{details} (os error {code})"
  | .inappropriateType _ code details => s!"{details} (os error {code})"
  | other => toString other

/-- The text of a file, or why it has none. -/
def readText (path : String) : IO (Except String String) := do
  try return decode (← IO.FS.readBinFile path)
  catch e => return .error (reason e)

end MiniC.Report

/-- Write the report on a file and end with its code. -/
def main (arguments : List String) : IO UInt32 := do
  match MiniC.Report.readArguments arguments with
  | none =>
      IO.eprint MiniC.Report.usage
      return 2
  | some (path, options) =>
      let outcome :=
        MiniC.Report.ofFile options path (← MiniC.Report.readText path)
      IO.print outcome.output
      IO.eprint outcome.errors
      return outcome.code.toUInt32
