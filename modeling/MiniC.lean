import MiniC.Main
import MiniC.Session
import MiniC.Proofs.Expression.Chain
import MiniC.Proofs.Expression.Floors
import MiniC.Proofs.Expression.Recognition
import MiniC.Proofs.Nesting.Guard
import MiniC.Proofs.Nesting.Height
import MiniC.Proofs.Program.Comments
import MiniC.Proofs.Program.Concatenation
import MiniC.Proofs.Program.CorrectPrefix
import MiniC.Proofs.Program.Declarations
import MiniC.Proofs.Program.Includes
import MiniC.Proofs.Program.Numerals
import MiniC.Proofs.Scanner.Dump
import MiniC.Proofs.Scanner.Failure
import MiniC.Proofs.Scanner.Munch
import MiniC.Proofs.Scanner.Rescan
import MiniC.Proofs.Scanner.Tokenize
import MiniC.Proofs.Session.Kinds
import MiniC.Proofs.Session.Registries
import MiniC.Proofs.Session.Termination
import MiniC.Proofs.Trace.Source
