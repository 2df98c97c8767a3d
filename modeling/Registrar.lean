import Registrar.Text.Quoted
import Registrar.Text.Literal
import Registrar.Text.Utf8
import Registrar.Diagnostic
import Registrar.Token.Lexer
import Registrar.Surface.Program
import Registrar.Unit.Printer
import Registrar.Resolve.Program
import Registrar.Unit.Validity
import Registrar.Handler.Pass
import Registrar.Workbench
import Registrar.Main
import Registrar.Files.Tree
import Registrar.Text.Digits
import Registrar.Ty.Assignable
import Registrar.Scope
import Registrar.Proofs.Scope
import Registrar.Proofs.Resolve.Outcome
import Registrar.Proofs.Resolve.Names
import Registrar.Proofs.Unit.Unplaced
import Registrar.Proofs.Resolve.Meaning
import Registrar.Proofs.Resolve.Functions
import Registrar.Proofs.Resolve.Program
import Registrar.Proofs.Unit.Validity
import Registrar.Proofs.Handler.EntryPoint
import Registrar.Proofs.Resolve.Soundness
import Registrar.Proofs.Contract
import Registrar.Proofs.Handler.Agreement
import Registrar.Proofs.Handler.Collection
import Registrar.Proofs.Resolve.Types
import Registrar.Proofs.Handler.Spelling
import Registrar.Proofs.Text.Literal
import Registrar.Proofs.Token.Lexer
import Registrar.Proofs.Surface.Grammar
import Registrar.Proofs.Surface.Completeness
import Registrar.Proofs.Surface.Stuck
import Registrar.Proofs.Unit.Writes
import Registrar.Proofs.Unit.ReadBack
import Registrar.Proofs.Unit.Printer
import Registrar.Proofs.Unit.Types
import Registrar.Proofs.Unit.Source
import Registrar.Proofs.Resolve.Completeness
import Registrar.Proofs.Unit.Meaning
import Registrar.Proofs.RoundTrip
import Registrar.Proofs.Handler.Pass
import Registrar.Proofs.Handler.Repetition
import Registrar.Proofs.Handler.Preservation
import Registrar.Proofs.Handler.Resolved
import Registrar.Proofs.Resolve.Places
import Registrar.Proofs.Resolve.Order
import Registrar.Proofs.NormalForm
import Registrar.Proofs.Surface.Productions
import Registrar.Proofs.Surface.Unambiguous
import Registrar.Proofs.Surface.Derivations
import Registrar.Proofs.Resolve.Representation
import Registrar.Proofs.Resolve.Reports
import Registrar.Proofs.Resolve.Defaults
import Registrar.Proofs.Handler.Drafts
import Registrar.Proofs.Resolve.Layout
import Registrar.Proofs.Resolve.Prefixes
import Registrar.Proofs.Handler.Prefixes
import Registrar.Proofs.Files.Tree
import Registrar.Proofs.Files.Writing
import Registrar.Proofs.Command.Outcome
import Registrar.Proofs.Command.Trace
import Registrar.Proofs.Surface.Faults
import Registrar.Proofs.Command.Source
import Registrar.Proofs.Ty.Assignable
import Registrar.Proofs.Unit.Exactness
import Registrar.Proofs.Resolve.Noninterference
import Registrar.Proofs.Resolve.Namesakes
import Registrar.Proofs.Resolve.ParamOrder
import Registrar.Proofs.Handler.Printed
import Registrar.Proofs.Token.Words
import Registrar.Proofs.Surface.Layout
import Registrar.Proofs.Resolve.Arity
import Registrar.Proofs.Unit.Walk
import Registrar.Proofs.Unit.TypeSpelling
import Registrar.Proofs.Surface.Locations
