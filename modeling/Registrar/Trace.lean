import Registrar.Contract
import Registrar.Diagnostic
import Registrar.Files.System
import Registrar.Unit.Tree

/-!
# Build traces

Beside the output of a build there is a trace: the names of the handlers, one to a line. Every build adds its
lines at the end, so the trace of repeated builds accumulates.
-/

namespace Registrar

/-- What a build writes into the trace. -/
def traceText (handlers : List Text) : Text := handlers.flatMap fun name => name ++ "\n"

/-- Where the trace of an output is, which is seen from the root. -/
def Contract.tracePath (c : Contract) (output : Path) : Except Path.SuffixFault Path :=
  output.withSuffix c.traceSuffix

/-- Why there is neither a trace nor a diagnostic. -/
inductive TraceError where
  | suffix (fault : Path.SuffixFault)
  | file (error : FileError)
deriving DecidableEq, Repr

/-- The error in words. -/
def TraceError.message : TraceError → Text
  | .suffix fault => fault.message
  | .file error => error.message

/-- The phase that writes traces. -/
def tracePhase : Text := "trace"

/-- What is reported of a trace that the system refuses to write. -/
def traceDiagnostic (target : Path) (error : FileError) : Diagnostic :=
  { message := "cannot write trace file: " ++ error.message, span := { file := some target.render } }

/-- Writes the trace of an output, and gives its path. What the system refuses is logged, unless it refuses to say where
the output is. -/
def Contract.emitTrace {m : Type → Type} [Monad m] (c : Contract) (fs : FileSystem m) (output : Path)
    (handlers : List Text) (log : Log) : m (Except TraceError (Option Path × Log)) := do
  match ← (fs.absolute output).run with
  | .error error => return .error (.file error)
  | .ok output =>
    match c.tracePath output with
    | .error fault => return .error (.suffix fault)
    | .ok target =>
      match ← (fs.appendEnsuring target (traceText handlers)).run with
      | .ok _ => return .ok (some target, log)
      | .error (.refused refusal path) =>
        return .ok (none, log.extend [traceDiagnostic target (.refused refusal path)])
      | .error error => return .error (.file error)

end Registrar
