import Registrar.Command.Report
import Registrar.Handler.Pass
import Registrar.Resolve.Program
import Registrar.Surface.Program
import Registrar.Trace
import Registrar.Unit.Printer
import Registrar.Unit.Validity

/-!
# The command

A build reads one source, resolves it, runs the handler pass and checks the unit that comes out. The exit code
is 0 if all went well, 1 if something is wrong with the source, and 2 if the unit and the pass do not go
together. A trace that cannot be written is reported, but does not count.
-/

namespace Registrar.Command

/-! ## Compiling -/

/-- What becomes of a source. -/
inductive Compilation where
  /-- Something is wrong with the source. -/
  | rejected (diagnostics : List Diagnostic)
  /-- The unit and the pass do not go together. -/
  | failed (reason : Text)
  /-- There are handlers, but no name for their entry point. -/
  | nameless
  | done (unit : CompilationUnit) (result : PassResult) (log : Log)

/-- Whether the handler pass on a unit comes to ask for the name of the entry point. -/
def asksEntryName (c : Contract) (unit : CompilationUnit) : Bool :=
  !(c.collect unit).handlers.isEmpty && (c.findRuntime unit).isOk

/-- Runs the handler pass on a unit and checks what comes out. -/
def compileUnit (c : Contract) (unit : CompilationUnit) : Compilation :=
  let run := c.runPass none unit { phase := some Contract.handlerPhase }
  match run.outcome with
  | .error error => .failed error.message
  | .ok result =>
    match run.unit.validate with
    | .error fault => .failed fault.message
    | .ok _ => .done run.unit result run.log

/-- Resolves a program and compiles its unit, if nothing is wrong. The entry point has the name of the contract
unless `named` is false. -/
def compileProgram (c : Contract) (named : Bool) (id : ModuleId) (file : Text)
    (program : Surface.Program Value) : Compilation :=
  let (unit, diagnostics) := resolveProgram c.registry id (some file) program
  if diagnostics.any Diagnostic.isError then .rejected diagnostics
  else if !named && asksEntryName c unit then .nameless
  else compileUnit c unit

/-! ## Outcomes -/

/-- Why a build ends without a report. -/
inductive Crash where
  | file (error : FileError)
  | unreadable (fault : Utf8.DecodeFault)
  | unprintable (fault : Utf8.EncodeFault)
  | suffix (fault : Path.SuffixFault)
  | integerTooLong (digits : Nat)
  /-- An entry point is to be made, and its name was taken back. -/
  | noEntryName
  /-- A trace is to be written, and the output was taken back. -/
  | noOutput
deriving DecidableEq, Repr

/-- The reason in words. -/
def Crash.message : Crash → Text
  | .file error => error.message
  | .unreadable fault => fault.message
  | .unprintable fault => fault.message
  | .suffix fault => fault.message
  | .integerTooLong digits => Surface.integerTooLongMessage digits
  | .noEntryName => "unhashable type: 'list'"
  | .noOutput => "'list' object has no attribute 'absolute'"

/-- The crash of a trace that fails without a diagnostic. -/
def Crash.ofTrace : TraceError → Crash
  | .suffix fault => .suffix fault
  | .file error => .file error

/-- How the command ends: with an exit code, or without one; and what was printed. -/
structure Outcome where
  exit : Except Crash Nat
  printed : Printed := {}
  /-- Whether it ended before a build began. -/
  beforeBuild : Bool := false

namespace Outcome

/-- The outcome of a crash before anything was printed. -/
def ofCrash (crash : Crash) : Outcome := { exit := .error crash }

/-- The outcome of some printing. -/
def ofPrints (exitCode : Nat) (prints : List Print) : Outcome :=
  match ({} : Printed).addAll prints with
  | (printed, none) => { exit := .ok exitCode, printed }
  | (printed, some fault) => { exit := .error (.unprintable fault), printed }

/-- The outcome of a build that ends with a report. -/
def ofReport (o : Options) (r : Report) : Outcome := ofPrints r.exitCode (r.prints o)

/-- The outcome of a build that rejects the source. -/
def ofRejection (o : Options) (diagnostics : List Diagnostic) : Outcome :=
  ofReport o { exitCode := 1, diagnostics }

end Outcome

/-! ## Building -/

/-- What is reported of a source that is not there. -/
def missingSource (source : Path) : Diagnostic :=
  { message := "source file not found: " ++ source.render, phase := some Surface.SourceFault.phase }

/-- The module id of a source, if none is given. -/
def defaultModule (source : Path) : ModuleId := ⟨"local", source.stem⟩

/-- The contract of a build. -/
def Options.contract (o : Options) : Contract :=
  (o.entryName.value?).elim {} ({} : Contract).withEntryPoint

/-- Whether the entry point of a build has a name. -/
def Options.namesEntryPoint (o : Options) : Bool := o.entryName ≠ .emptied

/-- The module id of a build. -/
def Options.moduleId (o : Options) : ModuleId := o.module.value?.getD (defaultModule o.source)

/-- The exit code of a build that went through: only the trace may have failed. -/
def exitCode (log : Log) : Nat :=
  if log.entries.any fun d => d.isError && d.phase ≠ some tracePhase then 1 else 0

/-- The report of a build that went through. -/
def doneReport (o : Options) (unit : CompilationUnit) (result : PassResult) (log : Log) : Report :=
  { exitCode := exitCode log, diagnostics := log.entries, handlers := result.handlers.map (·.name)
    entryPoint := result.entryPoint.map (·.render unit.qualifiers)
    unit := if o.printUnit then some unit.render else none }

variable {m : Type → Type} [Monad m]

/-- Writes the trace, if there is an output, an entry point, and no error; the log with what that adds. -/
def writeTrace (fs : FileSystem m) (o : Options) (result : PassResult) (log : Log) :
    m (Except Crash Log) := do
  match o.output, result.entryPoint, log.hasErrors with
  | .emptied, some _, false => return .error .noOutput
  | .given output, some _, false =>
    let names := result.handlers.map (·.name)
    match ← o.contract.emitTrace fs output names { phase := some tracePhase } with
    | .ok (_, traceLog) => return .ok (log.extend traceLog.entries)
    | .error error => return .error (.ofTrace error)
  | _, _, _ => return .ok log

/-- Ends a build with what became of the source. -/
def conclude (fs : FileSystem m) (o : Options) : Compilation → m Outcome
  | .rejected diagnostics => return .ofRejection o diagnostics
  | .failed reason => return .ofPrints 2 (failurePrints o reason)
  | .nameless => return .ofCrash .noEntryName
  | .done unit result log => do
    match ← writeTrace fs o result log with
    | .error crash => return .ofCrash crash
    | .ok log => return .ofReport o (doneReport o unit result log)

/-- Builds a source that has been read. -/
def buildBytes (fs : FileSystem m) (o : Options) (bytes : Utf8.Bytes) : m Outcome := do
  match Utf8.decode bytes with
  | .error fault => return .ofCrash (.unreadable fault)
  | .ok text =>
    let file := o.source.render
    match Surface.readSource (some file) (Utf8.unifyLineEnds text) with
    | .error digits => return .ofCrash (.integerTooLong digits)
    | .ok (none, diagnostics) => return .ofRejection o diagnostics
    | .ok (some program, _) =>
      conclude fs o (compileProgram o.contract o.namesEntryPoint o.moduleId file program)

/-- Builds a source. -/
def build (fs : FileSystem m) (o : Options) : m Outcome := do
  match ← (fs.pathExists o.source).run with
  | .error error => return .ofCrash (.file error)
  | .ok false => return .ofRejection o [missingSource o.source]
  | .ok true =>
    match ← (fs.read o.source).run with
    | .error error => return .ofCrash (.file error)
    | .ok bytes => buildBytes fs o bytes

/-- Carries out a command line. -/
def run (fs : FileSystem m) (words : List Text) : m Outcome :=
  match Options.parse words with
  | .error stop =>
    let (exitCode, prints) := stop.prints
    return { Outcome.ofPrints exitCode prints with beforeBuild := true }
  | .ok options => build fs options

end Registrar.Command
