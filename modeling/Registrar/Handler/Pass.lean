import Registrar.Handler.Collection
import Registrar.Handler.EntryPoint

/-!
# The handler pass

Handlers are collected, what is wrong is logged, and the entry point is made. A failure comes after the
logging, so the log has its entries all the same.
-/

namespace Registrar

/-- What a pass found and made. -/
structure PassResult where
  handlers : List FunctionDecl
  diagnostics : List Diagnostic
  entryPoint : Option FunctionDecl
deriving Repr, Inhabited

/-- How a pass ended, with the unit and the log that it left. -/
structure PassRun where
  outcome : Except EntryPointError PassResult
  unit : CompilationUnit
  log : Log

/-- Runs the pass on a unit. -/
def Contract.runPass (c : Contract) (runtime : Option Runtime) (unit : CompilationUnit) (log : Log) :
    PassRun :=
  let collected := c.collect unit
  let (made, after) := (c.synthesize runtime collected.handlers).run.run unit
  { outcome := made.map fun entryPoint =>
      { handlers := collected.handlers, diagnostics := collected.diagnostics, entryPoint }
    unit := after
    log := log.extend collected.diagnostics }

end Registrar
