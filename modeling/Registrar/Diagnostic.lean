import Registrar.Source.Span

/-!
# Diagnostics

What a phase has to say about the source. A phase prints nothing: it returns diagnostics or adds them to a
log, and the command line decides how they are shown.
-/

namespace Registrar

/-- The severity that makes a diagnostic an error. -/
def errorSeverity : Text := "error"

/-- A message about a place of the source. -/
structure Diagnostic where
  message : Text
  code : Option Text := none
  phase : Option Text := none
  severity : Text := errorSeverity
  span : Span := {}
  notes : List Text := []
deriving DecidableEq, Repr, Inhabited

namespace Diagnostic

/-- Whether the diagnostic is an error. -/
def isError (d : Diagnostic) : Bool := d.severity == errorSeverity

/-- The diagnostic as lines for a reader: the message, then one line for each note. -/
def render (d : Diagnostic) : Text :=
  d.span.render ++ ": " ++ d.severity ++ ": " ++ d.message ++
    (d.notes.map fun note => ("\n  note: " ++ note : Text)).flatten

/-- The diagnostic with `phase` as its phase, unless it has one. -/
def stamped (phase : Option Text) (d : Diagnostic) : Diagnostic := { d with phase := d.phase.or phase }

end Diagnostic

/-- Diagnostics in the order in which they came, and the phase that collects them. -/
structure Log where
  phase : Option Text := none
  entries : List Diagnostic := []
deriving DecidableEq, Repr, Inhabited

namespace Log

/-- Adds a message in the phase of the log. -/
def report (log : Log) (severity : Text) (span : Span) (message : Text) (code : Option Text)
    (notes : List Text) : Log :=
  { log with entries := log.entries ++ [{ message, code, phase := log.phase, severity, span, notes }] }

/-- Adds diagnostics; one without a phase gets the phase of the log. -/
def extend (log : Log) (more : List Diagnostic) : Log :=
  { log with entries := log.entries ++ more.map (Diagnostic.stamped log.phase) }

/-- Whether an error was reported. -/
def hasErrors (log : Log) : Bool := log.entries.any Diagnostic.isError

end Log

end Registrar
