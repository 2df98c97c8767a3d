import Registrar.Diagnostic
import Registrar.Handler.Signature

/-!
# Finding handlers

The marked functions of a unit fall into handlers and functions whose signature is wrong. The latter are
reported, one diagnostic each, and left out.
-/

namespace Registrar

/-- The handlers of a unit in order, and what is wrong with the other marked functions. -/
structure Collection where
  handlers : List FunctionDecl := []
  diagnostics : List Diagnostic := []
deriving Repr, Inhabited

namespace Contract

/-- The code of a wrong signature. -/
def signatureCode : Text := "E-HANDLER-SIG"

/-- The phase of the handler pass. -/
def handlerPhase : Text := "handlers"

/-- What is reported of a marked function that breaks a rule. -/
def signatureDiagnostic (c : Contract) (f : FunctionDecl) (v : SignatureViolation) : Diagnostic :=
  { message := c.invalidSignatureMessage f.name, code := some signatureCode, phase := some handlerPhase
    span := f.span, notes := [v.note] }

/-- The marked functions of a unit. -/
def marked (c : Contract) (unit : CompilationUnit) : List FunctionDecl :=
  unit.functions.filter c.isMarked

/-- The handlers of a unit. -/
def collect (c : Contract) (unit : CompilationUnit) : Collection where
  handlers := (c.marked unit).filter fun f => (c.violation? f).isNone
  diagnostics := (c.marked unit).filterMap fun f => (c.violation? f).map (c.signatureDiagnostic f)

end Contract

end Registrar
