import Registrar.Scope

/-!
# The handler contract

The names on which handlers, the entry point and the runtime support module agree. The module exports the type
of the context that every handler is given, the tag that marks a handler, and two operations: one registers a
handler under a name, the other starts to process events.
-/

namespace Registrar

/-- The names of the contract. -/
structure Contract where
  runtimeModule : ModuleId := ⟨"ballerinax", "awslambda"⟩
  markerName : Text := "Function"
  contextTypeName : Text := "Context"
  entryPointName : Text := "__d47ff0e4_cb4f_40a7_acde_5daf8f50043c"
  registerOp : Text := "register"
  processOp : Text := "process"
  traceSuffix : Text := ".txt"
deriving DecidableEq, Repr, Inhabited

namespace Contract

/-- By what the tag of handlers is known. -/
def markerIdentity (c : Contract) : Text × Text × Text :=
  (c.runtimeModule.space, c.runtimeModule.name, c.markerName)

/-- The type of the context. -/
def contextType (c : Contract) : Ty := .user c.contextTypeName (some c.runtimeModule)

/-- What the signature of a handler looks like. -/
def expectedSignature (c : Contract) : Text :=
  "public function (" ++ c.runtimeModule.name ++ ":" ++ c.contextTypeName ++ ", json) returns json|error"

/-- What is said of a handler with another signature. -/
def invalidSignatureMessage (c : Contract) (name : Text) : Text :=
  "Invalid function signature for an AWS lambda function: " ++ name ++ ", it should be '" ++
    c.expectedSignature ++ "'"

/-- The contract with another name for the entry point. -/
def withEntryPoint (c : Contract) (name : Text) : Contract := { c with entryPointName := name }

/-! ## The runtime support module -/

/-- The operations with their types. Under one name there is one operation, and it is the one that starts
processing. -/
def operations (c : Contract) : List (Text × Ty) :=
  let process : Ty := .function [] (some .nil)
  if c.registerOp = c.processOp then [(c.processOp, process)]
  else [(c.registerOp, .function [.string, .anyFunction] (some .nil)), (c.processOp, process)]

/-- The runtime support module. `exported` restricts the operations to some names. -/
def runtimeSupport (c : Contract) (exported : Option (List Text)) : Module :=
  let base (name : Text) : SymbolBase := { name, owner := c.runtimeModule, stamp := .exported }
  let wanted := c.operations.filter fun (name, _) => exported.all (·.contains name)
  .ofSymbols c.runtimeModule
    ([.type { toSymbolBase := base c.contextTypeName, type := c.contextType },
      .tag { toSymbolBase := base c.markerName }] ++
      wanted.map fun (name, type) => .function { toSymbolBase := base name, type, isPublic := true })

/-- The registry of what comes with the compiler. -/
def registry (c : Contract) : Registry := { modules := [c.runtimeSupport none] }

end Contract

end Registrar
