import Registrar.Handler.Signature

/-!
# Entry points

The entry point registers every handler under its name and then starts to process events:

    public function entry() {
        runtime:register("first", first);
        runtime:register("second", second);
        runtime:process();
    }

It is drafted apart from the unit; only the commit adds it there and binds its name. From then on the draft
stands for the function in the unit, so that what is added to it later is added there. `Build` is the work on
a unit that may fail; what has been done to the unit before a failure stays done, and that nothing has is a
fact about the steps, not about the type.
-/

namespace Registrar

/-! ## Failures -/

/-- Why an entry point cannot be made. -/
inductive EntryPointError where
  /-- The unit does not import the runtime support module. -/
  | missingModule (id : ModuleId)
  /-- The runtime support module lacks an operation. -/
  | missingOperation (id : ModuleId) (operation : Text)
  /-- The name of the entry point has a meaning in the unit. -/
  | nameTaken (name : Text)
  /-- The draft was committed before. -/
  | alreadyCommitted
deriving DecidableEq, Repr

/-- The failure in words. -/
def EntryPointError.message : EntryPointError → Text
  | .missingModule id => "runtime support module '" ++ id.render ++ "' is not imported by the unit"
  | .missingOperation id operation =>
    "runtime support module '" ++ id.render ++ "' does not export function '" ++ operation ++ "'"
  | .nameTaken name => "entry point name '" ++ name ++ "' is already defined in the unit"
  | .alreadyCommitted => "entry point already committed"

/-! ## The runtime support module of a unit -/

/-- The runtime support module, and the prefix by which a unit names it. -/
structure Runtime where
  module : Module
  qualifier : Text
deriving DecidableEq, Repr, Inhabited

/-- The symbol of an operation. -/
def Runtime.operation (r : Runtime) (name : Text) : Except EntryPointError FunctionSymbol :=
  match r.module.exports.lookupFunction name with
  | some f => .ok f
  | none => .error (.missingOperation r.module.id name)

/-- The runtime support module as the unit imports it. -/
def Contract.findRuntime (c : Contract) (unit : CompilationUnit) : Except EntryPointError Runtime :=
  match unit.findImport? c.runtimeModule with
  | some i => .ok ⟨i.module, i.qualifier⟩
  | none => .error (.missingModule c.runtimeModule)

/-! ## Drafts -/

/-- Work on a unit that may fail. -/
abbrev Build := ExceptT EntryPointError (StateM CompilationUnit)

/-- Where the function of a draft is: apart from the unit, or in it at an index. -/
inductive Place where
  | apart (f : FunctionDecl)
  | committed (index : Nat)
deriving Repr, Inhabited

/-- An entry point in the making. -/
structure Draft where
  contract : Contract
  runtime : Runtime
  span : Span
  place : Place
deriving Repr, Inhabited

namespace Draft

/-- The empty entry point of a unit. -/
def emptyFunction (c : Contract) (unit : CompilationUnit) : FunctionDecl :=
  { name := c.entryPointName
    symbol :=
      { name := c.entryPointName, owner := unit.id, stamp := .generated
        type := .function [] (some .nil), isPublic := true }
    returnType := .nil, isPublic := true, span := unit.span }

/-- A new draft for a unit. -/
def new (c : Contract) (runtime : Runtime) (unit : CompilationUnit) : Draft :=
  { contract := c, runtime, span := unit.span, place := .apart (emptyFunction c unit) }

/-- The function of the draft. -/
def function? (draft : Draft) (unit : CompilationUnit) : Option FunctionDecl :=
  match draft.place with
  | .apart f => some f
  | .committed index => unit.functions[index]?

/-- Adds a statement to the function of the draft, wherever that is. -/
def addStmt (draft : Draft) (s : Stmt) : Build Draft :=
  match draft.place with
  | .apart f => return { draft with place := .apart (f.addStmt s) }
  | .committed index => do
    modify fun unit => { unit with functions := unit.functions.modify index (·.addStmt s) }
    return draft

/-- Adds a call of an operation of the runtime support module. -/
def addCall (draft : Draft) (operation : Text) (args : List Expr) : Build Draft := do
  let callee ← ofExcept (draft.runtime.operation operation)
  draft.addStmt
    (.expr (.call operation (.function callee) args .nil (some draft.runtime.qualifier) draft.span) draft.span)

/-- Adds the registration of a handler: its name and the function itself. -/
def addRegister (draft : Draft) (handler : FunctionDecl) : Build Draft :=
  draft.addCall draft.contract.registerOp
    [.literal (.str handler.name) .string draft.span,
      .ref handler.name (.function handler.symbol) handler.symbol.type draft.span]

/-- Adds the call that starts to process events. -/
def addProcess (draft : Draft) : Build Draft := draft.addCall draft.contract.processOp []

/-- Binds the name of the entry point in the unit and adds its function there. -/
def commit (draft : Draft) : Build Draft := do
  match draft.place with
  | .committed _ => throw .alreadyCommitted
  | .apart f =>
    let unit ← get
    match unit.scope.define? (.function f.symbol) with
    | none => throw (.nameTaken f.name)
    | some scope =>
      set { unit with scope, functions := unit.functions ++ [f] }
      return { draft with place := .committed unit.functions.length }

end Draft

/-- Makes the entry point of some handlers; without handlers there is none. The runtime support module is the
one that is given, or else the one that the unit imports. -/
def Contract.synthesize (c : Contract) (runtime : Option Runtime) (handlers : List FunctionDecl) :
    Build (Option FunctionDecl) := do
  if handlers.isEmpty then return none
  let unit ← get
  let runtime ← match runtime with
    | some r => pure r
    | none => ofExcept (c.findRuntime unit)
  if unit.scope.contains c.entryPointName then throw (.nameTaken c.entryPointName)
  let draft ← handlers.foldlM Draft.addRegister (Draft.new c runtime unit)
  let draft ← draft.addProcess
  let draft ← draft.commit
  return draft.function? (← get)

end Registrar
