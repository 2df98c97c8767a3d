import Registrar.Handler.Pass
import Registrar.Workbench.Sketch

/-!
# The workbench

A unit that is assembled by hand, step by step, without source text. The workbench hands out the stamps of new
symbols, so that no two of them are the same, and gives each function that is declared a line of its own.

One entry point may be drafted at a time; the draft lives on the workbench beside the unit.
-/

namespace Registrar

/-- A unit in the making. -/
structure Workbench where
  contract : Contract
  /-- The runtime support module, imported or not. -/
  runtime : Module
  unit : CompilationUnit
  /-- The line of the function that is declared next. -/
  nextLine : Nat := 2
  /-- The number of the symbol that is made next. -/
  nextSerial : Nat := 0
  draft : Option Draft := none
deriving Repr, Inhabited

namespace Workbench

/-- The file in which all that is assembled is said to stand. -/
def file : Text := "main.bal"

/-- The start of a line of that file. -/
def lineSpan (line : Nat) : Span := .ofPosition (some file) ⟨line, 1⟩

/-- The module that is assembled. -/
def mainModule : ModuleId := ⟨"local", "main"⟩

/-- A workbench with an empty unit. `exported` restricts the operations of the runtime support module; the unit
imports that module, by an alias if one is given, unless `importRuntime` is false. -/
def new (contract : Contract) (exported : Option (List Text)) (importRuntime : Bool)
    (asName : Option Text) : Workbench :=
  let runtime := contract.runtimeSupport exported
  let decl : ImportDecl := { id := contract.runtimeModule, module := runtime, asName, span := lineSpan 1 }
  { contract, runtime
    unit :=
      { id := mainModule, scope := { owner := mainModule }, span := lineSpan 1
        imports := if importRuntime then [decl] else [] } }

/-! ## Symbols -/

/-- Work on a workbench. -/
abbrev Bench := StateM Workbench

/-- A stamp that no symbol has. -/
def freshStamp : Bench Stamp :=
  modifyGet fun w => (.assembled w.nextSerial, { w with nextSerial := w.nextSerial + 1 })

/-- Changes the unit. -/
def modifyUnit (change : CompilationUnit → CompilationUnit) : Bench Unit :=
  modify fun w => { w with unit := change w.unit }

/-- Defines a symbol in the unit; whether its name was free. -/
def define (sketch : SymbolSketch) (owner : ModuleId) : Bench Bool := do
  let symbol := sketch.symbol owner (← freshStamp)
  match (← get).unit.scope.define? symbol with
  | none => return false
  | some scope =>
    modifyUnit ({ · with scope })
    return true

/-- Imports a module. -/
def addImport (sketch : ModuleSketch) (asName : Option Text) : Bench ImportDecl := do
  let decl : ImportDecl := { id := sketch.id, module := sketch.module (← freshStamp), asName }
  modifyUnit fun unit => { unit with imports := unit.imports ++ [decl] }
  return decl

/-- Takes all imports out. -/
def clearImports : Bench Unit := modifyUnit ({ · with imports := [] })

/-- Work on a workbench with sketches that may be at fault. -/
abbrev Sketching := ExceptT SketchFault Bench

/-- The symbol that is meant. -/
def symbol : SymbolSource → Sketching Symbol
  | .ofUnit name => do ofOption ((← get).unit.scope.lookup name)
  | .ofRuntime name => do ofOption ((← get).runtime.exports.lookup name)
  | .fresh sketch owner => return sketch.symbol owner (← freshStamp)
where
  /-- What was looked up. -/
  ofOption (found : Option Symbol) : Sketching Symbol := found.elim (throw .missing) pure

/-- The type of a symbol. -/
def typeOf (s : Symbol) : Sketching Ty := s.type?.elim (throw (.untyped s)) pure

/-! ## Functions -/

/-- The marker of a sketch; its prefix is the name of the module. -/
def marker : MarkerSketch → Bench Marker
  | .handler => do
    let c := (← get).contract
    mark c.runtimeModule c.markerName
  | .tag owner name => mark owner name
where
  /-- A marker with a tag of its own. -/
  mark (owner : ModuleId) (name : Text) : Bench Marker :=
    return { symbol := { name, owner, stamp := ← freshStamp }, tag := name, qualifier := some owner.name }

/-- Declares a function. If its name is taken, the name keeps its meaning and the function is added all the
same. -/
def declare (d : Declaration) : Bench FunctionDecl := do
  let markers ← d.markers.mapM marker
  let stamp ← freshStamp
  let w ← get
  let span := lineSpan w.nextLine
  let param : Text × Ty → Param := fun (name, type) => { name, type, span }
  let required := d.params.map param
  let defaultable := d.defaultable.map param
  let rest := d.rest.map param
  let symbol : FunctionSymbol :=
    { name := d.name, owner := w.unit.id, stamp
      type := functionType (required ++ defaultable ++ rest.toList) d.ret
      isPublic := d.isPublic, requiredCount := some required.length, variadic := rest.isSome }
  let decl : FunctionDecl :=
    { name := d.name, symbol, returnType := d.ret, required, defaultable, rest, markers
      isPublic := d.isPublic, span }
  let scope := w.unit.scope.define (.function symbol)
  set { w with nextLine := w.nextLine + 1, unit := { w.unit with scope }.addFunction decl }
  return decl

/-- Gives a function another symbol, which its name need not denote. -/
def rebind (function : FunctionDecl) (name : Text) : Bench Unit := do
  let stamp ← freshStamp
  modifyUnit fun unit =>
    unit.modifyFunction function.name
      ({ · with symbol := { name, owner := unit.id, stamp, type := function.symbol.type } })

/-! ## Expressions -/

mutual
/-- The expression of a sketch. -/
def expr : ExprSketch → Sketching Expr
  | .literal value type => return .literal value type .unknown
  | .ref name source type => do
    let s ← symbol source
    return .ref name s (← type.elim (typeOf s) pure) .unknown
  | .call name source args type qualifier => do
    let callee ← symbol source
    let args ← exprs args
    let type ← type.elim (return (← typeOf callee).ret?.getD .unknown) pure
    return .call name callee args type qualifier .unknown

/-- The expressions of some sketches. -/
def exprs : List ExprSketch → Sketching (List Expr)
  | [] => return []
  | e :: es => return (← expr e) :: (← exprs es)
end

/-- The statement of a sketch. -/
def stmt : StmtSketch → Sketching Stmt
  | .expr e => return .expr (← expr e) .unknown
  | .ret value => return .ret (← value.mapM expr) .unknown

/-- Adds a statement to the first function of a name. -/
def addStmt (function : Text) (sketch : StmtSketch) : Sketching Stmt := do
  let s ← stmt sketch
  modifyUnit (·.modifyFunction function (·.addStmt s))
  return s

/-- Gives the defaultable parameter at an index of the first function of a name a default value. -/
def setDefault (function : Text) (index : Nat) (sketch : ExprSketch) : Sketching Unit := do
  let value ← expr sketch
  modifyUnit (·.modifyFunction function fun f =>
    { f with defaultable := f.defaultable.modify index ({ · with default := some value }) })

/-! ## Entry points -/

/-- Does work on the unit. -/
def build {α : Type} (work : Build α) : Bench (Except EntryPointError α) := do
  let w ← get
  let (result, unit) := work.run.run w.unit
  set { w with unit }
  return result

/-- The runtime support module under a prefix, whatever the unit imports. -/
def runtimeAs (qualifier : Text) : Bench Runtime := return ⟨(← get).runtime, qualifier⟩

/-- Makes the entry point of the functions of some names. -/
def synthesize (c : Contract) (qualifier : Option Text) (handlers : List Text) :
    Bench (Except EntryPointError (Option FunctionDecl)) := do
  let runtime ← qualifier.mapM runtimeAs
  let unit := (← get).unit
  build (c.synthesize runtime (handlers.filterMap unit.findFunction?))

/-- Runs the handler pass, with a log. -/
def pass (c : Contract) (qualifier : Option Text) : Bench PassRun := do
  let runtime ← qualifier.mapM runtimeAs
  let run := c.runPass runtime (← get).unit { phase := some Contract.handlerPhase }
  modifyUnit fun _ => run.unit
  return run

/-- Starts to draft an entry point. -/
def startDraft (c : Contract) : Bench (Except EntryPointError Draft) := do
  let w ← get
  match c.findRuntime w.unit with
  | .error e => return .error e
  | .ok runtime =>
    let draft := Draft.new c runtime w.unit
    set { w with draft := some draft }
    return .ok draft

/-- Goes on with the draft; after a failure the draft is as it was. `none`: nothing was drafted. -/
def continueDraft (step : Draft → Build Draft) :
    Bench (Option (Except EntryPointError FunctionDecl)) := do
  let some draft := (← get).draft | return none
  match ← build (step draft) with
  | .error e => return some (.error e)
  | .ok draft =>
    modify ({ · with draft := some draft })
    return (draft.function? (← get).unit).map .ok

end Workbench

end Registrar
