import Registrar.Contract
import Registrar.Unit.Tree

/-!
# Sketches

Symbols, expressions and functions as they are described when a unit is assembled by hand: a sketch says what
is wanted, and leaves stamps, spans and look-ups to the workbench.
-/

namespace Registrar

/-! ## Symbols -/

/-- A symbol without owner and stamp. -/
inductive SymbolSketch where
  | function (name : Text) (type : Ty) (isPublic : Bool) (requiredCount : Option Int) (variadic : Bool)
  | variable (name : Text) (type : Ty)
  | type (name : Text)
  | tag (name : Text)
  | module (name : Text)
deriving DecidableEq, Repr, Inhabited

/-- The symbol of a sketch. The type of a type symbol is the record type of its name and owner. -/
def SymbolSketch.symbol (owner : ModuleId) (stamp : Stamp) : SymbolSketch → Symbol
  | .function name t isPublic requiredCount variadic =>
    .function { name, owner, stamp, type := t, isPublic, requiredCount, variadic }
  | .variable name t => .variable { name, owner, stamp, type := t }
  | .type name => .type { name, owner, stamp, type := .user name (some owner) }
  | .tag name => .tag { name, owner, stamp }
  | .module name => .module { name, owner, stamp }

/-- A module that exports the symbols of some sketches. -/
structure ModuleSketch where
  id : ModuleId
  exports : List SymbolSketch := []
deriving DecidableEq, Repr, Inhabited

/-- The module of a sketch. -/
def ModuleSketch.module (stamp : Stamp) (m : ModuleSketch) : Module :=
  .ofSymbols m.id (m.exports.map (·.symbol m.id stamp))

/-- How an expression says which symbol it means. -/
inductive SymbolSource where
  /-- What a name denotes in the unit. -/
  | ofUnit (name : Text)
  /-- What a name denotes in the runtime support module, imported or not. -/
  | ofRuntime (name : Text)
  /-- A symbol that nothing else denotes. -/
  | fresh (sketch : SymbolSketch) (owner : ModuleId)
deriving DecidableEq, Repr, Inhabited

/-! ## Expressions and statements -/

/-- An expression. Without a type a reference has that of its symbol, a call the result type of its function. -/
inductive ExprSketch where
  | literal (value : Value) (type : Ty)
  | ref (name : Text) (source : SymbolSource) (type : Option Ty)
  | call (name : Text) (source : SymbolSource) (args : List ExprSketch) (type : Option Ty)
      (qualifier : Option Text)
deriving Repr, Inhabited

/-- Why a sketch makes no expression. -/
inductive SketchFault where
  /-- There is no such symbol. -/
  | missing
  /-- The type of a symbol is asked for that has none. -/
  | untyped (symbol : Symbol)
deriving DecidableEq, Repr

/-- A statement. -/
inductive StmtSketch where
  | expr (e : ExprSketch)
  | ret (value : Option ExprSketch)
deriving Repr, Inhabited

/-! ## Functions -/

/-- A tag to be attached to a function: the one of handlers, or any other. -/
inductive MarkerSketch where
  | handler
  | tag (owner : ModuleId) (name : Text)
deriving DecidableEq, Repr, Inhabited

/-- A function to be declared. -/
structure Declaration where
  name : Text
  params : List (Text × Ty) := []
  ret : Ty := .nil
  markers : List MarkerSketch := []
  defaultable : List (Text × Ty) := []
  rest : Option (Text × Ty) := none
  isPublic : Bool := true
deriving DecidableEq, Repr, Inhabited

/-- A function with the signature of a handler and no markers. -/
def Contract.plainDeclaration (c : Contract) (name : Text) : Declaration :=
  { name, params := [("ctx", c.contextType), ("input", .json)], ret := .union [.json, .error] }

/-- A handler. -/
def Contract.handlerDeclaration (c : Contract) (name : Text) : Declaration :=
  { c.plainDeclaration name with markers := [.handler] }

end Registrar
