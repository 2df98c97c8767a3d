import Registrar.Symbol

/-!
# Scopes, modules and registries

A scope gives names their symbols, one symbol to a name, in the order in which they were defined. A module is
an id with the scope that it exports; a registry holds the modules that can be imported, one to an id.
-/

namespace Registrar

/-! ## Scopes -/

/-- Names and what they denote, for one module. -/
structure Scope where
  owner : ModuleId
  symbols : List Symbol := []
deriving DecidableEq, Repr, Inhabited

namespace Scope

/-- What a name denotes. -/
def lookup (scope : Scope) (name : Text) : Option Symbol :=
  scope.symbols.find? (·.name == name)

/-- The function that a name denotes. -/
def lookupFunction (scope : Scope) (name : Text) : Option FunctionSymbol :=
  match scope.lookup name with
  | some (.function f) => some f
  | _ => none

/-- Whether a name denotes something. -/
def contains (scope : Scope) (name : Text) : Bool := (scope.lookup name).isSome

/-- The scope in which the symbol's name denotes it; `none` if the name is taken. -/
def define? (scope : Scope) (symbol : Symbol) : Option Scope :=
  if scope.contains symbol.name then none
  else some { scope with symbols := scope.symbols ++ [symbol] }

/-- The scope in which the symbol's name denotes it, unless the name is taken. -/
def define (scope : Scope) (symbol : Symbol) : Scope := (scope.define? symbol).getD scope

/-- The scope of some symbols: of two with one name the first counts. -/
def ofSymbols (owner : ModuleId) (symbols : List Symbol) : Scope :=
  symbols.foldl define { owner }

end Scope

/-! ## Modules -/

/-- A module as it is seen by those that import it. -/
structure Module where
  id : ModuleId
  exports : Scope
deriving DecidableEq, Repr, Inhabited

/-- The module that exports some symbols. -/
def Module.ofSymbols (id : ModuleId) (symbols : List Symbol) : Module := ⟨id, .ofSymbols id symbols⟩

/-- The modules that can be imported. -/
structure Registry where
  modules : List Module := []
deriving DecidableEq, Repr, Inhabited

namespace Registry

/-- The module of an id. -/
def find? (registry : Registry) (id : ModuleId) : Option Module :=
  registry.modules.find? (·.id == id)

/-- The registry with a module; it takes the place of one with the same id. -/
def add (registry : Registry) (module : Module) : Registry :=
  if (registry.find? module.id).isSome then
    { modules := registry.modules.map fun m => if m.id == module.id then module else m }
  else { modules := registry.modules ++ [module] }

end Registry

end Registrar
