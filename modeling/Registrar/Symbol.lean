import Registrar.Text.Decimal
import Registrar.Ty

/-!
# Symbols

What a name can denote. Two symbols are one and the same exactly if they are equal, their stamps included: the
stamp tells apart symbols that agree in all else, such as two functions of one name and type of which a unit
declares one and an imported module of the same id exports the other.
-/

namespace Registrar

/-- How a symbol came about. -/
inductive Stamp where
  /-- Exported by a module that comes with the compiler. -/
  | exported
  /-- Declared at the top level of a unit. -/
  | declared
  /-- A parameter of a function. -/
  | parameter
  /-- Made for a generated entry point. -/
  | generated
  /-- Made by hand; the number tells apart those made so. -/
  | assembled (serial : Nat)
deriving DecidableEq, Repr, Inhabited

/-- What all symbols have: a name, the module that owns them, and a stamp. -/
structure SymbolBase where
  name : Text
  owner : ModuleId
  stamp : Stamp
deriving DecidableEq, Repr, Inhabited

/-- A function. Its type lists the parameters of all kinds; `requiredCount` says how many arguments a call
must have (`none`: as many as there are fixed parameters), and `variadic` that the last parameter takes any
number of arguments. -/
structure FunctionSymbol extends SymbolBase where
  type : Ty
  isPublic : Bool := false
  requiredCount : Option Int := none
  variadic : Bool := false
deriving DecidableEq, Repr, Inhabited

/-- A variable: a parameter seen inside its function. -/
structure VariableSymbol extends SymbolBase where
  type : Ty
deriving DecidableEq, Repr, Inhabited

/-- A record type. -/
structure TypeSymbol extends SymbolBase where
  type : Ty
deriving DecidableEq, Repr, Inhabited

/-- A tag: what an annotation attaches to a function. -/
structure TagSymbol extends SymbolBase
deriving DecidableEq, Repr, Inhabited

/-- A module that is only named. -/
structure ModuleSymbol extends SymbolBase
deriving DecidableEq, Repr, Inhabited

/-- What a name denotes. -/
inductive Symbol where
  | function (s : FunctionSymbol)
  | variable (s : VariableSymbol)
  | type (s : TypeSymbol)
  | tag (s : TagSymbol)
  | module (s : ModuleSymbol)
deriving DecidableEq, Repr, Inhabited

namespace Symbol

/-- What the symbol has in common with all others. -/
def base : Symbol → SymbolBase
  | .function s => s.toSymbolBase
  | .variable s => s.toSymbolBase
  | .type s => s.toSymbolBase
  | .tag s => s.toSymbolBase
  | .module s => s.toSymbolBase

/-- The name that the symbol gives a meaning to. -/
def name (s : Symbol) : Text := s.base.name

/-- The type of a symbol that has one. -/
def type? : Symbol → Option Ty
  | .function s => some s.type
  | .variable s => some s.type
  | .type s => some s.type
  | .tag _ | .module _ => none

end Symbol

/-! ## Calls -/

/-- How many arguments a call may have: at least `least`, and at most `most` if that is given. -/
structure Arity where
  least : Int
  most : Option Nat
deriving DecidableEq, Repr

namespace Arity

/-- Whether a call may have `count` arguments. -/
def admits (a : Arity) (count : Nat) : Bool :=
  a.least ≤ count && a.most.all (count ≤ ·)

/-- The bounds in words. -/
def describe (a : Arity) : Text :=
  match a.most with
  | none => "at least " ++ Text.ofInt a.least
  | some most =>
    if (most : Int) = a.least then Text.ofInt a.least else Text.ofInt a.least ++ ".." ++ Text.ofNat most

end Arity

namespace FunctionSymbol

/-- How many arguments a call of the function may have. -/
def arity (f : FunctionSymbol) : Arity :=
  let count := f.type.params.length
  if f.variadic then ⟨f.requiredCount.getD (count - 1), none⟩
  else ⟨f.requiredCount.getD count, some count⟩

/-- The type asked of the argument at an index, counted from zero. A variadic function asks the type of its
last parameter of all that follow the fixed ones. -/
def paramTypeAt (f : FunctionSymbol) (index : Nat) : Option Ty :=
  let params := f.type.params
  if f.variadic then
    if index + 1 < params.length then params[index]? else params.getLast?
  else params[index]?

end FunctionSymbol

namespace TagSymbol

/-- By what a tag is known: the namespace and the name of its module, and its own name. -/
def identity (t : TagSymbol) : Text × Text × Text := (t.owner.space, t.owner.name, t.name)

end TagSymbol

end Registrar
