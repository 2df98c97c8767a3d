import Registrar.Scope
import Registrar.Surface.Tree

/-!
# Units

A module in which every name has its meaning: expressions carry their types, references and calls the symbols
that they denote. This is what the resolver makes of a program, what the handler pass adds to, and what the
printer writes.
-/

namespace Registrar

/-! ## Expressions and statements -/

/-- An expression with its type. A call keeps the prefix by which it was written; that its callee is a function
is a matter of validity. -/
inductive Expr where
  | literal (value : Value) (type : Ty) (span : Span)
  | ref (name : Text) (symbol : Symbol) (type : Ty) (span : Span)
  | call (name : Text) (callee : Symbol) (args : List Expr) (type : Ty) (qualifier : Option Text)
      (span : Span)
deriving Repr, Inhabited

namespace Expr

/-- The type of the value of an expression. -/
def type : Expr → Ty
  | .literal _ type _ => type
  | .ref _ _ type _ => type
  | .call _ _ _ type _ _ => type

/-- The arguments of a call; another expression has none. -/
def args : Expr → List Expr
  | .call _ _ args _ _ _ => args
  | _ => []

end Expr

/-- A statement. -/
inductive Stmt where
  | expr (e : Expr) (span : Span)
  | ret (value : Option Expr) (span : Span)
deriving Repr, Inhabited

/-- The expression of a statement; `return` may have none. -/
def Stmt.expr? : Stmt → Option Expr
  | .expr e _ => some e
  | .ret value _ => value

/-! ## Declarations -/

/-- A tag attached to a function. -/
structure Marker where
  symbol : TagSymbol
  tag : Text
  qualifier : Option Text := none
  span : Span := {}
deriving DecidableEq, Repr, Inhabited

/-- A parameter. -/
structure Param where
  name : Text
  type : Ty
  default : Option Expr := none
  span : Span := {}
deriving Repr, Inhabited

/-- A function with its parameters by kind. -/
structure FunctionDecl where
  name : Text
  symbol : FunctionSymbol
  returnType : Ty
  body : List Stmt := []
  required : List Param := []
  defaultable : List Param := []
  rest : Option Param := none
  markers : List Marker := []
  isPublic : Bool := false
  span : Span := {}
deriving Repr, Inhabited

namespace FunctionDecl

/-- All parameters, in the order in which a call binds them. -/
def params (f : FunctionDecl) : List Param := f.required ++ f.defaultable ++ f.rest.toList

/-- The function with one more statement at the end of its body. -/
def addStmt (f : FunctionDecl) (s : Stmt) : FunctionDecl := { f with body := f.body ++ [s] }

end FunctionDecl

/-- The type of a function with some parameters. -/
def functionType (params : List Param) (ret : Ty) : Ty := .function (params.map Param.type) (some ret)

/-- A record type of the unit. -/
structure TypeDecl where
  name : Text
  type : Ty
  span : Span := {}
deriving DecidableEq, Repr, Inhabited

/-- An import. -/
structure ImportDecl where
  id : ModuleId
  module : Module
  asName : Option Text := none
  span : Span := {}
deriving DecidableEq, Repr, Inhabited

/-- The prefix by which the unit names what it imports: the alias, unless it is empty, or the name of the
module. -/
def ImportDecl.qualifier (i : ImportDecl) : Text := (i.asName.filter (· ≠ [])).getD i.id.name

/-- A resolved module. -/
structure CompilationUnit where
  id : ModuleId
  scope : Scope
  imports : List ImportDecl := []
  types : List TypeDecl := []
  functions : List FunctionDecl := []
  span : Span := {}
deriving Repr, Inhabited

namespace CompilationUnit

/-- The first import of a module. -/
def findImport? (unit : CompilationUnit) (id : ModuleId) : Option ImportDecl :=
  unit.imports.find? (·.id == id)

/-- The first function of a name. -/
def findFunction? (unit : CompilationUnit) (name : Text) : Option FunctionDecl :=
  unit.functions.find? (·.name == name)

/-- The unit with one more function at its end. -/
def addFunction (unit : CompilationUnit) (f : FunctionDecl) : CompilationUnit :=
  { unit with functions := unit.functions ++ [f] }

/-- The unit with the first function of a name changed. -/
def modifyFunction (unit : CompilationUnit) (name : Text) (change : FunctionDecl → FunctionDecl) :
    CompilationUnit :=
  { unit with functions := unit.functions.modify (unit.functions.findIdx (·.name == name)) change }

end CompilationUnit

end Registrar
