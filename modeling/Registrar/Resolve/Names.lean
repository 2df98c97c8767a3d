import Registrar.Resolve.Basic

/-!
# Resolving: types, tags and values

What a name stands for in each of the three places in which names occur.
-/

namespace Registrar

/-- A symbol that is a value: it can be referred to in an expression. -/
inductive ValueSymbol where
  | function (f : FunctionSymbol)
  | variable (v : VariableSymbol)
deriving DecidableEq, Repr

namespace ValueSymbol

/-- The value as a symbol. -/
def symbol : ValueSymbol → Symbol
  | .function f => .function f
  | .variable v => .variable v

/-- The type of the value. -/
def type : ValueSymbol → Ty
  | .function f => f.type
  | .variable v => v.type

end ValueSymbol

/-- The value that a symbol is, if it is one. -/
def Symbol.value? : Symbol → Option ValueSymbol
  | .function f => some (.function f)
  | .variable v => some (.variable v)
  | _ => none

namespace Env

/-! ## Types -/

/-- The type that a name stands for. The built-in names come before those of the scope. -/
def typeName (env : Env) (n : Surface.Name) : Resolved Ty :=
  match n.qualifier with
  | some q =>
    (env.exports q n.position).bind fun scope =>
      match scope.lookup n.ident with
      | some (.type s) => .ok s.type
      | _ => .fail (env.problem n.position ("unknown type '" ++ n.spelled ++ "'"))
  | none =>
    match Ty.builtin? n.ident with
    | some t => .ok t
    | none =>
      match env.scope.lookup n.ident with
      | some (.type s) => .ok s.type
      | _ => .fail (env.problem n.position ("unknown type '" ++ n.spelled ++ "'"))

/-- The type that is written as a name or a union of names. -/
def typeExpr (env : Env) (t : Surface.TypeExpr) : Resolved Ty :=
  (Resolved.all env.typeName t.members).map Ty.unionOf

/-! ## Tags -/

/-- The marker of an annotation. Only imported modules have tags. -/
def marker (env : Env) (t : Surface.Tag) : Resolved Marker :=
  match t.qualifier with
  | none => .fail (env.problem t.position ("unknown annotation '" ++ t.name ++ "'"))
  | some q =>
    (env.exports q t.position).bind fun scope =>
      match scope.lookup t.name with
      | some (.tag s) => .ok { symbol := s, tag := t.name, qualifier := some q, span := env.span t.position }
      | _ => .fail (env.problem t.position ("unknown annotation '" ++ q ++ ":" ++ t.name ++ "'"))

/-! ## Values -/

/-- The variable that a parameter is inside its function. -/
def variableOf (env : Env) (p : Param) : VariableSymbol :=
  { name := p.name, owner := env.id, stamp := .parameter, type := p.type }

/-- The variable of a name: of two parameters with one name the last counts. -/
def findVariable? (env : Env) (params : List Param) (name : Text) : Option VariableSymbol :=
  (params.reverse.find? (·.name == name)).map env.variableOf

/-- What a name in an expression stands for, inside a function with some parameters. -/
def value (env : Env) (params : List Param) (n : Surface.Name) : Resolved ValueSymbol :=
  let found (symbol : Option Symbol) : Resolved ValueSymbol :=
    match symbol.bind Symbol.value? with
    | some v => .ok v
    | none => .fail (env.problem n.position ("undefined symbol '" ++ n.spelled ++ "'"))
  match n.qualifier with
  | some q => (env.exports q n.position).bind fun scope => found (scope.lookup n.ident)
  | none =>
    match env.findVariable? params n.ident with
    | some v => .ok (.variable v)
    | none => found (env.scope.lookup n.ident)

end Env

end Registrar
