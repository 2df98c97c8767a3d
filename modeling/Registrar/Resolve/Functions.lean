import Registrar.Resolve.Expressions

/-!
# Resolving: functions

A function is resolved in two steps: first its signature, of all functions, so that bodies can refer to each
of them, and then its default values and its body.
-/

namespace Registrar

namespace Env

/-! ## Signatures -/

/-- A parameter, still without its default. -/
def param (env : Env) (p : Surface.Param Value) : Resolved Param :=
  (env.typeExpr p.type).map fun type => { name := p.name, type, span := env.span p.position }

/-- A parameter with its kind. -/
def kindedParam (env : Env) (p : Surface.Param Value) : Resolved (Surface.ParamKind Value × Param) :=
  (env.param p).map fun q => (p.kind, q)

/-- The type of a function's result; without one it is nil. -/
def result (env : Env) : Option Surface.TypeExpr → Resolved Ty
  | none => .ok .nil
  | some t => env.typeExpr t

/-- The declaration of a function from its resolved parts: the parameters by kind, and the symbol that the
signature gives it. -/
def declaration (env : Env) (f : Surface.Function Value) (markers : List Marker)
    (params : List (Surface.ParamKind Value × Param)) (ret : Ty) : FunctionDecl :=
  let required := params.filterMap fun | (.required, p) => some p | _ => none
  let defaultable := params.filterMap fun | (.defaultable _, p) => some p | _ => none
  let rest := (params.filterMap fun | (.rest, p) => some p | _ => none).getLast?
  { name := f.name
    symbol :=
      { name := f.name, owner := env.id, stamp := .declared
        type := functionType (required ++ defaultable ++ rest.toList) ret
        isPublic := f.isPublic, requiredCount := some required.length, variadic := rest.isSome }
    returnType := ret, required, defaultable, rest, markers
    isPublic := f.isPublic, span := env.span f.position }

/-- The signature of a function: markers, parameters and result are all resolved. -/
def signature (env : Env) (f : Surface.Function Value) : Resolved FunctionDecl :=
  ((Resolved.all env.marker f.tags).both
    ((Resolved.all env.kindedParam f.params).both (env.result f.returns))).map
    fun (markers, params, ret) => env.declaration f markers params ret

/-! ## Bodies -/

/-- The default value written for a parameter of a name: of several the last. -/
def writtenDefault? (params : List (Surface.Param Value)) (name : Text) : Option (Surface.Expr Value) :=
  (params.reverse.filterMap fun p =>
    match p.kind with
    | .defaultable e => if p.name = name then some e else none
    | _ => none).head?

/-- A parameter with its default, which sees no parameters. Without a meaning it stays without a default. -/
def withDefault (env : Env) (f : Surface.Function Value) (p : Param) : Param × List Diagnostic :=
  match writtenDefault? f.params p.name with
  | none => (p, [])
  | some e =>
    let r := env.expr [] e
    ({ p with default := r.value }, r.diagnostics)

/-- The function with its defaults and those statements of its body that have a meaning. -/
def body (env : Env) (f : Surface.Function Value) (decl : FunctionDecl) :
    FunctionDecl × List Diagnostic :=
  let defaults := decl.defaultable.map (env.withDefault f)
  let stmts := f.body.map (env.stmt decl)
  ({ decl with defaultable := defaults.map Prod.fst, body := stmts.filterMap Resolved.value },
    defaults.flatMap Prod.snd ++ stmts.flatMap Resolved.diagnostics)

end Env

end Registrar
