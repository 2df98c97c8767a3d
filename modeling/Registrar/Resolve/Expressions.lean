import Registrar.Resolve.Names
import Registrar.Ty.Assignable

/-!
# Resolving: expressions and statements

Expressions get their types. A call is checked against the function that it calls: first all arguments are
resolved, then they are counted, then the first that does not fit is reported.
-/

namespace Registrar

/-- The type of a literal. -/
def Value.type : Value → Ty
  | .nil => .nil
  | .bool _ => .boolean
  | .int _ => .int
  | .str _ => .string

/-- The first argument that does not fit, counted from `index`, with the type asked for. An argument of which
no type is asked fits. -/
def FunctionSymbol.misfit? (f : FunctionSymbol) (index : Nat) : List Expr → Option (Nat × Ty × Ty)
  | [] => none
  | arg :: args =>
    match f.paramTypeAt index with
    | some want =>
      if arg.type.isAssignable want then f.misfit? (index + 1) args else some (index, want, arg.type)
    | none => f.misfit? (index + 1) args

namespace Env

/-! ## Expressions -/

/-- A call of a function with some arguments. -/
def checkedCall (env : Env) (callee : Surface.Name) (f : FunctionSymbol) (args : List Expr) :
    Resolved Expr :=
  if f.arity.admits args.length then
    match f.misfit? 0 args with
    | some (index, want, got) =>
      .fail (env.problem callee.position ("argument " ++ Text.ofNat (index + 1) ++ " of '" ++ callee.ident ++
        "' expects " ++ want.describe ++ ", got " ++ got.describe))
    | none =>
      .ok (.call callee.ident (.function f) args (f.type.ret?.getD .nil) callee.qualifier
        (env.span callee.position))
  else
    .fail (env.problem callee.position ("call to '" ++ callee.ident ++ "' expects " ++ f.arity.describe ++
      " arguments, got " ++ Text.ofNat args.length))

mutual
/-- An expression inside a function with some parameters. -/
def expr (env : Env) (params : List Param) : Surface.Expr Value → Resolved Expr
  | .literal v p => .ok (.literal v v.type (env.span p))
  | .name n => (env.value params n).map fun v => .ref n.ident v.symbol v.type (env.span n.position)
  | .call callee args =>
    (env.value params callee).bind fun
      | .variable _ => .fail (env.problem callee.position ("'" ++ callee.ident ++ "' is not a function"))
      | .function f => (env.exprs params args).bind (env.checkedCall callee f)

/-- Expressions in a row. -/
def exprs (env : Env) (params : List Param) : List (Surface.Expr Value) → Resolved (List Expr)
  | [] => .ok []
  | e :: es => ((env.expr params e).both (env.exprs params es)).map fun (first, others) => first :: others
end

/-! ## Statements -/

/-- A `return` with its value, checked against the result type of its function. -/
def checkedReturn (env : Env) (f : FunctionDecl) (p : Position) (value : Option Expr) : Resolved Stmt :=
  let got := (value.map Expr.type).getD .nil
  if got.isAssignable f.returnType then .ok (.ret value (env.span p))
  else .fail (env.problem p ("return type mismatch in '" ++ f.name ++ "': expected " ++
    f.returnType.describe ++ ", got " ++ got.describe))

/-- A statement of a function. -/
def stmt (env : Env) (f : FunctionDecl) : Surface.Stmt Value → Resolved Stmt
  | .expr e p => (env.expr f.params e).map fun e => .expr e (env.span p)
  | .ret none p => env.checkedReturn f p none
  | .ret (some e) p => (env.expr f.params e).bind fun e => env.checkedReturn f p (some e)

end Env

end Registrar
