import Registrar.Ty.Assignable
import Registrar.Unit.Tree

/-!
# Valid units

What every pass must keep: each function is bound to its own symbol, and each call goes to a function that can
be seen, with arguments that fit. The first fault that is met counts. Default values of parameters are not
looked at.

The expressions of a function are met by a walk with a stack: the last statement comes first, and of the
arguments of a call the last one. `walk` ends because the number of expressions on and under the stack falls by
one with every step.
-/

namespace Registrar

/-! ## The walk -/

mutual
/-- How many expressions there are in an expression, itself included. -/
def Expr.weight : Expr → Nat
  | .literal _ _ _ => 1
  | .ref _ _ _ _ => 1
  | .call _ _ args _ _ _ => 1 + Expr.weights args

/-- How many expressions there are in some expressions. -/
def Expr.weights : List Expr → Nat
  | [] => 0
  | e :: es => Expr.weight e + Expr.weights es
end

namespace Expr

theorem weights_append (es fs : List Expr) : weights (es ++ fs) = weights es + weights fs := by
  induction es with
  | nil => simp [weights]
  | cons e es ih => simp only [List.cons_append, weights, ih]; omega

theorem weights_reverse (es : List Expr) : weights es.reverse = weights es := by
  induction es with
  | nil => rfl
  | cons e es ih => simp only [List.reverse_cons, weights_append, weights, ih]; omega

/-- An expression weighs one more than its arguments. -/
theorem weight_eq (e : Expr) : e.weight = 1 + weights e.args := by
  cases e <;> simp [weight, weights, args]

/-- The expressions on and under a stack, of which the first is the top. -/
def walk : List Expr → List Expr
  | [] => []
  | e :: stack => e :: walk (e.args.reverse ++ stack)
termination_by stack => weights stack
decreasing_by simp only [weights_append, weights_reverse, weights, weight_eq e]; omega

end Expr

/-- The expressions of the body of a function, in the order in which the walk meets them. -/
def FunctionDecl.exprs (f : FunctionDecl) : List Expr :=
  Expr.walk (f.body.filterMap Stmt.expr?).reverse

/-! ## Faults -/

/-- What makes a unit invalid. -/
inductive ValidityFault where
  /-- A function whose name does not denote it. -/
  | unbound (name : Text) (unit : ModuleId)
  /-- A reference to a function that its name does not denote. -/
  | unboundReference (inside name : Text)
  /-- A call into a module that is not imported. -/
  | unimported (inside callee : Text) (owner : ModuleId)
  /-- A call of a function that its owner does not bind to its name. -/
  | unboundCallee (inside callee : Text) (owner : ModuleId)
  /-- A call of what is no function. -/
  | notFunction (inside : Text) (callee : Symbol)
  | wrongCount (inside callee : Text) (count : Nat)
  | wrongArgument (inside callee : Text) (index : Nat) (type : Ty)
  /-- A call whose type is not the result type of its function. -/
  | wrongType (inside callee : Text) (type : Ty)
deriving DecidableEq, Repr

/-- The fault in words. -/
def ValidityFault.message : ValidityFault → Text
  | .unbound name unit =>
    "function '" ++ name ++ "' is not bound to its own symbol in unit " ++ unit.render
  | .unboundReference inside name =>
    "'" ++ inside ++ "' references unbound function '" ++ name ++ "'"
  | .unimported inside callee owner =>
    "'" ++ inside ++ "' calls '" ++ callee ++ "' from unimported module " ++ owner.render
  | .unboundCallee inside callee owner =>
    "'" ++ inside ++ "' calls '" ++ callee ++ "' which is not bound in " ++ owner.render
  | .notFunction inside callee => "'" ++ inside ++ "' calls '" ++ callee.name ++ "' which is not a function"
  | .wrongCount inside callee count =>
    "'" ++ inside ++ "' calls '" ++ callee ++ "' with " ++ Text.ofNat count ++ " arguments"
  | .wrongArgument inside callee index type =>
    "'" ++ inside ++ "' passes " ++ type.describe ++ " as argument " ++ Text.ofNat (index + 1) ++ " of '" ++
      callee ++ "'"
  | .wrongType inside callee type =>
    "call to '" ++ callee ++ "' in '" ++ inside ++ "' has type " ++ type.describe

namespace CompilationUnit

/-! ## Checks -/

/-- The scope of a module as the unit sees it: its own, or what the last import of the module gives. -/
def scopeOf? (unit : CompilationUnit) (id : ModuleId) : Option Scope :=
  if id = unit.id then some unit.scope
  else (unit.imports.reverse.find? (·.id == id)).map (·.module.exports)

/-- Whether the arguments, counted from `index`, fit. An argument of which no type is asked does not. -/
def checkArgs (inside : Text) (callee : FunctionSymbol) (index : Nat) :
    List Expr → Except ValidityFault Unit
  | [] => .ok ()
  | arg :: args =>
    if (callee.paramTypeAt index).any arg.type.isAssignable then checkArgs inside callee (index + 1) args
    else .error (.wrongArgument inside callee.name index arg.type)

/-- Checks that a call fits the function that it goes to. -/
def checkFit (inside : Text) (callee : FunctionSymbol) (args : List Expr) (type : Ty) :
    Except ValidityFault Unit := do
  if callee.arity.admits args.length = false then throw (.wrongCount inside callee.name args.length)
  checkArgs inside callee 0 args
  if callee.type.ret?.any (· ≠ type) then throw (.wrongType inside callee.name type)

/-- Checks that the callee of a call is bound to its name by its owner. -/
def checkBound (unit : CompilationUnit) (inside : Text) (callee : Symbol) : Except ValidityFault Unit := do
  let owner := callee.base.owner
  let some scope := unit.scopeOf? owner | throw (.unimported inside callee.name owner)
  if scope.lookup callee.name ≠ some callee then throw (.unboundCallee inside callee.name owner)

/-- Checks a call inside a function. -/
def checkCall (unit : CompilationUnit) (inside : Text) (callee : Symbol) (args : List Expr) (type : Ty) :
    Except ValidityFault Unit := do
  unit.checkBound inside callee
  match callee with
  | .function f => checkFit inside f args type
  | other => throw (.notFunction inside other)

/-- Checks an expression inside a function, its arguments apart. -/
def checkExpr (unit : CompilationUnit) (inside : Text) : Expr → Except ValidityFault Unit
  | .literal _ _ _ => .ok ()
  | .ref name (.function f) _ _ =>
    if unit.scope.lookup name = some (.function f) then .ok () else .error (.unboundReference inside name)
  | .ref _ _ _ _ => .ok ()
  | .call _ callee args type _ _ => unit.checkCall inside callee args type

/-- Checks that every function is bound to its own symbol. -/
def validateSymbols (unit : CompilationUnit) : Except ValidityFault Unit :=
  unit.functions.forM fun f =>
    if unit.scope.lookup f.name = some (.function f.symbol) then .ok () else .error (.unbound f.name unit.id)

/-- Checks all expressions in the bodies of the functions. -/
def validateCalls (unit : CompilationUnit) : Except ValidityFault Unit :=
  unit.functions.forM fun f => f.exprs.forM (unit.checkExpr f.name)

/-- Checks a unit. -/
def validate (unit : CompilationUnit) : Except ValidityFault Unit := do
  unit.validateSymbols
  unit.validateCalls

end CompilationUnit

end Registrar
