import Registrar.Proofs.Rows
import Registrar.Unit.Tree

/-!
# Units without places

A unit and its parts with every span taken out. Two units with one and the same unplaced form differ in nothing but
where their parts are said to stand.
-/

namespace Registrar

/-! ## Expressions and statements -/

mutual
/-- The expression without spans. -/
def Expr.unplaced : Expr → Expr
  | .literal value type _ => .literal value type .unknown
  | .ref name symbol type _ => .ref name symbol type .unknown
  | .call name callee args type qualifier _ => .call name callee (Expr.unplacedAll args) type qualifier .unknown

/-- Expressions without spans. -/
def Expr.unplacedAll : List Expr → List Expr
  | [] => []
  | e :: es => Expr.unplaced e :: Expr.unplacedAll es
end

@[simp] theorem Expr.type_unplaced (x : Expr) : x.unplaced.type = x.type := by
  cases x <;> simp [Expr.unplaced, Expr.type]

theorem Expr.unplacedAll_eq_map (xs : List Expr) : Expr.unplacedAll xs = xs.map Expr.unplaced := by
  induction xs with
  | nil => rfl
  | cons x xs ih => rw [Expr.unplacedAll, ih, List.map_cons]

/-- Expressions that differ in spans only have one type. -/
theorem Expr.type_eq_of_unplaced {x y : Expr} (h : x.unplaced = y.unplaced) : x.type = y.type := by
  rw [← x.type_unplaced, h, y.type_unplaced]

/-- The statement without spans. -/
def Stmt.unplaced : Stmt → Stmt
  | .expr e _ => .expr e.unplaced .unknown
  | .ret value _ => .ret (value.map Expr.unplaced) .unknown

/-! ## Declarations -/

/-- The marker without its span. -/
def Marker.unplaced (m : Marker) : Marker := { m with span := .unknown }

/-- The parameter without spans. -/
def Param.unplaced (p : Param) : Param := { p with default := p.default.map Expr.unplaced, span := .unknown }

/-- The function without spans. -/
def FunctionDecl.unplaced (f : FunctionDecl) : FunctionDecl :=
  { f with
    body := f.body.map Stmt.unplaced
    required := f.required.map Param.unplaced
    defaultable := f.defaultable.map Param.unplaced
    rest := f.rest.map Param.unplaced
    markers := f.markers.map Marker.unplaced
    span := .unknown }

theorem FunctionDecl.params_unplaced (f : FunctionDecl) : f.unplaced.params = f.params.map Param.unplaced := by
  simp [FunctionDecl.params, FunctionDecl.unplaced, Option.toList_map]

/-- The record type without its span. -/
def TypeDecl.unplaced (t : TypeDecl) : TypeDecl := { t with span := .unknown }

/-- The import without its span. -/
def ImportDecl.unplaced (i : ImportDecl) : ImportDecl := { i with span := .unknown }

@[simp] theorem ImportDecl.qualifier_unplaced (i : ImportDecl) : i.unplaced.qualifier = i.qualifier := rfl

/-- The unit without spans. -/
def CompilationUnit.unplaced (unit : CompilationUnit) : CompilationUnit :=
  { unit with
    imports := unit.imports.map ImportDecl.unplaced
    types := unit.types.map TypeDecl.unplaced
    functions := unit.functions.map FunctionDecl.unplaced
    span := .unknown }

/-! ## Signatures -/

/-- The symbol that a function of a module gets from its signature. -/
def FunctionDecl.signatureSymbol (id : ModuleId) (d : FunctionDecl) : FunctionSymbol :=
  { name := d.name, owner := id, stamp := .declared, type := functionType d.params d.returnType
    isPublic := d.isPublic, requiredCount := some d.required.length, variadic := d.rest.isSome }

/-- Two functions with one signature, places and the defaults of the defaultable parameters aside. -/
structure FunctionDecl.SameSignature (decl d : FunctionDecl) : Prop where
  name : decl.name = d.name
  isPublic : decl.isPublic = d.isPublic
  returnType : decl.returnType = d.returnType
  markers : decl.markers.map Marker.unplaced = d.markers.map Marker.unplaced
  required : decl.required.map Param.unplaced = d.required.map Param.unplaced
  defaultable : List.Forall₂ (fun p q => p.name = q.name ∧ p.type = q.type) decl.defaultable d.defaultable
  rest : decl.rest.map Param.unplaced = d.rest.map Param.unplaced

theorem FunctionDecl.SameSignature.bindings {decl d : FunctionDecl} (h : decl.SameSignature d) :
    decl.params.map (fun p => (p.name, p.type)) = d.params.map fun p => (p.name, p.type) := by
  have hrequired := congrArg (List.map fun p : Param => (p.name, p.type)) h.required
  have hrest := congrArg (fun o => o.toList.map fun p : Param => (p.name, p.type)) h.rest
  have hdefaultable : decl.defaultable.map (fun p => (p.name, p.type)) = d.defaultable.map fun p => (p.name, p.type) :=
    map_eq_of_forall₂ h.defaultable fun _ hpq => Prod.ext hpq.1 hpq.2
  simp only [List.map_map, Option.toList_map, Function.comp_def, Param.unplaced] at hrequired hrest
  simp only [FunctionDecl.params, List.map_append, hrequired, hdefaultable, hrest]

theorem FunctionDecl.SameSignature.symbol {decl d : FunctionDecl} (h : decl.SameSignature d) (id : ModuleId) :
    decl.signatureSymbol id = d.signatureSymbol id := by
  have htypes := congrArg (List.map Prod.snd) h.bindings
  simp only [List.map_map, Function.comp_def] at htypes
  have hcount : decl.required.length = d.required.length := by simpa using congrArg List.length h.required
  have hrest : decl.rest.isSome = d.rest.isSome := by simpa using congrArg Option.isSome h.rest
  rw [signatureSymbol, signatureSymbol, functionType, functionType, h.name, h.isPublic, h.returnType, hcount, hrest]
  rw [show decl.params.map Param.type = d.params.map Param.type from htypes]

end Registrar
