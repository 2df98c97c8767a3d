import Mathlib.Data.List.Perm.Basic
import Registrar.Proofs.Resolve.Meaning
import Registrar.Unit.Validity

/-!
# What a valid unit is

The walk over a function meets every expression of its body once (`exprs_perm`), so that a unit is valid exactly if
each function is what its name denotes and each expression passes the check (`validate_eq_ok`). A fault comes from a
function or from an expression that does not pass (`validate_eq_error`).
-/

namespace Registrar

/-! ## The walk meets every expression once -/

mutual
/-- An expression and all expressions in it. -/
def Expr.parts : Expr → List Expr
  | .literal value type span => [.literal value type span]
  | .ref name symbol type span => [.ref name symbol type span]
  | .call name callee args type qualifier span =>
    .call name callee args type qualifier span :: Expr.partsAll args

/-- Expressions in a row and all expressions in them. -/
def Expr.partsAll : List Expr → List Expr
  | [] => []
  | e :: es => Expr.parts e ++ Expr.partsAll es
end

namespace Expr

theorem parts_eq (e : Expr) : e.parts = e :: partsAll e.args := by
  cases e <;> simp [parts, partsAll, args]

theorem partsAll_eq_flatMap (es : List Expr) : partsAll es = es.flatMap parts := by
  induction es with
  | nil => rfl
  | cons e es ih => rw [partsAll, ih, List.flatMap_cons]

/-- The walk meets each expression on or under the stack as often as it stands there. -/
theorem walk_perm (stack : List Expr) : (walk stack).Perm (partsAll stack) := by
  induction stack using walk.induct with
  | case1 => simp [walk, partsAll]
  | case2 e stack ih =>
    rw [walk, partsAll, parts_eq, List.cons_append]
    refine List.Perm.cons e (ih.trans ?_)
    rw [partsAll_eq_flatMap, partsAll_eq_flatMap, partsAll_eq_flatMap, List.flatMap_append]
    exact ((List.reverse_perm e.args).flatMap_right parts).append_right _

end Expr

/-- The expressions of a function are the parts of its statements. -/
theorem FunctionDecl.exprs_perm (f : FunctionDecl) :
    f.exprs.Perm ((f.body.filterMap Stmt.expr?).flatMap Expr.parts) := by
  refine (Expr.walk_perm _).trans ?_
  rw [Expr.partsAll_eq_flatMap]
  exact (List.reverse_perm _).flatMap_right _

theorem FunctionDecl.mem_exprs {f : FunctionDecl} {e : Expr} :
    e ∈ f.exprs ↔ ∃ s ∈ f.body, ∃ x, s.expr? = some x ∧ e ∈ x.parts := by
  rw [f.exprs_perm.mem_iff]
  simp only [List.mem_flatMap, List.mem_filterMap]
  exact ⟨fun ⟨x, ⟨s, hs, hx⟩, he⟩ => ⟨s, hs, x, hx, he⟩, fun ⟨s, hs, x, hx, he⟩ => ⟨x, ⟨s, hs, hx⟩, he⟩⟩

/-! ## Checks in a row -/

section

variable {ε α : Type} {check : α → Except ε Unit} {xs : List α}

theorem forM_eq_ok : xs.forM check = .ok () ↔ ∀ x ∈ xs, check x = .ok () := by
  induction xs with
  | nil => simp [List.forM, pure, Except.pure]
  | cons x xs ih =>
    rw [List.forM_eq_forM, List.forM_cons, ← List.forM_eq_forM, List.forall_mem_cons, ← ih]
    cases check x <;> simp [bind, Except.bind]

/-- The fault of a row of checks is the fault of one of them. -/
theorem exists_of_forM_eq_error {e : ε} (h : xs.forM check = .error e) : ∃ x ∈ xs, check x = .error e := by
  induction xs with
  | nil => simp [List.forM, pure, Except.pure] at h
  | cons x xs ih =>
    rw [List.forM_eq_forM, List.forM_cons, ← List.forM_eq_forM] at h
    cases hx : check x with
    | ok u =>
      rw [hx] at h
      obtain ⟨y, hy, he⟩ := ih h
      exact ⟨y, List.mem_cons_of_mem x hy, he⟩
    | error e' =>
      rw [hx] at h
      obtain rfl := Except.error.inj h
      exact ⟨x, List.mem_cons_self, hx⟩

end

namespace CompilationUnit

variable {unit : CompilationUnit}

/-! ## Valid units -/

/-- A unit is valid exactly if each function is bound to its own symbol and each expression passes. -/
theorem validate_eq_ok :
    unit.validate = .ok () ↔
      (∀ f ∈ unit.functions, unit.scope.lookup f.name = some (.function f.symbol)) ∧
        ∀ f ∈ unit.functions, ∀ e ∈ f.exprs, unit.checkExpr f.name e = .ok () := by
  have hsymbols : unit.validateSymbols = .ok () ↔
      ∀ f ∈ unit.functions, unit.scope.lookup f.name = some (.function f.symbol) := by
    rw [validateSymbols, forM_eq_ok]
    simp
  have hcalls : unit.validateCalls = .ok () ↔
      ∀ f ∈ unit.functions, ∀ e ∈ f.exprs, unit.checkExpr f.name e = .ok () := by
    simp only [validateCalls, forM_eq_ok]
  rw [← hsymbols, ← hcalls, validate]
  cases hs : unit.validateSymbols with
  | ok u => simp [bind, Except.bind]
  | error e => simp [bind, Except.bind]

/-- Where each function is bound to its own symbol, a fault is that of an expression. -/
theorem validate_eq_error {fault : ValidityFault}
    (hbound : ∀ f ∈ unit.functions, unit.scope.lookup f.name = some (.function f.symbol))
    (h : unit.validate = .error fault) :
    ∃ f ∈ unit.functions, ∃ e ∈ f.exprs, unit.checkExpr f.name e = .error fault := by
  have hsymbols : unit.validateSymbols = .ok () := by
    rw [validateSymbols, forM_eq_ok]
    intro f hf
    rw [if_pos (hbound f hf)]
  rw [validate, hsymbols] at h
  obtain ⟨f, hf, h⟩ := exists_of_forM_eq_error h
  obtain ⟨e, he, h⟩ := exists_of_forM_eq_error h
  exact ⟨f, hf, e, he, h⟩

/-! ## Calls that pass -/

theorem checkBound_eq_ok {inside : Text} {callee : Symbol} :
    unit.checkBound inside callee = .ok () ↔
      ∃ scope, unit.scopeOf? callee.base.owner = some scope ∧ scope.lookup callee.name = some callee := by
  unfold checkBound
  dsimp only
  cases unit.scopeOf? callee.base.owner with
  | none => simp [throw, throwThe, MonadExceptOf.throw]
  | some scope =>
    by_cases h : scope.lookup callee.name = some callee
    · simp [h, pure, Except.pure]
    · simp [h, throw, throwThe, MonadExceptOf.throw]

theorem checkArgs_eq_ok {inside : Text} {f : FunctionSymbol} {k : Nat} {args : List Expr} :
    checkArgs inside f k args = .ok () ↔
      ∀ i x, args[i]? = some x → ∃ t, f.paramTypeAt (k + i) = some t ∧ x.type.isAssignable t = true := by
  induction args generalizing k with
  | nil => simp [checkArgs]
  | cons arg args ih =>
    have hany : (f.paramTypeAt k).any arg.type.isAssignable = true ↔
        ∃ t, f.paramTypeAt k = some t ∧ arg.type.isAssignable t = true := by
      cases f.paramTypeAt k <;> simp
    have hsucc : ∀ i, k + 1 + i = k + (i + 1) := by omega
    rw [checkArgs]
    constructor
    · intro h i x hx
      split at h
      · next hfirst =>
        cases i with
        | zero =>
          obtain rfl := Option.some.inj hx
          exact hany.mp hfirst
        | succ i => exact hsucc i ▸ ih.mp h i x hx
      · simp at h
    · intro h
      rw [if_pos (hany.mpr (h 0 arg rfl))]
      exact ih.mpr fun i x hx => hsucc i ▸ h (i + 1) x hx

theorem checkFit_eq_ok {inside : Text} {f : FunctionSymbol} {args : List Expr} {type : Ty} :
    checkFit inside f args type = .ok () ↔ f.Fits args ∧ ∀ r, f.type.ret? = some r → r = type := by
  have hargs : checkArgs inside f 0 args = .ok () ↔
      ∀ i x, args[i]? = some x → ∃ t, f.paramTypeAt i = some t ∧ x.type.isAssignable t = true := by
    rw [checkArgs_eq_ok]
    simp only [Nat.zero_add]
  have hret : f.type.ret?.any (· ≠ type) = false ↔ ∀ r, f.type.ret? = some r → r = type := by
    cases f.type.ret? <;> simp
  unfold checkFit FunctionSymbol.Fits
  rw [← hargs, ← hret]
  cases f.arity.admits args.length with
  | false => simp [throw, throwThe, MonadExceptOf.throw, bind, Except.bind]
  | true =>
    cases checkArgs inside f 0 args with
    | error e => simp [bind, Except.bind]
    | ok u =>
      cases f.type.ret?.any (· ≠ type) <;>
        simp [throw, throwThe, MonadExceptOf.throw, bind, Except.bind, pure, Except.pure]

theorem checkCall_eq_ok {inside : Text} {f : FunctionSymbol} {args : List Expr} {type : Ty} :
    unit.checkCall inside (.function f) args type = .ok () ↔
      unit.checkBound inside (.function f) = .ok () ∧ checkFit inside f args type = .ok () := by
  unfold checkCall
  cases unit.checkBound inside (.function f) <;> simp [bind, Except.bind]

end CompilationUnit

end Registrar
