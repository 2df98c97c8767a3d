import Mathlib.Data.List.Induction
import Mathlib.Logic.Function.Iterate
import Registrar.Proofs.Unit.Validity

/-!
# The walk as a loop over a stack

The walk over a function takes the top off a stack, yields it, and puts its arguments on the stack, until nothing is
left. A step can make the stack longer, so its length says nothing about the end. What falls with every step is the
number of expressions on and under the stack, and what stays is what has been yielded together with what the rest of the
walk meets (`ExprLoop.step_invariant`).

Where an expression occurs is a place: the index of a statement and then, going down, the indices of arguments. The walk
ends, and takes every place of the body once (`exprs_exhaustive`).
-/

namespace Registrar

/-! ## The loop -/

/-- The state of the loop: the stack, of which the first expression is the top, and what was yielded so far. -/
structure ExprLoop where
  stack : List Expr
  yielded : List Expr := []

namespace ExprLoop

/-- The loop at its start: the expressions of the statements are on the stack, that of the last statement on top. -/
def start (f : FunctionDecl) : ExprLoop := { stack := (f.body.filterMap Stmt.expr?).reverse }

/-- One step: the top is yielded and its arguments take its place, the last one on top. With an empty stack the loop is
over. -/
def step : ExprLoop → ExprLoop
  | ⟨[], yielded⟩ => ⟨[], yielded⟩
  | ⟨e :: stack, yielded⟩ => ⟨e.args.reverse ++ stack, yielded ++ [e]⟩

/-- A step keeps what is yielded in the end, and takes one off what is still to come. -/
theorem step_invariant (loop : ExprLoop) :
    loop.step.yielded ++ Expr.walk loop.step.stack = loop.yielded ++ Expr.walk loop.stack ∧
      (Expr.walk loop.step.stack).length = (Expr.walk loop.stack).length - 1 := by
  obtain ⟨stack, yielded⟩ := loop
  cases stack with
  | nil => exact ⟨rfl, by rw [step, Expr.walk]; rfl⟩
  | cons e stack =>
    rw [step, Expr.walk.eq_2 e stack]
    exact ⟨by simp, rfl⟩

theorem iterate_step_invariant (loop : ExprLoop) (n : Nat) :
    (step^[n] loop).yielded ++ Expr.walk (step^[n] loop).stack = loop.yielded ++ Expr.walk loop.stack ∧
      (Expr.walk (step^[n] loop).stack).length = (Expr.walk loop.stack).length - n := by
  induction n with
  | zero => exact ⟨rfl, rfl⟩
  | succ n ih =>
    obtain ⟨hmeets, hlength⟩ := step_invariant (step^[n] loop)
    rw [Function.iterate_succ_apply']
    refine ⟨hmeets.trans ih.1, ?_⟩
    rw [hlength, ih.2]
    omega

end ExprLoop

/-- Something is met as long as there is something on the stack. -/
theorem Expr.walk_eq_nil_iff {stack : List Expr} : walk stack = [] ↔ stack = [] := by
  cases stack with
  | nil => simp [walk]
  | cons e stack => simp [walk]

/-- The loop is over after as many steps as the walk meets expressions, and not before. -/
theorem ExprLoop.stack_eq_nil_iff (loop : ExprLoop) (n : Nat) :
    (step^[n] loop).stack = [] ↔ (Expr.walk loop.stack).length ≤ n := by
  rw [← Expr.walk_eq_nil_iff, ← List.length_eq_zero_iff, (loop.iterate_step_invariant n).2]
  omega

/-- After some steps the loop has yielded as many expressions of the walk. -/
theorem ExprLoop.yielded_eq (loop : ExprLoop) (n : Nat) :
    (step^[n] loop).yielded = loop.yielded ++ (Expr.walk loop.stack).take n := by
  obtain ⟨hmeets, hlength⟩ := loop.iterate_step_invariant n
  have hsplit : (step^[n] loop).yielded ++ Expr.walk (step^[n] loop).stack =
      loop.yielded ++ (Expr.walk loop.stack).take n ++ (Expr.walk loop.stack).drop n := by
    rw [hmeets, List.append_assoc, List.take_append_drop]
  exact (List.append_inj' hsplit (by rw [hlength, List.length_drop])).1

/-! ## Places -/

/-- What stands at a place of an expression: at no index the expression itself, and behind an index what stands in that
argument at the rest of the place. -/
def Expr.at? : Expr → List Nat → Option Expr
  | e, [] => some e
  | e, i :: place => e.args[i]?.bind (·.at? place)

/-- What stands at a place below parts in a row: the first index says in which of them. -/
def below {α : Type} (at? : α → List Nat → Option Expr) (parts : List α) : List Nat → Option Expr
  | [] => none
  | i :: place => parts[i]?.bind (at? · place)

theorem below_concat {α : Type} (at? : α → List Nat → Option Expr) (xs : List α) (x : α) (i : Nat) (place : List Nat) :
    below at? (xs ++ [x]) (i :: place) = if i = xs.length then at? x place else below at? xs (i :: place) := by
  rw [below, below]
  rcases Nat.lt_trichotomy i xs.length with hi | rfl | hi
  · rw [if_neg (by omega), List.getElem?_append_left hi]
  · rw [if_pos rfl, List.getElem?_concat_length, Option.bind_some]
  · rw [if_neg (by omega), List.getElem?_eq_none (by simp; omega), List.getElem?_eq_none (by omega)]

/-- What stands at a place of the body of a function: an expression of a statement, or an argument in one at any
depth. -/
def FunctionDecl.exprAt? (f : FunctionDecl) : List Nat → Option Expr :=
  below (fun s place => s.expr?.bind (·.at? place)) f.body

/-- The expressions are what stands at the places that `at?` knows, and each place is taken once. -/
def ListsOnce (at? : List Nat → Option Expr) (es : List Expr) : Prop :=
  ∃ places : List (List Nat), places.Nodup ∧ (∀ place, place ∈ places ↔ (at? place).isSome) ∧
    List.Forall₂ (fun place e => at? place = some e) places es

namespace ListsOnce

theorem perm {at? : List Nat → Option Expr} {es es' : List Expr} (h : ListsOnce at? es) (hperm : es'.Perm es) :
    ListsOnce at? es' := by
  obtain ⟨places, hnodup, hmem, hat⟩ := h
  obtain ⟨places', hat', hsame⟩ := List.perm_comp_forall₂ hperm hat.flip
  exact ⟨places', hsame.nodup_iff.mpr hnodup, fun place => hsame.mem_iff.trans (hmem place), hat'.flip⟩

/-- An expression in front of what stands below it. -/
theorem whole {e : Expr} {es : List Expr} (h : ListsOnce (below Expr.at? e.args) es) :
    ListsOnce e.at? (e :: es) := by
  obtain ⟨places, hnodup, hmem, hat⟩ := h
  have hfresh : [] ∉ places := by simp [hmem, below]
  refine ⟨[] :: places, List.nodup_cons.mpr ⟨hfresh, hnodup⟩, fun place => ?_, .cons rfl ?_⟩
  · cases place with
    | nil => simp [Expr.at?]
    | cons i place => simp [hmem, below, Expr.at?]
  · refine hat.imp fun place x hx => ?_
    cases place with
    | nil => cases hx
    | cons i place => exact hx

/-- Parts in a row. What stands in the last part is told apart from the rest by the first index of its place. -/
theorem row {α : Type} {at? : α → List Nat → Option Expr} {parts : α → List Expr} {xs : List α}
    (h : ∀ x ∈ xs, ListsOnce (at? x) (parts x)) : ListsOnce (below at? xs) (xs.flatMap parts) := by
  induction xs using List.reverseRecOn with
  | nil => exact ⟨[], .nil, by rintro (_ | _) <;> simp [below], .nil⟩
  | append_singleton xs x ih =>
    obtain ⟨places, hnodup, hmem, hat⟩ := ih fun y hy => h y (List.mem_append_left [x] hy)
    obtain ⟨last, hnodup', hmem', hat'⟩ := h x (List.mem_append_right xs List.mem_cons_self)
    have hfresh : ∀ place, xs.length :: place ∉ places := by simp [hmem, below]
    have hkept : ∀ place ∈ places, below at? (xs ++ [x]) place = below at? xs place := by
      rintro (_ | ⟨i, place⟩) hplace
      · rfl
      · rw [below_concat, if_neg]
        rintro rfl
        exact hfresh place hplace
    refine ⟨places ++ last.map (xs.length :: ·), ?_, ?_, ?_⟩
    · refine List.nodup_append.mpr ⟨hnodup, hnodup'.map fun _ _ => (List.cons.inj · |>.2), ?_⟩
      rintro place hplace _ hnew rfl
      obtain ⟨place, -, rfl⟩ := List.mem_map.mp hnew
      exact hfresh place hplace
    · rintro (_ | ⟨i, place⟩)
      · simp [hmem, below]
      · by_cases hi : i = xs.length
        · simp [below_concat, hi, hfresh, hmem']
        · simp [below_concat, hi, hmem, Ne.symm hi]
    · rw [List.flatMap_append, List.flatMap_singleton]
      refine List.rel_append ?_ ?_
      · exact (forall₂_imp_of_mem hat.flip fun hplace hx => (hkept _ hplace).trans hx).flip
      · rw [List.forall₂_map_left_iff]
        exact hat'.imp fun place e he => by rwa [below_concat, if_pos rfl]

end ListsOnce

theorem Expr.weight_lt_of_mem_args {e x : Expr} (h : x ∈ e.args) : x.weight < e.weight := by
  obtain ⟨front, back, hargs⟩ := List.append_of_mem h
  rw [weight_eq e, hargs, weights_append, weights]
  omega

/-- The parts of an expression are what stands at its places. -/
theorem Expr.listsOnce_parts (e : Expr) : ListsOnce e.at? e.parts := by
  rw [parts_eq, partsAll_eq_flatMap]
  exact ListsOnce.whole (.row fun x hx => x.listsOnce_parts)
termination_by e.weight
decreasing_by exact weight_lt_of_mem_args hx

theorem Stmt.listsOnce_parts (s : Stmt) :
    ListsOnce (fun place => s.expr?.bind (·.at? place)) (s.expr?.toList.flatMap Expr.parts) := by
  cases s.expr? with
  | none => exact ⟨[], .nil, by simp, .nil⟩
  | some e => simpa using e.listsOnce_parts

theorem FunctionDecl.listsOnce_exprs (f : FunctionDecl) : ListsOnce f.exprAt? f.exprs := by
  refine .perm ?_ f.exprs_perm
  rw [List.filterMap_eq_flatMap_toList, List.flatMap_assoc]
  exact .row fun s _ => s.listsOnce_parts

/-- The walk over a function ends: the loop is over after as many steps as it yields expressions, one in each step. It
yields the expression of each statement that has one and every argument of every call in it, at every depth, once for
each place at which it occurs, and nothing else. -/
theorem FunctionDecl.exprs_exhaustive (f : FunctionDecl) :
    (∀ n, (ExprLoop.step^[n] (.start f)).stack = [] ↔ f.exprs.length ≤ n) ∧
      (∀ n, (ExprLoop.step^[n] (.start f)).yielded = f.exprs.take n) ∧ ListsOnce f.exprAt? f.exprs :=
  ⟨(ExprLoop.start f).stack_eq_nil_iff, (ExprLoop.start f).yielded_eq, f.listsOnce_exprs⟩

end Registrar
