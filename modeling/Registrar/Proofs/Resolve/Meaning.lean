import Registrar.Proofs.Resolve.Names
import Registrar.Proofs.Unit.Unplaced
import Registrar.Resolve.Expressions

/-!
# What expressions and statements mean

`Means` relates an expression of the source to a typed expression of a unit: it says of every part which symbol it
denotes, which type it has, and that a call fits its function. Positions and spans play no role in it. It is
parametric in what *fits* says of a call: the resolver accepts an argument of which no type is asked
(`FunctionSymbol.Accepts`), the check of units does not (`FunctionSymbol.Fits`), and for a well-formed function the
two are one (`Accepts.fits`).

`expr_sound` says that what the resolver makes of an expression is a meaning of it, and `Means.expr_eq` that an
expression with a meaning is resolved to it, spans apart.
-/

namespace Registrar

/-! ## Arguments that fit -/

namespace FunctionSymbol

/-- A call has as many arguments as the function takes, and each fits the type that is asked of it, if one is. -/
def Accepts (f : FunctionSymbol) (args : List Expr) : Prop :=
  f.arity.admits args.length = true ∧
    ∀ i x t, args[i]? = some x → f.paramTypeAt i = some t → x.type.isAssignable t = true

/-- A call has as many arguments as the function takes, and of each a type is asked that it fits. -/
def Fits (f : FunctionSymbol) (args : List Expr) : Prop :=
  f.arity.admits args.length = true ∧
    ∀ i x, args[i]? = some x → ∃ t, f.paramTypeAt i = some t ∧ x.type.isAssignable t = true

/-- The symbol of a function as a declaration makes it: the type is that of a function, a rest parameter is one of
the parameters, and no more arguments are required than there are fixed parameters. -/
structure WellFormed (f : FunctionSymbol) : Prop where
  isFunction : f.type.isFunction = true
  variadic_params : f.variadic = true → f.type.params ≠ []
  required_le : ∀ n, f.requiredCount = some n →
    n ≤ if f.variadic then f.type.params.length - 1 else f.type.params.length

/-- Of every argument that a well-formed function takes a type is asked. -/
theorem WellFormed.paramTypeAt_isSome {f : FunctionSymbol} (hf : f.WellFormed) {count i : Nat}
    (hc : f.arity.admits count = true) (hi : i < count) : ∃ t, f.paramTypeAt i = some t := by
  unfold arity Arity.admits at hc
  unfold paramTypeAt
  by_cases hv : f.variadic = true
  · rw [if_pos hv]
    split
    · next hlt => exact ⟨_, List.getElem?_eq_getElem (by omega)⟩
    · exact ⟨_, List.getLast?_eq_some_getLast (hf.variadic_params hv)⟩
  · rw [if_neg hv] at hc ⊢
    simp only [Option.all_some, Bool.and_eq_true, decide_eq_true_eq] at hc
    exact ⟨_, List.getElem?_eq_getElem (by omega)⟩

/-- For a well-formed function the two readings of a fitting call are one. -/
theorem Accepts.fits {f : FunctionSymbol} {args : List Expr} (hf : f.WellFormed) (h : f.Accepts args) :
    f.Fits args := by
  refine ⟨h.1, fun i x hx => ?_⟩
  obtain ⟨hi, -⟩ := List.getElem?_eq_some_iff.mp hx
  obtain ⟨t, ht⟩ := hf.paramTypeAt_isSome h.1 hi
  exact ⟨t, ht, h.2 i x t hx ht⟩

/-- No argument is a misfit exactly if each fits what is asked of it. -/
theorem misfit?_eq_none {f : FunctionSymbol} {k : Nat} {args : List Expr} :
    f.misfit? k args = none ↔
      ∀ i x t, args[i]? = some x → f.paramTypeAt (k + i) = some t → x.type.isAssignable t = true := by
  induction args generalizing k with
  | nil => simp [misfit?]
  | cons arg args ih =>
    -- the arguments behind the first are counted from `k + 1`
    have htail : (∀ i x t, args[i]? = some x → f.paramTypeAt (k + 1 + i) = some t →
          x.type.isAssignable t = true) ↔
        ∀ i x t, (arg :: args)[i + 1]? = some x → f.paramTypeAt (k + (i + 1)) = some t →
          x.type.isAssignable t = true := by
      simp only [List.getElem?_cons_succ, Nat.add_assoc, Nat.add_comm 1]
    rw [misfit?]
    constructor
    · intro h i x t hx ht
      cases i with
      | zero =>
        obtain rfl := Option.some.inj hx
        rw [show f.paramTypeAt k = some t from ht] at h
        by_contra hn
        simp [hn] at h
      | succ i =>
        refine htail.mp (ih.mp ?_) i x t hx ht
        split at h
        · split at h
          · exact h
          · simp at h
        · exact h
    · intro h
      have hrest : f.misfit? (k + 1) args = none := ih.mpr (htail.mpr fun i => h (i + 1))
      split
      · next want hwant => rw [if_pos (h 0 arg want rfl hwant), hrest]
      · exact hrest

end FunctionSymbol

/-! ## Expressions -/

mutual
/-- What an expression means inside a function with some parameters. -/
inductive Means (env : Env) (fits : FunctionSymbol → List Expr → Prop) (params : List Param) :
    Surface.Expr Value → Expr → Prop
  | literal {v : Value} {p : Position} {span : Span} :
      Means env fits params (.literal v p) (.literal v v.type span)
  | ref {n : Surface.Name} {v : ValueSymbol} {span : Span} (hn : env.Names params n v) :
      Means env fits params (.name n) (.ref n.ident v.symbol v.type span)
  | call {n : Surface.Name} {f : FunctionSymbol} {args : List (Surface.Expr Value)} {xs : List Expr} {span : Span}
      (hn : env.Names params n (.function f)) (hargs : MeansAll env fits params args xs) (hfits : fits f xs) :
      Means env fits params (.call n args)
        (.call n.ident (.function f) xs (f.type.ret?.getD .nil) n.qualifier span)

/-- What expressions in a row mean. -/
inductive MeansAll (env : Env) (fits : FunctionSymbol → List Expr → Prop) (params : List Param) :
    List (Surface.Expr Value) → List Expr → Prop
  | nil : MeansAll env fits params [] []
  | cons {e : Surface.Expr Value} {es : List (Surface.Expr Value)} {x : Expr} {xs : List Expr}
      (h : Means env fits params e x) (hs : MeansAll env fits params es xs) :
      MeansAll env fits params (e :: es) (x :: xs)
end

/-! ### Arguments in a row -/

/-- Whether a call is accepted is a matter of the types of its arguments. -/
theorem FunctionSymbol.Accepts.of_types {f : FunctionSymbol} {xs ys : List Expr} (h : f.Accepts xs)
    (heq : ys.map Expr.type = xs.map Expr.type) : f.Accepts ys := by
  have hlen : ys.length = xs.length := by simpa using congrArg List.length heq
  refine ⟨by rw [hlen]; exact h.1, fun i y t hy ht => ?_⟩
  have hget := congrArg (·[i]?) heq
  simp only [List.getElem?_map, hy, Option.map_some] at hget
  obtain ⟨x, hx, hxy⟩ := Option.map_eq_some_iff.mp hget.symm
  rw [← hxy]
  exact h.2 i x t hx ht

theorem FunctionSymbol.Accepts.of_unplaced {f : FunctionSymbol} {xs ys : List Expr} (h : f.Accepts xs)
    (heq : ys.map Expr.unplaced = xs.map Expr.unplaced) : f.Accepts ys :=
  h.of_types (map_eq_of_forall₂ (map_eq_map_iff_forall₂.mp heq) fun _ hx => Expr.type_eq_of_unplaced hx)

namespace Env

open Resolved

variable {env env' : Env} {params params' : List Param}

/-! ### The resolver gives meanings -/

theorem settled_checkedCall (env : Env) (n : Surface.Name) (f : FunctionSymbol) (args : List Expr) :
    (env.checkedCall n f args).Settled := by
  unfold checkedCall
  split
  · split
    · exact settled_fail (env.problem_isError _ _)
    · exact settled_ok _
  · exact settled_fail (env.problem_isError _ _)

theorem checkedCall_value {n : Surface.Name} {f : FunctionSymbol} {args : List Expr} {x : Expr} :
    (env.checkedCall n f args).value = some x ↔
      f.Accepts args ∧
        x = .call n.ident (.function f) args (f.type.ret?.getD .nil) n.qualifier (env.span n.position) := by
  have hmisfit : f.misfit? 0 args = none ↔
      ∀ i x t, args[i]? = some x → f.paramTypeAt i = some t → x.type.isAssignable t = true := by
    rw [FunctionSymbol.misfit?_eq_none]
    simp only [Nat.zero_add]
  unfold checkedCall FunctionSymbol.Accepts
  rw [← hmisfit]
  by_cases hc : f.arity.admits args.length = true
  · rw [if_pos hc]
    cases hm : f.misfit? 0 args <;> simp [hc, eq_comm]
  · simp [hc]

mutual
/-- What the resolver makes of an expression is a meaning of it. -/
theorem expr_sound (htop : env.scope.TopLevel) : (e : Surface.Expr Value) → {x : Expr} →
    (env.expr params e).value = some x → Means env FunctionSymbol.Accepts params e x
  | .literal v p, x, h => by
    rw [expr] at h
    obtain rfl := Option.some.inj h
    exact .literal
  | .name n, x, h => by
    rw [expr, map_value, Option.map_eq_some_iff] at h
    obtain ⟨v, hv, rfl⟩ := h
    exact .ref (names_of_value htop hv)
  | .call n args, x, h => by
    rw [expr, bind_value, Option.bind_eq_some_iff] at h
    obtain ⟨v, hv, h⟩ := h
    rcases v with f | v
    · obtain ⟨xs, hxs, hcall⟩ := Option.bind_eq_some_iff.mp ((bind_value _ _).symm.trans h)
      obtain ⟨hacc, rfl⟩ := checkedCall_value.mp hcall
      exact .call (names_of_value htop hv) (exprs_sound htop args hxs) hacc
    · simp at h

theorem exprs_sound (htop : env.scope.TopLevel) : (es : List (Surface.Expr Value)) → {xs : List Expr} →
    (env.exprs params es).value = some xs → MeansAll env FunctionSymbol.Accepts params es xs
  | [], xs, h => by
    rw [exprs] at h
    obtain rfl := Option.some.inj h
    exact .nil
  | e :: es, xs, h => by
    rw [exprs, map_value, Option.map_eq_some_iff] at h
    obtain ⟨⟨y, ys⟩, hboth, rfl⟩ := h
    obtain ⟨hy, hys⟩ := both_value_eq_some.mp hboth
    exact .cons (expr_sound htop e hy) (exprs_sound htop es hys)
end

mutual
/-- An expression with a meaning is resolved to it, spans apart. -/
theorem Means.expr_eq : {e : Surface.Expr Value} → {x : Expr} → Means env FunctionSymbol.Accepts params e x →
    ∃ y, (env.expr params e).value = some y ∧ y.unplaced = x.unplaced
  | _, _, .literal => ⟨_, by rw [expr]; rfl, by simp [Expr.unplaced]⟩
  | _, _, .ref hn => ⟨_, by rw [expr, map_value, hn.value_eq]; rfl, by simp [Expr.unplaced]⟩
  | _, _, @Means.call _ _ _ n f _ xs _ hn hargs hacc => by
    obtain ⟨ys, hys, heq⟩ := MeansAll.exprs_eq hargs
    refine ⟨.call n.ident (.function f) ys (f.type.ret?.getD .nil) n.qualifier (env.span n.position), ?_, ?_⟩
    · rw [expr, bind_value, hn.value_eq, Option.bind_some, bind_value, hys, Option.bind_some]
      exact checkedCall_value.mpr ⟨hacc.of_unplaced heq, rfl⟩
    · simp [Expr.unplaced, Expr.unplacedAll_eq_map, heq]

theorem MeansAll.exprs_eq : {es : List (Surface.Expr Value)} → {xs : List Expr} →
    MeansAll env FunctionSymbol.Accepts params es xs →
    ∃ ys, (env.exprs params es).value = some ys ∧ ys.map Expr.unplaced = xs.map Expr.unplaced
  | _, _, .nil => ⟨[], by rw [exprs]; rfl, rfl⟩
  | _, _, .cons h hs => by
    obtain ⟨y, hy, heq⟩ := Means.expr_eq h
    obtain ⟨ys, hys, heqs⟩ := MeansAll.exprs_eq hs
    refine ⟨y :: ys, ?_, ?_⟩
    · rw [exprs, map_value, both_value hy hys]
      rfl
    · rw [List.map_cons, List.map_cons, heq, heqs]
end

mutual
theorem settled_expr (env : Env) (params : List Param) : (e : Surface.Expr Value) → (env.expr params e).Settled
  | .literal v p => by
    rw [expr]
    exact settled_ok _
  | .name n => by
    rw [expr]
    exact (env.settled_value params n).map _
  | .call n args => by
    rw [expr]
    refine (env.settled_value params n).bind fun v => ?_
    rcases v with f | v
    · exact (settled_exprs env params args).bind fun xs => env.settled_checkedCall n f xs
    · exact settled_fail (env.problem_isError _ _)

theorem settled_exprs (env : Env) (params : List Param) : (es : List (Surface.Expr Value)) →
    (env.exprs params es).Settled
  | [] => by
    rw [exprs]
    exact settled_ok _
  | e :: es => by
    rw [exprs]
    exact ((settled_expr env params e).both (settled_exprs env params es)).map _
end

end Env

/-! ## Statements -/

/-- What a statement means inside a function with some parameters and a result type. -/
inductive StmtMeans (env : Env) (fits : FunctionSymbol → List Expr → Prop) (params : List Param) (ret : Ty) :
    Surface.Stmt Value → Stmt → Prop
  | expr {e : Surface.Expr Value} {x : Expr} {p : Position} {span : Span} (h : Means env fits params e x) :
      StmtMeans env fits params ret (.expr e p) (.expr x span)
  | retNone {p : Position} {span : Span} (hr : Ty.nil.isAssignable ret = true) :
      StmtMeans env fits params ret (.ret none p) (.ret none span)
  | retSome {e : Surface.Expr Value} {x : Expr} {p : Position} {span : Span} (h : Means env fits params e x)
      (hr : x.type.isAssignable ret = true) :
      StmtMeans env fits params ret (.ret (some e) p) (.ret (some x) span)

/-- The expression of a statement; `return` may have none. -/
def Surface.Stmt.expr? {L : Type} : Surface.Stmt L → Option (Surface.Expr L)
  | .ret value _ => value
  | .expr e _ => some e

theorem StmtMeans.expr_right {env : Env} {fits : FunctionSymbol → List Expr → Prop} {params : List Param} {ret : Ty}
    {s : Surface.Stmt Value} {t : Stmt} (h : StmtMeans env fits params ret s t) {x : Expr} (hx : t.expr? = some x) :
    ∃ e, s.expr? = some e ∧ Means env fits params e x := by
  cases h with
  | expr h => exact ⟨_, rfl, Option.some.inj hx ▸ h⟩
  | retNone => simp [Stmt.expr?] at hx
  | retSome h => exact ⟨_, rfl, Option.some.inj hx ▸ h⟩

theorem StmtMeans.expr_left {env : Env} {fits : FunctionSymbol → List Expr → Prop} {params : List Param} {ret : Ty}
    {s : Surface.Stmt Value} {t : Stmt} (h : StmtMeans env fits params ret s t) {e : Surface.Expr Value}
    (he : s.expr? = some e) : ∃ x, t.expr? = some x ∧ Means env fits params e x := by
  cases h with
  | expr h => exact ⟨_, rfl, Option.some.inj he ▸ h⟩
  | retNone => simp [Surface.Stmt.expr?] at he
  | retSome h => exact ⟨_, rfl, Option.some.inj he ▸ h⟩

namespace Env

open Resolved

variable {env env' : Env} {params params' : List Param}

theorem settled_checkedReturn (env : Env) (f : FunctionDecl) (p : Position) (value : Option Expr) :
    (env.checkedReturn f p value).Settled := by
  unfold checkedReturn
  dsimp only
  split
  · exact settled_ok _
  · exact settled_fail (env.problem_isError _ _)

theorem checkedReturn_value {f : FunctionDecl} {p : Position} {value : Option Expr} {t : Stmt} :
    (env.checkedReturn f p value).value = some t ↔
      ((value.map Expr.type).getD .nil).isAssignable f.returnType = true ∧ t = .ret value (env.span p) := by
  unfold checkedReturn
  by_cases hr : ((value.map Expr.type).getD .nil).isAssignable f.returnType = true
  · simp [hr, eq_comm]
  · simp [hr]

theorem settled_stmt (env : Env) (f : FunctionDecl) (s : Surface.Stmt Value) : (env.stmt f s).Settled := by
  rcases s with ⟨_ | e, p⟩ | ⟨e, p⟩
  · exact env.settled_checkedReturn f p none
  · exact (env.settled_expr f.params e).bind fun x => env.settled_checkedReturn f p (some x)
  · exact (env.settled_expr f.params e).map _

/-- What the resolver makes of a statement is a meaning of it. -/
theorem stmt_sound (htop : env.scope.TopLevel) {f : FunctionDecl} {s : Surface.Stmt Value} {t : Stmt}
    (h : (env.stmt f s).value = some t) : StmtMeans env FunctionSymbol.Accepts f.params f.returnType s t := by
  rcases s with ⟨_ | e, p⟩ | ⟨e, p⟩
  · obtain ⟨hr, rfl⟩ := checkedReturn_value.mp h
    exact .retNone hr
  · rw [stmt, bind_value, Option.bind_eq_some_iff] at h
    obtain ⟨x, hx, hret⟩ := h
    obtain ⟨hr, rfl⟩ := checkedReturn_value.mp hret
    exact .retSome (expr_sound htop e hx) hr
  · rw [stmt, map_value, Option.map_eq_some_iff] at h
    obtain ⟨x, hx, rfl⟩ := h
    exact .expr (expr_sound htop e hx)

/-- A statement with a meaning is resolved to it, spans apart. -/
theorem stmt_eq_of_means {f : FunctionDecl} {s : Surface.Stmt Value} {t : Stmt}
    (h : StmtMeans env FunctionSymbol.Accepts f.params f.returnType s t) :
    ∃ u, (env.stmt f s).value = some u ∧ u.unplaced = t.unplaced := by
  cases h with
  | expr h =>
    obtain ⟨y, hy, heq⟩ := Means.expr_eq h
    exact ⟨_, by rw [stmt, map_value, hy]; rfl, by simp [Stmt.unplaced, heq]⟩
  | retNone hr => exact ⟨_, checkedReturn_value.mpr ⟨hr, rfl⟩, by simp [Stmt.unplaced]⟩
  | @retSome e x p span h hr =>
    obtain ⟨y, hy, heq⟩ := Means.expr_eq h
    refine ⟨.ret (some y) (env.span p), ?_, by simp [Stmt.unplaced, heq]⟩
    rw [stmt, bind_value, hy]
    refine checkedReturn_value.mpr ⟨?_, rfl⟩
    rw [← Expr.type_eq_of_unplaced heq] at hr
    exact hr

/-! ## Where the meaning is the same -/

/-- Two environments in which every name has one meaning. -/
structure Agrees (env env' : Env) : Prop where
  id : env.id = env'.id
  scope : env.scope = env'.scope
  modules : ∀ q, (env.imports.find? (·.qualifier == q)).map (·.module) =
    (env'.imports.find? (·.qualifier == q)).map (·.module)

theorem Names.congr (h : env.Agrees env')
    (hp : params.map (fun p => (p.name, p.type)) = params'.map fun p => (p.name, p.type))
    {n : Surface.Name} {v : ValueSymbol} (hn : env.Names params n v) : env'.Names params' n v := by
  cases hn with
  | @parameter p hq hfind =>
    have hrev := congrArg (fun l => l.reverse.find? fun b => b.1 == n.ident) hp
    simp only [← List.map_reverse, List.find?_map, Function.comp_def, hfind, Option.map_some] at hrev
    obtain ⟨p', hp', hsame⟩ := Option.map_eq_some_iff.mp hrev.symm
    obtain ⟨hname, htype⟩ := Prod.mk.inj hsame
    have hvar : env.variableOf p = env'.variableOf p' := by
      simp only [variableOf, hname, htype, h.id]
    rw [hvar]
    exact .parameter hq hp'
  | own hq hnone hf =>
    refine .own hq (fun p' hp' heq => ?_) (h.scope ▸ hf)
    have hmem : (p'.name, p'.type) ∈ params.map fun p => (p.name, p.type) := by
      rw [hp]
      exact List.mem_map_of_mem hp'
    obtain ⟨p, hp, hsame⟩ := List.mem_map.mp hmem
    exact hnone p hp ((Prod.mk.inj hsame).1.trans heq)
  | @imported q i _ hq hi hv =>
    have hmod := h.modules q
    rw [hi, Option.map_some] at hmod
    obtain ⟨i', hi', hsame⟩ := Option.map_eq_some_iff.mp hmod.symm
    exact .imported hq hi' (hsame ▸ hv)

end Env

section

variable {env env' : Env} {fits fits' : FunctionSymbol → List Expr → Prop} {params params' : List Param}

mutual
/-- A meaning is kept where every name keeps its meaning and every call that fits still does. -/
theorem Means.transfer (hnames : ∀ {n v}, env.Names params n v → env'.Names params' n v)
    (hfits : ∀ {n f xs}, env.Names params n (.function f) → fits f xs → fits' f xs) :
    {e : Surface.Expr Value} → {x : Expr} → Means env fits params e x → Means env' fits' params' e x
  | _, _, .literal => .literal
  | _, _, .ref hn => .ref (hnames hn)
  | _, _, .call hn hargs hf => .call (hnames hn) (MeansAll.transfer hnames hfits hargs) (hfits hn hf)

theorem MeansAll.transfer (hnames : ∀ {n v}, env.Names params n v → env'.Names params' n v)
    (hfits : ∀ {n f xs}, env.Names params n (.function f) → fits f xs → fits' f xs) :
    {es : List (Surface.Expr Value)} → {xs : List Expr} → MeansAll env fits params es xs →
    MeansAll env' fits' params' es xs
  | _, _, .nil => .nil
  | _, _, .cons h hs => .cons (Means.transfer hnames hfits h) (MeansAll.transfer hnames hfits hs)
end

theorem StmtMeans.transfer (hnames : ∀ {n v}, env.Names params n v → env'.Names params' n v)
    (hfits : ∀ {n f xs}, env.Names params n (.function f) → fits f xs → fits' f xs) {ret : Ty}
    {s : Surface.Stmt Value} {t : Stmt} (h : StmtMeans env fits params ret s t) :
    StmtMeans env' fits' params' ret s t := by
  cases h with
  | expr h => exact .expr (h.transfer hnames hfits)
  | retNone hr => exact .retNone hr
  | retSome h hr => exact .retSome (h.transfer hnames hfits) hr

end

end Registrar
