import Registrar.Proofs.Unit.Validity

/-!
# What the check of units sees

`CompilationUnit.Admits` says of an expression, its arguments apart, what has to hold of it in a unit, and
`Expr.OccursIn` which expressions there are, at every depth. The check finds each of them that stands in a body and asks
just that of it, but it does not look at the default values of parameters. So a unit passes exactly if its functions are
bound and all that occurs in bodies is admitted; it may pass without being sound, and then it is a default that is not
admitted (`validate_exact`).
-/

namespace Registrar

/-! ## Occurrences -/

/-- The expression `e` stands somewhere in another one, perhaps as the whole of it. -/
inductive Expr.OccursIn (e : Expr) : Expr → Prop
  | here : e.OccursIn e
  | under {x arg : Expr} (harg : arg ∈ x.args) (h : e.OccursIn arg) : e.OccursIn x

namespace Expr

variable {e : Expr}

mutual
theorem occursIn_of_mem_parts : {x : Expr} → e ∈ x.parts → e.OccursIn x
  | .literal _ _ _, h | .ref _ _ _ _, h => by
    rw [List.mem_singleton.mp h]
    exact .here
  | .call _ _ args _ _ _, h => by
    rcases List.mem_cons.mp h with rfl | h
    · exact .here
    · obtain ⟨arg, harg, h⟩ := occursIn_of_mem_partsAll h
      exact .under harg h

theorem occursIn_of_mem_partsAll : {xs : List Expr} → e ∈ partsAll xs → ∃ x ∈ xs, e.OccursIn x
  | [], h => by simp [partsAll] at h
  | x :: xs, h => by
    rcases List.mem_append.mp h with h | h
    · exact ⟨x, List.mem_cons_self, occursIn_of_mem_parts h⟩
    · obtain ⟨y, hy, h⟩ := occursIn_of_mem_partsAll h
      exact ⟨y, List.mem_cons_of_mem x hy, h⟩
end

/-- The parts of an expression are what occurs in it. -/
theorem mem_parts_iff {x : Expr} : e ∈ x.parts ↔ e.OccursIn x := by
  refine ⟨occursIn_of_mem_parts, fun h => ?_⟩
  induction h with
  | here =>
    rw [parts_eq]
    exact List.mem_cons_self
  | @under x arg harg _ ih =>
    rw [parts_eq, partsAll_eq_flatMap]
    exact List.mem_cons_of_mem x (List.mem_flatMap.mpr ⟨arg, harg, ih⟩)

end Expr

namespace FunctionDecl

/-- The expression occurs in a statement of the function. -/
def HasInBody (f : FunctionDecl) (e : Expr) : Prop := ∃ s ∈ f.body, ∃ x, s.expr? = some x ∧ e.OccursIn x

/-- The expression occurs in the default value of a parameter. -/
def HasInDefault (f : FunctionDecl) (e : Expr) : Prop := ∃ p ∈ f.params, ∃ x, p.default = some x ∧ e.OccursIn x

/-- The walk meets what occurs in the body. -/
theorem mem_exprs_iff {f : FunctionDecl} {e : Expr} : e ∈ f.exprs ↔ f.HasInBody e := by
  simp only [mem_exprs, Expr.mem_parts_iff, HasInBody]

end FunctionDecl

namespace CompilationUnit

/-! ## What is asked of an expression -/

/-- The scope that a unit sees of a module: its own, or that of an imported module. If a module is imported several
times, the last import counts. -/
inductive Sees (unit : CompilationUnit) : ModuleId → Scope → Prop
  | own : unit.Sees unit.id unit.scope
  | imported {i : ImportDecl} {before after : List ImportDecl} (hid : i.id ≠ unit.id)
      (hi : unit.imports = before ++ i :: after) (hlast : ∀ j ∈ after, j.id ≠ i.id) :
      unit.Sees i.id i.module.exports

/-- A call fits its function: the function is what its owner binds to its name, there are as many arguments as it takes,
each of a type that fits the one asked of it, and the call has the type of its result, if that is known. -/
structure CallFits (unit : CompilationUnit) (f : FunctionSymbol) (args : List Expr) (type : Ty) : Prop where
  bound : ∃ scope, unit.Sees f.owner scope ∧ scope.lookup f.name = some (.function f)
  count : f.arity.admits args.length = true
  types : ∀ i x, args[i]? = some x → ∃ t, f.paramTypeAt i = some t ∧ x.type.isAssignable t = true
  result : ∀ r, f.type.ret? = some r → type = r

/-- What has to hold of an expression in a unit, its arguments apart: a reference to a function is to the one that the
unit binds to the name, and a call is to a function that it fits. -/
inductive Admits (unit : CompilationUnit) : Expr → Prop
  | literal {value : Value} {type : Ty} {span : Span} : unit.Admits (.literal value type span)
  | other {name : Text} {symbol : Symbol} {type : Ty} {span : Span} (h : ∀ f, symbol ≠ .function f) :
      unit.Admits (.ref name symbol type span)
  | function {name : Text} {f : FunctionSymbol} {type : Ty} {span : Span}
      (h : unit.scope.lookup name = some (.function f)) : unit.Admits (.ref name (.function f) type span)
  | call {name : Text} {f : FunctionSymbol} {args : List Expr} {type : Ty} {qualifier : Option Text} {span : Span}
      (h : unit.CallFits f args type) : unit.Admits (.call name (.function f) args type qualifier span)

/-- Each function is bound to its own symbol, and each expression of the unit, in bodies and in default values, is
admitted. -/
structure Sound (unit : CompilationUnit) : Prop where
  functions : ∀ f ∈ unit.functions, unit.scope.lookup f.name = some (.function f.symbol)
  expressions : ∀ f ∈ unit.functions, ∀ e, f.HasInBody e ∨ f.HasInDefault e → unit.Admits e

variable {unit : CompilationUnit} {inside : Text}

/-! ## The check asks that -/

theorem scopeOf?_eq_some {id : ModuleId} {scope : Scope} : unit.scopeOf? id = some scope ↔ unit.Sees id scope := by
  constructor
  · intro h
    rw [scopeOf?] at h
    split at h
    · next hid =>
      obtain rfl := Option.some.inj h
      exact hid ▸ .own
    · next hid =>
      obtain ⟨i, hi, rfl⟩ := Option.map_eq_some_iff.mp h
      obtain ⟨hfound, behind, front, hsplit, hbehind⟩ := List.find?_eq_some_iff_append.mp hi
      obtain rfl : i.id = id := by simpa using hfound
      refine @Sees.imported unit i front.reverse behind.reverse hid ?_ fun j hj => ?_
      · simpa using congrArg List.reverse hsplit
      · simpa using hbehind j (List.mem_reverse.mp hj)
  · intro h
    cases h with
    | own => exact if_pos rfl
    | @imported i before after hid hi hlast =>
      have hfound : unit.imports.reverse.find? (·.id == i.id) = some i := by
        refine List.find?_eq_some_iff_append.mpr ⟨by simp, after.reverse, before.reverse, by simp [hi], fun j hj => ?_⟩
        simpa using hlast j (List.mem_reverse.mp hj)
      rw [scopeOf?, if_neg hid, hfound, Option.map_some]

theorem admits_call {name : Text} {callee : Symbol} {args : List Expr} {type : Ty} {qualifier : Option Text}
    {span : Span} :
    unit.Admits (.call name callee args type qualifier span) ↔
      ∃ f, callee = .function f ∧ unit.CallFits f args type := by
  constructor
  · intro h
    cases h with
    | call h => exact ⟨_, rfl, h⟩
  · rintro ⟨f, rfl, h⟩
    exact .call h

theorem checkCall_eq_ok_iff {callee : Symbol} {args : List Expr} {type : Ty} :
    unit.checkCall inside callee args type = .ok () ↔ ∃ f, callee = .function f ∧ unit.CallFits f args type := by
  cases callee with
  | function f =>
    rw [checkCall_eq_ok, checkBound_eq_ok, checkFit_eq_ok]
    simp only [scopeOf?_eq_some, Symbol.function.injEq, exists_eq_left']
    exact ⟨fun ⟨hbound, hfits, hresult⟩ => ⟨hbound, hfits.1, hfits.2, fun r hr => (hresult r hr).symm⟩,
      fun h => ⟨h.bound, ⟨h.count, h.types⟩, fun r hr => (h.result r hr).symm⟩⟩
  | _ =>
    simp only [checkCall, reduceCtorEq, false_and, exists_false, iff_false]
    cases unit.checkBound inside _ <;> simp [bind, Except.bind, throw, throwThe, MonadExceptOf.throw]

/-- An expression passes exactly if it is admitted. -/
theorem checkExpr_eq_ok {e : Expr} : unit.checkExpr inside e = .ok () ↔ unit.Admits e := by
  cases e with
  | literal => exact ⟨fun _ => .literal, fun _ => rfl⟩
  | ref name symbol type span =>
    cases symbol with
    | function f =>
      have hcheck : unit.checkExpr inside (.ref name (.function f) type span) = .ok () ↔
          unit.scope.lookup name = some (.function f) := by
        rw [checkExpr]
        split <;> simp_all
      rw [hcheck]
      constructor
      · exact .function
      · intro h
        cases h with
        | other h => exact absurd rfl (h f)
        | function h => exact h
    | _ => exact ⟨fun _ => .other (by simp), fun _ => rfl⟩
  | call => exact checkCall_eq_ok_iff.trans admits_call.symm

/-! ## Units -/

/-- A unit passes the check exactly if each function is bound to its own symbol and each expression that occurs in a body
is admitted. The default values are not looked at, so to pass and to be sound is the same exactly for those units that do
not pass and for those in whose defaults everything is admitted. -/
theorem validate_exact (unit : CompilationUnit) :
    (unit.validate = .ok () ↔
      (∀ f ∈ unit.functions, unit.scope.lookup f.name = some (.function f.symbol)) ∧
        ∀ f ∈ unit.functions, ∀ e, f.HasInBody e → unit.Admits e) ∧
      ((unit.validate = .ok () ↔ unit.Sound) ↔
        (unit.validate = .ok () → ∀ f ∈ unit.functions, ∀ e, f.HasInDefault e → unit.Admits e)) := by
  have hbodies : unit.validate = .ok () ↔
      (∀ f ∈ unit.functions, unit.scope.lookup f.name = some (.function f.symbol)) ∧
        ∀ f ∈ unit.functions, ∀ e, f.HasInBody e → unit.Admits e := by
    simp only [validate_eq_ok, FunctionDecl.mem_exprs_iff, checkExpr_eq_ok]
  refine ⟨hbodies, fun h hok f hf e he => (h.mp hok).expressions f hf e (.inr he), fun h => ⟨fun hok => ?_, ?_⟩⟩
  · obtain ⟨hfunctions, hadmits⟩ := hbodies.mp hok
    exact ⟨hfunctions, fun f hf e he => he.elim (hadmits f hf e) (h hok f hf e)⟩
  · exact fun hsound => hbodies.mpr ⟨hsound.functions, fun f hf e he => hsound.expressions f hf e (.inl he)⟩

/-- A call with an argument too many passes as a default value, and does not pass in a body. -/
theorem validate_exact_default :
    let id : ModuleId := ⟨"demo", "app"⟩
    let symbol (name : Text) (params : List Ty) : FunctionSymbol :=
      { name, owner := id, stamp := .declared, type := .function params (some .nil), requiredCount := some 0 }
    let call : Expr := .call "g" (.function (symbol "g" [])) [.literal (.int 1) .int .unknown] .nil none .unknown
    let unit (f : FunctionDecl) : CompilationUnit :=
      { id, scope := .ofSymbols id [.function (symbol "g" []), .function (symbol "f" [.nil])]
        functions := [{ name := "g", symbol := symbol "g" [], returnType := .nil }, f] }
    let careless : FunctionDecl :=
      { name := "f", symbol := symbol "f" [.nil], returnType := .nil
        defaultable := [{ name := "a", type := .nil, default := some call }] }
    (unit careless).validate = .ok () ∧ ¬ (unit careless).Sound ∧
      (unit (careless.addStmt (.expr call .unknown))).validate ≠ .ok () := by
  intro id symbol call unit careless
  have hfits : ∀ f, ¬ (unit f).Admits call := by
    intro f hcall
    obtain ⟨g, hg, h⟩ := admits_call.mp hcall
    obtain rfl := Symbol.function.inj hg
    exact absurd h.count (by decide)
  have hmem : ∀ f, f ∈ (unit f).functions := fun f => List.mem_cons_of_mem _ (List.mem_singleton_self f)
  have hok : (unit careless).validate = .ok () := by
    refine (validate_exact (unit careless)).1.mpr ⟨by decide, fun f hf e he => ?_⟩
    obtain ⟨s, hs, -⟩ := he
    have hempty : f.body = [] := by
      rcases List.mem_cons.mp hf with rfl | hf
      · rfl
      · rw [List.mem_singleton.mp hf]
    simp [hempty] at hs
  have hdefault : careless.HasInDefault call := ⟨_, List.mem_singleton_self _, call, rfl, .here⟩
  refine ⟨hok, fun hsound => ?_, fun hbad => ?_⟩
  · exact hfits careless (hsound.expressions careless (hmem careless) call (.inr hdefault))
  · have hbody : (careless.addStmt (.expr call .unknown)).HasInBody call :=
      ⟨_, List.mem_singleton_self _, call, rfl, .here⟩
    exact hfits _ (((validate_exact _).1.mp hbad).2 _ (hmem _) call hbody)

end CompilationUnit

end Registrar
