import Registrar.Proofs.Handler.Preservation

/-!
# The resolver and the check of units agree but on qualified values

A unit that was resolved without a problem passes the check of units after the handler pass, unless a body refers to a
function of another module as a value: the check looks a reference up in the scope of the unit, whatever module owns
the function. `validate_runPass_iff` says which programs are affected and which fault they get.
-/

namespace Registrar

/-! ## Qualified values -/

namespace Surface

variable {L : Type}

mutual
/-- The qualified names that stand for values in an expression; the names of functions that are called do not. -/
def Expr.qualifiedValues : Expr L → List Name
  | .literal _ _ => []
  | .name n => if n.qualifier.isSome then [n] else []
  | .call _ args => Expr.qualifiedValuesAll args

/-- The qualified names that stand for values in expressions in a row. -/
def Expr.qualifiedValuesAll : List (Expr L) → List Name
  | [] => []
  | e :: es => Expr.qualifiedValues e ++ Expr.qualifiedValuesAll es
end

/-- The qualified names that stand for values in the body of a function. -/
def Function.qualifiedValues (f : Function L) : List Name :=
  (f.body.filterMap Stmt.expr?).flatMap Expr.qualifiedValues

end Surface

/-! ## What a unit sees -/

/-- A unit that sees what an environment names: the functions in scope are its own, and what an import exports is owned
by another module, which the unit imports with the same exports. -/
structure Env.SeenBy (env : Env) (unit : CompilationUnit) : Prop where
  own : ∀ {n f}, env.scope.lookup n = some (.function f) → unit.scope.lookup n = some (.function f)
  owned : ∀ {n f}, unit.scope.lookup n = some (.function f) → f.owner = unit.id
  imported : ∀ {q i n s}, env.imports.find? (·.qualifier == q) = some i → i.module.exports.lookup n = some s →
    s.base.owner ≠ unit.id ∧ unit.scopeOf? s.base.owner = some i.module.exports
  exported : ∀ {q i}, env.imports.find? (·.qualifier == q) = some i → i.module.exports.TopLevel

namespace Env.SeenBy

variable {env : Env} {unit : CompilationUnit} {params : List Param} {n : Surface.Name} (inside : Text)

/-- A function that is named is bound to its name by its owner. -/
theorem checkBound (h : env.SeenBy unit) {f : FunctionSymbol} (hn : env.Names params n (.function f)) :
    unit.checkBound inside (.function f) = .ok () := by
  refine CompilationUnit.checkBound_eq_ok.mpr ?_
  cases hn with
  | own hq hp hf =>
    have hown := h.own hf
    refine ⟨unit.scope, if_pos (h.owned hown), ?_⟩
    rw [Scope.lookup_name hf]
    exact hown
  | @imported q i _ hq hi hv =>
    refine ⟨i.module.exports, (h.imported hi hv).2, ?_⟩
    rw [show (Symbol.function f).name = n.ident from Scope.lookup_name hv]
    exact hv

/-- A call that fits passes. -/
theorem checkCall (h : env.SeenBy unit) {f : FunctionSymbol} {xs : List Expr}
    (hn : env.Names params n (.function f)) (hfits : f.Fits xs) :
    unit.checkCall inside (.function f) xs (f.type.ret?.getD .nil) = .ok () := by
  refine CompilationUnit.checkCall_eq_ok.mpr ⟨h.checkBound inside hn, CompilationUnit.checkFit_eq_ok.mpr ⟨hfits, ?_⟩⟩
  intro r hr
  rw [hr, Option.getD_some]

/-- A reference passes if its name is unqualified. -/
theorem checkRef (h : env.SeenBy unit) {v : ValueSymbol} {type : Ty} {span : Span} (hn : env.Names params n v)
    (hq : n.qualifier = none) : unit.checkExpr inside (.ref n.ident v.symbol type span) = .ok () := by
  cases hn with
  | parameter => rfl
  | own _ _ hf => exact if_pos (h.own hf)
  | imported hq' => simp [hq] at hq'

/-- A reference with a qualified name does not pass. -/
theorem checkRef_qualified (h : env.SeenBy unit) {v : ValueSymbol} {type : Ty} {span : Span}
    (hn : env.Names params n v) (hq : n.qualifier.isSome = true) :
    unit.checkExpr inside (.ref n.ident v.symbol type span) = .error (.unboundReference inside n.ident) := by
  cases hn with
  | parameter hq' => simp [hq'] at hq
  | own hq' => simp [hq'] at hq
  | @imported q i _ hq' hi hv =>
    rcases v with f | v
    · exact if_neg fun hown => (h.imported hi hv).1 (h.owned hown)
    · exact absurd (Scope.lookup_mem hv) (h.exported hi v)

mutual
/-- Each part of an expression passes, or it is a reference by a qualified name. -/
theorem part_checked (h : env.SeenBy unit) : {e : Surface.Expr Value} → {x : Expr} →
    Means env FunctionSymbol.Fits params e x → ∀ y ∈ x.parts, unit.checkExpr inside y = .ok () ∨
      ∃ n ∈ e.qualifiedValues, unit.checkExpr inside y = .error (.unboundReference inside n.ident)
  | _, _, .literal => by
    intro y hy
    rw [List.mem_singleton.mp hy]
    exact .inl rfl
  | _, _, @Means.ref _ _ _ n v span hn => by
    intro y hy
    rw [List.mem_singleton.mp hy]
    cases hq : n.qualifier with
    | none => exact .inl (h.checkRef inside hn hq)
    | some q =>
      have hsome : n.qualifier.isSome = true := by rw [hq]; rfl
      exact .inr ⟨n, by simp [Surface.Expr.qualifiedValues, hsome], h.checkRef_qualified inside hn hsome⟩
  | _, _, .call hn hargs hfits => by
    intro y hy
    rcases List.mem_cons.mp hy with rfl | hy
    · exact .inl (h.checkCall inside hn hfits)
    · exact partsAll_checked h hargs y hy

theorem partsAll_checked (h : env.SeenBy unit) : {es : List (Surface.Expr Value)} → {xs : List Expr} →
    MeansAll env FunctionSymbol.Fits params es xs → ∀ y ∈ Expr.partsAll xs, unit.checkExpr inside y = .ok () ∨
      ∃ n ∈ Surface.Expr.qualifiedValuesAll es,
        unit.checkExpr inside y = .error (.unboundReference inside n.ident)
  | _, _, .nil => by
    intro y hy
    simp [Expr.partsAll] at hy
  | _, _, .cons hx hxs => by
    intro y hy
    rcases List.mem_append.mp hy with hy | hy
    · rcases part_checked h hx y hy with hok | ⟨n, hn, herr⟩
      · exact .inl hok
      · exact .inr ⟨n, List.mem_append_left _ hn, herr⟩
    · rcases partsAll_checked h hxs y hy with hok | ⟨n, hn, herr⟩
      · exact .inl hok
      · exact .inr ⟨n, List.mem_append_right _ hn, herr⟩
end

mutual
/-- Each qualified value of an expression makes a part of it fail. -/
theorem qualifiedValue_fails (h : env.SeenBy unit) : {e : Surface.Expr Value} → {x : Expr} →
    Means env FunctionSymbol.Fits params e x → ∀ n ∈ e.qualifiedValues, ∃ y ∈ x.parts,
      unit.checkExpr inside y = .error (.unboundReference inside n.ident)
  | _, _, .literal => by
    intro n hn
    simp [Surface.Expr.qualifiedValues] at hn
  | _, _, @Means.ref _ _ _ m v span hm => by
    intro n hn
    rw [Surface.Expr.qualifiedValues] at hn
    split at hn
    · next hq =>
      obtain rfl := List.mem_singleton.mp hn
      exact ⟨_, List.mem_singleton_self _, h.checkRef_qualified inside hm hq⟩
    · simp at hn
  | _, _, .call hm hargs hfits => by
    intro n hn
    obtain ⟨y, hy, herr⟩ := qualifiedValuesAll_fail h hargs n hn
    exact ⟨y, List.mem_cons_of_mem _ hy, herr⟩

theorem qualifiedValuesAll_fail (h : env.SeenBy unit) : {es : List (Surface.Expr Value)} → {xs : List Expr} →
    MeansAll env FunctionSymbol.Fits params es xs → ∀ n ∈ Surface.Expr.qualifiedValuesAll es,
      ∃ y ∈ Expr.partsAll xs, unit.checkExpr inside y = .error (.unboundReference inside n.ident)
  | _, _, .nil => by
    intro n hn
    simp [Surface.Expr.qualifiedValuesAll] at hn
  | _, _, .cons hx hxs => by
    intro n hn
    rcases List.mem_append.mp hn with hn | hn
    · obtain ⟨y, hy, herr⟩ := qualifiedValue_fails h hx n hn
      exact ⟨y, List.mem_append_left _ hy, herr⟩
    · obtain ⟨y, hy, herr⟩ := qualifiedValuesAll_fail h hxs n hn
      exact ⟨y, List.mem_append_right _ hy, herr⟩
end

end Env.SeenBy

/-! ## Functions from the source -/

namespace ResolvesTo

variable {registry : Registry} {program : Surface.Program Value} {unit u : CompilationUnit}
  {f : Surface.Function Value} {d : FunctionDecl}

/-- A function about which nothing was reported has a meaning for each statement of its source. -/
theorem body_means (h : ResolvesTo registry program unit) (hreg : registry.WellFormed)
    (hd : unit.env.DeclaresWholly f d) :
    ∃ params ret, List.Forall₂ (StmtMeans unit.env FunctionSymbol.Fits params ret) f.body d.body := by
  obtain ⟨decl, hsig, hbody⟩ := hd
  refine ⟨decl.params, decl.returnType, ?_⟩
  have hall := Env.body_whole (congrArg Prod.snd hbody)
  rw [hbody] at hall
  refine hall.imp fun s t hst => (Env.stmt_sound h.topLevel hst).transfer (fun hn => hn) ?_
  exact fun hn hacc => hacc.fits (h.names_wellFormed hreg hn)

/-- Each expression of a function passes, or it is a reference by a qualified name of the source. -/
theorem exprs_checked (h : ResolvesTo registry program unit) (hreg : registry.WellFormed)
    (hseen : unit.env.SeenBy u) (hd : unit.env.DeclaresWholly f d) (inside : Text) :
    ∀ y ∈ d.exprs, u.checkExpr inside y = .ok () ∨
      ∃ n ∈ f.qualifiedValues, u.checkExpr inside y = .error (.unboundReference inside n.ident) := by
  intro y hy
  obtain ⟨params, ret, hmeans⟩ := h.body_means hreg hd
  obtain ⟨t, ht, x, hx, hyx⟩ := FunctionDecl.mem_exprs.mp hy
  obtain ⟨s, hs, hst⟩ := exists_of_mem_right hmeans ht
  obtain ⟨e, he, hex⟩ := hst.expr_right hx
  rcases hseen.part_checked inside hex y hyx with hok | ⟨n, hn, herr⟩
  · exact .inl hok
  · exact .inr ⟨n, List.mem_flatMap.mpr ⟨e, List.mem_filterMap.mpr ⟨s, hs, he⟩, hn⟩, herr⟩

/-- Each qualified value of the source makes an expression of the function fail. -/
theorem qualifiedValues_fail (h : ResolvesTo registry program unit) (hreg : registry.WellFormed)
    (hseen : unit.env.SeenBy u) (hd : unit.env.DeclaresWholly f d) (inside : Text) :
    ∀ n ∈ f.qualifiedValues, ∃ y ∈ d.exprs,
      u.checkExpr inside y = .error (.unboundReference inside n.ident) := by
  intro n hn
  obtain ⟨params, ret, hmeans⟩ := h.body_means hreg hd
  obtain ⟨e, hmem, hne⟩ := List.mem_flatMap.mp hn
  obtain ⟨s, hs, he⟩ := List.mem_filterMap.mp hmem
  obtain ⟨t, ht, hst⟩ := exists_of_mem_left hmeans hs
  obtain ⟨x, hx, hex⟩ := hst.expr_left he
  obtain ⟨y, hy, herr⟩ := hseen.qualifiedValue_fails inside hex n hne
  exact ⟨y, FunctionDecl.mem_exprs.mpr ⟨t, ht, x, hx, hy⟩, herr⟩

/-- The check of a unit that consists of resolved functions and of more functions that pass. -/
theorem validate_iff (h : ResolvesTo registry program unit) (hreg : registry.WellFormed)
    (hwhole : List.Forall₂ unit.env.DeclaresWholly program.functions unit.functions) (hseen : unit.env.SeenBy u)
    {more : List FunctionDecl} (hfunctions : u.functions = unit.functions ++ more)
    (hbound : ∀ d ∈ u.functions, u.scope.lookup d.name = some (.function d.symbol))
    (hmore : ∀ d ∈ more, ∀ y ∈ d.exprs, u.checkExpr d.name y = .ok ()) :
    (u.validate = .ok () ↔ ∀ f ∈ program.functions, f.qualifiedValues = []) ∧
      ∀ fault, u.validate = .error fault →
        ∃ f ∈ program.functions, ∃ n ∈ f.qualifiedValues, fault = .unboundReference f.name n.ident := by
  have hname : ∀ {f d}, unit.env.DeclaresWholly f d → d.name = f.name := by
    rintro f d ⟨decl, hsig, hbody⟩
    rw [← (Env.signature_name hsig).1, ← congrArg (fun k => k.1.name) hbody]
    rfl
  refine ⟨?_, ?_⟩
  · rw [CompilationUnit.validate_eq_ok]
    constructor
    · rintro ⟨-, hcalls⟩ f hf
      obtain ⟨d, hd, hfd⟩ := exists_of_mem_left hwhole hf
      refine List.eq_nil_iff_forall_not_mem.mpr fun n hn => ?_
      obtain ⟨y, hy, herr⟩ := h.qualifiedValues_fail hreg hseen hfd d.name n hn
      rw [hcalls d (hfunctions ▸ List.mem_append_left more hd) y hy] at herr
      simp at herr
    · intro hnone
      refine ⟨hbound, fun d hd y hy => ?_⟩
      rw [hfunctions] at hd
      rcases List.mem_append.mp hd with hd | hd
      · obtain ⟨f, hf, hfd⟩ := exists_of_mem_right hwhole hd
        rcases h.exprs_checked hreg hseen hfd d.name y hy with hok | ⟨n, hn, -⟩
        · exact hok
        · simp [hnone f hf] at hn
      · exact hmore d hd y hy
  · intro fault hfault
    obtain ⟨d, hd, y, hy, herr⟩ := CompilationUnit.validate_eq_error hbound hfault
    rw [hfunctions] at hd
    rcases List.mem_append.mp hd with hd | hd
    · obtain ⟨f, hf, hfd⟩ := exists_of_mem_right hwhole hd
      rcases h.exprs_checked hreg hseen hfd d.name y hy with hok | ⟨n, hn, herr'⟩
      · rw [hok] at herr
        simp at herr
      · rw [herr', hname hfd] at herr
        exact ⟨f, hf, n, hn, (Except.error.inj herr).symm⟩
    · rw [hmore d hd y hy] at herr
      simp at herr

end ResolvesTo

/-! ## Units with a generated function -/

namespace ResolvesTo

variable {c : Contract} {program : Surface.Program Value} {unit u : CompilationUnit}

/-- What a unit imports from the registry of a contract is the runtime support module. -/
theorem import_runtime (h : ResolvesTo c.registry program unit) {i : ImportDecl} (hi : i ∈ unit.imports) :
    i.id = c.runtimeModule ∧ i.module = c.runtimeSupport none := by
  have hfind := h.import_module hi
  have hmodule := Contract.mem_registry.mp (List.mem_of_find?_eq_some hfind)
  have hid := List.find?_some hfind
  rw [hmodule] at hid
  exact ⟨(beq_iff_eq.mp hid).symm, hmodule⟩

/-- The scope that a grown unit has of the runtime support module is what the module exports. -/
theorem scopeOf?_runtime (h : ResolvesTo c.registry program unit) (hg : unit.Grown u) {i : ImportDecl}
    (hi : i ∈ unit.imports) (hne : i.id ≠ unit.id) :
    u.scopeOf? c.runtimeModule = some (c.runtimeSupport none).exports := by
  obtain ⟨hid, hmodule⟩ := h.import_runtime hi
  rw [← hid, ← hmodule, hg.scopeOf?_eq hne]
  exact CompilationUnit.scopeOf?_import hi hne fun j hj _ => (h.import_runtime hj).2.trans hmodule.symm

theorem seenBy (h : ResolvesTo c.registry program unit) (himports : ∀ i ∈ unit.imports, i.id ≠ unit.id)
    (hg : unit.Grown u) : unit.env.SeenBy u := by
  have hown : ∀ {n f}, unit.scope.lookup n = some (.function f) → f.owner = unit.id := by
    intro n f hf
    obtain ⟨d, hd, rfl⟩ := h.function_of_lookup hf
    obtain ⟨f, -, decl, hsig, -, heq⟩ := h.function_symbol hd
    rw [heq]
    exact (Env.signature_name hsig).2.2.1
  refine ⟨fun hf => hg.lookup hf, ?_, ?_, ?_⟩
  · intro n f hf
    obtain ⟨more, hscope, hmore⟩ := hg.scope
    rw [hg.id]
    rw [hscope, Scope.lookup_append] at hf
    rcases Option.or_eq_some_iff.mp hf with hold | ⟨-, hnew⟩
    · exact hown hold
    · exact hmore _ (Scope.lookup_mem hnew)
  · intro q i n s hi hs
    have hmem : i ∈ unit.imports := List.mem_of_find?_eq_some hi
    obtain ⟨hid, hmodule⟩ := h.import_runtime hmem
    have howner : s.base.owner = c.runtimeModule := by
      rw [hmodule] at hs
      exact Contract.owner_runtimeSupport (Scope.lookup_mem hs)
    rw [howner, hg.id, hmodule]
    exact ⟨hid ▸ himports i hmem, h.scopeOf?_runtime hg hmem (himports i hmem)⟩
  · intro q i hi
    rw [(h.import_runtime (List.mem_of_find?_eq_some hi)).2]
    exact c.topLevel_runtimeSupport

/-- The entry point registers functions of the unit with the operations of the runtime support module, so each of its
expressions passes. -/
theorem entryPoint_checked (h : ResolvesTo c.registry program unit) (hg : unit.Grown u)
    (hops : c.registerOp ≠ c.processOp) {i : ImportDecl} (hi : i ∈ unit.imports) (hne : i.id ≠ unit.id)
    {register process : FunctionSymbol} (hregister : i.module.exports.lookupFunction c.registerOp = some register)
    (hprocess : i.module.exports.lookupFunction c.processOp = some process) {handlers : List FunctionDecl}
    (hhandlers : ∀ d ∈ handlers, d ∈ unit.functions) (inside : Text) :
    ∀ y ∈ (c.entryPoint ⟨i.module, i.qualifier⟩ register process unit handlers).exprs,
      u.checkExpr inside y = .ok () := by
  rw [(h.import_runtime hi).2] at hregister hprocess
  have hscope := h.scopeOf?_runtime hg hi hne
  refine Contract.entryPoint_checked (Contract.register_isOperation hops hregister)
    (Contract.process_isOperation hprocess) hscope hregister hprocess fun d hd => ⟨?_, ?_⟩
  · exact hg.lookup (h.lookup_function (hhandlers d hd))
  · obtain ⟨f, -, decl, hsig, -, hdecl⟩ := h.function_symbol (hhandlers d hd)
    exact hdecl ▸ (Env.signature_wellFormed hsig).isFunction

end ResolvesTo

/-! ## After the pass -/

/-- A program that is resolved without a problem, with the runtime support module as the only one that can be imported,
gives a unit that is valid after the handler pass exactly if no body refers to a function of another module as a
value. Otherwise the fault is such a reference, which is looked up in the scope of the unit. -/
theorem validate_runPass_iff (c : Contract) (hops : c.registerOp ≠ c.processOp) {id : ModuleId} {file : Option Text}
    {program : Surface.Program Value} {unit : CompilationUnit}
    (hresolve : resolveProgram c.registry id file program = (unit, []))
    (himports : ∀ i ∈ unit.imports, i.id ≠ id) {log : Log} {result : PassResult}
    (hrun : (c.runPass none unit log).outcome = .ok result) :
    ((c.runPass none unit log).unit.validate = .ok () ↔ ∀ f ∈ program.functions, f.qualifiedValues = []) ∧
      ∀ fault, (c.runPass none unit log).unit.validate = .error fault →
        ∃ f ∈ program.functions, ∃ n ∈ f.qualifiedValues, fault = .unboundReference f.name n.ident := by
  obtain ⟨h, hwhole⟩ := resolveProgram_whole hresolve
  obtain rfl := resolveProgram_id hresolve
  have hreg := c.registry_wellFormed
  rcases Contract.runPass_cases hrun with hunit | ⟨entry, hplan, hunit⟩
  · rw [hunit]
    exact h.validate_iff hreg hwhole (h.seenBy himports (.refl unit)) (List.append_nil _).symm
      (fun d hd => h.lookup_function hd) (by simp)
  · rw [hunit]
    obtain ⟨i, hi, hplan⟩ := Contract.plan_none_eq_ok.mp hplan
    obtain ⟨hfree, register, process, hregister, hprocess, hentry⟩ := Contract.planWith_eq_ok.mp hplan
    have hmem : i ∈ unit.imports := List.mem_of_find?_eq_some hi
    have hg : unit.Grown (unit.install entry) := CompilationUnit.grown_install (by rw [hentry]; rfl)
    refine h.validate_iff hreg hwhole (h.seenBy himports hg) rfl ?_ ?_
    · intro d hd
      rcases List.mem_append.mp hd with hd | hd
      · exact hg.lookup (h.lookup_function hd)
      · rw [List.mem_singleton.mp hd, hentry]
        exact CompilationUnit.lookup_install hfree
    · intro d hd
      rw [List.mem_singleton.mp hd]
      nth_rewrite 1 [hentry]
      exact h.entryPoint_checked hg hops hmem (himports i hmem) hregister hprocess
        (fun d hd => Contract.mem_of_mem_collect hd) _

/-- A handler, and a function that hands an operation of the runtime support module on as a value. -/
def foreignValueProgram : Surface.Program Value where
  imports := [⟨"ballerinax", "awslambda", none, .start⟩]
  records := []
  functions :=
    [{ name := "handle", position := .start, tags := [⟨some "awslambda", "Function", .start⟩], isPublic := true
       params := [⟨"ctx", .start, ⟨⟨some "awslambda", "Context", .start⟩, []⟩, .required⟩,
         ⟨"event", .start, ⟨⟨none, "json", .start⟩, []⟩, .required⟩]
       returns := some ⟨⟨none, "json", .start⟩, [⟨none, "error", .start⟩]⟩
       body := [.ret (some (.name ⟨none, "event", .start⟩)) .start] },
     { name := "main", position := .start, tags := [], isPublic := false, params := [], returns := none
       body := [.expr (.call ⟨some "awslambda", "register", .start⟩
         [.literal (.str "x") .start, .name ⟨some "awslambda", "process", .start⟩]) .start] }]

/-- The program is resolved without a problem and its pass succeeds, but the unit is not valid. -/
theorem validate_foreignValueProgram :
    let resolved := resolveProgram ({} : Contract).registry ⟨"demo", "app"⟩ none foreignValueProgram
    let run := ({} : Contract).runPass none resolved.1 {}
    resolved.2 = [] ∧ run.outcome.isOk = true ∧ run.unit.validate ≠ .ok () := by
  intro resolved run
  have hclean : resolved.2 = [] := by decide +kernel
  have hok : run.outcome.isOk = true := by decide +kernel
  refine ⟨hclean, hok, fun hvalid => ?_⟩
  cases hrun : run.outcome with
  | error e =>
    rw [hrun] at hok
    cases hok
  | ok result =>
    have himports : ∀ i ∈ resolved.1.imports, i.id ≠ ⟨"demo", "app"⟩ := by decide +kernel
    have hnone := (validate_runPass_iff {} (by decide) (Prod.ext rfl hclean) himports hrun).1.mp hvalid
    have hmain := hnone _ (List.mem_cons_of_mem _ List.mem_cons_self)
    exact absurd hmain (by simp [Surface.Function.qualifiedValues, Surface.Stmt.expr?, Surface.Expr.qualifiedValues,
      Surface.Expr.qualifiedValuesAll])

end Registrar
