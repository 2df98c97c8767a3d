import Registrar.Proofs.Contract
import Registrar.Proofs.Handler.Pass
import Registrar.Proofs.Unit.Validity

/-!
# The handler pass keeps units valid

A unit that grows by symbols of its own keeps what passes the check (`CompilationUnit.Grown.checkExpr`): a name keeps
its meaning, and other modules are seen as before. The entry point passes as well, since it hands functions of the unit
to the operations of the runtime support module (`Contract.entryPoint_checked`). So a pass that succeeds leaves a valid
unit valid (`validate_runPass`).
-/

namespace Registrar

/-! ## Units with more symbols -/

/-- A unit with more symbols of its own. -/
structure CompilationUnit.Grown (unit u : CompilationUnit) : Prop where
  id : u.id = unit.id
  imports : u.imports = unit.imports
  scope : ∃ more, u.scope = ⟨unit.scope.owner, unit.scope.symbols ++ more⟩ ∧ ∀ s ∈ more, s.base.owner = unit.id

namespace CompilationUnit

variable {unit u : CompilationUnit} {inside : Text}

theorem Grown.refl (unit : CompilationUnit) : unit.Grown unit := ⟨rfl, rfl, [], by simp, by simp⟩

theorem grown_install {f : FunctionDecl} (h : f.symbol.owner = unit.id) : unit.Grown (unit.install f) := by
  refine ⟨rfl, rfl, [.function f.symbol], rfl, ?_⟩
  intro s hs
  rw [List.mem_singleton.mp hs]
  exact h

/-- What a name denotes stays what it is. -/
theorem Grown.lookup (h : unit.Grown u) {n : Text} {s : Symbol} (hs : unit.scope.lookup n = some s) :
    u.scope.lookup n = some s := by
  obtain ⟨more, hscope, -⟩ := h.scope
  have hold : Scope.lookup ⟨unit.scope.owner, unit.scope.symbols⟩ n = some s := hs
  rw [hscope, Scope.lookup_append, hold, Option.some_or]

/-- Other modules are seen as before. -/
theorem Grown.scopeOf?_eq (h : unit.Grown u) {id : ModuleId} (hid : id ≠ unit.id) :
    u.scopeOf? id = unit.scopeOf? id := by
  rw [scopeOf?, scopeOf?, h.id, h.imports, if_neg hid, if_neg hid]

/-- The scope of a module that is imported once, or always as the same module, is what it exports. -/
theorem scopeOf?_import {i : ImportDecl} (hi : i ∈ unit.imports) (hid : i.id ≠ unit.id)
    (hshared : ∀ j ∈ unit.imports, j.id = i.id → j.module = i.module) :
    unit.scopeOf? i.id = some i.module.exports := by
  rw [scopeOf?, if_neg hid]
  cases hf : unit.imports.reverse.find? (·.id == i.id) with
  | none => simpa using List.find?_eq_none.mp hf i (List.mem_reverse.mpr hi)
  | some j =>
    have hj : j ∈ unit.imports := List.mem_reverse.mp (List.mem_of_find?_eq_some hf)
    have hji : j.id = i.id := by simpa using List.find?_some hf
    rw [Option.map_some, hshared j hj hji]

theorem Grown.checkBound (h : unit.Grown u) {callee : Symbol} (hok : unit.checkBound inside callee = .ok ()) :
    u.checkBound inside callee = .ok () := by
  obtain ⟨scope, hscope, hlookup⟩ := checkBound_eq_ok.mp hok
  refine checkBound_eq_ok.mpr ?_
  -- only the scope of the unit itself has grown
  by_cases hid : callee.base.owner = unit.id
  · rw [scopeOf?, if_pos hid] at hscope
    obtain rfl := Option.some.inj hscope
    exact ⟨u.scope, if_pos (hid.trans h.id.symm), h.lookup hlookup⟩
  · exact ⟨scope, (h.scopeOf?_eq hid).trans hscope, hlookup⟩

/-- An expression that passes still does. -/
theorem Grown.checkExpr (h : unit.Grown u) {e : Expr} (hok : unit.checkExpr inside e = .ok ()) :
    u.checkExpr inside e = .ok () := by
  cases e with
  | literal => rfl
  | ref name symbol type span =>
    cases symbol with
    | function f =>
      have hbound : unit.scope.lookup name = some (.function f) := by
        by_contra hbound
        simp [CompilationUnit.checkExpr, hbound] at hok
      exact if_pos (h.lookup hbound)
    | _ => rfl
  | call name callee args type qualifier span =>
    -- the check of the arguments does not look at the unit
    change unit.checkCall inside callee args type = .ok () at hok
    change u.checkCall inside callee args type = .ok ()
    unfold checkCall at hok ⊢
    cases hb : unit.checkBound inside callee with
    | error fault =>
      rw [hb] at hok
      cases hok
    | ok =>
      rw [hb] at hok
      rw [h.checkBound hb]
      exact hok

end CompilationUnit

/-! ## The entry point -/

/-- A call of an operation passes if its owner is seen to bind it and the arguments fit. -/
theorem FunctionSymbol.IsOperation.checkCall {f : FunctionSymbol} {owner : ModuleId} {params : List Ty}
    (h : f.IsOperation owner params) {u : CompilationUnit} {scope : Scope} {name : Text}
    (hscope : u.scopeOf? owner = some scope) (hlookup : scope.lookupFunction name = some f) {args : List Expr}
    (hargs : List.Forall₂ (fun x t => (Expr.type x).isAssignable t = true) args params) (inside : Text) :
    u.checkCall inside (.function f) args .nil = .ok () := by
  have hbound := Scope.lookupFunction_eq_some.mp hlookup
  refine CompilationUnit.checkCall_eq_ok.mpr ⟨?_, CompilationUnit.checkFit_eq_ok.mpr ⟨h.fits hargs, fun t ht => ?_⟩⟩
  · refine CompilationUnit.checkBound_eq_ok.mpr ⟨scope, (congrArg u.scopeOf? h.owner).trans hscope, ?_⟩
    rw [Scope.lookup_name hbound]
    exact hbound
  · rw [h.type] at ht
    exact (Option.some.inj ht).symm

/-- The entry point hands functions of the unit to the operations of the runtime support module, so each of its
expressions passes. -/
theorem Contract.entryPoint_checked {c : Contract} {r : Runtime} {register process : FunctionSymbol}
    {unit u : CompilationUnit} {handlers : List FunctionDecl} {owner : ModuleId} {scope : Scope} {inside : Text}
    (hregister : register.IsOperation owner [.string, .anyFunction]) (hprocess : process.IsOperation owner [])
    (hscope : u.scopeOf? owner = some scope) (hregister' : scope.lookupFunction c.registerOp = some register)
    (hprocess' : scope.lookupFunction c.processOp = some process)
    (hhandlers : ∀ d ∈ handlers,
      u.scope.lookup d.name = some (.function d.symbol) ∧ d.symbol.type.isFunction = true) :
    ∀ y ∈ (c.entryPoint r register process unit handlers).exprs, u.checkExpr inside y = .ok () := by
  intro y hy
  obtain ⟨s, hs, x, hx, hyx⟩ := FunctionDecl.mem_exprs.mp hy
  rcases List.mem_append.mp hs with hs | hs
  · obtain ⟨d, hd, rfl⟩ := List.mem_map.mp hs
    obtain rfl := Option.some.inj hx
    obtain ⟨hlookup, htype⟩ := hhandlers d hd
    simp only [Expr.parts, Expr.partsAll, List.append_nil, List.cons_append, List.nil_append, List.mem_cons,
      List.not_mem_nil, or_false] at hyx
    -- the call itself, the name that it registers, and the handler
    rcases hyx with rfl | rfl | rfl
    · have hargs : List.Forall₂ (fun x t => (Expr.type x).isAssignable t = true)
          [.literal (.str d.name) .string unit.span, .ref d.name (.function d.symbol) d.symbol.type unit.span]
          [.string, .anyFunction] := .cons rfl (.cons (Ty.isAssignable_anyFunction htype) .nil)
      exact hregister.checkCall hscope hregister' hargs inside
    · rfl
    · exact if_pos hlookup
  · obtain rfl := List.mem_singleton.mp hs
    obtain rfl := Option.some.inj hx
    obtain rfl := List.mem_singleton.mp hyx
    exact hprocess.checkCall hscope hprocess' .nil inside

/-! ## After the pass -/

/-- The module exports an operation under a name. -/
def Module.HasOperation (m : Module) (name : Text) (owner : ModuleId) (params : List Ty) : Prop :=
  ∃ f, m.exports.lookup name = some (.function f) ∧ f.IsOperation owner params

theorem Module.HasOperation.isOperation {m : Module} {name : Text} {owner : ModuleId} {params : List Ty}
    (h : m.HasOperation name owner params) {f : FunctionSymbol} (hf : m.exports.lookupFunction name = some f) :
    f.IsOperation owner params := by
  obtain ⟨g, hg, hop⟩ := h
  rw [Scope.lookupFunction_eq_some, hg] at hf
  obtain rfl := Symbol.function.inj (Option.some.inj hf)
  exact hop

/-- The module exports the operations of the contract, as the runtime support module does. -/
structure Contract.SupportedBy (c : Contract) (m : Module) : Prop where
  register : m.HasOperation c.registerOp c.runtimeModule [.string, .anyFunction]
  process : m.HasOperation c.processOp c.runtimeModule []

/-- The runtime support module exports its operations if no two of its names are the same. -/
theorem Contract.supportedBy_runtimeSupport {c : Contract}
    (hnames : [c.contextTypeName, c.markerName, c.registerOp, c.processOp].Nodup) :
    c.SupportedBy (c.runtimeSupport none) := by
  have hops := registerOp_ne_processOp hnames
  have hregister : (c.registerOp, .function [.string, .anyFunction] (some .nil)) ∈ c.operations := by
    simp [operations, hops]
  have hprocess : (c.processOp, .function [] (some .nil)) ∈ c.operations := by
    simp [operations, hops]
  exact ⟨⟨_, lookup_runtimeSupport hnames hregister, rfl, rfl, rfl, rfl⟩,
    ⟨_, lookup_runtimeSupport hnames hprocess, rfl, rfl, rfl, rfl⟩⟩

/-- A pass that succeeds leaves a valid unit valid, however many handlers there are. -/
theorem validate_runPass {c : Contract} {unit : CompilationUnit} (hvalid : unit.validate = .ok ())
    (htyped : ∀ f ∈ unit.functions, f.symbol.type.isFunction = true)
    (hshared : ∀ i ∈ unit.imports, ∀ j ∈ unit.imports, i.id = j.id → i.module = j.module)
    (hid : unit.id ≠ c.runtimeModule) (hruntime : ∀ i ∈ unit.imports, i.id = c.runtimeModule → c.SupportedBy i.module)
    {log : Log} {result : PassResult} (hrun : (c.runPass none unit log).outcome = .ok result) :
    (c.runPass none unit log).unit.validate = .ok () := by
  rcases Contract.runPass_cases hrun with hunit | ⟨entry, hplan, hunit⟩
  · rw [hunit]
    exact hvalid
  · rw [hunit]
    obtain ⟨hbound, hcalls⟩ := CompilationUnit.validate_eq_ok.mp hvalid
    obtain ⟨i, hi, hplan⟩ := Contract.plan_none_eq_ok.mp hplan
    obtain ⟨-, register, process, hregister, hprocess, hentry⟩ := Contract.planWith_eq_ok.mp hplan
    have hmem : i ∈ unit.imports := List.mem_of_find?_eq_some hi
    have hiid : i.id = c.runtimeModule := by simpa using List.find?_some hi
    have hsupported := hruntime i hmem hiid
    have hgrown : unit.Grown (unit.install entry) := CompilationUnit.grown_install (by rw [hentry]; rfl)
    -- the pass goes by the first import of the runtime support module, the check by the last one
    have hscope : (unit.install entry).scopeOf? c.runtimeModule = some i.module.exports := by
      rw [hgrown.scopeOf?_eq (Ne.symm hid), ← hiid]
      exact CompilationUnit.scopeOf?_import hmem (hiid ▸ Ne.symm hid) fun j hj hji => hshared j hj i hmem hji
    have hhandlers : ∀ d ∈ (c.collect unit).handlers,
        (unit.install entry).scope.lookup d.name = some (.function d.symbol) ∧ d.symbol.type.isFunction = true := by
      intro d hd
      have hd := Contract.mem_of_mem_collect hd
      exact ⟨hgrown.lookup (hbound d hd), htyped d hd⟩
    refine CompilationUnit.validate_eq_ok.mpr ⟨fun d hd => ?_, fun d hd y hy => ?_⟩
    · rcases List.mem_append.mp hd with hd | hd
      · exact hgrown.lookup (hbound d hd)
      · rw [List.mem_singleton.mp hd]
        exact Contract.lookup_planned hplan
    · rcases List.mem_append.mp hd with hd | hd
      · exact hgrown.checkExpr (hcalls d hd y hy)
      · rw [List.mem_singleton.mp hd, hentry] at hy
        exact Contract.entryPoint_checked (hsupported.register.isOperation hregister)
          (hsupported.process.isOperation hprocess) hscope hregister hprocess hhandlers y hy

/-- A unit with two handlers, which sees the runtime support module under two prefixes, is valid before and after. -/
theorem validate_runPass_mixedUnit :
    mixedUnit.validate = .ok () ∧ (({} : Contract).runPass none mixedUnit {}).outcome.isOk = true ∧
      (({} : Contract).runPass none mixedUnit {}).unit.validate = .ok () := by
  have hvalid : mixedUnit.validate = .ok () := by decide +kernel
  have hok : (({} : Contract).runPass none mixedUnit {}).outcome.isOk = true := by decide +kernel
  refine ⟨hvalid, hok, ?_⟩
  cases hrun : (({} : Contract).runPass none mixedUnit {}).outcome with
  | error e =>
    rw [hrun] at hok
    cases hok
  | ok result =>
    refine validate_runPass hvalid (by decide +kernel) (by decide +kernel) (by decide +kernel) (fun i hi _ => ?_) hrun
    have hmodule : i.module = ({} : Contract).runtimeSupport none := by
      revert i
      decide +kernel
    rw [hmodule]
    exact Contract.supportedBy_runtimeSupport (by decide)

end Registrar
