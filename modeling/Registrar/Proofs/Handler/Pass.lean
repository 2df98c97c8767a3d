import Registrar.Proofs.Handler.Collection
import Registrar.Proofs.Handler.EntryPoint

/-!
# How a handler pass ends

A pass fails exactly if there are handlers and something stands in the way of their entry point; `Contract.Hinders` says
what can, and which of two hindrances counts. A pass that fails leaves the unit as it was (`runPass_fails_iff`). A pass
that succeeds sorts the functions of the unit and, if there are handlers, adds one entry point, which registers each of
them and then starts to process events (`runPass_postcondition`).
-/

namespace Registrar

namespace Contract

open Build

variable {c : Contract} {r : Runtime} {runtime : Option Runtime} {unit : CompilationUnit} {log : Log}
  {handlers : List FunctionDecl} {f : FunctionDecl} {e : EntryPointError}

/-! ## Hindrances -/

/-- What stands in the way of an entry point: there is no runtime support module, its name has a meaning in the unit, or
the module lacks an operation. The first of these counts. -/
inductive Hinders (c : Contract) (runtime : Option Runtime) (unit : CompilationUnit) : EntryPointError → Prop where
  | unimported (hgiven : runtime = none) (himports : ∀ i ∈ unit.imports, i.id ≠ c.runtimeModule) :
      Hinders c runtime unit (.missingModule c.runtimeModule)
  | taken {r : Runtime} (hr : c.runtimeFor? runtime unit = some r)
      (htaken : unit.scope.contains c.entryPointName = true) :
      Hinders c runtime unit (.nameTaken c.entryPointName)
  | noRegister {r : Runtime} (hr : c.runtimeFor? runtime unit = some r)
      (hfree : unit.scope.contains c.entryPointName = false)
      (hregister : r.module.exports.lookupFunction c.registerOp = none) :
      Hinders c runtime unit (.missingOperation r.module.id c.registerOp)
  | noProcess {r : Runtime} {register : FunctionSymbol} (hr : c.runtimeFor? runtime unit = some r)
      (hfree : unit.scope.contains c.entryPointName = false)
      (hregister : r.module.exports.lookupFunction c.registerOp = some register)
      (hprocess : r.module.exports.lookupFunction c.processOp = none) :
      Hinders c runtime unit (.missingOperation r.module.id c.processOp)

theorem runtimeFor?_eq_none :
    c.runtimeFor? runtime unit = none ↔ runtime = none ∧ ∀ i ∈ unit.imports, i.id ≠ c.runtimeModule := by
  simp [runtimeFor?, CompilationUnit.findImport?]

/-- With a runtime support module a plan fails for its name or for an operation. -/
theorem planWith_eq_error :
    c.planWith r unit handlers = .error e ↔
      unit.scope.contains c.entryPointName = true ∧ e = .nameTaken c.entryPointName ∨
        unit.scope.contains c.entryPointName = false ∧
          (r.module.exports.lookupFunction c.registerOp = none ∧ e = .missingOperation r.module.id c.registerOp ∨
            ∃ register, r.module.exports.lookupFunction c.registerOp = some register ∧
              r.module.exports.lookupFunction c.processOp = none ∧
              e = .missingOperation r.module.id c.processOp) := by
  unfold planWith Runtime.operation
  by_cases htaken : unit.scope.contains c.entryPointName = true
  · simp [htaken, eq_comm]
  · rw [if_neg htaken]
    cases r.module.exports.lookupFunction c.registerOp with
    | none => simp [bind, Except.bind, htaken, eq_comm]
    | some register =>
      cases r.module.exports.lookupFunction c.processOp with
      | none => simp [bind, Except.bind, htaken, eq_comm]
      | some process => simp [bind, Except.bind, pure, Except.pure, htaken]

/-- A plan fails exactly for what stands in the way. -/
theorem plan_eq_error : c.plan runtime unit handlers = .error e ↔ c.Hinders runtime unit e := by
  rw [plan_eq]
  cases hr : c.runtimeFor? runtime unit with
  | none =>
    obtain ⟨hgiven, himports⟩ := runtimeFor?_eq_none.mp hr
    constructor
    · intro h
      obtain rfl := Except.error.inj h
      exact .unimported hgiven himports
    · intro h
      cases h with
      | unimported => rfl
      | taken hr' | noRegister hr' | noProcess hr' => simp [hr] at hr'
  | some r =>
    simp only [planWith_eq_error]
    constructor
    · rintro (⟨htaken, rfl⟩ | ⟨hfree, ⟨hregister, rfl⟩ | ⟨register, hregister, hprocess, rfl⟩⟩)
      · exact .taken hr htaken
      · exact .noRegister hr hfree hregister
      · exact .noProcess hr hfree hregister hprocess
    · intro h
      cases h with
      | unimported hgiven himports => simp [runtimeFor?_eq_none.mpr ⟨hgiven, himports⟩] at hr
      | taken hr' htaken => exact .inl ⟨htaken, rfl⟩
      | noRegister hr' hfree hregister =>
        obtain rfl := Option.some.inj (hr.symm.trans hr')
        exact .inr ⟨hfree, .inl ⟨hregister, rfl⟩⟩
      | noProcess hr' hfree hregister hprocess =>
        obtain rfl := Option.some.inj (hr.symm.trans hr')
        exact .inr ⟨hfree, .inr ⟨_, hregister, hprocess, rfl⟩⟩

/-! ## Failures -/

theorem exists_handler : (c.collect unit).handlers ≠ [] ↔ ∃ f ∈ unit.functions, c.standing f = .handler := by
  simp [collect_handlers_standing]

/-- A pass fails exactly if there are handlers and something stands in the way. -/
theorem runPass_eq_error :
    (c.runPass runtime unit log).outcome = .error e ↔
      (c.collect unit).handlers ≠ [] ∧ c.Hinders runtime unit e := by
  rw [← @plan_eq_error c runtime unit (c.collect unit).handlers e]
  rcases c.runPass_ends runtime unit log with ⟨hnone, hout, -⟩ | ⟨hne, e', hplan, hout, -⟩ | ⟨-, f, hplan, hout, -⟩
  · simp [hout, hnone]
  · simp [hout, hplan, hne]
  · simp [hout, hplan]

theorem unit_of_runPass_eq_error (h : (c.runPass runtime unit log).outcome = .error e) :
    (c.runPass runtime unit log).unit = unit := by
  rcases c.runPass_ends runtime unit log with ⟨-, -, hunit⟩ | ⟨-, e', -, -, hunit⟩ | ⟨-, f, -, hout, -⟩
  · exact hunit
  · exact hunit
  · rw [hout] at h
    cases h

/-- What is drafted can be committed: the name of the entry point was found free, and drafting does not touch the
unit. -/
theorem exec_commit_of_draftFor (hne : handlers ≠ []) {draft : Draft} {unit' : CompilationUnit}
    (h : exec (c.draftFor runtime handlers) unit = (.ok draft, unit')) :
    ∃ committed after, exec draft.commit unit' = (.ok committed, after) := by
  rw [exec_draftFor hne] at h
  obtain ⟨hdraft, rfl⟩ := Prod.mk.inj h
  -- a draft comes only from a plan that succeeds, and that has found the name free in this same unit
  split at hdraft
  · next r hr =>
    cases hplan : c.planWith r unit handlers with
    | error e =>
      rw [hplan] at hdraft
      cases hdraft
    | ok f =>
      rw [hplan] at hdraft
      obtain rfl := Except.ok.inj hdraft
      exact ⟨_, _, exec_commit_planned hplan rfl⟩
  · cases hdraft

end Contract

/-- A pass fails exactly if the unit has a handler and something stands in the way of the entry point, the first
hindrance giving the error. It then leaves the unit as it was. The commit, which is the last step in the making of an
entry point, never fails. -/
theorem runPass_fails_iff (c : Contract) (runtime : Option Runtime) (unit : CompilationUnit) (log : Log) :
    (∀ e, (c.runPass runtime unit log).outcome = .error e ↔
        (∃ f ∈ unit.functions, c.standing f = .handler) ∧ c.Hinders runtime unit e) ∧
      (∀ e, (c.runPass runtime unit log).outcome = .error e → (c.runPass runtime unit log).unit = unit) ∧
      ∀ handlers, handlers ≠ [] →
        c.synthesize runtime handlers = (do
          let draft ← c.draftFor runtime handlers
          let committed ← draft.commit
          return committed.function? (← get)) ∧
        ∀ draft unit', (c.draftFor runtime handlers).exec unit = (.ok draft, unit') →
          ∃ committed after, draft.commit.exec unit' = (.ok committed, after) := by
  refine ⟨fun e => ?_, fun e h => Contract.unit_of_runPass_eq_error h, ?_⟩
  · rw [Contract.runPass_eq_error, Contract.exists_handler]
  · intro handlers hne
    refine ⟨Contract.synthesize_eq_commit c runtime hne, ?_⟩
    intro draft unit' h
    exact Contract.exec_commit_of_draftFor hne h

/-! ## Results -/

namespace Contract

variable {c : Contract} {r : Runtime} {runtime : Option Runtime} {unit : CompilationUnit} {log : Log}
  {handlers : List FunctionDecl} {f : FunctionDecl} {result : PassResult}

/-- The function is the entry point of some handlers: it is public, has neither markers nor parameters nor a result, and
its body registers each handler under its name and then starts to process events, with the operations that the runtime
support module binds to their names. -/
structure IsEntryPoint (c : Contract) (r : Runtime) (unit : CompilationUnit) (handlers : List FunctionDecl)
    (f : FunctionDecl) : Prop where
  name : f.name = c.entryPointName
  isPublic : f.isPublic = true ∧ f.symbol.isPublic = true
  markers : f.markers = []
  params : f.params = []
  returnType : f.returnType = .nil
  type : f.symbol.type = .function [] (some .nil)
  span : f.span = unit.span
  body : ∃ register process,
    r.module.exports.lookup c.registerOp = some (.function register) ∧
    r.module.exports.lookup c.processOp = some (.function process) ∧
    f.body = handlers.map (c.registration r register unit.span) ++ [r.call c.processOp process [] unit.span]

theorem isEntryPoint_of_planWith (h : c.planWith r unit handlers = .ok f) : c.IsEntryPoint r unit handlers f := by
  obtain ⟨-, register, process, hregister, hprocess, rfl⟩ := planWith_eq_ok.mp h
  rw [Scope.lookupFunction_eq_some] at hregister hprocess
  exact {
    name := rfl, isPublic := ⟨rfl, rfl⟩, markers := rfl, params := rfl, returnType := rfl, type := rfl, span := rfl
    body := ⟨register, process, hregister, hprocess, rfl⟩ }

/-- The name of a planned entry point denotes it, once it is part of the unit. -/
theorem lookup_planned (h : c.planWith r unit handlers = .ok f) :
    (unit.install f).scope.lookup f.name = some (.function f.symbol) := by
  obtain ⟨hfree, register, process, -, -, rfl⟩ := planWith_eq_ok.mp h
  exact CompilationUnit.lookup_install hfree

end Contract

/-- A pass that succeeds keeps the handlers and reports the functions that break a rule, both in the order of the unit
and each once; the other functions are left alone. If there are handlers, the unit has their entry point as its last
function, bound to its name, and is otherwise as it was; if there are none, the unit is as it was. -/
theorem runPass_postcondition {c : Contract} {runtime : Option Runtime} {unit : CompilationUnit} {log : Log}
    {result : PassResult} (h : (c.runPass runtime unit log).outcome = .ok result) :
    result.handlers = unit.functions.filter (fun f => c.standing f = .handler) ∧
      List.Forall₂ c.Reports (unit.functions.filter fun f => (c.standing f).isBroken) result.diagnostics ∧
      (result.entryPoint.isSome = true ↔ result.handlers ≠ []) ∧
      (∀ f, result.entryPoint = some f →
        (∃ r, c.runtimeFor? runtime unit = some r ∧ c.IsEntryPoint r unit result.handlers f) ∧
          (c.runPass runtime unit log).unit.functions = unit.functions ++ [f] ∧
          (c.runPass runtime unit log).unit.scope.lookup f.name = some (.function f.symbol) ∧
          (c.runPass runtime unit log).unit = unit.install f) ∧
      (result.entryPoint = none → (c.runPass runtime unit log).unit = unit) ∧
      (c.runPass runtime unit log).log = log.extend result.diagnostics := by
  rw [← Contract.collect_handlers_standing]
  have hlog : (c.runPass runtime unit log).log = log.extend (c.collect unit).diagnostics := rfl
  rcases c.runPass_ends runtime unit log with ⟨hnone, hout, hunit⟩ | ⟨-, e, -, hout, -⟩ | ⟨hne, f, hplan, hout, hunit⟩
  · obtain rfl := Except.ok.inj (hout.symm.trans h)
    exact ⟨hnone.symm, c.collect_diagnostics_standing unit, by simp, by simp, fun _ => hunit, hlog⟩
  · rw [hout] at h
    cases h
  · obtain rfl := Except.ok.inj (hout.symm.trans h)
    obtain ⟨r, hr, hplan⟩ := Contract.plan_eq_ok.mp hplan
    refine ⟨rfl, c.collect_diagnostics_standing unit, by simp [hne], fun g hg => ?_, by simp, hlog⟩
    obtain rfl := Option.some.inj hg
    refine ⟨⟨r, hr, Contract.isEntryPoint_of_planWith hplan⟩, by rw [hunit]; rfl, ?_, hunit⟩
    rw [hunit]
    exact Contract.lookup_planned hplan

/-- A unit that imports the runtime support module under two prefixes. It has an unmarked function, two handlers of one
name, and between them a marked function that takes no `json`. -/
def mixedUnit : CompilationUnit :=
  let c : Contract := {}
  let id : ModuleId := ⟨"local", "main"⟩
  let symbol (name : Text) (payload : Ty) : FunctionSymbol :=
    { name, owner := id, stamp := .declared
      type := .function [c.contextType, payload] (some (.union [.json, .error])) }
  let function (name : Text) (payload : Ty) (line : Int) : FunctionDecl :=
    { name, symbol := symbol name payload, returnType := .union [.json, .error]
      required := [⟨"ctx", c.contextType, none, {}⟩, ⟨"event", payload, none, {}⟩], span := { line } }
  let marked (f : FunctionDecl) : FunctionDecl :=
    { f with markers := [⟨⟨⟨c.markerName, c.runtimeModule, .exported⟩⟩, c.markerName, some "rt", {}⟩] }
  let process : FunctionSymbol :=
    { name := c.processOp, owner := c.runtimeModule, stamp := .exported, type := .function [] (some .nil)
      isPublic := true }
  { id
    scope :=
      ⟨id, [.function (symbol "plain" .json), .function (symbol "echo" .json), .function (symbol "late" .string)]⟩
    imports :=
      [⟨c.runtimeModule, c.runtimeSupport none, some "rt", {}⟩, ⟨c.runtimeModule, c.runtimeSupport none, none, {}⟩]
    functions :=
      [{ function "plain" .json 2 with
          body := [.expr (.call c.processOp (.function process) [] .nil (some "rt") {}) {}] },
        marked (function "echo" .json 3), marked (function "late" .string 4), marked (function "echo" .json 5)] }

/-- Both handlers of one name are registered, and the unit has one more function. -/
theorem runPass_mixedUnit :
    let run := ({} : Contract).runPass none mixedUnit {}
    ∃ result, run.outcome = .ok result ∧ result.handlers.map (·.span.line) = [some 3, some 5] ∧
      result.diagnostics.length = 1 ∧ result.entryPoint.isSome = true ∧ run.unit.functions.length = 5 := by
  intro run
  have hok : run.outcome.isOk = true := by decide +kernel
  cases hrun : run.outcome with
  | error e =>
    rw [hrun] at hok
    cases hok
  | ok result =>
    obtain ⟨hhandlers, hreports, hsome, hentry, -, -⟩ := runPass_postcondition hrun
    have hlines : result.handlers.map (·.span.line) = [some 3, some 5] := by
      rw [hhandlers]
      decide +kernel
    have hentry? : result.entryPoint.isSome = true := by
      refine hsome.mpr fun hnone => ?_
      rw [hnone] at hlines
      cases hlines
    obtain ⟨f, hf⟩ := Option.isSome_iff_exists.mp hentry?
    refine ⟨result, rfl, hlines, ?_, hentry?, ?_⟩
    · rw [← hreports.length_eq]
      decide +kernel
    · rw [(hentry f hf).2.1]
      rfl

end Registrar
