import Registrar.Handler.Pass
import Registrar.Proofs.Scope

/-!
# What the making of an entry point does

`Contract.plan` says which entry point some handlers get, or why they get none, without touching a unit.
`synthesize_run` is the statement that the making of an entry point does just that: it fails as the plan does, and
then leaves the unit as it was, or it adds the planned function to the unit and binds its name there. So a pass can end
in three ways (`runPass_ends`).
-/

namespace Registrar

/-! ## The planned entry point -/

/-- A call of an operation of the runtime support module as a statement. -/
def Runtime.call (r : Runtime) (operation : Text) (callee : FunctionSymbol) (args : List Expr) (span : Span) : Stmt :=
  .expr (.call operation (.function callee) args .nil (some r.qualifier) span) span

namespace Contract

/-- The registration of a handler: its name and the function itself. -/
def registration (c : Contract) (r : Runtime) (callee : FunctionSymbol) (span : Span) (h : FunctionDecl) : Stmt :=
  r.call c.registerOp callee
    [.literal (.str h.name) .string span, .ref h.name (.function h.symbol) h.symbol.type span] span

/-- The entry point that registers some handlers and then starts to process events. -/
def entryPoint (c : Contract) (r : Runtime) (register process : FunctionSymbol) (unit : CompilationUnit)
    (handlers : List FunctionDecl) : FunctionDecl :=
  { Draft.emptyFunction c unit with
    body := handlers.map (c.registration r register unit.span) ++ [r.call c.processOp process [] unit.span] }

/-- The entry point of some handlers of a unit with a known runtime support module. -/
def planWith (c : Contract) (r : Runtime) (unit : CompilationUnit) (handlers : List FunctionDecl) :
    Except EntryPointError FunctionDecl :=
  if unit.scope.contains c.entryPointName then .error (.nameTaken c.entryPointName)
  else do
    let register ← r.operation c.registerOp
    let process ← r.operation c.processOp
    return c.entryPoint r register process unit handlers

/-- The runtime support module that an entry point is made with: the one that is given, or else what the first import
of it gives. -/
def runtimeFor? (c : Contract) (runtime : Option Runtime) (unit : CompilationUnit) : Option Runtime :=
  runtime.or ((unit.findImport? c.runtimeModule).map fun i => ⟨i.module, i.qualifier⟩)

/-- The entry point of some handlers of a unit, or why there can be none: the first reason counts. The runtime
support module is the one that is given, or else the one that the unit imports. -/
def plan (c : Contract) (runtime : Option Runtime) (unit : CompilationUnit) (handlers : List FunctionDecl) :
    Except EntryPointError FunctionDecl :=
  match runtime with
  | some r => c.planWith r unit handlers
  | none => c.findRuntime unit >>= fun r => c.planWith r unit handlers

end Contract

/-- The unit with one more function, whose name denotes it. -/
def CompilationUnit.install (unit : CompilationUnit) (f : FunctionDecl) : CompilationUnit :=
  { unit with
    scope := ⟨unit.scope.owner, unit.scope.symbols ++ [.function f.symbol]⟩
    functions := unit.functions ++ [f] }

theorem CompilationUnit.lookup_install {unit : CompilationUnit} {f : FunctionDecl}
    (hfree : unit.scope.contains f.symbol.name = false) :
    (unit.install f).scope.lookup f.symbol.name = some (.function f.symbol) :=
  Scope.lookup_define?_self (Scope.define?_eq_some.mpr ⟨Scope.contains_eq_false_iff.mp hfree, rfl⟩)

/-! ## Work on a unit, step by step -/

namespace Build

variable {α β : Type} {unit unit' : CompilationUnit}

/-- What work on a unit comes to, and the unit that it leaves. -/
def exec (x : Build α) (unit : CompilationUnit) : Except EntryPointError α × CompilationUnit := x.run.run unit

@[simp] theorem exec_pure (a : α) (unit : CompilationUnit) : exec (pure a) unit = (.ok a, unit) := rfl

@[simp] theorem exec_throw (e : EntryPointError) (unit : CompilationUnit) :
    exec (throw e : Build α) unit = (.error e, unit) := rfl

@[simp] theorem exec_get (unit : CompilationUnit) : exec get unit = (.ok unit, unit) := rfl

@[simp] theorem exec_set (unit unit' : CompilationUnit) : exec (set unit') unit = (.ok ⟨⟩, unit') := rfl

@[simp] theorem exec_ofExcept (x : Except EntryPointError α) (unit : CompilationUnit) :
    exec (ofExcept x) unit = (x, unit) := by
  cases x <;> rfl

theorem exec_bind_ok {x : Build α} {g : α → Build β} {a : α} (h : exec x unit = (.ok a, unit')) :
    exec (x >>= g) unit = exec (g a) unit' := by
  unfold exec at *
  rw [ExceptT.run_bind, StateT.run_bind, h]
  rfl

theorem exec_bind_error {x : Build α} {g : α → Build β} {e : EntryPointError}
    (h : exec x unit = (.error e, unit')) : exec (x >>= g) unit = (.error e, unit') := by
  unfold exec at *
  rw [ExceptT.run_bind, StateT.run_bind, h]
  rfl

end Build

/-! ## Drafts -/

namespace Draft

open Build

variable {draft : Draft} {f : FunctionDecl} {callee : FunctionSymbol} {e : EntryPointError}

/-- A call that is added to a draft apart from the unit leaves the unit as it is. -/
theorem exec_addCall (hplace : draft.place = .apart f) {operation : Text}
    (hop : draft.runtime.operation operation = .ok callee) (args : List Expr) (unit : CompilationUnit) :
    exec (draft.addCall operation args) unit =
      (.ok { draft with place := .apart (f.addStmt (draft.runtime.call operation callee args draft.span)) },
        unit) := by
  rw [addCall, hop, exec_bind_ok (exec_ofExcept _ _), addStmt, hplace]
  rfl

theorem exec_addCall_error {operation : Text} (hop : draft.runtime.operation operation = .error e)
    (args : List Expr) (unit : CompilationUnit) :
    exec (draft.addCall operation args) unit = (.error e, unit) := by
  rw [addCall, hop, exec_bind_error (exec_ofExcept _ _)]

/-- The registrations follow each other in the order of the handlers. -/
theorem exec_addRegisters (hplace : draft.place = .apart f)
    (hop : draft.runtime.operation draft.contract.registerOp = .ok callee) (handlers : List FunctionDecl)
    (unit : CompilationUnit) :
    exec (handlers.foldlM addRegister draft) unit =
      (.ok { draft with place := .apart { f with
          body := f.body ++ handlers.map (draft.contract.registration draft.runtime callee draft.span) } },
        unit) := by
  -- the draft changes from one registration to the next, and so does the function it holds
  induction handlers generalizing draft f with
  | nil =>
    cases draft
    cases hplace
    simp
  | cons h handlers ih =>
    rw [List.foldlM_cons, addRegister, exec_bind_ok (exec_addCall hplace hop _ _)]
    refine Eq.trans (ih (f := f.addStmt (draft.contract.registration draft.runtime callee draft.span h)) rfl hop) ?_
    simp [FunctionDecl.addStmt]

/-- Without the operation the first registration fails. -/
theorem exec_addRegisters_error (hop : draft.runtime.operation draft.contract.registerOp = .error e)
    {handlers : List FunctionDecl} (hne : handlers ≠ []) (unit : CompilationUnit) :
    exec (handlers.foldlM addRegister draft) unit = (.error e, unit) := by
  obtain ⟨h, hs, rfl⟩ := List.exists_cons_of_ne_nil hne
  rw [List.foldlM_cons, addRegister, exec_bind_error (exec_addCall_error hop _ _)]

/-- The commit adds the function to the unit and binds its name. -/
theorem exec_commit (hplace : draft.place = .apart f) {unit : CompilationUnit}
    (hfree : unit.scope.contains f.symbol.name = false) :
    exec draft.commit unit =
      (.ok { draft with place := .committed unit.functions.length }, unit.install f) := by
  have hdef : unit.scope.define? (.function f.symbol) =
      some ⟨unit.scope.owner, unit.scope.symbols ++ [.function f.symbol]⟩ :=
    Scope.define?_eq_some.mpr ⟨Scope.contains_eq_false_iff.mp hfree, rfl⟩
  rw [commit, hplace]
  dsimp only
  rw [exec_bind_ok (exec_get _)]
  simp only [hdef]
  rw [exec_bind_ok (exec_set _ _)]
  rfl

end Draft

/-! ## Plans -/

namespace Contract

variable {c : Contract} {r : Runtime} {runtime : Option Runtime} {unit : CompilationUnit}
  {handlers : List FunctionDecl} {f : FunctionDecl} {e : EntryPointError}

/-- What the plan of an entry point needs: a free name and the two operations. -/
theorem planWith_eq_ok :
    c.planWith r unit handlers = .ok f ↔
      unit.scope.contains c.entryPointName = false ∧ ∃ register process,
        r.module.exports.lookupFunction c.registerOp = some register ∧
        r.module.exports.lookupFunction c.processOp = some process ∧
        f = c.entryPoint r register process unit handlers := by
  unfold planWith Runtime.operation
  by_cases htaken : unit.scope.contains c.entryPointName = true
  · simp [htaken]
  · rw [if_neg htaken]
    cases r.module.exports.lookupFunction c.registerOp with
    | none => simp [bind, Except.bind]
    | some register =>
      cases r.module.exports.lookupFunction c.processOp with
      | none => simp [bind, Except.bind]
      | some process => simp [bind, Except.bind, pure, Except.pure, htaken, eq_comm]

/-- A plan needs a runtime support module. -/
theorem plan_eq (c : Contract) (runtime : Option Runtime) (unit : CompilationUnit) (handlers : List FunctionDecl) :
    c.plan runtime unit handlers =
      match c.runtimeFor? runtime unit with
      | some r => c.planWith r unit handlers
      | none => .error (.missingModule c.runtimeModule) := by
  cases runtime with
  | some r => rfl
  | none =>
    unfold plan runtimeFor? findRuntime
    cases unit.findImport? c.runtimeModule <;> rfl

theorem plan_eq_ok :
    c.plan runtime unit handlers = .ok f ↔
      ∃ r, c.runtimeFor? runtime unit = some r ∧ c.planWith r unit handlers = .ok f := by
  rw [plan_eq]
  cases c.runtimeFor? runtime unit <;> simp

/-- Where no runtime support module is given, the first import of it counts. -/
theorem plan_none_eq_ok :
    c.plan none unit handlers = .ok f ↔
      ∃ i, unit.findImport? c.runtimeModule = some i ∧ c.planWith ⟨i.module, i.qualifier⟩ unit handlers = .ok f := by
  simp [plan_eq_ok, runtimeFor?]

/-! ## The making of an entry point -/

open Build

/-- The draft of an entry point, finished and apart from the unit. -/
def draftWith (c : Contract) (r : Runtime) (unit : CompilationUnit) (handlers : List FunctionDecl) : Build Draft := do
  if unit.scope.contains c.entryPointName then throw (.nameTaken c.entryPointName)
  let draft ← handlers.foldlM Draft.addRegister (Draft.new c r unit)
  draft.addProcess

/-- The work on an entry point up to its commit. -/
def draftFor (c : Contract) (runtime : Option Runtime) (handlers : List FunctionDecl) : Build Draft := do
  let unit ← get
  let r ← match runtime with
    | some r => pure r
    | none => ofExcept (c.findRuntime unit)
  c.draftWith r unit handlers

/-- The making of an entry point is a draft and its commit. -/
theorem synthesize_eq_commit (c : Contract) (runtime : Option Runtime) (hne : handlers ≠ []) :
    c.synthesize runtime handlers = (do
      let draft ← c.draftFor runtime handlers
      let committed ← draft.commit
      return committed.function? (← get)) := by
  have hsome : handlers.isEmpty = false := by simpa using hne
  -- once the runtime support module is known, the two differ in where the commit is bound
  have hrest : ∀ (r : Runtime) (unit : CompilationUnit), (do
      if unit.scope.contains c.entryPointName then throw (.nameTaken c.entryPointName)
      let draft ← handlers.foldlM Draft.addRegister (Draft.new c r unit)
      let draft ← draft.addProcess
      let draft ← draft.commit
      return draft.function? (← get) : Build (Option FunctionDecl)) = (do
      let draft ← c.draftWith r unit handlers
      let committed ← draft.commit
      return committed.function? (← get)) := by
    intro r unit
    unfold draftWith
    by_cases htaken : unit.scope.contains c.entryPointName = true
    · simp only [if_pos htaken, bind_assoc]
    · simp only [if_neg htaken, bind_assoc]
  unfold synthesize draftFor
  rw [hsome, if_neg Bool.false_ne_true]
  cases runtime with
  | some r => simp only [bind_assoc, pure_bind, hrest]
  | none => simp only [bind_assoc, hrest]

theorem synthesize_nil (c : Contract) (runtime : Option Runtime) (unit : CompilationUnit) :
    exec (c.synthesize runtime []) unit = (.ok none, unit) := rfl

/-- Drafting does what the plan says and leaves the unit as it is. -/
theorem exec_draftWith (hne : handlers ≠ []) :
    exec (c.draftWith r unit handlers) unit =
      ((c.planWith r unit handlers).map fun f => ⟨c, r, unit.span, .apart f⟩, unit) := by
  unfold draftWith planWith
  by_cases htaken : unit.scope.contains c.entryPointName = true
  · rw [if_pos htaken, if_pos htaken]
    exact exec_bind_error (exec_throw _ _)
  · rw [if_neg htaken, if_neg htaken]
    cases hregister : r.operation c.registerOp with
    | error e => exact exec_bind_error (Draft.exec_addRegisters_error hregister hne unit)
    | ok register =>
      rw [exec_bind_ok (Draft.exec_addRegisters rfl hregister handlers unit), Draft.addProcess]
      cases hprocess : r.operation c.processOp with
      | error e => exact Draft.exec_addCall_error hprocess _ unit
      | ok process =>
        rw [Draft.exec_addCall rfl hprocess _ unit]
        rfl

/-- Drafting fails without a runtime support module and otherwise does what the plan says. The unit stays as it is. -/
theorem exec_draftFor (hne : handlers ≠ []) :
    exec (c.draftFor runtime handlers) unit =
      (match c.runtimeFor? runtime unit with
        | some r => (c.planWith r unit handlers).map fun f => ⟨c, r, unit.span, .apart f⟩
        | none => .error (.missingModule c.runtimeModule), unit) := by
  unfold draftFor
  rw [exec_bind_ok (exec_get _)]
  cases runtime with
  | some r => exact exec_draftWith hne
  | none =>
    unfold findRuntime runtimeFor?
    cases unit.findImport? c.runtimeModule with
    | none => exact exec_bind_error (exec_ofExcept _ _)
    | some i => exact (exec_bind_ok (exec_ofExcept _ _)).trans (exec_draftWith hne)

/-- The commit of a planned entry point adds it to the unit: its name has been found free. -/
theorem exec_commit_planned {draft : Draft} (hplan : c.planWith r unit handlers = .ok f)
    (hplace : draft.place = .apart f) :
    exec draft.commit unit = (.ok { draft with place := .committed unit.functions.length }, unit.install f) := by
  obtain ⟨hfree, register, process, -, -, rfl⟩ := planWith_eq_ok.mp hplan
  exact Draft.exec_commit hplace hfree

/-- The making of an entry point fails as the plan does, and then leaves the unit as it was, or else adds what was
planned. -/
theorem synthesize_run (c : Contract) (runtime : Option Runtime) {handlers : List FunctionDecl}
    (hne : handlers ≠ []) (unit : CompilationUnit) :
    exec (c.synthesize runtime handlers) unit =
      match c.plan runtime unit handlers with
      | .error e => (.error e, unit)
      | .ok f => (.ok (some f), unit.install f) := by
  have hdraft : exec (c.draftFor runtime handlers) unit = _ := exec_draftFor hne
  rw [synthesize_eq_commit c runtime hne, plan_eq]
  cases hr : c.runtimeFor? runtime unit with
  | none =>
    simp only [hr] at hdraft
    exact exec_bind_error hdraft
  | some r =>
    simp only [hr] at hdraft
    cases hplan : c.planWith r unit handlers with
    | error e =>
      rw [hplan] at hdraft
      simp only [hplan]
      exact exec_bind_error hdraft
    | ok f =>
      rw [hplan] at hdraft
      simp only [hplan]
      rw [exec_bind_ok hdraft, exec_bind_ok (exec_commit_planned hplan rfl), exec_bind_ok (exec_get _), exec_pure]
      simp [Draft.function?, CompilationUnit.install]

/-! ## The pass -/

theorem mem_of_mem_collect {c : Contract} {unit : CompilationUnit} {d : FunctionDecl}
    (h : d ∈ (c.collect unit).handlers) : d ∈ unit.functions :=
  List.mem_of_mem_filter (List.mem_of_mem_filter h)

/-- How a pass ends: it finds no handlers and leaves the unit as it is, it fails as the plan does and leaves the unit as
it is, or it adds the planned entry point. -/
theorem runPass_ends (c : Contract) (runtime : Option Runtime) (unit : CompilationUnit) (log : Log) :
    ((c.collect unit).handlers = [] ∧
        (c.runPass runtime unit log).outcome = .ok ⟨[], (c.collect unit).diagnostics, none⟩ ∧
        (c.runPass runtime unit log).unit = unit) ∨
      ((c.collect unit).handlers ≠ [] ∧ ∃ e, c.plan runtime unit (c.collect unit).handlers = .error e ∧
        (c.runPass runtime unit log).outcome = .error e ∧ (c.runPass runtime unit log).unit = unit) ∨
      ((c.collect unit).handlers ≠ [] ∧ ∃ f, c.plan runtime unit (c.collect unit).handlers = .ok f ∧
        (c.runPass runtime unit log).outcome = .ok ⟨(c.collect unit).handlers, (c.collect unit).diagnostics, some f⟩ ∧
        (c.runPass runtime unit log).unit = unit.install f) := by
  have houtcome : (c.runPass runtime unit log).outcome =
      (exec (c.synthesize runtime (c.collect unit).handlers) unit).1.map fun entryPoint =>
        ⟨(c.collect unit).handlers, (c.collect unit).diagnostics, entryPoint⟩ := rfl
  have hunit : (c.runPass runtime unit log).unit =
      (exec (c.synthesize runtime (c.collect unit).handlers) unit).2 := rfl
  rw [houtcome, hunit]
  by_cases hne : (c.collect unit).handlers = []
  · rw [hne, synthesize_nil]
    exact .inl ⟨rfl, rfl, rfl⟩
  · rw [synthesize_run c runtime hne unit]
    cases hplan : c.plan runtime unit (c.collect unit).handlers with
    | error e => exact .inr (.inl ⟨hne, e, rfl, rfl, rfl⟩)
    | ok f => exact .inr (.inr ⟨hne, f, rfl, rfl, rfl⟩)

/-- A pass that succeeds leaves a unit without handlers as it is, and to another one it adds the planned entry
point. -/
theorem runPass_cases {c : Contract} {runtime : Option Runtime} {unit : CompilationUnit} {log : Log}
    {result : PassResult} (h : (c.runPass runtime unit log).outcome = .ok result) :
    (c.runPass runtime unit log).unit = unit ∨
      ∃ f, c.plan runtime unit (c.collect unit).handlers = .ok f ∧
        (c.runPass runtime unit log).unit = unit.install f := by
  rcases c.runPass_ends runtime unit log with ⟨-, -, hunit⟩ | ⟨-, e, -, herror, -⟩ | ⟨-, f, hplan, -, hunit⟩
  · exact .inl hunit
  · rw [herror] at h
    cases h
  · exact .inr ⟨f, hplan, hunit⟩

end Contract

end Registrar
