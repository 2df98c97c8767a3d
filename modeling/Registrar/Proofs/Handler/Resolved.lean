import Registrar.Proofs.Contract
import Registrar.Proofs.Handler.Pass

/-!
# The handler pass on resolved units

A unit that was resolved has its markers from the modules that it imports. So where there is a handler the runtime
support module is imported, and it has both operations: of all that could stand in the way of an entry point only a
record or a function of its name is left (`runPass_resolved_fails_iff`). This needs nothing of the program; the resolver
may have reported any number of problems.
-/

namespace Registrar

namespace ResolvesTo

variable {c : Contract} {registry : Registry} {program : Surface.Program Value} {unit : CompilationUnit}

/-- A marked function has its marker from an import of the runtime support module. -/
theorem exists_import_of_isMarked (h : ResolvesTo registry program unit)
    (howner : ∀ m ∈ registry.modules, ∀ s ∈ m.exports.symbols, s.base.owner = m.id) {f : FunctionDecl}
    (hf : f ∈ unit.functions) (hmarked : c.isMarked f = true) : ∃ i ∈ unit.imports, i.id = c.runtimeModule := by
  obtain ⟨m, hm, hidentity⟩ := List.any_eq_true.mp hmarked
  obtain ⟨source, -, decl, hsig, rfl, -⟩ := h.function_symbol hf
  obtain ⟨q, i, -, hi, hlookup⟩ := Env.signature_marker hsig hm
  have hmem : i ∈ unit.imports := List.mem_of_find?_eq_some hi
  have hmodule : i.module ∈ registry.modules := List.mem_of_find?_eq_some (h.import_module hmem)
  have howned : m.symbol.owner = i.id := (howner _ hmodule _ (Scope.lookup_mem hlookup)).trans (h.import_id hmem)
  refine ⟨i, hmem, ?_⟩
  rw [beq_iff_eq, TagSymbol.identity, Contract.markerIdentity, Prod.mk.injEq, Prod.mk.injEq, howned] at hidentity
  rw [ModuleId.mk.injEq]
  exact ⟨hidentity.1, hidentity.2.1⟩

/-- The runtime support module of a unit is the one of the registry. -/
theorem runtimeFor?_module (h : ResolvesTo registry program unit) {support : Module}
    (hsupport : registry.find? c.runtimeModule = some support) {r : Runtime}
    (hr : c.runtimeFor? none unit = some r) : r.module = support := by
  rw [Contract.runtimeFor?, Option.none_or, Option.map_eq_some_iff] at hr
  obtain ⟨i, hi, rfl⟩ := hr
  have hid : i.id = c.runtimeModule := by simpa using List.find?_some hi
  have hmodule := h.import_module (List.mem_of_find?_eq_some hi)
  rw [hid, hsupport] at hmodule
  exact (Option.some.inj hmodule).symm

/-- If the runtime support module is imported and has its operations, only a name that is taken stands in the way of an
entry point. -/
theorem hinders_iff (h : ResolvesTo registry program unit)
    (hnames : [c.contextTypeName, c.markerName, c.registerOp, c.processOp].Nodup)
    (hsupport : registry.find? c.runtimeModule = some (c.runtimeSupport none))
    (himported : ∃ i ∈ unit.imports, i.id = c.runtimeModule) {e : EntryPointError} :
    c.Hinders none unit e ↔ e = .nameTaken c.entryPointName ∧ unit.scope.contains c.entryPointName = true := by
  have hops := Contract.registerOp_ne_processOp hnames
  have hoperation : ∀ r, c.runtimeFor? none unit = some r → ∀ op ∈ c.operations,
      r.module.exports.lookupFunction op.1 ≠ none := by
    intro r hr op hop
    rw [h.runtimeFor?_module hsupport hr,
      Scope.lookupFunction_eq_some.mpr (Contract.lookup_runtimeSupport hnames hop)]
    simp
  simp only [Contract.operations, if_neg hops, List.forall_mem_cons] at hoperation
  constructor
  · intro hhinders
    cases hhinders with
    | unimported _ hno =>
      obtain ⟨i, hi, hid⟩ := himported
      exact absurd hid (hno i hi)
    | taken _ htaken => exact ⟨rfl, htaken⟩
    | noRegister hr _ hregister => exact absurd hregister (hoperation _ hr).1
    | noProcess hr _ _ hprocess => exact absurd hprocess (hoperation _ hr).2.1
  · rintro ⟨rfl, htaken⟩
    cases hr : c.runtimeFor? none unit with
    | none =>
      obtain ⟨i, hi, hid⟩ := himported
      exact absurd hid ((Contract.runtimeFor?_eq_none.mp hr).2 i hi)
    | some r => exact .taken hr htaken

end ResolvesTo

/-- Whatever a program is and whatever was reported of it, a pass over its unit fails exactly if there is a handler and
the name of the entry point is that of a record or of a function of the unit, and then for that reason. In particular
no pass misses the runtime support module or one of its operations. Any modules under other ids may be imported beside
the runtime support module, as long as they own their symbols. -/
theorem runPass_resolved_fails_iff {c : Contract}
    (hnames : [c.contextTypeName, c.markerName, c.registerOp, c.processOp].Nodup) {modules : List Module}
    (hids : ∀ m ∈ modules, m.id ≠ c.runtimeModule)
    (howner : ∀ m ∈ modules, ∀ s ∈ m.exports.symbols, s.base.owner = m.id) (id : ModuleId) (file : Option Text)
    (program : Surface.Program Value) (log : Log) :
    let unit := (resolveProgram (modules.foldl Registry.add c.registry) id file program).1
    ∀ e, (c.runPass none unit log).outcome = .error e ↔
      e = .nameTaken c.entryPointName ∧ (∃ f ∈ unit.functions, c.standing f = .handler) ∧
        ((∃ t ∈ unit.types, t.name = c.entryPointName) ∨ ∃ f ∈ unit.functions, f.name = c.entryPointName) := by
  intro unit e
  obtain ⟨kept, -, -, -, h, -⟩ := resolveProgram_kept (modules.foldl Registry.add c.registry) id file program
  have hsupport : (modules.foldl Registry.add c.registry).find? c.runtimeModule = some (c.runtimeSupport none) := by
    rw [Registry.find?_foldl_add hids]
    exact List.find?_cons_of_pos (beq_self_eq_true _)
  have hregistry : ∀ m ∈ (modules.foldl Registry.add c.registry).modules,
      ∀ s ∈ m.exports.symbols, s.base.owner = m.id := by
    refine Registry.forall_mem_foldl_add (fun m hm s hs => ?_) howner
    rw [Contract.mem_registry.mp hm] at hs ⊢
    exact Contract.owner_runtimeSupport hs
  rw [Contract.runPass_eq_error, Contract.exists_handler, ← h.contains_iff]
  constructor
  · rintro ⟨⟨f, hf, hhandler⟩, hhinders⟩
    have himported := h.exists_import_of_isMarked hregistry hf (Contract.standing_eq_handler.mp hhandler).1
    obtain ⟨rfl, htaken⟩ := (h.hinders_iff hnames hsupport himported).mp hhinders
    exact ⟨rfl, ⟨f, hf, hhandler⟩, htaken⟩
  · rintro ⟨rfl, ⟨f, hf, hhandler⟩, htaken⟩
    have himported := h.exists_import_of_isMarked hregistry hf (Contract.standing_eq_handler.mp hhandler).1
    exact ⟨⟨f, hf, hhandler⟩, (h.hinders_iff hnames hsupport himported).mpr ⟨rfl, htaken⟩⟩

/-- Of two functions of one name the first is kept, a handler under the name of the entry point. The pass fails for that
name, also beside a module with a tag of the same name as the one of handlers. -/
theorem runPass_resolved_taken :
    let c : Contract := ({} : Contract).withEntryPoint "main"
    let fake : Module := ⟨⟨"acme", "fake"⟩, ⟨⟨"acme", "fake"⟩,
      [.tag { name := "Function", owner := ⟨"acme", "fake"⟩, stamp := .exported }]⟩⟩
    let name (q : Option Text) (ident : Text) : Surface.Name := ⟨q, ident, .start⟩
    let main (tag : Text) : Surface.Function Value :=
      { name := "main", position := .start, tags := [⟨some tag, "Function", .start⟩], isPublic := true
        params := [⟨"ctx", .start, ⟨name (some "awslambda") "Context", []⟩, .required⟩,
          ⟨"event", .start, ⟨name none "json", []⟩, .required⟩]
        returns := some ⟨name none "error", [name none "json"]⟩, body := [] }
    let program : Surface.Program Value :=
      { imports := [⟨"acme", "fake", none, .start⟩, ⟨"ballerinax", "awslambda", none, .start⟩]
        records := [], functions := [main "awslambda", main "fake"] }
    let resolved := resolveProgram ([fake].foldl Registry.add c.registry) ⟨"demo", "app"⟩ none program
    resolved.2.length = 1 ∧ (c.runPass none resolved.1 {}).outcome.isOk = false ∧
      ∀ e, (c.runPass none resolved.1 {}).outcome = .error e ↔ e = .nameTaken "main" := by
  intro c fake name main program resolved
  have hids : ∀ m ∈ [fake], m.id ≠ c.runtimeModule := by decide
  have howner : ∀ m ∈ [fake], ∀ s ∈ m.exports.symbols, s.base.owner = m.id := by decide
  have hfails := runPass_resolved_fails_iff (by decide) hids howner ⟨"demo", "app"⟩ none program {}
  have hhandler : ∃ f ∈ resolved.1.functions, c.standing f = .handler := by decide +kernel
  have htaken : ∃ f ∈ resolved.1.functions, f.name = c.entryPointName := by decide +kernel
  have hiff : ∀ e, (c.runPass none resolved.1 {}).outcome = .error e ↔ e = .nameTaken "main" :=
    fun e => (hfails e).trans (and_iff_left ⟨hhandler, .inr htaken⟩)
  refine ⟨by decide +kernel, ?_, hiff⟩
  rw [(hiff _).mpr rfl]
  rfl

end Registrar
