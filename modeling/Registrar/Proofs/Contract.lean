import Registrar.Contract
import Registrar.Proofs.Resolve.Types

/-!
# What the runtime support module exports

One type, one tag and the operations, all owned by the module itself. The functions among them are well formed, so the
registry of what comes with the compiler is.
-/

namespace Registrar

/-- Every function may stand where any function is asked for. -/
theorem Ty.isAssignable_anyFunction {t : Ty} (h : t.isFunction = true) : t.isAssignable .anyFunction = true := by
  cases t <;> simp_all [isFunction, isAssignable, fits]

/-- The function is an operation of a module: it takes arguments of just these types and has no result. -/
structure FunctionSymbol.IsOperation (f : FunctionSymbol) (owner : ModuleId) (params : List Ty) : Prop where
  type : f.type = .function params (some .nil)
  fixed : f.variadic = false
  required : f.requiredCount = none
  owner : f.owner = owner

/-- An operation can be called with arguments that fit its parameters one by one. -/
theorem FunctionSymbol.IsOperation.fits {f : FunctionSymbol} {owner : ModuleId} {params : List Ty} {args : List Expr}
    (h : f.IsOperation owner params)
    (hargs : List.Forall₂ (fun x t => (Expr.type x).isAssignable t = true) args params) : f.Fits args := by
  have hparams : f.type.params = params := by rw [h.type]; rfl
  have hslot : ∀ i, f.paramTypeAt i = params[i]? := fun i => by simp [paramTypeAt, h.fixed, hparams]
  refine ⟨?_, fun i x hx => ?_⟩
  · simp [arity, Arity.admits, h.fixed, h.required, hparams, hargs.length_eq]
  · obtain ⟨hi, rfl⟩ := List.getElem?_eq_some_iff.mp hx
    have hi' : i < params.length := hargs.length_eq ▸ hi
    exact ⟨params[i], (hslot i).trans (List.getElem?_eq_getElem hi'), hargs.get hi hi'⟩

namespace Contract

variable {c : Contract}

/-- The symbols of the runtime support module: the context type, the tag of handlers, the operations. -/
theorem mem_runtimeSupport {s : Symbol} (h : s ∈ (c.runtimeSupport none).exports.symbols) :
    s = .type { name := c.contextTypeName, owner := c.runtimeModule, stamp := .exported, type := c.contextType } ∨
      s = .tag { name := c.markerName, owner := c.runtimeModule, stamp := .exported } ∨
      ∃ op ∈ c.operations, s = .function
        { name := op.1, owner := c.runtimeModule, stamp := .exported, type := op.2, isPublic := true } := by
  have hmem := Scope.mem_of_mem_ofSymbols h
  simp only [Option.all_none, List.filter_true, List.mem_append, List.mem_cons, List.not_mem_nil, or_false,
    List.mem_map] at hmem
  rcases hmem with (ht | ht) | ⟨op, hop, hs⟩
  · exact .inl ht
  · exact .inr (.inl ht)
  · exact .inr (.inr ⟨op, hop, hs.symm⟩)

/-- The module owns what it exports. -/
theorem owner_runtimeSupport {s : Symbol} (h : s ∈ (c.runtimeSupport none).exports.symbols) :
    s.base.owner = c.runtimeModule := by
  rcases mem_runtimeSupport h with rfl | rfl | ⟨op, -, rfl⟩ <;> rfl

theorem topLevel_runtimeSupport (c : Contract) : (c.runtimeSupport none).exports.TopLevel := by
  intro v hv
  rcases mem_runtimeSupport hv with h | h | ⟨op, -, h⟩ <;> simp at h

/-- An operation that the module exports is one of the contract. -/
theorem lookupFunction_runtimeSupport {name : Text} {f : FunctionSymbol}
    (h : (c.runtimeSupport none).exports.lookupFunction name = some f) :
    ∃ type, (name, type) ∈ c.operations ∧
      f = { name, owner := c.runtimeModule, stamp := .exported, type, isPublic := true } := by
  have hlookup := Scope.lookupFunction_eq_some.mp h
  rcases mem_runtimeSupport (Scope.lookup_mem hlookup) with h | h | ⟨op, hop, h⟩
  · simp at h
  · simp at h
  · obtain rfl := Symbol.function.inj h
    obtain rfl : op.1 = name := Scope.lookup_name hlookup
    exact ⟨op.2, hop, rfl⟩

theorem registerOp_ne_processOp (hnames : [c.contextTypeName, c.markerName, c.registerOp, c.processOp].Nodup) :
    c.registerOp ≠ c.processOp := by
  intro hops
  simp [hops] at hnames

/-- If no two names of the module are the same, it exports every operation of the contract. -/
theorem lookup_runtimeSupport (hnames : [c.contextTypeName, c.markerName, c.registerOp, c.processOp].Nodup)
    {name : Text} {type : Ty} (hop : (name, type) ∈ c.operations) :
    (c.runtimeSupport none).exports.lookup name =
      some (.function { name, owner := c.runtimeModule, stamp := .exported, type, isPublic := true }) := by
  have hops := registerOp_ne_processOp hnames
  let f : FunctionSymbol := { name, owner := c.runtimeModule, stamp := .exported, type, isPublic := true }
  refine Scope.lookup_ofSymbols (s := .function f) ?_ ?_
  · simp only [Option.all_none, List.filter_true, operations, if_neg hops]
    exact hnames
  · simp only [Option.all_none, List.filter_true]
    exact List.mem_append_right _ (List.mem_map.mpr ⟨_, hop, rfl⟩)

/-- The operation that registers a handler takes its name and a function. -/
theorem register_isOperation (hops : c.registerOp ≠ c.processOp) {f : FunctionSymbol}
    (h : (c.runtimeSupport none).exports.lookupFunction c.registerOp = some f) :
    f.IsOperation c.runtimeModule [.string, .anyFunction] := by
  obtain ⟨type, hop, rfl⟩ := lookupFunction_runtimeSupport h
  rw [operations, if_neg hops] at hop
  simp only [List.mem_cons, Prod.mk.injEq, true_and, hops, false_and, List.not_mem_nil, or_false] at hop
  exact ⟨hop, rfl, rfl, rfl⟩

/-- The operation that starts to process events takes nothing. -/
theorem process_isOperation {f : FunctionSymbol}
    (h : (c.runtimeSupport none).exports.lookupFunction c.processOp = some f) :
    f.IsOperation c.runtimeModule [] := by
  obtain ⟨type, hop, rfl⟩ := lookupFunction_runtimeSupport h
  have htype : type = .function [] (some .nil) := by
    unfold operations at hop
    split at hop
    · simpa using hop
    · next hne => simpa [Ne.symm hne] using hop
  exact ⟨htype, rfl, rfl, rfl⟩

theorem mem_registry {m : Module} : m ∈ c.registry.modules ↔ m = c.runtimeSupport none := by
  simp [registry]

theorem registry_owned (c : Contract) : c.registry.Owned := by
  intro m hm
  rw [mem_registry.mp hm]
  refine ⟨fun s hs => owner_runtimeSupport hs, fun t ht => ?_⟩
  rcases mem_runtimeSupport ht with h | h | ⟨op, -, h⟩
  · obtain rfl := Symbol.type.inj h
    rfl
  · simp at h
  · simp at h

/-- Every operation takes as many arguments as its type says. -/
theorem registry_wellFormed (c : Contract) : c.registry.WellFormed := by
  intro m hm f hf
  rw [mem_registry.mp hm] at hf
  rcases mem_runtimeSupport hf with h | h | ⟨op, hop, h⟩
  · simp at h
  · simp at h
  · obtain rfl := Symbol.function.inj h
    have hfun : op.2.isFunction = true := by
      unfold operations at hop
      split at hop <;> simp at hop
      · rw [hop]; rfl
      · rcases hop with rfl | rfl <;> rfl
    exact ⟨hfun, by simp, by simp⟩

end Contract

end Registrar
