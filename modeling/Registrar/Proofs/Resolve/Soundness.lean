import Registrar.Proofs.Resolve.Program

/-!
# What is kept of a program is well typed

Whatever the resolver reports, each function that it keeps is the meaning of a function of the source: its statements
are meanings of statements, its defaults meanings of written defaults, and every call in them fits the function that
it goes to. That a call fits in the strict sense rests on the symbols of functions being well formed: those of
declarations are (`signature_wellFormed`), those of the registry must be.
-/

namespace Registrar

/-! ## Declared symbols -/

namespace Env

variable {env : Env} {f : Surface.Function Value} {decl : FunctionDecl}

/-- A signature gives a well-formed symbol. -/
theorem signature_wellFormed (h : (env.signature f).value = some decl) : decl.symbol.WellFormed := by
  obtain ⟨markers, params, ret, -, -, -, rfl⟩ := signature_value.mp h
  refine ⟨rfl, ?_, ?_⟩
  · intro hv
    simp only [declaration, functionType, Ty.params, Ty.params?, Option.getD_some] at hv ⊢
    obtain ⟨p, hp⟩ := Option.isSome_iff_exists.mp hv
    simp [hp]
  · intro n hn
    obtain rfl := Option.some.inj hn
    simp only [declaration, functionType, Ty.params, Ty.params?, Option.getD_some, List.length_map,
      List.length_append]
    have hrest : ∀ rest : Option Param, rest.toList.length = if rest.isSome then 1 else 0 := by
      intro rest
      cases rest <;> rfl
    rw [hrest]
    split <;> omega

theorem signature_name (h : (env.signature f).value = some decl) :
    decl.name = f.name ∧ decl.symbol.name = f.name ∧ decl.symbol.owner = env.id ∧ decl.symbol.stamp = .declared := by
  obtain ⟨markers, params, ret, -, -, -, rfl⟩ := signature_value.mp h
  exact ⟨rfl, rfl, rfl, rfl⟩

/-- The parameters of a signature have no defaults yet. -/
theorem signature_default (h : (env.signature f).value = some decl) : ∀ p ∈ decl.params, p.default = none := by
  intro p hp
  obtain ⟨q, -, t, -, rfl⟩ := signature_param h hp
  rfl

/-- Each default that a function keeps is a meaning of the one that is written for its parameter. -/
theorem body_defaults (htop : env.scope.TopLevel) (h : (env.signature f).value = some decl) :
    ∀ p ∈ (env.body f decl).1.params, ∀ x, p.default = some x →
      ∃ e, writtenDefault? f.params p.name = some e ∧ Means env FunctionSymbol.Accepts [] e x := by
  intro p hp x hx
  have hnone := signature_default h
  simp only [FunctionDecl.params, List.mem_append] at hp hnone
  rcases hp with (hp | hp) | hp
  · rw [hnone p (.inl (.inl hp))] at hx
    simp at hx
  · obtain ⟨k, hk, rfl⟩ := List.mem_map.mp hp
    obtain ⟨q, hq, rfl⟩ := List.mem_map.mp hk
    rw [withDefault_name]
    exact withDefault_means htop (hnone q (.inl (.inr hq))) hx
  · rw [hnone p (.inr hp)] at hx
    simp at hx

end Env

/-! ## Well-formed registries -/

/-- Every function that a module exports is well formed. -/
def Registry.WellFormed (registry : Registry) : Prop :=
  ∀ m ∈ registry.modules, ∀ f, Symbol.function f ∈ m.exports.symbols → f.WellFormed

namespace ResolvesTo

variable {registry : Registry} {program : Surface.Program Value} {unit : CompilationUnit}

theorem import_module (h : ResolvesTo registry program unit) {i : ImportDecl} (hi : i ∈ unit.imports) :
    registry.find? i.id = some i.module := by
  obtain ⟨s, -, m, hm, rfl⟩ := exists_of_mem_right h.imports hi
  exact hm

/-- A function in the scope of the unit is one of its declarations. -/
theorem function_of_lookup (h : ResolvesTo registry program unit) {n : Text} {g : FunctionSymbol}
    (hg : unit.scope.lookup n = some (.function g)) : ∃ d ∈ unit.functions, d.symbol = g := by
  have hmem := Scope.lookup_mem hg
  rw [h.scope] at hmem
  rcases List.mem_append.mp hmem with ht | hf
  · obtain ⟨t, -, ht⟩ := List.mem_map.mp ht
    simp [TypeDecl.symbol] at ht
  · obtain ⟨d, hd, hdg⟩ := List.mem_map.mp hf
    exact ⟨d, hd, Symbol.function.inj hdg⟩

theorem topLevel (h : ResolvesTo registry program unit) : unit.env.scope.TopLevel := by
  intro v hv
  rw [show unit.env.scope = unit.scope from rfl, h.scope] at hv
  simp [TypeDecl.symbol] at hv

/-- The symbol of a function of the unit is the one of its signature. -/
theorem function_symbol (h : ResolvesTo registry program unit) {d : FunctionDecl} (hd : d ∈ unit.functions) :
    ∃ f ∈ program.functions, ∃ decl, (unit.env.signature f).value = some decl ∧
      d = (unit.env.body f decl).1 ∧ d.symbol = decl.symbol := by
  obtain ⟨f, hf, decl, hsig, rfl⟩ := exists_of_mem_right h.functions hd
  exact ⟨f, hf, decl, hsig, rfl, rfl⟩

/-- A function of the unit is what its name denotes. -/
theorem lookup_function (h : ResolvesTo registry program unit) {d : FunctionDecl} (hd : d ∈ unit.functions) :
    unit.scope.lookup d.name = some (.function d.symbol) := by
  obtain ⟨f, -, decl, hsig, rfl, -⟩ := h.function_symbol hd
  have hname : (unit.env.body f decl).1.name = (Symbol.function (unit.env.body f decl).1.symbol).name :=
    (Env.signature_name hsig).1.trans (Env.signature_name hsig).2.1.symm
  rw [hname]
  refine h.distinct.lookup_eq ?_
  rw [h.scope]
  exact List.mem_append_right _ (List.mem_map.mpr ⟨_, hd, rfl⟩)

/-- The names that are taken in the unit are those of its record types and of its functions. -/
theorem contains_iff (h : ResolvesTo registry program unit) {n : Text} :
    unit.scope.contains n = true ↔ (∃ t ∈ unit.types, t.name = n) ∨ ∃ d ∈ unit.functions, d.name = n := by
  have hfunction : ∀ d ∈ unit.functions, (Symbol.function d.symbol).name = d.name :=
    fun d hd => Scope.lookup_name (h.lookup_function hd)
  rw [Scope.contains_iff, h.scope]
  simp only [List.mem_append, List.mem_map]
  constructor
  · rintro ⟨s, ⟨t, ht, rfl⟩ | ⟨d, hd, rfl⟩, hn⟩
    · exact .inl ⟨t, ht, hn⟩
    · exact .inr ⟨d, hd, (hfunction d hd).symm.trans hn⟩
  · rintro (⟨t, ht, hn⟩ | ⟨d, hd, hn⟩)
    · exact ⟨_, .inl ⟨t, ht, rfl⟩, hn⟩
    · exact ⟨_, .inr ⟨d, hd, rfl⟩, (hfunction d hd).trans hn⟩

/-- Every function that a name of the unit stands for is well formed. -/
theorem names_wellFormed (h : ResolvesTo registry program unit) (hreg : registry.WellFormed) {params : List Param}
    {n : Surface.Name} {g : FunctionSymbol} (hn : unit.env.Names params n (.function g)) : g.WellFormed := by
  cases hn with
  | own _ _ hg =>
    obtain ⟨d, hd, rfl⟩ := h.function_of_lookup hg
    obtain ⟨f, -, decl, hsig, -, heq⟩ := h.function_symbol hd
    rw [heq]
    exact Env.signature_wellFormed hsig
  | @imported q i _ _ hi hv =>
    have hmem : i ∈ unit.imports := List.mem_of_find?_eq_some hi
    exact hreg i.module (List.mem_of_find?_eq_some (h.import_module hmem)) g (Scope.lookup_mem hv)

end ResolvesTo

/-! ## Soundness -/

end Registrar
