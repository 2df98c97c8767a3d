import Registrar.Proofs.Resolve.Soundness

/-!
# The types that names stand for

Where every module owns what it exports, a name stands for one of three kinds of types: an unqualified one for a
built-in type or a record type of the unit, a qualified one for a record type of the module behind its prefix. In the
last two cases the type says its name and its module.
-/

namespace Registrar

/-! ## Modules that own what they export -/

/-- A module that owns the symbols that it exports, and the types behind them. -/
structure Module.Owned (m : Module) : Prop where
  owner : ∀ s ∈ m.exports.symbols, s.base.owner = m.id
  types : ∀ t, Symbol.type t ∈ m.exports.symbols → t.type = .user t.name (some m.id)

/-- A registry of modules that own what they export. -/
def Registry.Owned (registry : Registry) : Prop := ∀ m ∈ registry.modules, m.Owned

theorem Registry.mem_add {registry : Registry} {m new : Module} (h : m ∈ (registry.add new).modules) :
    m ∈ registry.modules ∨ m = new := by
  unfold add at h
  split at h
  · obtain ⟨old, hold, rfl⟩ := List.mem_map.mp h
    split
    · exact .inr rfl
    · exact .inl hold
  · rcases List.mem_append.mp h with hold | hnew
    · exact .inl hold
    · exact .inr (List.mem_singleton.mp hnew)

/-- What holds of the modules of a registry and of those that are added holds of all modules in the end. -/
theorem Registry.forall_mem_foldl_add {P : Module → Prop} {registry : Registry} (h : ∀ m ∈ registry.modules, P m)
    {modules : List Module} (hmodules : ∀ m ∈ modules, P m) :
    ∀ m ∈ (modules.foldl Registry.add registry).modules, P m := by
  induction modules generalizing registry with
  | nil => exact h
  | cons new modules ih =>
    refine ih (fun m hm => ?_) fun m hm => hmodules m (List.mem_cons_of_mem new hm)
    rcases Registry.mem_add hm with hold | rfl
    · exact h m hold
    · exact hmodules m List.mem_cons_self

/-- Modules that own what they export keep a registry so. -/
theorem Registry.Owned.foldl_add {registry : Registry} (h : registry.Owned) {modules : List Module}
    (hmodules : ∀ m ∈ modules, m.Owned) : (modules.foldl Registry.add registry).Owned :=
  Registry.forall_mem_foldl_add h hmodules

/-- A module is found in spite of one that is added under another id. -/
theorem Registry.find?_add {registry : Registry} {id : ModuleId} {new : Module} (hid : new.id ≠ id) :
    (registry.add new).find? id = registry.find? id := by
  unfold add
  split
  · -- only modules with the id of the new one are replaced, and neither those nor the new one are found
    have hreplaced : ∀ m : Module, ((if m.id == new.id then new else m).id == id) = (m.id == id) := by
      intro m
      split
      · next hm => simp_all
      · rfl
    have hkept : ∀ m : Module, m.id = id → (if m.id == new.id then new else m) = m := by
      rintro m rfl
      simp [Ne.symm hid]
    simp only [find?, List.find?_map, Function.comp_def, hreplaced]
    cases hfind : registry.modules.find? (·.id == id) with
    | none => rfl
    | some m => exact congrArg some (hkept m (by simpa using List.find?_some hfind))
  · simp [find?, hid]

theorem Registry.find?_foldl_add {id : ModuleId} {modules : List Module} (hids : ∀ m ∈ modules, m.id ≠ id)
    (registry : Registry) : (modules.foldl Registry.add registry).find? id = registry.find? id := by
  induction modules generalizing registry with
  | nil => rfl
  | cons new modules ih =>
    rw [List.foldl_cons, ih (fun m hm => hids m (List.mem_cons_of_mem new hm)), find?_add (hids new List.mem_cons_self)]

/-! ## Built-in types -/

/-- Each built-in type has one name. -/
theorem Ty.builtin?_eq_some {name : Text} {t : Ty} : Ty.builtin? name = some t ↔ (name, t) ∈ Ty.builtins := by
  constructor
  · intro h
    obtain ⟨before, after, heq, -⟩ := List.lookup_eq_some_iff.mp h
    rw [heq]
    exact List.mem_append_right before List.mem_cons_self
  · intro h
    simp only [Ty.builtins, List.mem_cons, Prod.mk.injEq, List.not_mem_nil, or_false] at h
    rcases h with ⟨rfl, rfl⟩ | ⟨rfl, rfl⟩ | ⟨rfl, rfl⟩ | ⟨rfl, rfl⟩ | ⟨rfl, rfl⟩ | ⟨rfl, rfl⟩ | ⟨rfl, rfl⟩ <;> rfl

/-- A built-in type is neither a record type nor a union. -/
theorem Ty.builtin?_simple {name : Text} {t : Ty} (h : Ty.builtin? name = some t) :
    (∀ n o, t ≠ .user n o) ∧ ∀ ts, t ≠ .union ts := by
  have hmem := Ty.builtin?_eq_some.mp h
  simp only [Ty.builtins, List.mem_cons, Prod.mk.injEq, List.not_mem_nil, or_false] at hmem
  rcases hmem with h | h | h | h | h | h | h <;> simp [h.2]

namespace ResolvesTo

variable {registry : Registry} {program : Surface.Program Value} {unit : CompilationUnit}

/-! ## Imports -/

/-- The module behind an import has its id. -/
theorem import_id (h : ResolvesTo registry program unit) {i : ImportDecl} (hi : i ∈ unit.imports) :
    i.module.id = i.id := by
  simpa using List.find?_some (h.import_module hi)

theorem import_owned (h : ResolvesTo registry program unit) (howned : registry.Owned) {i : ImportDecl}
    (hi : i ∈ unit.imports) : i.module.Owned :=
  howned i.module (List.mem_of_find?_eq_some (h.import_module hi))

/-- Each import is what its prefix stands for. -/
theorem find_import (h : ResolvesTo registry program unit) {i : ImportDecl} (hi : i ∈ unit.imports) :
    unit.imports.find? (·.qualifier == i.qualifier) = some i := by
  cases hfind : unit.imports.find? (·.qualifier == i.qualifier) with
  | none => simpa using List.find?_eq_none.mp hfind i hi
  | some j =>
    obtain ⟨hj, hq⟩ := Env.find_prefix hfind
    rw [List.inj_on_of_nodup_map h.prefixes hj hi hq]

/-! ## Types -/

/-- A type in the scope of the unit is one of its records. -/
theorem type_of_lookup (h : ResolvesTo registry program unit) {n : Text} {s : TypeSymbol}
    (hs : unit.scope.lookup n = some (.type s)) : s.type = .user n (some unit.id) := by
  have hmem := Scope.lookup_mem hs
  rw [h.scope] at hmem
  rcases List.mem_append.mp hmem with ht | hf
  · obtain ⟨t, ht, hts⟩ := List.mem_map.mp ht
    obtain ⟨r, -, -, rfl⟩ := exists_of_mem_right h.types ht
    obtain rfl := Symbol.type.inj hts
    rw [show n = r.name from (Scope.lookup_name hs).symm]
  · obtain ⟨d, -, hd⟩ := List.mem_map.mp hf
    simp at hd

/-- What the name of a type stands for. -/
theorem typeName_cases (h : ResolvesTo registry program unit) (howned : registry.Owned) {n : Surface.Name} {t : Ty}
    (ht : (unit.env.typeName n).value = some t) :
    (n.qualifier = none ∧ Ty.builtin? n.ident = some t) ∨
      (n.qualifier = none ∧ Ty.builtin? n.ident = none ∧ t = .user n.ident (some unit.id)) ∨
      ∃ i ∈ unit.imports, n.qualifier = some i.qualifier ∧ t = .user n.ident (some i.id) := by
  cases hq : n.qualifier with
  | none =>
    rcases (Env.typeName_plain hq).mp ht with hb | ⟨hb, s, hs, rfl⟩
    · exact .inl ⟨rfl, hb⟩
    · exact .inr (.inl ⟨rfl, hb, h.type_of_lookup hs⟩)
  | some q =>
    obtain ⟨i, s, hi, hs, rfl⟩ := (Env.typeName_qualified hq).mp ht
    obtain ⟨hmem, hqi⟩ := Env.find_prefix hi
    have htype := (h.import_owned howned hmem).types s (Scope.lookup_mem hs)
    rw [h.import_id hmem, show s.name = n.ident from Scope.lookup_name hs] at htype
    exact .inr (.inr ⟨i, hmem, by rw [hqi], htype⟩)

/-- No name stands for a union. -/
theorem typeName_ne_union (h : ResolvesTo registry program unit) (howned : registry.Owned) {n : Surface.Name} {t : Ty}
    (ht : (unit.env.typeName n).value = some t) (ts : List Ty) : t ≠ .union ts := by
  rcases h.typeName_cases howned ht with ⟨-, hb⟩ | ⟨-, -, rfl⟩ | ⟨i, -, -, rfl⟩
  · exact (Ty.builtin?_simple hb).2 ts
  · simp
  · simp

end ResolvesTo

end Registrar
