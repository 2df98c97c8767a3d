import Registrar.Proofs.Resolve.Outcome
import Registrar.Proofs.Scope
import Registrar.Resolve.Names

/-!
# What names stand for

The three kinds of names against what they are looked up in: the built-in types, the scope of the unit, and what
the imports export. Every look-up is settled. `Names` says what a name in an expression stands for: an unqualified
one a parameter, if there is one of that name, and otherwise a function of the unit; a qualified one what the
module behind its prefix exports.
-/

namespace Registrar.Env

open Resolved

variable {env : Env}

/-! ## Prefixes -/

theorem find_prefix {imports : List ImportDecl} {q : Text} {i : ImportDecl}
    (h : imports.find? (·.qualifier == q) = some i) : i ∈ imports ∧ i.qualifier = q :=
  ⟨List.mem_of_find?_eq_some h, by simpa using List.find?_some h⟩

@[simp] theorem exports_value (env : Env) (q : Text) (p : Position) :
    (env.exports q p).value = (env.imports.find? (·.qualifier == q)).map (·.module.exports) := by
  unfold exports
  cases env.imports.find? (·.qualifier == q) <;> rfl

theorem settled_exports (env : Env) (q : Text) (p : Position) : (env.exports q p).Settled := by
  unfold exports
  split
  · exact settled_fail (env.problem_isError _ _)
  · exact settled_ok _

/-! ## Types -/

theorem settled_typeName (env : Env) (n : Surface.Name) : (env.typeName n).Settled := by
  unfold typeName
  split
  · refine (settled_exports _ _ _).bind fun scope => ?_
    split
    · exact settled_ok _
    · exact settled_fail (env.problem_isError _ _)
  · split
    · exact settled_ok _
    · split
      · exact settled_ok _
      · exact settled_fail (env.problem_isError _ _)

theorem settled_typeExpr (env : Env) (t : Surface.TypeExpr) : (env.typeExpr t).Settled :=
  (settled_all env.settled_typeName _).map _

/-- A qualified type is one that the module behind the prefix exports. -/
theorem typeName_qualified {n : Surface.Name} {q : Text} {t : Ty} (hq : n.qualifier = some q) :
    (env.typeName n).value = some t ↔
      ∃ i s, env.imports.find? (·.qualifier == q) = some i ∧
        i.module.exports.lookup n.ident = some (.type s) ∧ s.type = t := by
  unfold typeName
  rw [hq]
  simp only [bind_value, exports_value, Option.bind_eq_some_iff, Option.map_eq_some_iff]
  constructor
  · rintro ⟨scope, ⟨i, hi, rfl⟩, h⟩
    split at h
    · next s hs => exact ⟨i, s, hi, hs, by simpa using h⟩
    · simp at h
  · rintro ⟨i, s, hi, hs, rfl⟩
    exact ⟨_, ⟨i, hi, rfl⟩, by rw [hs]; rfl⟩

/-- An unqualified type is built in, or else a record type of the unit. -/
theorem typeName_plain {n : Surface.Name} {t : Ty} (hq : n.qualifier = none) :
    (env.typeName n).value = some t ↔
      Ty.builtin? n.ident = some t ∨
        Ty.builtin? n.ident = none ∧ ∃ s, env.scope.lookup n.ident = some (.type s) ∧ s.type = t := by
  unfold typeName
  rw [hq]
  cases hb : Ty.builtin? n.ident with
  | some b => simp
  | none =>
    simp only [reduceCtorEq, true_and, false_or]
    constructor
    · intro h
      split at h
      · next s hs => exact ⟨s, hs, by simpa using h⟩
      · simp at h
    · rintro ⟨s, hs, rfl⟩
      rw [hs]
      rfl

theorem typeExpr_value {t : Surface.TypeExpr} {ty : Ty} :
    (env.typeExpr t).value = some ty ↔
      ∃ ts, List.Forall₂ (fun n t => (env.typeName n).value = some t) t.members ts ∧ Ty.unionOf ts = ty := by
  simp [typeExpr, Option.map_eq_some_iff, all_value_eq_some]

/-- A type is what its one name stands for, or the union of what its names stand for. -/
theorem typeExpr_cases {t : Surface.TypeExpr} {ty : Ty} (h : (env.typeExpr t).value = some ty) :
    (t.others = [] ∧ (env.typeName t.first).value = some ty) ∨
      (t.others ≠ [] ∧ ∃ ts, List.Forall₂ (fun n t => (env.typeName n).value = some t) t.members ts ∧
        ty = .union ts) := by
  obtain ⟨ts, hts, rfl⟩ := typeExpr_value.mp h
  obtain ⟨first, others⟩ := t
  cases hts with
  | cons hfirst hothers =>
    cases hothers with
    | nil => exact .inl ⟨rfl, hfirst⟩
    | cons hsecond hrest => exact .inr ⟨by simp, _, .cons hfirst (.cons hsecond hrest), rfl⟩

/-! ## Tags -/

theorem settled_marker (env : Env) (t : Surface.Tag) : (env.marker t).Settled := by
  unfold marker
  split
  · exact settled_fail (env.problem_isError _ _)
  · refine (settled_exports _ _ _).bind fun scope => ?_
    split
    · exact settled_ok _
    · exact settled_fail (env.problem_isError _ _)

/-- A marker is a tag that the module behind the prefix exports. -/
theorem marker_value {t : Surface.Tag} {m : Marker} :
    (env.marker t).value = some m ↔
      ∃ q i s, t.qualifier = some q ∧ env.imports.find? (·.qualifier == q) = some i ∧
        i.module.exports.lookup t.name = some (.tag s) ∧
        m = { symbol := s, tag := t.name, qualifier := some q, span := env.span t.position } := by
  unfold marker
  cases hq : t.qualifier with
  | none => simp
  | some q =>
    simp only [bind_value, exports_value, Option.bind_eq_some_iff, Option.map_eq_some_iff]
    constructor
    · rintro ⟨scope, ⟨i, hi, rfl⟩, h⟩
      split at h
      · next s hs => exact ⟨q, i, s, rfl, hi, hs, (Option.some.inj h).symm⟩
      · simp at h
    · rintro ⟨q', i, s, hq', hi, hs, rfl⟩
      obtain rfl := Option.some.inj hq'
      exact ⟨_, ⟨i, hi, rfl⟩, by rw [hs]; rfl⟩

/-! ## Values -/

theorem settled_value (env : Env) (params : List Param) (n : Surface.Name) :
    (env.value params n).Settled := by
  unfold value
  dsimp only
  split
  · refine (settled_exports _ _ _).bind fun scope => ?_
    split
    · exact settled_ok _
    · exact settled_fail (env.problem_isError _ _)
  · split
    · exact settled_ok _
    · split
      · exact settled_ok _
      · exact settled_fail (env.problem_isError _ _)

/-- What a name in an expression stands for, inside a function with some parameters. -/
inductive Names (env : Env) (params : List Param) : Surface.Name → ValueSymbol → Prop
  /-- The parameter of an unqualified name; of several with that name it is the last. -/
  | parameter {n : Surface.Name} {p : Param} (hq : n.qualifier = none)
      (hp : params.reverse.find? (·.name == n.ident) = some p) :
      Names env params n (.variable (env.variableOf p))
  /-- The function of the unit, for an unqualified name that no parameter has. -/
  | own {n : Surface.Name} {f : FunctionSymbol} (hq : n.qualifier = none)
      (hp : ∀ p ∈ params, p.name ≠ n.ident) (hf : env.scope.lookup n.ident = some (.function f)) :
      Names env params n (.function f)
  /-- What the module behind the prefix of a qualified name exports. -/
  | imported {n : Surface.Name} {q : Text} {i : ImportDecl} {v : ValueSymbol} (hq : n.qualifier = some q)
      (hi : env.imports.find? (·.qualifier == q) = some i)
      (hv : i.module.exports.lookup n.ident = some v.symbol) :
      Names env params n v

theorem value?_eq_some {s : Symbol} {v : ValueSymbol} : s.value? = some v ↔ s = v.symbol := by
  cases s <;> cases v <;> simp [Symbol.value?, ValueSymbol.symbol]

theorem findVariable?_eq_some {params : List Param} {name : Text} {v : VariableSymbol} :
    env.findVariable? params name = some v ↔
      ∃ p, params.reverse.find? (·.name == name) = some p ∧ env.variableOf p = v := by
  simp only [findVariable?, Option.map_eq_some_iff]

theorem findVariable?_eq_none {params : List Param} {name : Text} :
    env.findVariable? params name = none ↔ ∀ p ∈ params, p.name ≠ name := by
  simp [findVariable?]

/-- A name that stands for something has that meaning. -/
theorem Names.value_eq {params : List Param} {n : Surface.Name} {v : ValueSymbol} (h : env.Names params n v) :
    (env.value params n).value = some v := by
  unfold value
  cases h with
  | parameter hq hp => simp [hq, findVariable?_eq_some.mpr ⟨_, hp, rfl⟩]
  | own hq hp hf => simp [hq, findVariable?_eq_none.mpr hp, hf, Symbol.value?]
  | imported hq hi hv => simp [hq, hi, hv, value?_eq_some.mpr rfl]

/-- A name has the meaning of what it stands for: where no name of the scope denotes a variable, the variables are the
parameters. -/
theorem names_of_value (htop : env.scope.TopLevel) {params : List Param} {n : Surface.Name} {v : ValueSymbol}
    (h : (env.value params n).value = some v) : env.Names params n v := by
  unfold value at h
  cases hq : n.qualifier with
  | some q =>
    simp only [hq, bind_value, exports_value, Option.bind_eq_some_iff, Option.map_eq_some_iff] at h
    obtain ⟨scope, ⟨i, hi, rfl⟩, h⟩ := h
    split at h
    · next w hw =>
      obtain rfl := Option.some.inj h
      obtain ⟨s, hs, hv⟩ := Option.bind_eq_some_iff.mp hw
      obtain rfl := value?_eq_some.mp hv
      exact .imported hq hi hs
    · simp at h
  | none =>
    simp only [hq] at h
    split at h
    · next w hw =>
      obtain rfl := Option.some.inj h
      obtain ⟨p, hp, rfl⟩ := findVariable?_eq_some.mp hw
      exact .parameter hq hp
    · next hnone =>
      split at h
      · next w hw =>
        obtain rfl := Option.some.inj h
        obtain ⟨s, hs, hv⟩ := Option.bind_eq_some_iff.mp hw
        obtain rfl := value?_eq_some.mp hv
        rcases w with f | v
        · exact .own hq (findVariable?_eq_none.mp hnone) hs
        · exact absurd (Scope.lookup_mem hs) (htop v)
      · simp at h

end Registrar.Env
