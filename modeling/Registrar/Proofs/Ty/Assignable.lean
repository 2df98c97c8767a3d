import Registrar.Ty.Assignable

/-!
# Assignability

Assignability is a preorder, and a union is checked member by member where the slot is a union.

`Assignable` states the rules of assignability as a relation, and `isAssignable_iff` that the functions decide it. The
two recursions of the functions, first through the members of a source and then through those of a slot, are in the
relation two rules.

Transitivity goes by induction on the first derivation. A source that was taken apart, or for which a member of the slot
was chosen, hands the question on to smaller derivations. Only `json` and the type of any function accept types other
than themselves without a look into a union, and whatever accepts one of them accepts all that it accepts
(`Assignable.through`).

That every alternative of a type fits says that the type fits only if the slot is a union itself. Any other slot refuses
unions, those with fitting members too (`isAssignable_union_memberwise`).
-/

namespace Registrar.Ty

/-! ## The rules -/

/-- A value of type `source` may stand where `slot` is asked for. -/
inductive Assignable : (source slot : Ty) → Prop
  | refl {t : Ty} : Assignable t t
  /-- A union fits a union if each of its members does. -/
  | each {members slots : List Ty} (h : ∀ m ∈ members, Assignable m (.union slots)) :
      Assignable (.union members) (.union slots)
  /-- Any other type, the unknown one apart, fits a union if it fits one of its members. -/
  | one {source slot : Ty} {slots : List Ty} (hunion : ∀ members, source ≠ .union members)
      (hknown : source ≠ .unknown) (hslot : slot ∈ slots) (h : Assignable source slot) :
      Assignable source (.union slots)
  | json {source : Ty} (h : source.isJson = true) : Assignable source .json
  | anyFunction {source : Ty} (h : source.isFunction = true) : Assignable source .anyFunction

theorem plain_of_isJson {t : Ty} (h : t.isJson = true) : (∀ members, t ≠ .union members) ∧ t ≠ .unknown := by
  cases t <;> simp_all [isJson]

theorem plain_of_isFunction {t : Ty} (h : t.isFunction = true) : (∀ members, t ≠ .union members) ∧ t ≠ .unknown := by
  cases t <;> simp_all [isFunction]

theorem fitsSome_eq_true {source : Ty} {slots : List Ty} :
    fitsSome source slots = true ↔ ∃ slot ∈ slots, fits source slot = true := by
  induction slots with
  | nil => simp [fitsSome]
  | cons slot slots ih => simp [fitsSome, ih]

theorem allAssignable_eq_true {sources : List Ty} {slot : Ty} :
    allAssignable sources slot = true ↔ ∀ source ∈ sources, isAssignable source slot = true := by
  induction sources with
  | nil => simp [allAssignable]
  | cons source sources ih => simp [allAssignable, ih]

/-- A type that is no union is looked for in the slot. -/
theorem isAssignable_eq_fits {source : Ty} (hunion : ∀ members, source ≠ .union members) (slot : Ty) :
    isAssignable source slot = fits source slot := by
  cases source with
  | union members => exact absurd rfl (hunion members)
  | _ => simp [isAssignable]

/-- A union fits itself and the unions that each of its members fits. -/
theorem isAssignable_union {members : List Ty} {slot : Ty} :
    isAssignable (.union members) slot = true ↔
      .union members = slot ∨ (∃ slots, slot = .union slots) ∧ ∀ m ∈ members, isAssignable m slot = true := by
  cases slot with
  | union slots => simp [isAssignable, allAssignable_eq_true]
  | _ => simp [isAssignable]

/-! ## The functions decide the relation -/

theorem isAssignable_refl (t : Ty) : isAssignable t t = true := by
  cases t with
  | union members => exact isAssignable_union.mpr (.inl rfl)
  | _ => simp [isAssignable, fits, isJson, isFunction]

mutual
theorem Assignable.of_fits {source : Ty} (hunion : ∀ members, source ≠ .union members) :
    (slot : Ty) → fits source slot = true → Assignable source slot
  | .union slots, h => by
    simp only [fits, Bool.or_eq_true, beq_iff_eq, Bool.and_eq_true, bne_iff_ne] at h
    rcases h with rfl | ⟨hknown, h⟩
    · exact absurd rfl (hunion slots)
    · obtain ⟨slot, hslot, h⟩ := Assignable.of_fitsSome hunion slots h
      exact .one hunion hknown hslot h
  | .json, h => .json (by simpa [fits] using h)
  | .anyFunction, h => .anyFunction (by simpa [fits] using h)
  | .error, h | .string, h | .int, h | .boolean, h | .nil, h | .unknown, h | .user _ _, h
  | .function _ _, h => by
    simp only [fits, beq_iff_eq] at h
    exact h ▸ .refl

theorem Assignable.of_fitsSome {source : Ty} (hunion : ∀ members, source ≠ .union members) :
    (slots : List Ty) → fitsSome source slots = true → ∃ slot ∈ slots, Assignable source slot
  | [], h => by simp [fitsSome] at h
  | slot :: slots, h => by
    simp only [fitsSome, Bool.or_eq_true] at h
    rcases h with h | h
    · exact ⟨slot, List.mem_cons_self, Assignable.of_fits hunion slot h⟩
    · obtain ⟨slot', hslot', h'⟩ := Assignable.of_fitsSome hunion slots h
      exact ⟨slot', List.mem_cons_of_mem slot hslot', h'⟩
end

mutual
theorem Assignable.of_isAssignable {slot : Ty} : (source : Ty) → isAssignable source slot = true → Assignable source slot
  | .union members, h => by
    rcases isAssignable_union.mp h with rfl | ⟨⟨slots, rfl⟩, h⟩
    · exact .refl
    · exact .each (Assignable.of_allAssignable members (allAssignable_eq_true.mpr h))
  | .json, h | .error, h | .string, h | .int, h | .boolean, h | .nil, h | .anyFunction, h | .unknown, h | .user _ _, h
  | .function _ _, h => by
    rw [isAssignable_eq_fits (by simp)] at h
    exact .of_fits (by simp) slot h

theorem Assignable.of_allAssignable {slot : Ty} :
    (sources : List Ty) → allAssignable sources slot = true → ∀ m ∈ sources, Assignable m slot
  | [], _ => by simp
  | source :: sources, h => by
    simp only [allAssignable, Bool.and_eq_true] at h
    rw [List.forall_mem_cons]
    exact ⟨Assignable.of_isAssignable source h.1, Assignable.of_allAssignable sources h.2⟩
end

/-- The functions find every type that fits, and no other. -/
theorem isAssignable_iff {source slot : Ty} : isAssignable source slot = true ↔ Assignable source slot := by
  refine ⟨Assignable.of_isAssignable source, fun h => ?_⟩
  induction h with
  | @refl t => exact isAssignable_refl t
  | each _ ih => exact isAssignable_union.mpr (.inr ⟨⟨_, rfl⟩, ih⟩)
  | one hunion hknown hslot _ ih =>
    rw [isAssignable_eq_fits hunion] at ih ⊢
    simp only [fits, Bool.or_eq_true, Bool.and_eq_true, bne_iff_ne]
    exact .inr ⟨hknown, fitsSome_eq_true.mpr ⟨_, hslot, ih⟩⟩
  | json h =>
    rw [isAssignable_eq_fits (plain_of_isJson h).1, fits]
    exact h
  | anyFunction h =>
    rw [isAssignable_eq_fits (plain_of_isFunction h).1, fits]
    exact h

/-! ## Transitivity -/

/-- A type that fits `t`, and is a JSON type or a function type if `t` is, fits whatever `t` does. Neither of the two is
a union here, so nothing is taken apart. -/
theorem Assignable.through {source t slot : Ty} (hunion : ∀ members, source ≠ .union members)
    (hknown : source ≠ .unknown) (ht : ∀ members, t ≠ .union members) (hfits : Assignable source t)
    (hjson : t.isJson = true → source.isJson = true) (hfunction : t.isFunction = true → source.isFunction = true)
    (h : Assignable t slot) : Assignable source slot := by
  induction h with
  | refl => exact hfits
  | each => exact absurd rfl (ht _)
  | one _ _ hslot _ ih => exact .one hunion hknown hslot (ih ht hfits hjson hfunction)
  | json h => exact .json (hjson h)
  | anyFunction h => exact .anyFunction (hfunction h)

/-- A union that fits is the slot itself, or the slot is a union that each member fits. -/
theorem Assignable.union_cases {members : List Ty} {slot : Ty} (h : Assignable (.union members) slot) :
    slot = .union members ∨ ∃ slots, slot = .union slots ∧ ∀ m ∈ members, Assignable m slot := by
  cases h with
  | refl => exact .inl rfl
  | each h => exact .inr ⟨_, rfl, h⟩
  | one hunion => exact absurd rfl (hunion members)
  | json h => simp [isJson] at h
  | anyFunction h => simp [isFunction] at h

theorem Assignable.trans {a b c : Ty} (hab : Assignable a b) (hbc : Assignable b c) : Assignable a c := by
  induction hab generalizing c with
  | refl => exact hbc
  | each h ih =>
    rcases hbc.union_cases with rfl | ⟨slots, rfl, -⟩
    · exact .each h
    · exact .each fun m hm => ih m hm hbc
  | one hunion hknown hslot h ih =>
    rcases hbc.union_cases with rfl | ⟨slots, rfl, hslots⟩
    · exact .one hunion hknown hslot h
    · exact ih (hslots _ hslot)
  | json h =>
    obtain ⟨hunion, hknown⟩ := plain_of_isJson h
    exact .through hunion hknown (by simp) (.json h) (fun _ => h) (by simp [isFunction]) hbc
  | anyFunction h =>
    obtain ⟨hunion, hknown⟩ := plain_of_isFunction h
    exact .through hunion hknown (by simp) (.anyFunction h) (by simp [isJson]) (fun _ => h) hbc

/-- What the rules let stand for each other is a preorder: every type may stand for itself, and where a type may stand
for a second one that may stand for a third, it may stand for the third. -/
theorem isAssignable_preorder (a b c : Ty) :
    (a.isAssignable b = true ↔ Assignable a b) ∧ a.isAssignable a = true ∧
      (a.isAssignable b = true → b.isAssignable c = true → a.isAssignable c = true) := by
  refine ⟨isAssignable_iff, isAssignable_refl a, fun hab hbc => ?_⟩
  rw [isAssignable_iff] at hab hbc ⊢
  exact hab.trans hbc

/-- Nested unions in which every rule is used, and the unknown type, which fits nothing but itself even where it is a
member. -/
theorem isAssignable_preorder_nested :
    let handler : Ty := .function [.user "Context" none, .json] (some (.union [.json, .error]))
    let a : Ty := .union [.string, .union [.int, .string], handler]
    let b : Ty := .union [.union [.json], .anyFunction]
    let c : Ty := .union [.unknown, .union [.error, .anyFunction, .union []], .json]
    a.isAssignable b = true ∧ b.isAssignable c = true ∧ a.isAssignable c = true ∧ c.isAssignable c = true ∧
      Ty.unknown.isAssignable c = false := by
  intro handler a b c
  have hab : a.isAssignable b = true := by decide
  have hbc : b.isAssignable c = true := by decide
  exact ⟨hab, hbc, (isAssignable_preorder a b c).2.2 hab hbc, (isAssignable_preorder c b a).2.1, by decide⟩

/-! ## Unions as sources -/

mutual
/-- The types that a value of the type may have: unions are taken apart, to any depth. -/
def alternatives : Ty → List Ty
  | .union members => alternativesAll members
  | t => [t]

/-- The types that a value of one of the types may have. -/
def alternativesAll : List Ty → List Ty
  | [] => []
  | t :: ts => alternatives t ++ alternativesAll ts
end

theorem alternatives_plain {t : Ty} (h : ∀ members, t ≠ .union members) : t.alternatives = [t] := by
  cases t with
  | union members => exact absurd rfl (h members)
  | _ => simp [alternatives]

mutual
/-- An alternative of a type is no union and, unless it is the unknown type, fits the type. -/
theorem Assignable.of_mem_alternatives {a : Ty} (hknown : a ≠ .unknown) : (t : Ty) → a ∈ t.alternatives →
    (∀ members, a ≠ .union members) ∧ Assignable a t
  | .union members, h => by
    rw [alternatives] at h
    obtain ⟨hplain, t, ht, hfits⟩ := Assignable.of_mem_alternativesAll hknown members h
    exact ⟨hplain, .one hplain hknown ht hfits⟩
  | .json, h | .error, h | .string, h | .int, h | .boolean, h | .nil, h | .anyFunction, h | .unknown, h | .user _ _, h
  | .function _ _, h => by
    rw [alternatives_plain (by simp), List.mem_singleton] at h
    subst h
    exact ⟨by simp, .refl⟩

theorem Assignable.of_mem_alternativesAll {a : Ty} (hknown : a ≠ .unknown) : (ts : List Ty) → a ∈ alternativesAll ts →
    (∀ members, a ≠ .union members) ∧ ∃ t ∈ ts, Assignable a t
  | [], h => by simp [alternativesAll] at h
  | t :: ts, h => by
    rw [alternativesAll, List.mem_append] at h
    rcases h with h | h
    · obtain ⟨hplain, hfits⟩ := Assignable.of_mem_alternatives hknown t h
      exact ⟨hplain, t, List.mem_cons_self, hfits⟩
    · obtain ⟨hplain, t', ht', hfits⟩ := Assignable.of_mem_alternativesAll hknown ts h
      exact ⟨hplain, t', List.mem_cons_of_mem t ht', hfits⟩
end

mutual
/-- A type fits a union if all its alternatives do. -/
theorem Assignable.of_alternatives {slots : List Ty} : (t : Ty) → (∀ a ∈ t.alternatives, Assignable a (.union slots)) →
    Assignable t (.union slots)
  | .union members, h => by
    rw [alternatives] at h
    exact .each (Assignable.of_alternativesAll members h)
  | .json, h | .error, h | .string, h | .int, h | .boolean, h | .nil, h | .anyFunction, h | .unknown, h | .user _ _, h
  | .function _ _, h => h _ (by rw [alternatives_plain (by simp)]; exact List.mem_singleton_self _)

theorem Assignable.of_alternativesAll {slots : List Ty} : (ts : List Ty) →
    (∀ a ∈ alternativesAll ts, Assignable a (.union slots)) → ∀ t ∈ ts, Assignable t (.union slots)
  | [], _ => by simp
  | t :: ts, h => by
    rw [alternativesAll, List.forall_mem_append] at h
    rw [List.forall_mem_cons]
    exact ⟨Assignable.of_alternatives t h.1, Assignable.of_alternativesAll ts h.2⟩
end

/-- A member fits its union, unless it may be of the unknown type. -/
theorem Assignable.of_mem {members : List Ty} (hknown : .unknown ∉ (Ty.union members).alternatives) :
    ∀ m ∈ members, Assignable m (.union members) := by
  refine Assignable.of_alternativesAll members fun a ha => ?_
  have hmem : a ∈ (Ty.union members).alternatives := by rwa [alternatives]
  exact (Assignable.of_mem_alternatives (fun h => hknown (h ▸ hmem)) _ hmem).2

/-- A slot that is no union takes its own type and, if it is `json` or the type of any function, all of that kind. -/
theorem Assignable.plain_slot {source slot : Ty} (hslot : ∀ slots, slot ≠ .union slots) :
    Assignable source slot ↔
      slot = .json ∧ source.isJson = true ∨ slot = .anyFunction ∧ source.isFunction = true ∨ source = slot := by
  constructor
  · intro h
    cases h with
    | refl => exact .inr (.inr rfl)
    | each => exact absurd rfl (hslot _)
    | one => exact absurd rfl (hslot _)
    | json h => exact .inl ⟨rfl, h⟩
    | anyFunction h => exact .inr (.inl ⟨rfl, h⟩)
  · rintro (⟨rfl, h⟩ | ⟨rfl, h⟩ | rfl)
    · exact .json h
    · exact .anyFunction h
    · exact .refl

/-- The members that a slot takes, where the slot is no union: all JSON types, all function types, or the slot's own
type again and again. -/
theorem forall_isAssignable_plain {members : List Ty} {slot : Ty} (hslot : ∀ slots, slot ≠ .union slots) :
    (∀ m ∈ members, m.isAssignable slot = true) ↔
      slot = .json ∧ (∀ m ∈ members, m.isJson = true) ∨
        slot = .anyFunction ∧ (∀ m ∈ members, m.isFunction = true) ∨ ∀ m ∈ members, m = slot := by
  simp only [isAssignable_iff, Assignable.plain_slot hslot]
  constructor
  · intro h
    by_cases hjson : slot = .json
    · subst hjson
      refine .inl ⟨rfl, fun m hm => ?_⟩
      rcases h m hm with ⟨-, hm⟩ | ⟨hne, -⟩ | rfl
      · exact hm
      · simp at hne
      · rfl
    · by_cases hfunction : slot = .anyFunction
      · subst hfunction
        refine .inr (.inl ⟨rfl, fun m hm => ?_⟩)
        rcases h m hm with ⟨hne, -⟩ | ⟨-, hm⟩ | rfl
        · simp at hne
        · exact hm
        · rfl
      · simpa [hjson, hfunction] using h
  · rintro (⟨rfl, h⟩ | ⟨rfl, h⟩ | h) m hm
    · exact .inl ⟨rfl, h m hm⟩
    · exact .inr (.inl ⟨rfl, h m hm⟩)
    · exact .inr (.inr (h m hm))

/-- A union fits exactly the unions that each of its members fits. So to check a union is to check its members unless
the slot is no union and takes every member: then the members are all JSON types, all function types, or all of the
slot's own type, and the union is refused all the same. The unknown type, which does not even fit a union that has it as
a member, may not be among the alternatives. -/
theorem isAssignable_union_memberwise {members : List Ty} (hknown : .unknown ∉ (Ty.union members).alternatives)
    (slot : Ty) :
    ((Ty.union members).isAssignable slot = true ↔
        (∃ slots, slot = .union slots) ∧ ∀ m ∈ members, m.isAssignable slot = true) ∧
      (((Ty.union members).isAssignable slot = true ↔ ∀ m ∈ members, m.isAssignable slot = true) ↔
        ¬ ((∀ slots, slot ≠ .union slots) ∧
          (slot = .json ∧ (∀ m ∈ members, m.isJson = true) ∨
            slot = .anyFunction ∧ (∀ m ∈ members, m.isFunction = true) ∨ ∀ m ∈ members, m = slot))) := by
  have hunion : (Ty.union members).isAssignable slot = true ↔
      (∃ slots, slot = .union slots) ∧ ∀ m ∈ members, m.isAssignable slot = true := by
    rw [isAssignable_union]
    constructor
    · rintro (rfl | h)
      · exact ⟨⟨members, rfl⟩, fun m hm => isAssignable_iff.mpr (Assignable.of_mem hknown m hm)⟩
      · exact h
    · exact .inr
  refine ⟨hunion, ?_⟩
  by_cases hslot : ∃ slots, slot = .union slots
  · obtain ⟨slots, rfl⟩ := hslot
    simp [hunion]
  · have hplain : ∀ slots, slot ≠ .union slots := fun slots h => hslot ⟨slots, h⟩
    rw [hunion, ← forall_isAssignable_plain hplain]
    simp [hplain]

/-- Strings and integers fit `json`, and their union does not, though it fits the union of `json` and `error`. A type
that is written twice does not even fit itself written once. -/
theorem isAssignable_union_memberwise_refused :
    let scalars : List Ty := [.string, .int]
    .unknown ∉ (Ty.union scalars).alternatives ∧
      (∀ m ∈ scalars, m.isAssignable .json = true) ∧ (Ty.union scalars).isAssignable .json = false ∧
      (Ty.union [.int, .int]).isAssignable .int = false ∧
      (Ty.union scalars).isAssignable (.union [.json, .error]) = true := by
  intro scalars
  have hknown : .unknown ∉ (Ty.union scalars).alternatives := by decide
  have hmembers : ∀ m ∈ scalars, m.isAssignable .json = true := by decide
  refine ⟨hknown, hmembers, ?_, by decide, ?_⟩
  · refine Bool.eq_false_iff.mpr fun h => ?_
    obtain ⟨⟨slots, hslots⟩, -⟩ := (isAssignable_union_memberwise hknown .json).1.mp h
    simp at hslots
  · exact (isAssignable_union_memberwise hknown _).1.mpr ⟨⟨_, rfl⟩, by decide⟩

end Registrar.Ty
