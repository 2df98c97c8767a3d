import Registrar.Proofs.Resolve.Types
import Registrar.Proofs.Unit.Printer

/-!
# Printed types

By which names the printer writes a type that a unit can name (`CompilationUnit.Prints`). The prefix that is printed for
an imported type need not be the one by which it was written: it is that of the last import of the module, and all
imports of a module give access to the same types. So, unless a unit imports its own module, what is printed names the
type again.
-/

namespace Registrar

open Surface

/-! ## Prefixes -/

namespace CompilationUnit

variable {unit : CompilationUnit}

theorem find_own (unit : CompilationUnit) : unit.qualifiers.find? unit.id = some none := by
  simp [qualifiers, Qualifiers.find?]

/-- The prefix of an imported module is that of an import of it. -/
theorem find_imported {i : ImportDecl} (hi : i ∈ unit.imports) (hne : i.id ≠ unit.id) :
    ∃ j ∈ unit.imports, j.id = i.id ∧ unit.qualifiers.find? i.id = some (some j.qualifier) := by
  have hfind : unit.qualifiers.find? i.id =
      (unit.imports.reverse.map fun i => (i.id, some i.qualifier)).lookup i.id := by
    rw [qualifiers, Qualifiers.find?, List.reverse_append, List.reverse_singleton, List.singleton_append,
      List.lookup_cons, beq_eq_false_iff_ne.mpr hne, List.map_reverse]
  rw [hfind]
  cases hl : (unit.imports.reverse.map fun i => (i.id, some i.qualifier)).lookup i.id with
  | none =>
    rw [List.lookup_eq_none_iff] at hl
    have hmem := List.mem_map_of_mem (f := fun i : ImportDecl => (i.id, some i.qualifier)) (List.mem_reverse.mpr hi)
    simpa using hl _ hmem
  | some q =>
    obtain ⟨before, after, heq, -⟩ := List.lookup_eq_some_iff.mp hl
    have hmem : (i.id, q) ∈ unit.imports.reverse.map fun i => (i.id, some i.qualifier) := by
      rw [heq]
      exact List.mem_append_right before List.mem_cons_self
    obtain ⟨j, hj, hji⟩ := List.mem_map.mp hmem
    obtain ⟨hid, rfl⟩ := Prod.mk.inj hji
    exact ⟨j, List.mem_reverse.mp hj, hid, rfl⟩

end CompilationUnit

theorem ImportDecl.Spelled.qualifier {i : ImportDecl} (h : i.Spelled) : i.qualifier.isName = true := by
  cases ha : i.asName with
  | none => simpa [ImportDecl.qualifier, ha] using h.name
  | some a =>
    have hname := h.asName a ha
    simpa [ImportDecl.qualifier, ha, Option.filter, Text.ne_nil_of_isName hname] using hname

/-! ## Members -/

/-- A member of a type that is spelled by names, or the nil type. -/
def Surface.Name.IsMember (n : Name) : Prop :=
  (n.qualifier = none ∧ n.ident = "()") ∨ (n.ident.isName = true ∧ ∀ q ∈ n.qualifier, q.isName = true)

/-- The name by which the printer writes a type that is no union: a built-in type by its own name, a record type of the
unit by its name alone, and one of another module behind the prefix that is printed for the module. -/
inductive CompilationUnit.Prints (unit : CompilationUnit) : Name → Ty → Prop
  | builtin {n : Text} {p : Position} {t : Ty} (h : Ty.builtin? n = some t) : Prints unit ⟨none, n, p⟩ t
  | own {n : Text} {p : Position} (h : n.isName = true) : Prints unit ⟨none, n, p⟩ (.user n (some unit.id))
  | imported {n : Text} {p : Position} {j : ImportDecl} (hj : j ∈ unit.imports) (hne : j.id ≠ unit.id)
      (hfind : unit.qualifiers.find? j.id = some (some j.qualifier)) :
      Prints unit ⟨some j.qualifier, n, p⟩ (.user n (some j.id))

/-- The type expression by which the printer writes a type. -/
def CompilationUnit.PrintsType (unit : CompilationUnit) (te : TypeExpr) (t : Ty) : Prop :=
  ∃ ts, List.Forall₂ unit.Prints te.members ts ∧ t = .unionOf ts

/-- A built-in type is printed by its name. -/
theorem Ty.render_builtin {n : Text} {t : Ty} (h : Ty.builtin? n = some t) (qs : Qualifiers) : t.render qs = n := by
  have hmem := Ty.builtin?_eq_some.mp h
  simp only [Ty.builtins, List.mem_cons, Prod.mk.injEq, List.not_mem_nil, or_false] at hmem
  rcases hmem with ⟨rfl, rfl⟩ | ⟨rfl, rfl⟩ | ⟨rfl, rfl⟩ | ⟨rfl, rfl⟩ | ⟨rfl, rfl⟩ | ⟨rfl, rfl⟩ | ⟨rfl, rfl⟩ <;> rfl

/-- A union is printed with bars between its members. -/
theorem Ty.render_unionOf (qs : Qualifiers) {ts : List Ty} (hne : ts ≠ []) :
    (Ty.unionOf ts).render qs = List.intercalate ("|" : Text) (Ty.renderAll qs ts) := by
  match ts, hne with
  | [t], _ => simp [Ty.unionOf, Ty.renderAll]
  | t :: t' :: ts, _ => rw [Ty.unionOf, Ty.render]; simp

namespace ResolvesTo

variable {registry : Registry} {program : Surface.Program Value} {unit : CompilationUnit}

/-- What a name of the source stands for is printed by a name. -/
theorem lexes_member (h : ResolvesTo registry program unit) (howned : registry.Owned)
    (hspelled : ∀ i ∈ unit.imports, i.Spelled) {n : Name} (hn : n.IsMember) {t : Ty}
    (ht : (unit.env.typeName n).value = some t) :
    Lexes Breaks (t.render unit.qualifiers) fun ts => ∃ m, MemberTokens ts m ∧ unit.Prints m t := by
  have hown : n.ident.isName = true → Lexes Breaks ((Ty.user n.ident (some unit.id)).render unit.qualifiers)
      fun ts => ∃ m, MemberTokens ts m ∧ unit.Prints m (.user n.ident (some unit.id)) := by
    intro hname
    rw [Ty.render, unit.find_own]
    refine (Lexes.name hname).imp ?_
    rintro _ ⟨p, rfl⟩
    exact ⟨_, .name .plain, .own hname⟩
  rcases h.typeName_cases howned ht with ⟨hq, hb⟩ | ⟨hq, hb, rfl⟩ | ⟨i, hi, hq, rfl⟩
  · rw [Ty.render_builtin hb]
    rcases hn with ⟨-, hnil⟩ | ⟨hname, -⟩
    · rw [hnil] at hb ⊢
      refine ((Lexes.lparen.followed Lexes.rparen).imp ?_).weaken
      rintro _ ⟨_, _, ⟨p, rfl⟩, ⟨p₁, rfl⟩, rfl⟩
      exact ⟨_, .nil, .builtin hb⟩
    · refine (Lexes.name hname).imp ?_
      rintro _ ⟨p, rfl⟩
      exact ⟨_, .name .plain, .builtin hb⟩
  · rcases hn with ⟨-, hnil⟩ | ⟨hname, -⟩
    · rw [hnil] at hb
      exact absurd hb (by decide)
    · exact hown hname
  · obtain ⟨hname, -⟩ := hn.resolve_left (by simp [hq])
    by_cases hself : i.id = unit.id
    · rw [hself]
      exact hown hname
    · obtain ⟨j, hj, hid, hfind⟩ := CompilationUnit.find_imported hi hself
      rw [← hid] at hfind hself ⊢
      rw [Ty.render, hfind]
      refine (((Lexes.name (hspelled j hj).qualifier).broken Lexes.colon rfl rfl).followed (Lexes.name hname)).imp ?_
      rintro _ ⟨_, _, ⟨_, _, ⟨p, rfl⟩, ⟨p₁, rfl⟩, rfl⟩, ⟨p₂, rfl⟩, rfl⟩
      exact ⟨_, .name .qualified, .imported hj hself hfind⟩

/-- In a unit that does not import its own module, a printed name stands for the type that it is printed for. -/
theorem typeName_of_prints (h : ResolvesTo registry program unit) (howned : registry.Owned)
    (hself : ∀ i ∈ unit.imports, i.id ≠ unit.id) {n m : Name} {t : Ty} (ht : (unit.env.typeName n).value = some t)
    (hm : unit.Prints m t) : (unit.env.typeName m).value = some t := by
  cases hm with
  | builtin hb => exact (Env.typeName_plain rfl).mpr (.inl hb)
  | own =>
    rcases h.typeName_cases howned ht with ⟨-, hb⟩ | ⟨hq, hb, hty⟩ | ⟨i, hi, -, hty⟩
    · exact absurd rfl ((Ty.builtin?_simple hb).1 _ _)
    · obtain ⟨rfl, -⟩ := Ty.user.inj hty
      refine (Env.typeName_plain rfl).mpr (.inr ?_)
      exact ((Env.typeName_plain hq).mp ht).resolve_left (by simp [hb])
    · obtain ⟨-, hid⟩ := Ty.user.inj hty
      exact absurd (Option.some.inj hid).symm (hself i hi)
  | @imported ident p j hj hne hfind =>
    rcases h.typeName_cases howned ht with ⟨-, hb⟩ | ⟨-, -, hty⟩ | ⟨i, hi, hq, hty⟩
    · exact absurd rfl ((Ty.builtin?_simple hb).1 _ _)
    · obtain ⟨-, hid⟩ := Ty.user.inj hty
      exact absurd (Option.some.inj hid) hne
    · obtain ⟨rfl, hid⟩ := Ty.user.inj hty
      -- both imports are of one module, so the type is found behind either prefix
      obtain ⟨i', s, hi', hs, hty⟩ := (Env.typeName_qualified hq).mp ht
      have hmodule : i'.module = j.module := by
        rw [show unit.env.imports = unit.imports from rfl, h.find_import hi] at hi'
        obtain rfl := Option.some.inj hi'
        have hm := h.import_module hj
        rw [Option.some.inj hid, h.import_module hi] at hm
        exact Option.some.inj hm
      exact (Env.typeName_qualified rfl).mpr ⟨j, s, h.find_import hj, hmodule ▸ hs, hty⟩

/-! ## Unions -/

/-- What the names of the source stand for is printed by names with bars between. -/
theorem lexes_members (h : ResolvesTo registry program unit) (howned : registry.Owned)
    (hspelled : ∀ i ∈ unit.imports, i.Spelled) {ns : List Name} (hns : ∀ n ∈ ns, n.IsMember) {ts : List Ty}
    (hne : ts ≠ []) (hts : List.Forall₂ (fun n t => (unit.env.typeName n).value = some t) ns ts) :
    Lexes Breaks (List.intercalate ("|" : Text) (Ty.renderAll unit.qualifiers ts)) fun tokens =>
      ∃ te, TypeTokens tokens te ∧ List.Forall₂ unit.Prints te.members ts := by
  induction hts with
  | nil => exact absurd rfl hne
  | @cons n t ns ts ht hts ih =>
    have hfirst := h.lexes_member howned hspelled (hns n List.mem_cons_self) ht
    cases ts with
    | nil =>
      simp only [Ty.renderAll, List.intercalate_singleton]
      refine hfirst.imp ?_
      rintro tokens ⟨m, hm, hmt⟩
      exact ⟨_, .one hm, .cons hmt .nil⟩
    | cons t' ts =>
      have hbar : Lexes Anything "|" (OneToken .bar "|") := Lexes.sign rfl (by decide)
      have hothers := ih (fun m hm => hns m (List.mem_cons_of_mem n hm)) (List.cons_ne_nil t' ts)
      simp only [Ty.renderAll, List.intercalate_cons_cons] at hothers ⊢
      refine ((hfirst.broken hbar rfl rfl).followed hothers).imp ?_
      rintro _ ⟨_, _, ⟨us, _, ⟨m, hm, hmt⟩, ⟨p, rfl⟩, rfl⟩, ⟨te, hte, hall⟩, rfl⟩
      rw [List.append_assoc, List.singleton_append]
      exact ⟨_, .more hm hte, .cons hmt hall⟩

/-- A type of the source is printed by a type expression of printed names. If the unit does not import its own module,
that stands for the type. -/
theorem spells_prints (h : ResolvesTo registry program unit) (howned : registry.Owned)
    (hspelled : ∀ i ∈ unit.imports, i.Spelled) {te : TypeExpr} (hte : ∀ n ∈ te.members, n.IsMember) {t : Ty}
    (ht : (unit.env.typeExpr te).value = some t) : t.Spells unit.qualifiers fun te t => unit.PrintsType te t ∧
      ((∀ i ∈ unit.imports, i.id ≠ unit.id) → (unit.env.typeExpr te).value = some t) := by
  obtain ⟨ts, hts, rfl⟩ := Env.typeExpr_value.mp ht
  have hne : ts ≠ [] := by
    rintro rfl
    cases hts
  rw [Ty.Spells, Ty.render_unionOf _ hne]
  refine (h.lexes_members howned hspelled hte hne hts).imp ?_
  rintro tokens ⟨te', hte', hall⟩
  refine ⟨te', hte', ⟨ts, hall, rfl⟩, fun hself => Env.typeExpr_value.mpr ⟨ts, ?_, rfl⟩⟩
  refine forall₂_imp_of_mem hall fun ht hm => ?_
  obtain ⟨n, -, hn⟩ := exists_of_mem_right hts ht
  exact h.typeName_of_prints howned hself hn hm

end ResolvesTo

end Registrar
