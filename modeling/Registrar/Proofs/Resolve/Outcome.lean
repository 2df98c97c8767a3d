import Registrar.Proofs.Rows
import Registrar.Resolve.Basic

/-!
# Meanings and diagnostics

What the combinators of `Resolved` make of the meanings and the diagnostics of their parts. A part is *settled* if
it has a meaning exactly when there is nothing to say about it, and errors are all that is said otherwise. Every
combinator keeps that, so the resolvers built from them have it, and where no diagnostic was reported nothing was left
out.
-/

namespace Registrar

namespace Resolved

variable {α β : Type}

/-! ## The meaning of a combination -/

@[simp] theorem ok_value (a : α) : (ok a).value = some a := rfl

@[simp] theorem ok_diagnostics (a : α) : (ok a).diagnostics = [] := rfl

@[simp] theorem fail_value (d : Diagnostic) : (fail d : Resolved α).value = none := rfl

@[simp] theorem fail_diagnostics (d : Diagnostic) : (fail d : Resolved α).diagnostics = [d] := rfl

@[simp] theorem map_value (f : α → β) (r : Resolved α) : (r.map f).value = r.value.map f := rfl

@[simp] theorem map_diagnostics (f : α → β) (r : Resolved α) : (r.map f).diagnostics = r.diagnostics := rfl

@[simp] theorem both_diagnostics (r : Resolved α) (s : Resolved β) :
    (r.both s).diagnostics = r.diagnostics ++ s.diagnostics := rfl

@[simp] theorem bind_value (r : Resolved α) (f : α → Resolved β) :
    (r.bind f).value = r.value.bind fun a => (f a).value := by
  unfold bind
  cases r.value <;> rfl

theorem bind_diagnostics_of_value {r : Resolved α} {a : α} (h : r.value = some a) (f : α → Resolved β) :
    (r.bind f).diagnostics = r.diagnostics ++ (f a).diagnostics := by
  unfold bind
  rw [h]

theorem bind_diagnostics_of_none {r : Resolved α} (h : r.value = none) (f : α → Resolved β) :
    (r.bind f).diagnostics = r.diagnostics := by
  unfold bind
  rw [h]

theorem both_value_eq_some {r : Resolved α} {s : Resolved β} {p : α × β} :
    (r.both s).value = some p ↔ r.value = some p.1 ∧ s.value = some p.2 := by
  obtain ⟨a, b⟩ := p
  unfold both
  cases r.value <;> cases s.value <;> simp

theorem both_value {r : Resolved α} {s : Resolved β} {a : α} {b : β} (hr : r.value = some a)
    (hs : s.value = some b) : (r.both s).value = some (a, b) := both_value_eq_some.mpr ⟨hr, hs⟩

/-- Parts in a row have a meaning exactly if each of them has one. -/
theorem all_value_eq_some {f : α → Resolved β} {as : List α} {bs : List β} :
    (all f as).value = some bs ↔ List.Forall₂ (fun a b => (f a).value = some b) as bs := by
  induction as generalizing bs with
  | nil => cases bs <;> simp [all]
  | cons a as ih =>
    rw [all, map_value, Option.map_eq_some_iff]
    constructor
    · rintro ⟨⟨b, cs⟩, hboth, rfl⟩
      obtain ⟨ha, has⟩ := both_value_eq_some.mp hboth
      exact .cons ha (ih.mp has)
    · intro h
      cases h with
      | cons ha has => exact ⟨(_, _), both_value_eq_some.mpr ⟨ha, ih.mpr has⟩, rfl⟩

/-- Where every part of a row has a meaning, the meanings that are kept are those of all parts. -/
theorem forall₂_filterMap_value {f : α → Resolved β} {as : List α} (h : ∀ a ∈ as, ∃ b, (f a).value = some b) :
    List.Forall₂ (fun a b => (f a).value = some b) as (as.filterMap fun a => (f a).value) := by
  induction as with
  | nil => exact .nil
  | cons a as ih =>
    obtain ⟨b, hb⟩ := h a List.mem_cons_self
    simp only [List.filterMap_cons, hb]
    exact .cons hb (ih fun a' ha' => h a' (List.mem_cons_of_mem a ha'))

/-! ## Settled parts -/

/-- A meaning exactly if there is nothing to say, and nothing but errors to say. -/
structure Settled (r : Resolved α) : Prop where
  quiet : r.diagnostics = [] ↔ r.value.isSome = true
  errors : ∀ d ∈ r.diagnostics, d.isError = true

theorem settled_ok (a : α) : (ok a).Settled := ⟨by simp, by simp⟩

theorem settled_fail {d : Diagnostic} (h : d.isError = true) : (fail d : Resolved α).Settled := ⟨by simp, by simp [h]⟩

/-- A settled part about which nothing is said has a meaning. -/
theorem Settled.exists_value {r : Resolved α} (h : r.Settled) (hd : r.diagnostics = []) :
    ∃ a, r.value = some a := Option.isSome_iff_exists.mp (h.quiet.mp hd)

/-- Nothing is said about a settled part that has a meaning. -/
theorem Settled.diagnostics_eq_nil {r : Resolved α} (h : r.Settled) {a : α} (hv : r.value = some a) :
    r.diagnostics = [] := h.quiet.mpr (by simp [hv])

theorem Settled.eq_ok {r : Resolved α} (h : r.Settled) {a : α} (hv : r.value = some a) : r = ok a := by
  obtain ⟨value, diagnostics⟩ := r
  obtain rfl : diagnostics = [] := h.diagnostics_eq_nil hv
  obtain rfl : value = some a := hv
  rfl

theorem Settled.map {r : Resolved α} (h : r.Settled) (f : α → β) : (r.map f).Settled :=
  ⟨by simpa using h.quiet, h.errors⟩

theorem Settled.bind {r : Resolved α} {f : α → Resolved β} (h : r.Settled) (hf : ∀ a, (f a).Settled) :
    (r.bind f).Settled := by
  cases hv : r.value with
  | none =>
    have hd : r.diagnostics ≠ [] := fun hd => by simpa [hv] using h.quiet.mp hd
    exact ⟨by simp [bind_diagnostics_of_none hv, hv, hd], by simpa [bind_diagnostics_of_none hv] using h.errors⟩
  | some a =>
    have hd : (r.bind f).diagnostics = (f a).diagnostics := by
      rw [bind_diagnostics_of_value hv, h.diagnostics_eq_nil hv, List.nil_append]
    exact ⟨by simpa [hd, hv] using (hf a).quiet, by simpa [hd] using (hf a).errors⟩

theorem Settled.both {r : Resolved α} {s : Resolved β} (hr : r.Settled) (hs : s.Settled) :
    (r.both s).Settled := by
  constructor
  · rw [both_diagnostics, List.append_eq_nil_iff, hr.quiet, hs.quiet]
    unfold Resolved.both
    cases r.value <;> cases s.value <;> simp
  · rw [both_diagnostics, List.forall_mem_append]
    exact ⟨hr.errors, hs.errors⟩

theorem settled_all {f : α → Resolved β} (hf : ∀ a, (f a).Settled) (as : List α) : (all f as).Settled := by
  induction as with
  | nil => exact settled_ok _
  | cons a as ih => exact ((hf a).both ih).map _

/-- Of settled parts in a row as many are kept as there are, exactly if there is nothing to say about any of them. -/
theorem length_filterMap_value_iff {f : α → Resolved β} (hf : ∀ a, (f a).Settled) (as : List α) :
    (as.filterMap fun a => (f a).value).length = as.length ↔ ∀ a ∈ as, (f a).diagnostics = [] := by
  rw [List.filterMap_length_eq_length]
  exact forall₂_congr fun a _ => (hf a).quiet.symm

end Resolved

/-- A problem is an error. -/
theorem Env.problem_isError (env : Env) (p : Position) (message : Text) : (env.problem p message).isError = true := rfl

end Registrar
