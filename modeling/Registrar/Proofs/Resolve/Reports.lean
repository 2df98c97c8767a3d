import Registrar.Proofs.Unit.Meaning

/-!
# Nothing is left out in silence

A part of a program that has no meaning is left out of the unit, and the resolvers say so twice: by the missing meaning
and by a diagnostic. Callers look at one of the two only, so they have to agree. They do for every part by itself, since
all resolvers are settled. For a whole program there is nothing to count but what its unit holds: `CompilationUnit.Keeps`
compares the numbers, and they are those of the program exactly if nothing was reported
(`resolveProgram_reports_iff`).
-/

namespace Registrar

open Resolved

/-! ## Defaultable parameters -/

namespace Surface

variable {L : Type}

def ParamKind.isDefaultable : ParamKind L → Bool
  | .defaultable _ => true
  | _ => false

/-- The parameters of a function for which a default is written. -/
def Function.defaultable (f : Function L) : List (Param L) := f.params.filter (·.kind.isDefaultable)

end Surface

namespace Env

variable {env : Env} {f : Surface.Function Value} {decl : FunctionDecl}

/-- The defaultable parameters of a signature are those of the source, one by one. -/
theorem signature_defaultables (h : (env.signature f).value = some decl) :
    List.Forall₂ (fun q p => (env.param q).value = some p) f.defaultable decl.defaultable := by
  obtain ⟨markers, params, ret, -, hparams, -, rfl⟩ := signature_value.mp h
  rw [Surface.Function.defaultable, ← List.filterMap_eq_filter]
  refine forall₂_filterMap hparams fun {q k} hk => ?_
  obtain ⟨p, hp, rfl⟩ := Option.map_eq_some_iff.mp hk
  cases hkind : q.kind with
  | defaultable e => simpa [Option.guard, hkind, Surface.ParamKind.isDefaultable] using hp
  | required => simp [Option.guard, hkind, Surface.ParamKind.isDefaultable]
  | rest => simp [Option.guard, hkind, Surface.ParamKind.isDefaultable]

/-! ## Bodies -/

/-- A default is missing exactly if something was reported about it. -/
theorem withDefault_reports_iff {p : Param} {e : Surface.Expr Value} (h : writtenDefault? f.params p.name = some e) :
    (env.withDefault f p).2 = [] ↔ (env.withDefault f p).1.default.isSome = true := by
  rw [withDefault_eq h]
  exact (env.settled_expr [] e).quiet

/-- Nothing is reported about the defaults and the body of a function exactly if it has as many of both as its
source. -/
theorem body_reports_iff (h : (env.signature f).value = some decl) :
    (env.body f decl).2 = [] ↔
      ((env.body f decl).1.defaultable.filterMap Param.default).length = f.defaultable.length ∧
        (env.body f decl).1.body.length = f.body.length := by
  have hdefaults : ((env.body f decl).1.defaultable.filterMap Param.default).length = f.defaultable.length ↔
      ∀ p ∈ decl.defaultable, (env.withDefault f p).2 = [] := by
    have hlength : f.defaultable.length = ((decl.defaultable.map (env.withDefault f)).map Prod.fst).length := by
      simpa using (signature_defaultables h).length_eq
    show (((decl.defaultable.map (env.withDefault f)).map Prod.fst).filterMap Param.default).length = _ ↔ _
    rw [hlength, List.filterMap_length_eq_length]
    simp only [List.forall_mem_map]
    refine forall₂_congr fun p hp => ?_
    obtain ⟨e, he⟩ := signature_defaultable h hp
    exact (withDefault_reports_iff he).symm
  rw [hdefaults, body_stmts, length_filterMap_value_iff (env.settled_stmt decl)]
  simp only [body, List.append_eq_nil_iff, List.flatMap_eq_nil_iff, List.forall_mem_map]

end Env

/-! ## Programs -/

/-- A function of a unit with as many defaults and statements as its source. -/
structure FunctionDecl.Keeps (d : FunctionDecl) (f : Surface.Function Value) : Prop where
  defaults : (d.defaultable.filterMap Param.default).length = f.defaultable.length
  body : d.body.length = f.body.length

/-- A unit with as many imports, record types and functions as its program, and in each function with as many defaults
and statements. -/
structure CompilationUnit.Keeps (unit : CompilationUnit) (program : Surface.Program Value) : Prop where
  imports : unit.imports.length = program.imports.length
  types : unit.types.length = program.records.length
  functions : List.Forall₂ FunctionDecl.Keeps unit.functions program.functions

theorem Env.DeclaresWholly.keeps {env : Env} {f : Surface.Function Value} {d : FunctionDecl}
    (h : env.DeclaresWholly f d) : d.Keeps f := by
  obtain ⟨decl, hsig, hbody⟩ := h
  have hkept := (Env.body_reports_iff hsig).mp (by rw [hbody])
  rw [hbody] at hkept
  exact ⟨hkept.1, hkept.2⟩

theorem Env.Declares.wholly {env : Env} {f : Surface.Function Value} {d : FunctionDecl} (h : env.Declares f d)
    (hkept : d.Keeps f) : env.DeclaresWholly f d := by
  obtain ⟨decl, hsig, rfl⟩ := h
  exact ⟨decl, hsig, Prod.ext rfl ((Env.body_reports_iff hsig).mpr ⟨hkept.defaults, hkept.body⟩)⟩

/-- What a unit with the right numbers was made of is the whole program. -/
theorem CompilationUnit.Keeps.eq_of_sublists {registry : Registry} {unit : CompilationUnit}
    {program kept : Surface.Program Value} (h : unit.Keeps program) (hto : ResolvesTo registry kept unit)
    (himports : kept.imports.Sublist program.imports) (hrecords : kept.records.Sublist program.records)
    (hfunctions : kept.functions.Sublist program.functions) : kept = program := by
  have hi := himports.eq_of_length (hto.imports.length_eq.trans h.imports)
  have hr := hrecords.eq_of_length (hto.types.length_eq.trans h.types)
  have hf := hfunctions.eq_of_length (hto.functions.length_eq.trans h.functions.length_eq)
  cases kept
  cases program
  simp_all

namespace Resolved

/-- No meaning exactly if an error is reported. -/
def Accounted {α : Type} (r : Resolved α) : Prop := r.value = none ↔ ∃ d ∈ r.diagnostics, d.isError = true

theorem Settled.accounted {α : Type} {r : Resolved α} (h : r.Settled) : r.Accounted := by
  constructor
  · intro hv
    have hne : r.diagnostics ≠ [] := fun hd => by simpa [hv] using h.quiet.mp hd
    obtain ⟨d, hd⟩ := List.exists_mem_of_ne_nil _ hne
    exact ⟨d, hd, h.errors d hd⟩
  · rintro ⟨d, hd, -⟩
    cases hv : r.value with
    | none => rfl
    | some a => simp [h.diagnostics_eq_nil hv] at hd

end Resolved

/-- Nothing is reported about a program exactly if its unit keeps everything. Each part by itself, wherever it stands,
has no meaning exactly if an error is reported about it. -/
theorem resolveProgram_reports_iff (registry : Registry) (id : ModuleId) (file : Option Text)
    (program : Surface.Program Value) :
    ((resolveProgram registry id file program).2 = [] ↔ (resolveProgram registry id file program).1.Keeps program) ∧
      ∀ env : Env,
        (∀ t, (env.typeExpr t).Accounted) ∧ (∀ t, (env.marker t).Accounted) ∧
        (∀ params e, (env.expr params e).Accounted) ∧ (∀ d s, (env.stmt d s).Accounted) ∧
        (∀ i, (resolveImport registry env i).Accounted) ∧ (∀ r, (resolveRecord env r).Accounted) ∧
        ∀ f, (env.signature f).Accounted ∧ (declareFunction env f).Accounted := by
  refine ⟨⟨fun hquiet => ?_, fun hkeeps => ?_⟩, fun env => ?_⟩
  · obtain ⟨hto, hwhole⟩ := resolveProgram_whole (Prod.ext rfl hquiet)
    exact ⟨hto.imports.length_eq.symm, hto.types.length_eq.symm, (hwhole.imp fun f d hd => hd.keeps).flip⟩
  · obtain ⟨kept, himports, hrecords, hfunctions, hto, -⟩ := resolveProgram_kept registry id file program
    obtain rfl := hkeeps.eq_of_sublists hto himports hrecords hfunctions
    have hwhole := List.Forall₂.mp (fun f d hd hkept => Env.Declares.wholly hd hkept) hto.functions
      hkeeps.functions.flip
    exact congrArg Prod.snd (hto.resolveProgram_eq hwhole rfl)
  · exact ⟨fun t => (env.settled_typeExpr t).accounted, fun t => (env.settled_marker t).accounted,
      fun params e => (env.settled_expr params e).accounted, fun d s => (env.settled_stmt d s).accounted,
      fun i => (settled_resolveImport registry env i).accounted, fun r => (settled_resolveRecord env r).accounted,
      fun f => ⟨(env.settled_signature f).accounted, (settled_declareFunction env f).accounted⟩⟩

end Registrar
