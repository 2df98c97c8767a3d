import Registrar.Proofs.Resolve.Program

/-!
# Programs that are resolved without a problem

The converse of what a resolved unit holds: where the prefixes of the imports and the names at the top level are
distinct, and each item has a meaning, every stage keeps all its items and reports nothing. So a program is resolved to
a unit without a problem exactly if the unit holds the whole of it (`resolveProgram_eq_iff`).
-/

namespace Registrar

open Resolved

/-! ## Stages -/

theorem resolveImports_eq {registry : Registry} {env : Env} {is : List Surface.Import} {new : List ImportDecl}
    (h : List.Forall₂ (ImportsAs registry env.file) is new)
    (hnodup : ((env.imports ++ new).map ImportDecl.qualifier).Nodup) :
    resolveImports registry env is = ({ env with imports := env.imports ++ new }, []) := by
  induction is generalizing env new with
  | nil => cases h; simp [resolveImports]
  | cons i is ih =>
    obtain ⟨d, new, hd, hds, rfl⟩ := List.forall₂_cons_left_iff.mp h
    -- distinctness is of the prefixes so far and those to come, which the next step only regroups
    have hfresh : d.qualifier ∉ env.imports.map ImportDecl.qualifier := by
      rw [List.map_append, List.map_cons, List.nodup_append] at hnodup
      exact fun hmem => hnodup.2.2 d.qualifier hmem d.qualifier List.mem_cons_self rfl
    have hvalue := resolveImport_value.mpr ⟨hd, hfresh⟩
    have hrest := @ih { env with imports := env.imports ++ [d] } new hds (by simpa using hnodup)
    simp [resolveImports, hvalue, hrest, (settled_resolveImport registry env i).diagnostics_eq_nil hvalue]

theorem resolveRecords_eq {env : Env} {rs : List Surface.Record} {types : List TypeDecl}
    (h : List.Forall₂ (RecordsAs env.id env.file) rs types)
    (hdistinct : Scope.Distinct ⟨env.scope.owner, env.scope.symbols ++ types.map (TypeDecl.symbol env.id)⟩) :
    resolveRecords env rs =
      ({ env with scope := ⟨env.scope.owner, env.scope.symbols ++ types.map (TypeDecl.symbol env.id)⟩ },
        types, []) := by
  induction rs generalizing env types with
  | nil => cases h; simp [resolveRecords]
  | cons r rs ih =>
    obtain ⟨t, types, ht, hts, rfl⟩ := List.forall₂_cons_left_iff.mp h
    have hvalue := resolveRecord_value.mpr ⟨ht, hdistinct.define?_eq⟩
    have hrest := @ih { env with scope := ⟨env.scope.owner, env.scope.symbols ++ [t.symbol env.id]⟩ } types hts
      (by simpa using hdistinct)
    simp [resolveRecords, hvalue, hrest, (settled_resolveRecord env r).diagnostics_eq_nil hvalue]

theorem declareFunctions_eq {env : Env} {fs : List (Surface.Function Value)} {decls : List FunctionDecl}
    (h : List.Forall₂ (fun f d => (env.signature f).value = some d) fs decls)
    (hdistinct : Scope.Distinct ⟨env.scope.owner, env.scope.symbols ++ decls.map fun d => .function d.symbol⟩) :
    declareFunctions env fs =
      ({ env with scope := ⟨env.scope.owner, env.scope.symbols ++ decls.map fun d => .function d.symbol⟩ },
        fs.zip decls, []) := by
  induction fs generalizing env decls with
  | nil => cases h; simp [declareFunctions]
  | cons f fs ih =>
    obtain ⟨d, decls, hd, hds, rfl⟩ := List.forall₂_cons_left_iff.mp h
    have hdef := hdistinct.define?_eq
    have hvalue := declareFunction_value.mpr ⟨hd, hdef⟩
    -- a function in scope changes no type, so the signatures to come keep their meaning
    have hsame := Env.sameTypes_define? hdef
    have hrest := @ih { env with scope := ⟨env.scope.owner, env.scope.symbols ++ [.function d.symbol]⟩ } decls
      (hds.imp fun f d hd => hsame.signature_eq f ▸ hd) (by simpa using hdistinct)
    simp [declareFunctions, hvalue, hrest, (settled_declareFunction env f).diagnostics_eq_nil hvalue]

/-! ## Programs -/

/-- The signatures behind functions about which nothing was reported. -/
theorem exists_signatures {env : Env} {fs : List (Surface.Function Value)} {ds : List FunctionDecl}
    (h : List.Forall₂ env.DeclaresWholly fs ds) :
    ∃ decls, List.Forall₂ (fun f d => (env.signature f).value = some d) fs decls ∧
      ((fs.zip decls).map fun k => env.body k.1 k.2) = ds.map (·, []) ∧
      decls.map FunctionDecl.symbol = ds.map FunctionDecl.symbol := by
  induction h with
  | nil => exact ⟨[], .nil, rfl, rfl⟩
  | @cons f d fs ds hd _ ih =>
    obtain ⟨decl, hsig, hbody⟩ := hd
    obtain ⟨decls, hsigs, hbodies, hsymbols⟩ := ih
    refine ⟨decl :: decls, .cons hsig hsigs, ?_, ?_⟩
    · rw [List.zip_cons_cons, List.map_cons, List.map_cons, hbodies, hbody]
    · have hsymbol : (env.body f decl).1.symbol = decl.symbol := rfl
      rw [List.map_cons, List.map_cons, hsymbols, ← hsymbol, hbody]

/-- A unit that holds the whole of a program is what the program is resolved to. -/
theorem ResolvesTo.resolveProgram_eq {registry : Registry} {program : Surface.Program Value} {unit : CompilationUnit}
    (h : ResolvesTo registry program unit)
    (hwhole : List.Forall₂ unit.env.DeclaresWholly program.functions unit.functions) {file : Option Text}
    (hspan : unit.span = .ofPosition file .start) : resolveProgram registry unit.id file program = (unit, []) := by
  have hfile : unit.span.file = file := by rw [hspan]; rfl
  obtain ⟨decls, hsigs, hbodies, hsymbols⟩ := exists_signatures hwhole
  have henv : unit.env = { file, id := unit.id, imports := unit.imports, scope :=
      ⟨unit.id, unit.types.map (TypeDecl.symbol unit.id) ++ decls.map fun d => .function d.symbol⟩ } := by
    have hfunctions := congrArg (List.map Symbol.function) hsymbols
    simp only [List.map_map, Function.comp_def] at hfunctions
    rw [CompilationUnit.env, hfile, h.scope, hfunctions]
  have hdistinct : Scope.Distinct unit.env.scope := h.distinct
  rw [henv] at hdistinct
  have himports : resolveImports registry { file, id := unit.id, imports := [], scope := { owner := unit.id } }
      program.imports = ({ file, id := unit.id, imports := unit.imports, scope := { owner := unit.id } }, []) :=
    resolveImports_eq (hfile ▸ h.imports) h.prefixes
  have hrecords : resolveRecords { file, id := unit.id, imports := unit.imports, scope := { owner := unit.id } }
      program.records = ({ file, id := unit.id, imports := unit.imports, scope :=
        ⟨unit.id, unit.types.map (TypeDecl.symbol unit.id)⟩ }, unit.types, []) := by
    refine resolveRecords_eq (hfile ▸ h.types) ?_
    rw [Scope.Distinct, List.map_append] at hdistinct
    exact hdistinct.of_append_left
  have hfunctions : declareFunctions { file, id := unit.id, imports := unit.imports, scope :=
      ⟨unit.id, unit.types.map (TypeDecl.symbol unit.id)⟩ } program.functions =
        (unit.env, program.functions.zip decls, []) := by
    -- the signatures have their meaning before the functions are in scope
    have hsame := Env.sameTypes_append { file, id := unit.id, imports := unit.imports, scope :=
      ⟨unit.id, unit.types.map (TypeDecl.symbol unit.id)⟩ } (decls.map FunctionDecl.symbol)
    rw [List.map_map, Function.comp_def, ← henv] at hsame
    rw [declareFunctions_eq (hsigs.imp fun f d hd => (hsame.signature_eq f).symm ▸ hd) hdistinct, henv]
  have hnothing : (unit.functions.map fun d => (d, ([] : List Diagnostic))).flatMap Prod.snd = [] := by
    simp
  rw [Registrar.resolveProgram_eq]
  simp only [himports, hrecords, hfunctions, hbodies, hnothing, List.map_map, Function.comp_def, List.map_id']
  rw [← hspan]
  rfl

/-- A program is resolved to a unit, and nothing is reported, exactly if the unit holds the whole of it. -/
theorem resolveProgram_eq_iff {registry : Registry} {id : ModuleId} {file : Option Text}
    {program : Surface.Program Value} {unit : CompilationUnit} :
    resolveProgram registry id file program = (unit, []) ↔
      (unit.id = id ∧ unit.span = .ofPosition file .start) ∧ ResolvesTo registry program unit ∧
        List.Forall₂ unit.env.DeclaresWholly program.functions unit.functions := by
  constructor
  · intro h
    refine ⟨⟨resolveProgram_id h, ?_⟩, resolveProgram_whole h⟩
    rw [Registrar.resolveProgram_eq] at h
    exact (congrArg CompilationUnit.span (Prod.mk.inj h).1).symm
  · rintro ⟨⟨rfl, hspan⟩, hto, hwhole⟩
    exact hto.resolveProgram_eq hwhole hspan

end Registrar
