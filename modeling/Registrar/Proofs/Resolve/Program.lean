import Registrar.Proofs.Resolve.Functions
import Registrar.Resolve.Program

/-!
# How a unit comes from a program

The three stages of the resolver, each with what it keeps of the items of its kind. `ResolvesTo` puts them together:
it relates a program to a unit that holds all of it. A unit that was resolved holds all of the part of its program
that was kept (`resolveProgram_kept`), and if nothing was reported that part is the whole
(`resolveProgram_whole`).
-/

namespace Registrar

open Resolved

/-! ## Imports -/

/-- An import of the source, and its declaration in a unit of some file. -/
def ImportsAs (registry : Registry) (file : Option Text) (i : Surface.Import) (d : ImportDecl) : Prop :=
  ∃ module, registry.find? ⟨i.space, i.name⟩ = some module ∧
    d = { id := ⟨i.space, i.name⟩, module, asName := i.asName, span := .ofPosition file i.position }

theorem settled_resolveImport (registry : Registry) (env : Env) (i : Surface.Import) :
    (resolveImport registry env i).Settled := by
  unfold resolveImport
  dsimp only
  split
  · exact settled_fail (env.problem_isError _ _)
  · split
    · exact settled_fail (env.problem_isError _ _)
    · exact settled_ok _

theorem resolveImport_value {registry : Registry} {env : Env} {i : Surface.Import} {d : ImportDecl} :
    (resolveImport registry env i).value = some d ↔
      ImportsAs registry env.file i d ∧ d.qualifier ∉ env.imports.map ImportDecl.qualifier := by
  unfold resolveImport ImportsAs
  dsimp only
  cases registry.find? ⟨i.space, i.name⟩ with
  | none => simp
  | some module =>
    dsimp only
    split
    · next h =>
      simp only [fail_value, reduceCtorEq, Option.some.injEq, exists_eq_left', false_iff, not_and]
      rintro rfl hnot
      simp only [List.any_eq_true, beq_iff_eq] at h
      exact hnot (List.mem_map.mpr h)
    · next h =>
      simp only [ok_value, Option.some.injEq, exists_eq_left']
      constructor
      · rintro rfl
        refine ⟨rfl, fun hmem => h ?_⟩
        simp only [List.any_eq_true, beq_iff_eq]
        exact List.mem_map.mp hmem
      · rintro ⟨rfl, -⟩
        rfl

/-- What is kept of the imports: each from the registry, and no two with one prefix. -/
theorem resolveImports_kept (registry : Registry) (env : Env) (is : List Surface.Import) :
    ∃ kept new, kept.Sublist is ∧ List.Forall₂ (ImportsAs registry env.file) kept new ∧
      (resolveImports registry env is).1 = { env with imports := env.imports ++ new } ∧
      ((env.imports.map ImportDecl.qualifier).Nodup →
        ((env.imports ++ new).map ImportDecl.qualifier).Nodup) ∧
      ((resolveImports registry env is).2 = [] → kept = is) := by
  induction is generalizing env with
  | nil => exact ⟨[], [], .slnil, .nil, by simp [resolveImports], by simp, fun _ => rfl⟩
  | cons i is ih =>
    cases hv : (resolveImport registry env i).value with
    | none =>
      obtain ⟨kept, new, hsub, hall, henv, hnodup, -⟩ := ih env
      refine ⟨kept, new, hsub.cons i, hall, ?_, hnodup, ?_⟩
      · simpa [resolveImports, hv] using henv
      · intro hnil
        simp only [resolveImports, List.append_eq_nil_iff] at hnil
        obtain ⟨d, hd⟩ := (settled_resolveImport registry env i).exists_value hnil.1
        rw [hv] at hd
        simp at hd
    | some d =>
      obtain ⟨hd, hnew⟩ := resolveImport_value.mp hv
      obtain ⟨kept, new, hsub, hall, henv, hnodup, hwhole⟩ := ih { env with imports := env.imports ++ [d] }
      refine ⟨i :: kept, d :: new, hsub.cons_cons i, .cons hd hall, ?_, ?_, ?_⟩
      · simpa [resolveImports, hv] using henv
      · intro hold
        have hfirst : ((env.imports ++ [d]).map ImportDecl.qualifier).Nodup := by
          rw [List.map_append]
          exact hold.append (by simp) (by simpa [List.Disjoint] using hnew)
        simpa using hnodup hfirst
      · intro hnil
        simp only [resolveImports, List.append_eq_nil_iff, hv, Option.toList_some] at hnil
        rw [hwhole hnil.2]

/-! ## Records -/

/-- The symbol of a record type of a module. -/
def TypeDecl.symbol (id : ModuleId) (t : TypeDecl) : Symbol :=
  .type { name := t.name, owner := id, stamp := .declared, type := t.type }

/-- A record of the source, and its declaration in a unit of some module and file. -/
def RecordsAs (id : ModuleId) (file : Option Text) (r : Surface.Record) (t : TypeDecl) : Prop :=
  Ty.builtin? r.name = none ∧
    t = { name := r.name, type := .user r.name (some id), span := .ofPosition file r.position }

theorem settled_resolveRecord (env : Env) (r : Surface.Record) : (resolveRecord env r).Settled := by
  unfold resolveRecord
  dsimp only
  split
  · exact settled_ok _
  · exact settled_fail (env.problem_isError _ _)

theorem resolveRecord_value {env : Env} {r : Surface.Record} {t : TypeDecl} {scope : Scope} :
    (resolveRecord env r).value = some (t, scope) ↔
      RecordsAs env.id env.file r t ∧ env.scope.define? (t.symbol env.id) = some scope := by
  unfold resolveRecord RecordsAs TypeDecl.symbol
  dsimp only
  constructor
  · intro h
    split at h
    · next hb hd =>
      obtain ⟨rfl, rfl⟩ := Prod.mk.inj (Option.some.inj h)
      exact ⟨⟨hb, rfl⟩, hd⟩
    · simp at h
  · rintro ⟨⟨hb, rfl⟩, hd⟩
    rw [hb, hd]
    rfl

/-- What is kept of the records: their symbols follow in the scope, and no name is taken twice. -/
theorem resolveRecords_kept (env : Env) (rs : List Surface.Record) :
    ∃ kept, kept.Sublist rs ∧
      List.Forall₂ (RecordsAs env.id env.file) kept (resolveRecords env rs).2.1 ∧
      (resolveRecords env rs).1 = { env with
        scope := ⟨env.scope.owner,
          env.scope.symbols ++ (resolveRecords env rs).2.1.map (TypeDecl.symbol env.id)⟩ } ∧
      (env.scope.Distinct → (resolveRecords env rs).1.scope.Distinct) ∧
      ((resolveRecords env rs).2.2 = [] → kept = rs) := by
  induction rs generalizing env with
  | nil => exact ⟨[], .slnil, .nil, by simp [resolveRecords], by simp [resolveRecords], fun _ => rfl⟩
  | cons r rs ih =>
    cases hv : (resolveRecord env r).value with
    | none =>
      have hstep : resolveRecords env (r :: rs) = ((resolveRecords env rs).1, (resolveRecords env rs).2.1,
          (resolveRecord env r).diagnostics ++ (resolveRecords env rs).2.2) := by
        simp [resolveRecords, hv]
      obtain ⟨kept, hsub, hall, henv, hdist, -⟩ := ih env
      rw [hstep]
      refine ⟨kept, hsub.cons r, hall, henv, hdist, fun hnil => ?_⟩
      obtain ⟨d, hd⟩ := (settled_resolveRecord env r).exists_value (List.append_eq_nil_iff.mp hnil).1
      rw [hv] at hd
      simp at hd
    | some k =>
      obtain ⟨t, scope⟩ := k
      obtain ⟨ht, hdef⟩ := resolveRecord_value.mp hv
      have hstep : resolveRecords env (r :: rs) = ((resolveRecords { env with scope } rs).1,
          t :: (resolveRecords { env with scope } rs).2.1,
          (resolveRecord env r).diagnostics ++ (resolveRecords { env with scope } rs).2.2) := by
        simp [resolveRecords, hv]
      obtain ⟨kept, hsub, hall, henv, hdist, hwhole⟩ := ih { env with scope }
      rw [hstep]
      refine ⟨r :: kept, hsub.cons_cons r, .cons ht hall, ?_, fun hold => hdist (hold.define? hdef), ?_⟩
      · obtain ⟨-, rfl⟩ := Scope.define?_eq_some.mp hdef
        simpa using henv
      · intro hnil
        rw [hwhole (List.append_eq_nil_iff.mp hnil).2]

/-! ## Functions -/

theorem settled_declareFunction (env : Env) (f : Surface.Function Value) : (declareFunction env f).Settled := by
  refine (env.settled_signature f).bind fun d => ?_
  split
  · exact settled_ok _
  · exact settled_fail (env.problem_isError _ _)

theorem declareFunction_value {env : Env} {f : Surface.Function Value} {d : FunctionDecl} {scope : Scope} :
    (declareFunction env f).value = some (d, scope) ↔
      (env.signature f).value = some d ∧ env.scope.define? (.function d.symbol) = some scope := by
  rw [declareFunction, bind_value, Option.bind_eq_some_iff]
  constructor
  · rintro ⟨d', hd', h⟩
    split at h
    · next hdef =>
      obtain ⟨rfl, rfl⟩ := Prod.mk.inj (Option.some.inj h)
      exact ⟨hd', hdef⟩
    · simp at h
  · rintro ⟨hd, hdef⟩
    exact ⟨d, hd, by rw [hdef]; rfl⟩

/-- What is kept of the functions: their symbols follow in the scope, and each signature has in the end the meaning
that it had when it was declared. -/
theorem declareFunctions_kept (env : Env) (fs : List (Surface.Function Value)) :
    ((declareFunctions env fs).2.1.map Prod.fst).Sublist fs ∧
      (declareFunctions env fs).1 = { env with
        scope := ⟨env.scope.owner,
          env.scope.symbols ++ (declareFunctions env fs).2.1.map fun k => .function k.2.symbol⟩ } ∧
      env.SameTypes (declareFunctions env fs).1 ∧
      (∀ k ∈ (declareFunctions env fs).2.1, ((declareFunctions env fs).1.signature k.1).value = some k.2) ∧
      (env.scope.Distinct → (declareFunctions env fs).1.scope.Distinct) ∧
      ((declareFunctions env fs).2.2 = [] → (declareFunctions env fs).2.1.map Prod.fst = fs) := by
  induction fs generalizing env with
  | nil => simp [declareFunctions, Env.SameTypes.refl]
  | cons f fs ih =>
    cases hv : (declareFunction env f).value with
    | none =>
      have hstep : declareFunctions env (f :: fs) = ((declareFunctions env fs).1, (declareFunctions env fs).2.1,
          (declareFunction env f).diagnostics ++ (declareFunctions env fs).2.2) := by
        simp [declareFunctions, hv]
      obtain ⟨hsub, henv, hsame, hsig, hdist, -⟩ := ih env
      rw [hstep]
      refine ⟨hsub.cons f, henv, hsame, hsig, hdist, fun hnil => ?_⟩
      obtain ⟨d, hd⟩ := (settled_declareFunction env f).exists_value (List.append_eq_nil_iff.mp hnil).1
      rw [hv] at hd
      simp at hd
    | some k =>
      obtain ⟨d, scope⟩ := k
      obtain ⟨hd, hdef⟩ := declareFunction_value.mp hv
      have hstep : declareFunctions env (f :: fs) = ((declareFunctions { env with scope } fs).1,
          (f, d) :: (declareFunctions { env with scope } fs).2.1,
          (declareFunction env f).diagnostics ++ (declareFunctions { env with scope } fs).2.2) := by
        simp [declareFunctions, hv]
      obtain ⟨hsub, henv, hsame, hsig, hdist, hwhole⟩ := ih { env with scope }
      have hall := (Env.sameTypes_define? hdef).trans hsame
      rw [hstep]
      refine ⟨hsub.cons_cons f, ?_, hall, ?_, fun hold => hdist (hold.define? hdef), ?_⟩
      · obtain ⟨-, rfl⟩ := Scope.define?_eq_some.mp hdef
        simpa using henv
      · intro k hk
        rcases List.mem_cons.mp hk with rfl | hk
        · exact (congrArg Resolved.value (hall.signature_eq f)).symm.trans hd
        · exact hsig k hk
      · intro hnil
        simp only [List.map_cons, hwhole (List.append_eq_nil_iff.mp hnil).2]

/-! ## Programs -/

/-- What is known where the names of a unit are resolved. -/
def CompilationUnit.env (unit : CompilationUnit) : Env :=
  { file := unit.span.file, id := unit.id, imports := unit.imports, scope := unit.scope }

/-- A unit that holds all of a program: its imports come from the registry, no two with one prefix; its scope lists
the record types and then the functions, no two with one name; and each function has the signature and the body of
its source. -/
structure ResolvesTo (registry : Registry) (program : Surface.Program Value) (unit : CompilationUnit) :
    Prop where
  imports : List.Forall₂ (ImportsAs registry unit.span.file) program.imports unit.imports
  prefixes : (unit.imports.map ImportDecl.qualifier).Nodup
  types : List.Forall₂ (RecordsAs unit.id unit.span.file) program.records unit.types
  functions : List.Forall₂ unit.env.Declares program.functions unit.functions
  scope : unit.scope = ⟨unit.id, unit.types.map (TypeDecl.symbol unit.id) ++
    unit.functions.map fun d => .function d.symbol⟩
  distinct : unit.scope.Distinct

theorem resolveProgram_eq (registry : Registry) (id : ModuleId) (file : Option Text)
    (program : Surface.Program Value) :
    let imported := resolveImports registry { file, id, imports := [], scope := { owner := id } } program.imports
    let typed := resolveRecords imported.1 program.records
    let declared := declareFunctions typed.1 program.functions
    let bodies := declared.2.1.map fun k => declared.1.body k.1 k.2
    resolveProgram registry id file program =
      ({ id, scope := declared.1.scope, imports := declared.1.imports, types := typed.2.1
         functions := bodies.map Prod.fst, span := .ofPosition file .start },
        imported.2 ++ typed.2.2 ++ declared.2.2 ++ bodies.flatMap Prod.snd) := rfl

/-- A function of a unit about whose defaults and body nothing was reported. -/
def Env.DeclaresWholly (env : Env) (f : Surface.Function Value) (d : FunctionDecl) : Prop :=
  ∃ decl, (env.signature f).value = some decl ∧ env.body f decl = (d, [])

theorem Env.DeclaresWholly.declares {env : Env} {f : Surface.Function Value} {d : FunctionDecl}
    (h : env.DeclaresWholly f d) : env.Declares f d := by
  obtain ⟨decl, hsig, hbody⟩ := h
  exact ⟨decl, hsig, by rw [hbody]⟩

/-- The bodies of declared functions, all at once. -/
theorem forall₂_declares {env : Env} {decls : List (Surface.Function Value × FunctionDecl)}
    {R : Surface.Function Value → FunctionDecl → Prop}
    (h : ∀ k ∈ decls, R k.1 (env.body k.1 k.2).1) :
    List.Forall₂ R (decls.map Prod.fst) ((decls.map fun k => env.body k.1 k.2).map Prod.fst) := by
  rw [List.map_map, List.forall₂_map_left_iff, List.forall₂_map_right_iff, List.forall₂_same]
  exact h

/-- A resolved unit holds all of a part of its program. If nothing was reported, that part is the whole. -/
theorem resolveProgram_kept (registry : Registry) (id : ModuleId) (file : Option Text)
    (program : Surface.Program Value) :
    ∃ kept : Surface.Program Value, kept.imports.Sublist program.imports ∧
      kept.records.Sublist program.records ∧ kept.functions.Sublist program.functions ∧
      ResolvesTo registry kept (resolveProgram registry id file program).1 ∧
      ((resolveProgram registry id file program).2 = [] → kept = program ∧
        List.Forall₂ (resolveProgram registry id file program).1.env.DeclaresWholly
          program.functions (resolveProgram registry id file program).1.functions) := by
  rw [resolveProgram_eq]
  dsimp only
  obtain ⟨is, imports, hisub, hi, henv₁, hprefixes, hiwhole⟩ :=
    resolveImports_kept registry { file, id, imports := [], scope := { owner := id } } program.imports
  rw [henv₁]
  obtain ⟨rs, hrsub, hr, henv₂, hdist₂, hrwhole⟩ :=
    resolveRecords_kept { file, id, imports := [] ++ imports, scope := { owner := id } } program.records
  generalize resolveRecords { file, id, imports := [] ++ imports, scope := { owner := id } } program.records
    = typed at *
  obtain ⟨hfsub, henv₃, -, hsig, hdist₃, hfwhole⟩ := declareFunctions_kept typed.1 program.functions
  generalize declareFunctions typed.1 program.functions = declared at *
  -- the environment of the unit is the one in which its bodies were resolved
  have henv : declared.1 = { file, id, imports := imports, scope := declared.1.scope } := by
    rw [henv₃, henv₂]
    simp
  have hunit : ∀ types functions, (CompilationUnit.mk id declared.1.scope declared.1.imports types functions
      (.ofPosition file .start)).env = declared.1 := by
    intro types functions
    rw [henv]
    rfl
  have hdecl : ∀ k ∈ declared.2.1, declared.1.Declares k.1 (declared.1.body k.1 k.2).1 :=
    fun k hk => ⟨k.2, hsig k hk, rfl⟩
  refine ⟨⟨is, rs, declared.2.1.map Prod.fst⟩, hisub, hrsub, hfsub, ?_, ?_⟩
  · refine ⟨?_, ?_, hr, ?_, ?_, ?_⟩
    · rw [henv]
      exact hi
    · rw [henv]
      exact hprefixes (by simp)
    · rw [hunit]
      exact forall₂_declares hdecl
    · rw [henv₃, henv₂]
      simp [Env.body]
    · exact hdist₃ (hdist₂ (by simp [Scope.Distinct]))
  · intro hnil
    simp only [List.append_eq_nil_iff, List.flatMap_eq_nil_iff, List.forall_mem_map] at hnil
    obtain ⟨⟨⟨hi, hr⟩, hf⟩, hb⟩ := hnil
    obtain rfl := hiwhole hi
    obtain rfl := hrwhole hr
    have hfs := hfwhole hf
    refine ⟨by rw [hfs], ?_⟩
    rw [hunit]
    rw [← hfs]
    exact forall₂_declares fun k hk => ⟨k.2, hsig k hk, Prod.ext rfl (hb k hk)⟩

theorem resolveProgram_id {registry : Registry} {id : ModuleId} {file : Option Text}
    {program : Surface.Program Value} {unit : CompilationUnit} {ds : List Diagnostic}
    (h : resolveProgram registry id file program = (unit, ds)) : unit.id = id := by
  rw [resolveProgram_eq] at h
  exact (congrArg CompilationUnit.id (Prod.mk.inj h).1).symm

/-- If nothing was reported, the unit holds the whole program. -/
theorem resolveProgram_whole {registry : Registry} {id : ModuleId} {file : Option Text}
    {program : Surface.Program Value} {unit : CompilationUnit}
    (h : resolveProgram registry id file program = (unit, [])) :
    ResolvesTo registry program unit ∧
      List.Forall₂ unit.env.DeclaresWholly program.functions unit.functions := by
  obtain ⟨kept, -, -, -, hto, hwhole⟩ := resolveProgram_kept registry id file program
  rw [h] at hto hwhole
  obtain ⟨rfl, hfunctions⟩ := hwhole rfl
  exact ⟨hto, hfunctions⟩

end Registrar
