import Registrar.Proofs.Resolve.Order

/-!
# The layout of a program plays no part in resolving

Two programs that differ in nothing but where their parts stand are resolved to units that differ in spans only, and the
same is reported of both (`resolveProgram_layout`). For the imports, the records and the parts of functions this is known
from their places; what is left is the stage that declares the functions.
-/

namespace Registrar

open Resolved

/-- The program without positions. -/
def Surface.Program.unplaced (program : Surface.Program Value) : Surface.Program Value where
  imports := program.imports.map Surface.Import.unplaced
  records := program.records.map Surface.Record.unplaced
  functions := program.functions.map Surface.Function.unplaced

/-! ## The declarations of functions -/

variable {env env' : Env}

theorem declareFunction_alike (h : env.Alike env') (f : Surface.Function Value) :
    (declareFunction env f).Alike (fun k k' => k.1.unplaced = k'.1.unplaced ∧ ∀ n, k.2.lookup n = k'.2.lookup n)
      (declareFunction env' f.unplaced) := by
  refine (h.signature f).bind ?_
  intro d d' hd
  have hsymbol : d.symbol = d'.symbol := (congrArg FunctionDecl.symbol hd : d.unplaced.symbol = _)
  have hdefine := Scope.rel_define? h.scope (.function d'.symbol)
  rw [hsymbol]
  generalize env.scope.define? (.function d'.symbol) = scope at hdefine ⊢
  generalize env'.scope.define? (.function d'.symbol) = scope' at hdefine ⊢
  cases hdefine with
  | none => exact alike_fail rfl
  | some hscope => exact alike_ok ⟨hd, hscope⟩

/-- A function with its declaration, beside the same one without places. -/
def DeclarationAlike (k k' : Surface.Function Value × FunctionDecl) : Prop :=
  k'.1 = k.1.unplaced ∧ k.2.unplaced = k'.2.unplaced

/-- The functions are declared in the same way wherever they stand. -/
theorem declareFunctions_alike (h : env.Alike env') (fs : List (Surface.Function Value)) :
    let declared := declareFunctions env fs
    let declared' := declareFunctions env' (fs.map Surface.Function.unplaced)
    declared.1.Alike declared'.1 ∧ List.Forall₂ DeclarationAlike declared.2.1 declared'.2.1 ∧
      declared.2.2.map Diagnostic.unplaced = declared'.2.2.map Diagnostic.unplaced := by
  induction fs generalizing env env' with
  | nil => exact ⟨h, .nil, rfl⟩
  | cons f fs ih =>
    obtain ⟨hvalue, hds⟩ := declareFunction_alike h f
    simp only [declareFunctions, List.map_cons]
    generalize (declareFunction env f).value = v at hvalue ⊢
    generalize (declareFunction env' f.unplaced).value = v' at hvalue ⊢
    cases hvalue with
    | none =>
      obtain ⟨henv, hdecls, hrest⟩ := ih h
      exact ⟨henv, hdecls, by simp only [List.map_append, hds, hrest]⟩
    | @some k k' hk =>
      have hstep : Env.Alike { env with scope := k.2 } { env' with scope := k'.2 } := ⟨h.id, h.imports, hk.2⟩
      obtain ⟨henv, hdecls, hrest⟩ := ih hstep
      exact ⟨henv, .cons ⟨rfl, hk.1⟩ hdecls, by simp only [List.map_append, hds, hrest]⟩

/-- Functions that differ in places, with declarations that do. -/
def Moved (k k' : Surface.Function Value × FunctionDecl) : Prop :=
  k.1.unplaced = k'.1.unplaced ∧ k.2.unplaced = k'.2.unplaced

/-- The functions are declared in the same way at other places. -/
theorem declareFunctions_moved (h : env.Alike env') {fs fs' : List (Surface.Function Value)}
    (hfs : fs.map Surface.Function.unplaced = fs'.map Surface.Function.unplaced) :
    let declared := declareFunctions env fs
    let declared' := declareFunctions env' fs'
    declared.1.Alike declared'.1 ∧ List.Forall₂ Moved declared.2.1 declared'.2.1 ∧
      declared.2.2.map Diagnostic.unplaced = declared'.2.2.map Diagnostic.unplaced := by
  obtain ⟨henv, hdecls, hds⟩ := declareFunctions_alike h fs
  obtain ⟨henv', hdecls', hds'⟩ := declareFunctions_alike (.refl env') fs'
  rw [hfs] at henv hdecls hds
  refine ⟨henv.trans henv'.symm, ?_, hds.trans hds'.symm⟩
  refine forall₂_join hdecls.flip hdecls'.flip ?_
  rintro k₀ k k' - - hk hk'
  exact ⟨hk.1.symm.trans hk'.1, hk.2.trans hk'.2.symm⟩

/-- A function gets the same body at another place, and the same is said of it. -/
theorem body_moved (h : env.Alike env') {k k' : Surface.Function Value × FunctionDecl} (hk : Moved k k') :
    Env.WholeAlike (env.body k.1 k.2) (env'.body k'.1 k'.2) := by
  obtain ⟨hbody, hds⟩ := h.body k.1 hk.2
  obtain ⟨hbody', hds'⟩ := (Env.Alike.refl env').body k'.1 rfl
  rw [hk.1] at hbody hds
  exact ⟨hbody.trans hbody'.symm, hds.trans hds'.symm⟩

theorem bodies_moved (h : env.Alike env') {ks ks' : List (Surface.Function Value × FunctionDecl)}
    (hks : List.Forall₂ Moved ks ks') :
    List.Forall₂ Env.WholeAlike (ks.map fun k => env.body k.1 k.2) (ks'.map fun k => env'.body k.1 k.2) := by
  rw [List.forall₂_map_left_iff, List.forall₂_map_right_iff]
  exact hks.imp fun _ _ hk => body_moved h hk

/-! ## Programs -/

variable {registry : Registry} {id : ModuleId} {file file' : Option Text} {program program' : Surface.Program Value}

/-- The scope of a unit is told by its types and the symbols of its functions, which have no places. -/
theorem ResolvesTo.scope_eq_of_symbols {unit unit' : CompilationUnit} (h : ResolvesTo registry program unit)
    (h' : ResolvesTo registry program' unit') (hid : unit.id = unit'.id)
    (htypes : unit.types.map TypeDecl.unplaced = unit'.types.map TypeDecl.unplaced)
    (hsymbols : unit.functions.map FunctionDecl.symbol = unit'.functions.map FunctionDecl.symbol) :
    unit.scope = unit'.scope := by
  have hrecords : unit.types.map (TypeDecl.symbol unit'.id) = unit'.types.map (TypeDecl.symbol unit'.id) := by
    have hmap := congrArg (List.map (TypeDecl.symbol unit'.id)) htypes
    rw [List.map_map, List.map_map] at hmap
    exact hmap
  have hfunctions : (unit.functions.map fun d => Symbol.function d.symbol) =
      unit'.functions.map fun d => Symbol.function d.symbol := by
    have hmap := congrArg (List.map Symbol.function) hsymbols
    rw [List.map_map, List.map_map] at hmap
    exact hmap
  rw [h.scope, h'.scope, hid, hrecords, hfunctions]

/-- Where the parts of a program stand decides about spans and about nothing else. -/
theorem resolveProgram_layout (registry : Registry) (id : ModuleId) (file file' : Option Text)
    (h : program.unplaced = program'.unplaced) :
    (resolveProgram registry id file program).1.unplaced = (resolveProgram registry id file' program').1.unplaced ∧
      (resolveProgram registry id file program).2.map Diagnostic.unplaced =
        (resolveProgram registry id file' program').2.map Diagnostic.unplaced := by
  have hfs : program.functions.map Surface.Function.unplaced = program'.functions.map Surface.Function.unplaced :=
    congrArg Surface.Program.functions h
  have hreordered : program.Reordered program' :=
    ⟨congrArg Surface.Program.imports h, congrArg Surface.Program.records h, .of_eq hfs⟩
  obtain ⟨htyped, htypes, hproblems⟩ := typedStage_reordered registry id file file' hreordered
  obtain ⟨henv, hdecls, hds⟩ := declareFunctions_moved htyped hfs
  obtain ⟨hfunctions, hsaid⟩ := Env.wholeAlike_rows (bodies_moved henv hdecls)
  obtain ⟨kept, -, -, -, hto, -⟩ := resolveProgram_kept registry id file program
  obtain ⟨kept', -, -, -, hto', -⟩ := resolveProgram_kept registry id file' program'
  have hscope := hto.scope_eq_of_symbols hto' rfl htypes
    (map_eq_of_forall₂ (map_eq_map_iff_forall₂.mp hfunctions) fun _ hd => (congrArg FunctionDecl.symbol hd :))
  rw [resolveProgram_stages, resolveProgram_stages] at hscope ⊢
  dsimp only at hscope ⊢
  refine ⟨?_, ?_⟩
  · simp only [CompilationUnit.unplaced, hscope, henv.imports, htypes, hfunctions]
  · simp only [List.map_append, hproblems, hds, hsaid]

end Registrar
