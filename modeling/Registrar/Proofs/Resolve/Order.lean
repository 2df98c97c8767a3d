import Registrar.Proofs.Resolve.Places
import Registrar.Proofs.Resolve.Soundness

/-!
# The order of functions plays no part in resolving

Signatures see types only, and bodies see all functions. So where no two items at the top level have one name, a
function resolves to one and the same whatever stands before it, and all that its place among the functions decides is
its place in the unit (`resolveProgram_reordered`).
-/

namespace Registrar

open Resolved

/-- Two programs with the same imports and records in the same order and the same functions in any order. Where the
items stand in the source makes no difference, and so neither does how the kinds are mixed there. -/
structure Surface.Program.Reordered (program program' : Surface.Program Value) : Prop where
  imports : program.imports.map Surface.Import.unplaced = program'.imports.map Surface.Import.unplaced
  records : program.records.map Surface.Record.unplaced = program'.records.map Surface.Record.unplaced
  functions : (program.functions.map Surface.Function.unplaced).Perm
    (program'.functions.map Surface.Function.unplaced)

/-- The items of a source may be mixed in any order in which the imports and the records each keep their own. -/
theorem Surface.Program.reordered_ofItems {items items' : List (Surface.Item Value)}
    (hall : (items.map Surface.Item.unplaced).Perm (items'.map Surface.Item.unplaced))
    (himports : (Program.ofItems items).imports.map Surface.Import.unplaced =
      (Program.ofItems items').imports.map Surface.Import.unplaced)
    (hrecords : (Program.ofItems items).records.map Surface.Record.unplaced =
      (Program.ofItems items').records.map Surface.Record.unplaced) :
    (Program.ofItems items).Reordered (.ofItems items') := by
  have hfunctions : ∀ items : List (Surface.Item Value), (Program.ofItems items).functions.map Surface.Function.unplaced =
      (Program.ofItems (items.map Surface.Item.unplaced)).functions := by
    intro items
    rw [Program.ofItems_unplaced]
  refine ⟨himports, hrecords, ?_⟩
  rw [hfunctions, hfunctions]
  exact hall.filterMap _

/-! ## Functions with distinct names -/

namespace Env

/-- The symbol of a function whose signature has a meaning. -/
def symbol? (env : Env) (f : Surface.Function Value) : Option Symbol :=
  (env.signature f).value.map fun d => .function d.symbol

/-- The environment with some functions in scope: those whose signature has a meaning. -/
def declaring (env : Env) (fs : List (Surface.Function Value)) : Env :=
  { env with scope := ⟨env.scope.owner, env.scope.symbols ++ fs.filterMap env.symbol?⟩ }

/-- What a function resolves to, with its signature in one environment and its body in another one, and what is said of
its body. -/
def whole? (env all : Env) (f : Surface.Function Value) : Option (FunctionDecl × List Diagnostic) :=
  (env.signature f).value.map (all.body f)

end Env

/-- Functions with distinct new names are declared one by one, each as if it were the only one. -/
theorem declareFunctions_distinct {env : Env} {fs : List (Surface.Function Value)}
    (hfree : ∀ f ∈ fs, env.scope.lookup f.name = none) (hnames : (fs.map Surface.Function.name).Nodup) :
    declareFunctions env fs =
      (env.declaring fs, fs.filterMap (fun f => (env.signature f).value.map (f, ·)),
        fs.flatMap fun f => (env.signature f).diagnostics) := by
  induction fs generalizing env with
  | nil => simp [declareFunctions, Env.declaring]
  | cons f fs ih =>
    obtain ⟨hfresh, hnames⟩ := List.nodup_cons.mp hnames
    have hrest : ∀ g ∈ fs, env.scope.lookup g.name = none := fun g hg => hfree g (List.mem_cons_of_mem f hg)
    cases hsig : (env.signature f).value with
    | none =>
      have hfirst : (declareFunction env f).value = none := by simp [declareFunction, hsig]
      have hds : (declareFunction env f).diagnostics = (env.signature f).diagnostics :=
        bind_diagnostics_of_none hsig _
      simp [declareFunctions, hfirst, hds, ih hrest hnames, Env.declaring, Env.symbol?, hsig]
    | some d =>
      have hname : (Symbol.function d.symbol).name = f.name := (Env.signature_name hsig).2.1
      have hdefine : env.scope.define? (.function d.symbol) =
          some ⟨env.scope.owner, env.scope.symbols ++ [.function d.symbol]⟩ :=
        Scope.define?_eq_some.mpr ⟨by rw [hname]; exact hfree f List.mem_cons_self, rfl⟩
      have hfirst := declareFunction_value.mpr ⟨hsig, hdefine⟩
      have hds : (declareFunction env f).diagnostics = (env.signature f).diagnostics := by
        rw [(settled_declareFunction env f).diagnostics_eq_nil hfirst,
          (env.settled_signature f).diagnostics_eq_nil hsig]
      -- the signatures to come see the same types, and the new name is none of theirs
      have hsame := Env.sameTypes_define? hdefine
      have hstill : ∀ g ∈ fs,
          Scope.lookup ⟨env.scope.owner, env.scope.symbols ++ [.function d.symbol]⟩ g.name = none := by
        intro g hg
        have hold : Scope.lookup ⟨env.scope.owner, env.scope.symbols⟩ g.name = none := hrest g hg
        have hne : f.name ≠ g.name := fun heq => hfresh (heq ▸ List.mem_map_of_mem hg)
        rw [Scope.lookup_append, hold, Option.none_or, Scope.lookup_eq_none_iff]
        intro s hs
        rw [List.mem_singleton.mp hs, hname]
        exact hne
      have hnext := @ih { env with scope := ⟨env.scope.owner, env.scope.symbols ++ [.function d.symbol]⟩ } hstill hnames
      have hsymbols : Env.symbol? { env with scope := ⟨env.scope.owner, env.scope.symbols ++ [.function d.symbol]⟩ } =
          env.symbol? := funext fun g => by rw [Env.symbol?, Env.symbol?, hsame.signature_eq]
      have hsymbol : env.symbol? f = some (.function d.symbol) := by rw [Env.symbol?, hsig]; rfl
      simp only [Env.declaring, hsymbols, ← hsame.signature_eq] at hnext
      simp [declareFunctions, hfirst, hds, hnext, Env.declaring, hsymbol, hsig]

/-! ## Programs with distinct names -/

/-- What is known before anything is resolved. -/
def Env.initial (id : ModuleId) (file : Option Text) : Env := { file, id, imports := [], scope := { owner := id } }

/-- The first two stages of the resolver: what is known behind the imports and the records, the record types, and what
is said of both. -/
def typedStage (registry : Registry) (id : ModuleId) (file : Option Text) (program : Surface.Program Value) :
    Env × List TypeDecl × List Diagnostic :=
  let imported := resolveImports registry (.initial id file) program.imports
  let typed := resolveRecords imported.1 program.records
  (typed.1, typed.2.1, imported.2 ++ typed.2.2)

theorem resolveProgram_stages (registry : Registry) (id : ModuleId) (file : Option Text)
    (program : Surface.Program Value) :
    let typed := typedStage registry id file program
    let declared := declareFunctions typed.1 program.functions
    let bodies := declared.2.1.map fun k => declared.1.body k.1 k.2
    resolveProgram registry id file program =
      ({ id, scope := declared.1.scope, imports := declared.1.imports, types := typed.2.1
         functions := bodies.map Prod.fst, span := .ofPosition file .start },
        typed.2.2 ++ declared.2.2 ++ bodies.flatMap Prod.snd) := rfl

/-- No two items at the top level have one name. -/
def Surface.Program.Distinct (program : Surface.Program Value) : Prop :=
  (program.records.map Surface.Record.name ++ program.functions.map Surface.Function.name).Nodup

variable {registry : Registry} {id : ModuleId} {file file' : Option Text} {program program' : Surface.Program Value}

/-- Only the names of records are taken behind the first two stages. -/
theorem exists_record_of_mem_typedStage {s : Symbol}
    (hs : s ∈ (typedStage registry id file program).1.scope.symbols) : ∃ r ∈ program.records, s.name = r.name := by
  obtain ⟨is, imports, -, -, henv, -, -⟩ := resolveImports_kept registry (.initial id file) program.imports
  rw [typedStage, henv] at hs
  obtain ⟨rs, hsub, htypes, hscope, -, -⟩ := resolveRecords_kept
    { Env.initial id file with imports := (Env.initial id file).imports ++ imports } program.records
  dsimp only at hs
  rw [hscope] at hs
  obtain ⟨t, ht, rfl⟩ := List.mem_map.mp hs
  obtain ⟨r, hr, -, rfl⟩ := exists_of_mem_right htypes ht
  exact ⟨r, hsub.subset hr, rfl⟩

/-- Where all names are distinct, the functions of a program are resolved one by one. -/
theorem resolveProgram_distinct (registry : Registry) (id : ModuleId) (file : Option Text)
    (hnames : program.Distinct) :
    let typed := typedStage registry id file program
    let all := typed.1.declaring program.functions
    let kept := program.functions.filterMap (typed.1.whole? all)
    resolveProgram registry id file program =
      ({ id, scope := all.scope, imports := typed.1.imports, types := typed.2.1, functions := kept.map Prod.fst
         span := .ofPosition file .start },
        typed.2.2 ++ program.functions.flatMap (fun f => (typed.1.signature f).diagnostics) ++
          kept.flatMap Prod.snd) := by
  intro typed all kept
  obtain ⟨-, hfunctions, hapart⟩ := List.nodup_append.mp hnames
  have hfree : ∀ f ∈ program.functions, typed.1.scope.lookup f.name = none := by
    intro f hf
    refine Scope.lookup_eq_none_iff.mpr fun s hs => ?_
    obtain ⟨r, hr, hname⟩ := exists_record_of_mem_typedStage hs
    rw [hname]
    exact hapart _ (List.mem_map_of_mem hr) _ (List.mem_map_of_mem hf)
  have hbodies : ((program.functions.filterMap fun f => (typed.1.signature f).value.map (f, ·)).map
      fun k => all.body k.1 k.2) = kept := by
    rw [List.map_filterMap]
    refine List.filterMap_congr fun f _ => ?_
    rw [Option.map_map]
    rfl
  rw [resolveProgram_stages, declareFunctions_distinct hfree hfunctions]
  dsimp only
  rw [hbodies]
  rfl

/-! ## Functions in another order -/

namespace Env

variable {env env' all all' : Env} {fs fs' : List (Surface.Function Value)}

/-- Functions that differ in places only, each with what is said of its body. -/
def WholeAlike (k k' : FunctionDecl × List Diagnostic) : Prop :=
  k.1.unplaced = k'.1.unplaced ∧ k.2.map Diagnostic.unplaced = k'.2.map Diagnostic.unplaced

theorem wholeAlike_rows {ks ks' : List (FunctionDecl × List Diagnostic)} (h : List.Forall₂ WholeAlike ks ks') :
    (ks.map Prod.fst).map FunctionDecl.unplaced = (ks'.map Prod.fst).map FunctionDecl.unplaced ∧
      (ks.flatMap Prod.snd).map Diagnostic.unplaced = (ks'.flatMap Prod.snd).map Diagnostic.unplaced := by
  rw [List.map_map, List.map_map]
  exact ⟨map_eq_of_forall₂ h fun _ hk => hk.1, map_flatMap_eq_of_forall₂ h fun hk => hk.2⟩

/-- A function is resolved in the same way wherever it stands. -/
theorem Alike.whole? (h : env.Alike env') (hall : all.Alike all') (f : Surface.Function Value) :
    Option.Rel WholeAlike (env.whole? all f) (env'.whole? all' f.unplaced) := by
  have hsig := (h.signature f).value
  unfold Env.whole?
  generalize (env.signature f).value = v at hsig ⊢
  generalize (env'.signature f.unplaced).value = v' at hsig ⊢
  cases hsig with
  | none => exact .none
  | some hd => exact .some (hall.body f hd)

/-- The functions that are kept are the same as without places. -/
theorem Alike.kept (h : env.Alike env') (hall : all.Alike all') (fs : List (Surface.Function Value)) :
    List.Forall₂ WholeAlike (fs.filterMap (env.whole? all))
      ((fs.map Surface.Function.unplaced).filterMap (env'.whole? all')) := by
  have hrow : List.Forall₂ (fun f g => g = f.unplaced) fs (fs.map Surface.Function.unplaced) := by
    rw [List.forall₂_map_right_iff, List.forall₂_same]
    exact fun f _ => rfl
  refine forall₂_filterMap hrow ?_
  rintro f _ rfl
  exact h.whole? hall f

theorem Alike.signature_diagnostics (h : env.Alike env') (fs : List (Surface.Function Value)) :
    (fs.flatMap fun f => (env.signature f).diagnostics).map Diagnostic.unplaced =
      ((fs.map Surface.Function.unplaced).flatMap fun f => (env'.signature f).diagnostics).map Diagnostic.unplaced := by
  rw [List.flatMap_map, List.map_flatMap, List.map_flatMap]
  exact List.flatMap_congr fun f _ => (h.signature f).diagnostics

theorem Alike.symbol? (h : env.Alike env') (f : Surface.Function Value) :
    env.symbol? f = env'.symbol? f.unplaced := by
  refine map_eq_map_of_rel (h.signature f).value ?_
  intro d d' hd
  exact congrArg Symbol.function (congrArg FunctionDecl.symbol hd : d.unplaced.symbol = _)

theorem symbol?_name {f : Surface.Function Value} {s : Symbol} (h : env.symbol? f = some s) : s.name = f.name := by
  obtain ⟨d, hd, rfl⟩ := Option.map_eq_some_iff.mp h
  exact (signature_name hd).2.1

/-- Functions with distinct names give names the same meaning in any order. -/
theorem Alike.declaring (h : env.Alike env') (hnames : (fs.map Surface.Function.name).Nodup)
    (hfs : (fs.map Surface.Function.unplaced).Perm (fs'.map Surface.Function.unplaced)) :
    (env.declaring fs).Alike (env'.declaring fs') := by
  refine ⟨h.id, h.imports, fun n => ?_⟩
  have hunplaced : ∀ {env : Env}, env.Alike env' → ∀ gs : List (Surface.Function Value),
      gs.filterMap env.symbol? = (gs.map Surface.Function.unplaced).filterMap env'.symbol? := by
    intro env h gs
    rw [List.filterMap_map]
    exact List.filterMap_congr fun f _ => h.symbol? f
  have hperm : (fs.filterMap env.symbol?).Perm (fs'.filterMap env'.symbol?) := by
    rw [hunplaced h fs, hunplaced (.refl env') fs']
    exact hfs.filterMap _
  have hdistinct : Scope.Distinct ⟨env.scope.owner, fs.filterMap env.symbol?⟩ := by
    refine List.pairwise_map.mpr ((List.pairwise_map.mp hnames).filterMap _ ?_)
    intro f g hne s hs t ht
    rw [symbol?_name hs, symbol?_name ht]
    exact hne
  have hold : Scope.lookup ⟨env.scope.owner, env.scope.symbols⟩ n =
      Scope.lookup ⟨env'.scope.owner, env'.scope.symbols⟩ n := h.scope n
  rw [Env.declaring, Env.declaring, Scope.lookup_append, Scope.lookup_append, hold,
    Scope.lookup_of_perm hperm hdistinct]

end Env

/-! ## Programs in another order -/

/-- The first two stages do not see where the imports and the records stand. -/
theorem typedStage_reordered (registry : Registry) (id : ModuleId) (file file' : Option Text)
    (h : program.Reordered program') :
    (typedStage registry id file program).1.Alike (typedStage registry id file' program').1 ∧
      (typedStage registry id file program).2.1.map TypeDecl.unplaced =
        (typedStage registry id file' program').2.1.map TypeDecl.unplaced ∧
      (typedStage registry id file program).2.2.map Diagnostic.unplaced =
        (typedStage registry id file' program').2.2.map Diagnostic.unplaced := by
  have hstart : (Env.initial id file).Alike (.initial id file') := ⟨rfl, rfl, fun _ => rfl⟩
  obtain ⟨henv, hds⟩ := resolveImports_alike registry hstart program.imports
  obtain ⟨henv', hds'⟩ := resolveImports_alike registry (.refl (.initial id file')) program'.imports
  rw [h.imports, ← hds'] at hds
  rw [h.imports] at henv
  have hrecords := resolveRecords_alike (henv.trans henv'.symm) program.records
  have hrecords' := resolveRecords_alike (.refl (resolveImports registry (.initial id file') program'.imports).1)
    program'.records
  rw [h.records] at hrecords
  refine ⟨hrecords.1.trans hrecords'.1.symm, hrecords.2.1.trans hrecords'.2.1.symm, ?_⟩
  simp only [typedStage, List.map_append, hds, hrecords.2.2, hrecords'.2.2]

/-- Reordering leaves the names distinct. -/
theorem Surface.Program.Reordered.distinct (h : program.Reordered program') (hnames : program.Distinct) :
    program'.Distinct := by
  have hrecords := congrArg (List.map Surface.Record.name) h.records
  have hfunctions := h.functions.map Surface.Function.name
  simp only [List.map_map, Function.comp_def] at hrecords hfunctions
  have hall : (program.records.map Surface.Record.name ++ program.functions.map Surface.Function.name).Perm
      (program'.records.map Surface.Record.name ++ program'.functions.map Surface.Function.name) :=
    (List.Perm.of_eq hrecords).append hfunctions
  exact hall.nodup hnames

/-- Where all names are distinct, a function of the unit is found under the name of its source. -/
theorem findFunction?_resolveProgram (hnames : program.Distinct) {f : Surface.Function Value}
    (hf : f ∈ program.functions) :
    let typed := typedStage registry id file program
    (resolveProgram registry id file program).1.findFunction? f.name =
      (typed.1.whole? (typed.1.declaring program.functions) f).map Prod.fst := by
  intro typed
  rw [resolveProgram_distinct registry id file hnames, CompilationUnit.findFunction?]
  dsimp only
  rw [List.map_filterMap]
  refine find?_filterMap_of_nodup ?_ (List.nodup_append.mp hnames).2.1 hf
  intro g d hd
  obtain ⟨k, hk, rfl⟩ := Option.map_eq_some_iff.mp hd
  obtain ⟨decl, hsig, rfl⟩ := Option.map_eq_some_iff.mp hk
  exact (Env.signature_name hsig).1

theorem findFunction?_reordered (hnames : program.Distinct) (h : program.Reordered program')
    {f : Surface.Function Value} (hf : f ∈ program'.functions) :
    let typed := typedStage registry id file program
    ((resolveProgram registry id file program).1.findFunction? f.name).map FunctionDecl.unplaced =
      ((typed.1.whole? (typed.1.declaring program.functions) f.unplaced).map Prod.fst).map FunctionDecl.unplaced := by
  intro typed
  obtain ⟨g, hg, hgf⟩ := List.mem_map.mp (h.functions.mem_iff.mpr (List.mem_map_of_mem hf))
  have hname : g.name = f.name := (congrArg Surface.Function.name hgf : g.unplaced.name = _)
  rw [← hname, findFunction?_resolveProgram hnames hg, ← hgf, Option.map_map, Option.map_map]
  exact map_eq_map_of_rel ((Env.Alike.refl _).whole? (.refl _) g) fun hk => hk.1

/-- Where no two items at the top level of a program have one name, the order of its functions plays no part: a
reordered program has the same imports and types, its functions are those of the first one in the new order, with the
same symbols behind every name, and the same is reported, in some order. -/
theorem resolveProgram_reordered (registry : Registry) (id : ModuleId) (file file' : Option Text)
    {program program' : Surface.Program Value} (hnames : program.Distinct) (h : program.Reordered program') :
    let resolved := resolveProgram registry id file program
    let resolved' := resolveProgram registry id file' program'
    resolved'.1.imports.map ImportDecl.unplaced = resolved.1.imports.map ImportDecl.unplaced ∧
      resolved'.1.types.map TypeDecl.unplaced = resolved.1.types.map TypeDecl.unplaced ∧
      resolved'.1.functions.map FunctionDecl.unplaced =
        (program'.functions.filterMap fun f => resolved.1.findFunction? f.name).map FunctionDecl.unplaced ∧
      (resolved'.1.functions.map FunctionDecl.unplaced).Perm (resolved.1.functions.map FunctionDecl.unplaced) ∧
      (∀ n, resolved'.1.scope.lookup n = resolved.1.scope.lookup n) ∧
      (resolved'.2.map Diagnostic.unplaced).Perm (resolved.2.map Diagnostic.unplaced) := by
  intro resolved resolved'
  let typed := typedStage registry id file program
  let whole := typed.1.whole? (typed.1.declaring program.functions)
  obtain ⟨htyped, htypes, hproblems⟩ := typedStage_reordered registry id file file' h
  have hall := htyped.declaring (List.nodup_append.mp hnames).2.1 h.functions
  have hfound : (program'.functions.filterMap fun f => resolved.1.findFunction? f.name).map FunctionDecl.unplaced =
      (((program'.functions.map Surface.Function.unplaced).filterMap whole).map Prod.fst).map
        FunctionDecl.unplaced := by
    rw [List.map_filterMap, List.map_filterMap, List.map_filterMap, List.filterMap_map]
    exact List.filterMap_congr fun f hf => findFunction?_reordered hnames h hf
  rw [hfound]
  simp only [resolved, resolved', resolveProgram_distinct registry id file hnames,
    resolveProgram_distinct registry id file' (h.distinct hnames)]
  -- both units are compared with what the functions without places resolve to, in the environments of the first one
  obtain ⟨hfunctions, hbodies⟩ := Env.wholeAlike_rows
    ((Env.Alike.refl typed.1).kept (.refl (typed.1.declaring program.functions)) program.functions)
  obtain ⟨hfunctions', hbodies'⟩ := Env.wholeAlike_rows (htyped.symm.kept hall.symm program'.functions)
  have hperm := h.functions.symm.filterMap whole
  refine ⟨htyped.imports.symm, htypes.symm, hfunctions', ?_, fun n => (hall.scope n).symm, ?_⟩
  · rw [hfunctions', hfunctions]
    exact (hperm.map _).map _
  · simp only [List.map_append]
    rw [hproblems, htyped.symm.signature_diagnostics program'.functions,
      (Env.Alike.refl typed.1).signature_diagnostics program.functions, hbodies', hbodies]
    refine (List.Perm.append_left _ ?_).append ?_
    · exact (h.functions.symm.flatMap_right _).map _
    · exact (hperm.flatMap_right _).map _

/-- Two functions that call each other, and a third one of unknown type that the second calls, behind an import and a
record, and all of these in the opposite order and at other places. -/
theorem resolveProgram_reordered_recursive :
    let call (callee : Text) (line : Nat) : Surface.Stmt Value := .expr (.call ⟨none, callee, ⟨line, 5⟩⟩ []) ⟨line, 5⟩
    let function (name : Text) (returns : Option Text) (line : Nat) (body : List (Surface.Stmt Value)) :
        Surface.Function Value :=
      { name, position := ⟨line, 1⟩, tags := [], isPublic := false, params := []
        returns := returns.map fun t => ⟨⟨none, t, ⟨line, 9⟩⟩, []⟩, body }
    let items : List (Surface.Item Value) :=
      [.use ⟨"acme", "kit", none, ⟨1, 1⟩⟩, .record ⟨"R", ⟨2, 1⟩⟩, .function (function "even" none 3 [call "odd" 4]),
        .function (function "odd" none 5 [call "lost" 6, call "even" 7]), .function (function "lost" (some "S") 8 [])]
    let items' : List (Surface.Item Value) :=
      [.function (function "lost" (some "S") 1 []), .function (function "odd" none 2 [call "lost" 3, call "even" 4]),
        .function (function "even" none 5 [call "odd" 6]), .record ⟨"R", ⟨9, 1⟩⟩,
        .use ⟨"acme", "kit", none, ⟨10, 1⟩⟩]
    let program := Surface.Program.ofItems items
    let program' := Surface.Program.ofItems items'
    let registry : Registry := Registry.add {} (.ofSymbols ⟨"acme", "kit"⟩ [])
    let resolved := resolveProgram registry ⟨"demo", "app"⟩ none program
    let resolved' := resolveProgram registry ⟨"demo", "app"⟩ none program'
    program.Distinct ∧ program.Reordered program' ∧ resolved.2.length = 2 ∧ resolved'.2.length = 2 ∧
      resolved.1.functions.map FunctionDecl.name = [("even" : Text), "odd"] ∧
      resolved'.1.functions.map FunctionDecl.name = [("odd" : Text), "even"] := by
  intro call function items items' program program' registry resolved resolved'
  have hnames : program.Distinct := by unfold Surface.Program.Distinct; decide
  have hreordered : program.Reordered program' :=
    Surface.Program.reordered_ofItems (List.reverse_perm _).symm rfl rfl
  obtain ⟨-, -, hfunctions, -, -, hproblems⟩ :=
    resolveProgram_reordered registry ⟨"demo", "app"⟩ none none hnames hreordered
  have hcount : resolved.2.length = 2 := by decide +kernel
  have hfound := congrArg (List.map FunctionDecl.name) hfunctions
  simp only [List.map_map] at hfound
  refine ⟨hnames, hreordered, hcount, ?_, by decide +kernel, ?_⟩
  · have hlength : resolved'.2.length = resolved.2.length := by simpa using hproblems.length_eq
    exact hlength.trans hcount
  · exact hfound.trans (by decide +kernel)

end Registrar
