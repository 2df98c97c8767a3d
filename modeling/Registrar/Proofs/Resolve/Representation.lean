import Registrar.Proofs.Handler.Spelling

/-!
# What a unit keeps of its program

Imports, records and functions are all taken in the order of the source, and first come, first served: an item that has
a meaning is kept unless its key is taken, and then takes it. The key of an import is its prefix, that of a record or of
a function its name; the names of the records are taken before the functions come. `FirstCome` says this of a row and
`FirstCome.forall₂` that what is kept are the *firsts* of the row. An item without a meaning takes nothing, so a later
one of its name can still be kept. `resolveProgram_represents` draws the conclusions for whole units, whatever was
reported.
-/

namespace Registrar

/-! ## First come, first served -/

section

variable {α β κ : Type} [DecidableEq κ] {good : α → Bool} {key : α → κ} {R : α → β → Prop}

/-- The members of a row that are good, and of several with one key only the first. -/
def firsts (good : α → Bool) (key : α → κ) : List α → List α
  | [] => []
  | a :: as => if good a then a :: (firsts good key as).filter (key · ≠ key a) else firsts good key as

/-- Under each key stands the first good member of that key. -/
theorem find?_firsts [BEq κ] [LawfulBEq κ] (good : α → Bool) (key : α → κ) (as : List α) (k : κ) :
    (firsts good key as).find? (key · == k) = as.find? fun a => good a && key a == k := by
  induction as with
  | nil => rfl
  | cons a as ih =>
    rw [firsts]
    by_cases hgood : good a = true
    · by_cases hk : key a = k
      · simp [hgood, hk]
      · have hsame : (fun b => decide (decide (key b ≠ key a) = true ∧ (key b == k) = true)) = (key · == k) := by
          funext b
          by_cases hb : key b = k
          · have hne : k ≠ key a := fun h => hk h.symm
            simp [hb, hne]
          · simp [hb]
        rw [if_pos hgood, List.find?_cons_of_neg (by simpa using hk), List.find?_cons_of_neg (by simp [hk]),
          List.find?_filter, hsame, ih]
    · rw [if_neg hgood, ih, List.find?_cons_of_neg (by simp [hgood])]

/-- A row is worked through from left to right. A good member is kept unless its key is taken, and then takes its key;
what it becomes is related to it by `R`. -/
inductive FirstCome (good : α → Bool) (key : α → κ) (R : α → β → Prop) : (κ → Bool) → List α → List β → Prop
  | nil {taken : κ → Bool} : FirstCome good key R taken [] []
  | kept {taken taken' : κ → Bool} {a : α} {b : β} {as : List α} {bs : List β} (hgood : good a = true)
      (hfree : taken (key a) = false) (hab : R a b) (htaken : ∀ k, taken' k = (taken k || decide (k = key a)))
      (rest : FirstCome good key R taken' as bs) : FirstCome good key R taken (a :: as) (b :: bs)
  | dropped {taken : κ → Bool} {a : α} {as : List α} {bs : List β} (h : good a = true → taken (key a) = true)
      (rest : FirstCome good key R taken as bs) : FirstCome good key R taken (a :: as) bs

/-- What is kept are the firsts whose keys were not taken before. -/
theorem FirstCome.forall₂ {taken : κ → Bool} {as : List α} {bs : List β} (h : FirstCome good key R taken as bs) :
    List.Forall₂ R ((firsts good key as).filter fun a => !taken (key a)) bs := by
  induction h with
  | nil => exact .nil
  | @kept taken taken' a b as bs hgood hfree hab htaken _ ih =>
    have hrest : ((firsts good key as).filter (key · ≠ key a)).filter (fun c => !taken (key c)) =
        (firsts good key as).filter fun c => !taken' (key c) := by
      rw [List.filter_filter]
      refine List.filter_congr fun c _ => ?_
      by_cases hc : key c = key a <;> simp [htaken, hc]
    rw [firsts, if_pos hgood, List.filter_cons_of_pos (by simp [hfree]), hrest]
    exact .cons hab ih
  | @dropped taken a as bs h _ ih =>
    rw [firsts]
    by_cases hgood : good a = true
    · have htaken := h hgood
      -- the key of the member is taken, so that it hides nothing that would be kept
      have hrest : ((firsts good key as).filter (key · ≠ key a)).filter (fun c => !taken (key c)) =
          (firsts good key as).filter fun c => !taken (key c) := by
        rw [List.filter_filter]
        refine List.filter_congr fun c _ => ?_
        by_cases hc : key c = key a <;> simp [hc, htaken]
      rw [if_pos hgood, List.filter_cons_of_neg (by simp [htaken]), hrest]
      exact ih
    · rw [if_neg hgood]
      exact ih

end

open Resolved

/-! ## Imports -/

/-- Whether the registry has the module that is imported. -/
def Registry.offers (registry : Registry) (i : Surface.Import) : Bool := (registry.find? ⟨i.space, i.name⟩).isSome

/-- Of the imports of one prefix the first is kept whose module is there. -/
theorem resolveImports_firstCome (registry : Registry) (env : Env) (is : List Surface.Import) :
    ∃ new, (resolveImports registry env is).1 = { env with imports := env.imports ++ new } ∧
      FirstCome registry.offers Surface.Import.qualifier (ImportsAs registry env.file)
        (fun q => decide (q ∈ env.imports.map ImportDecl.qualifier)) is new := by
  induction is generalizing env with
  | nil => exact ⟨[], by simp [resolveImports], .nil⟩
  | cons i is ih =>
    cases hv : (resolveImport registry env i).value with
    | none =>
      obtain ⟨new, henv, hnew⟩ := ih env
      refine ⟨new, by simpa [resolveImports, hv] using henv, .dropped (fun hoffers => ?_) hnew⟩
      -- a module that is there and a prefix that is free would have been enough
      by_contra hfree
      obtain ⟨m, hm⟩ := Option.isSome_iff_exists.mp hoffers
      have hd : ImportsAs registry env.file i
          { id := ⟨i.space, i.name⟩, module := m, asName := i.asName, span := .ofPosition env.file i.position } :=
        ⟨m, hm, rfl⟩
      have hvalue := resolveImport_value.mpr ⟨hd, by simpa [hd.qualifier] using hfree⟩
      rw [hv] at hvalue
      cases hvalue
    | some d =>
      obtain ⟨hd, hfree⟩ := resolveImport_value.mp hv
      obtain ⟨new, henv, hnew⟩ := ih { env with imports := env.imports ++ [d] }
      have hoffers : registry.offers i = true := by
        obtain ⟨m, hm, -⟩ := hd
        simp [Registry.offers, hm]
      refine ⟨d :: new, by simpa [resolveImports, hv] using henv, .kept hoffers ?_ hd (fun q => ?_) hnew⟩
      · rw [hd.qualifier] at hfree
        simpa using hfree
      · simp [hd.qualifier]

/-! ## Records -/

/-- Whether a record may have its name: that of no built-in type. -/
def Surface.Record.isNew (r : Surface.Record) : Bool := (Ty.builtin? r.name).isNone

/-- Of the records of one name the first is kept, unless it is the name of a built-in type. -/
theorem resolveRecords_firstCome (env : Env) (rs : List Surface.Record) :
    FirstCome Surface.Record.isNew Surface.Record.name (RecordsAs env.id env.file) env.scope.contains rs
      (resolveRecords env rs).2.1 := by
  induction rs generalizing env with
  | nil => exact .nil
  | cons r rs ih =>
    cases hv : (resolveRecord env r).value with
    | none =>
      have hstep : (resolveRecords env (r :: rs)).2.1 = (resolveRecords env rs).2.1 := by
        simp [resolveRecords, hv]
      rw [hstep]
      refine .dropped (fun hnew => ?_) (ih env)
      by_contra hfree
      have ht : RecordsAs env.id env.file r
          { name := r.name, type := .user r.name (some env.id), span := .ofPosition env.file r.position } :=
        ⟨by simpa [Surface.Record.isNew] using hnew, rfl⟩
      have hdef : env.scope.lookup r.name = none :=
        Scope.contains_eq_false_iff.mp (Bool.eq_false_iff.mpr hfree)
      have hvalue := resolveRecord_value.mpr ⟨ht, Scope.define?_eq_some.mpr ⟨hdef, rfl⟩⟩
      rw [hv] at hvalue
      cases hvalue
    | some k =>
      obtain ⟨t, scope⟩ := k
      obtain ⟨ht, hdef⟩ := resolveRecord_value.mp hv
      have hstep : (resolveRecords env (r :: rs)).2.1 = t :: (resolveRecords { env with scope } rs).2.1 := by
        simp [resolveRecords, hv]
      rw [hstep]
      have hname : (t.symbol env.id).name = r.name := congrArg TypeDecl.name ht.2
      have hfree := (Scope.define?_eq_some.mp hdef).1
      rw [hname] at hfree
      refine .kept (by simp [Surface.Record.isNew, ht.1]) (Scope.contains_eq_false_iff.mpr hfree) ht (fun n => ?_)
        (ih { env with scope })
      rw [Scope.contains_define? hdef, hname]

/-! ## Functions -/

/-- Whether the whole signature of a function has a meaning: its annotations, the types of its parameters and the type
of its result. -/
def Env.hasSignature (env : Env) (f : Surface.Function Value) : Bool :=
  f.tags.all (fun t => (env.marker t).value.isSome) && f.params.all (fun p => (env.typeExpr p.type).value.isSome) &&
    f.returns.all fun t => (env.typeExpr t).value.isSome

theorem Env.hasSignature_iff {env : Env} {f : Surface.Function Value} :
    env.hasSignature f = true ↔ ∃ d, (env.signature f).value = some d := by
  simp only [hasSignature, Bool.and_eq_true, List.all_eq_true, Option.isSome_iff_exists, signature_value]
  constructor
  · rintro ⟨⟨htags, hparams⟩, hreturns⟩
    obtain ⟨markers, hmarkers⟩ := exists_forall₂ htags
    have hkinds : ∀ p ∈ f.params, ∃ k, (env.kindedParam p).value = some k := by
      intro p hp
      obtain ⟨t, ht⟩ := hparams p hp
      exact ⟨_, kindedParam_value.mpr ⟨t, ht, rfl⟩⟩
    obtain ⟨params, hparams⟩ := exists_forall₂ hkinds
    cases hr : f.returns with
    | none => exact ⟨_, markers, params, .nil, hmarkers, hparams, rfl, rfl⟩
    | some t =>
      obtain ⟨ret, hret⟩ : ∃ ret, (env.typeExpr t).value = some ret := by
        rw [hr, Option.all_some] at hreturns
        exact Option.isSome_iff_exists.mp hreturns
      exact ⟨_, markers, params, ret, hmarkers, hparams, hret, rfl⟩
  · rintro ⟨d, markers, params, ret, hmarkers, hparams, hret, -⟩
    refine ⟨⟨fun t ht => ?_, fun p hp => ?_⟩, ?_⟩
    · obtain ⟨m, -, hm⟩ := exists_of_mem_left hmarkers ht
      exact ⟨m, hm⟩
    · obtain ⟨k, -, hk⟩ := exists_of_mem_left hparams hp
      obtain ⟨t, ht, -⟩ := kindedParam_value.mp hk
      exact ⟨t, ht⟩
    · cases hr : f.returns with
      | none => rfl
      | some t =>
        rw [hr] at hret
        exact Option.isSome_iff_exists.mpr ⟨ret, hret⟩

theorem Env.SameTypes.hasSignature_eq {env env' : Env} (h : env.SameTypes env') (f : Surface.Function Value) :
    env.hasSignature f = env'.hasSignature f := by
  rw [Bool.eq_iff_iff, Env.hasSignature_iff, Env.hasSignature_iff, h.signature_eq]

/-- Of the functions of one name the first is kept whose signature has a meaning, unless a record has the name. What
counts is the meaning in the end, when all functions are declared. -/
theorem declareFunctions_firstCome (env : Env) (fs : List (Surface.Function Value)) :
    FirstCome (declareFunctions env fs).1.hasSignature Surface.Function.name (fun f k => k.1 = f) env.scope.contains fs
      (declareFunctions env fs).2.1 := by
  induction fs generalizing env with
  | nil => exact .nil
  | cons f fs ih =>
    have hsame := (declareFunctions_kept env (f :: fs)).2.2.1
    cases hv : (declareFunction env f).value with
    | none =>
      have hstep : (declareFunctions env (f :: fs)).1 = (declareFunctions env fs).1 ∧
          (declareFunctions env (f :: fs)).2.1 = (declareFunctions env fs).2.1 := by
        simp [declareFunctions, hv]
      rw [hstep.2]
      rw [hstep.1] at hsame ⊢
      refine .dropped (fun hgood => ?_) (ih env)
      by_contra hfree
      rw [← hsame.hasSignature_eq] at hgood
      obtain ⟨d, hd⟩ := Env.hasSignature_iff.mp hgood
      have hname : (Symbol.function d.symbol).name = f.name := (Env.signature_name hd).2.1
      have hdef : env.scope.lookup (Symbol.function d.symbol).name = none := by
        rw [hname]
        exact Scope.contains_eq_false_iff.mp (Bool.eq_false_iff.mpr hfree)
      have hvalue := declareFunction_value.mpr ⟨hd, Scope.define?_eq_some.mpr ⟨hdef, rfl⟩⟩
      rw [hv] at hvalue
      cases hvalue
    | some k =>
      obtain ⟨d, scope⟩ := k
      obtain ⟨hd, hdef⟩ := declareFunction_value.mp hv
      have hstep : (declareFunctions env (f :: fs)).1 = (declareFunctions { env with scope } fs).1 ∧
          (declareFunctions env (f :: fs)).2.1 = (f, d) :: (declareFunctions { env with scope } fs).2.1 := by
        simp [declareFunctions, hv]
      have hname : (Symbol.function d.symbol).name = f.name := (Env.signature_name hd).2.1
      have hfree := (Scope.define?_eq_some.mp hdef).1
      rw [hname] at hfree
      rw [hstep.2]
      rw [hstep.1] at hsame ⊢
      refine .kept ?_ (Scope.contains_eq_false_iff.mpr hfree) rfl (fun n => ?_) (ih { env with scope })
      · rw [← hsame.hasSignature_eq]
        exact Env.hasSignature_iff.mpr ⟨d, hd⟩
      · rw [Scope.contains_define? hdef, hname]

/-! ## Units -/

/-- What a unit keeps of its program: the firsts of the imports and of the records, and of the functions those firsts
whose names are not names of records. -/
theorem resolveProgram_firsts (registry : Registry) (id : ModuleId) (file : Option Text)
    (program : Surface.Program Value) :
    let unit := (resolveProgram registry id file program).1
    List.Forall₂ (ImportsAs registry file) (firsts registry.offers Surface.Import.qualifier program.imports)
        unit.imports ∧
      List.Forall₂ (RecordsAs id file) (firsts Surface.Record.isNew Surface.Record.name program.records) unit.types ∧
      List.Forall₂ unit.env.Declares
        ((firsts unit.env.hasSignature Surface.Function.name program.functions).filter
          fun f => !unit.types.any (·.name == f.name))
        unit.functions := by
  rw [resolveProgram_eq]
  dsimp only
  obtain ⟨imports, henv₁, himports⟩ :=
    resolveImports_firstCome registry { file, id, imports := [], scope := { owner := id } } program.imports
  rw [henv₁]
  have hrecords := resolveRecords_firstCome { file, id, imports := [] ++ imports, scope := { owner := id } }
    program.records
  obtain ⟨-, -, -, henv₂, -, -⟩ :=
    resolveRecords_kept { file, id, imports := [] ++ imports, scope := { owner := id } } program.records
  generalize resolveRecords { file, id, imports := [] ++ imports, scope := { owner := id } } program.records
    = typed at *
  have hfunctions := declareFunctions_firstCome typed.1 program.functions
  obtain ⟨-, henv₃, -, hsig, -, -⟩ := declareFunctions_kept typed.1 program.functions
  generalize declareFunctions typed.1 program.functions = declared at *
  have henv : declared.1 = { file, id, imports := imports, scope := declared.1.scope } := by
    rw [henv₃, henv₂]
    simp
  have hunit : ∀ types functions, (CompilationUnit.mk id declared.1.scope declared.1.imports types functions
      (.ofPosition file .start)).env = declared.1 := by
    intro types functions
    rw [henv]
    rfl
  -- when the functions come, the names that are taken are those of the record types
  have htaken : ∀ n, typed.1.scope.contains n = typed.2.1.any (·.name == n) := by
    intro n
    rw [henv₂, Bool.eq_iff_iff, Scope.contains_iff]
    simp [TypeDecl.symbol, Symbol.name, Symbol.base]
  refine ⟨?_, ?_, ?_⟩
  · rw [henv]
    simpa using himports.forall₂
  · simpa [Scope.contains, Scope.lookup] using hrecords.forall₂
  · rw [hunit, List.map_map, List.forall₂_map_right_iff]
    simp only [← htaken]
    refine forall₂_imp_of_mem hfunctions.forall₂ ?_
    rintro f k hk rfl
    exact ⟨k.2, hsig k hk, rfl⟩

/-- The names of the record types and of the functions of a unit, no two of them the same. -/
theorem ResolvesTo.names_nodup {registry : Registry} {program : Surface.Program Value} {unit : CompilationUnit}
    (h : ResolvesTo registry program unit) :
    (unit.types.map TypeDecl.name ++ unit.functions.map FunctionDecl.name).Nodup := by
  have hnames : unit.functions.map FunctionDecl.name = unit.functions.map fun d => (Symbol.function d.symbol).name :=
    List.map_congr_left fun d hd => (Scope.lookup_name (h.lookup_function hd)).symm
  have hdistinct := h.distinct
  rw [Scope.Distinct, h.scope, List.map_append, List.map_map, List.map_map] at hdistinct
  rw [hnames]
  exact hdistinct

theorem Env.Declares.name {env : Env} {f : Surface.Function Value} {d : FunctionDecl} (h : env.Declares f d) :
    d.name = f.name := by
  obtain ⟨decl, hsig, rfl⟩ := h
  exact (Env.signature_name hsig).1

section

variable {unit : CompilationUnit} {fs : List (Surface.Function Value)}

/-- Under the name of a record there is no function. -/
theorem findFunction?_of_record
    (h : List.Forall₂ unit.env.Declares (fs.filter fun f => !unit.types.any (·.name == f.name)) unit.functions)
    {n : Text} (hn : unit.types.any (·.name == n) = true) : unit.findFunction? n = none := by
  refine List.find?_eq_none.mpr fun d hd hname => ?_
  obtain ⟨f, hf, hdecl⟩ := exists_of_mem_right h hd
  have hfree := (List.mem_filter.mp hf).2
  rw [← hdecl.name, beq_iff_eq.mp hname, hn] at hfree
  cases hfree

/-- Under any other name stands what the first function of that name declares. -/
theorem rel_findFunction?
    (h : List.Forall₂ unit.env.Declares (fs.filter fun f => !unit.types.any (·.name == f.name)) unit.functions)
    {n : Text} (hn : unit.types.any (·.name == n) = false) :
    Option.Rel unit.env.Declares (fs.find? (·.name == n)) (unit.findFunction? n) := by
  have hrel := rel_find?_of_forall₂ h (p := (·.name == n)) (q := (·.name == n)) fun hdecl => by rw [hdecl.name]
  have hsame : (fun f : Surface.Function Value =>
      decide ((!unit.types.any (·.name == f.name)) = true ∧ (f.name == n) = true)) = (·.name == n) := by
    funext f
    by_cases hf : f.name = n
    · simp [hf, hn]
    · simp [hf]
  rw [List.find?_filter, hsame] at hrel
  exact hrel

end

/-- Whatever was reported, the scope of a unit lists its record types and then its functions, in the order of the source
and no two with one name; every function is what its name denotes, and no record has the name of a built-in type. The
prefixes of the imports are distinct, and each stands for the module that the registry has under that id. Of the
imports of one prefix the first that can be resolved is kept, of the records of one name the first; and of the functions
of one name that no record has the first of which the whole signature can be resolved. -/
theorem resolveProgram_represents (registry : Registry) (id : ModuleId) (file : Option Text)
    (program : Surface.Program Value) :
    let unit := (resolveProgram registry id file program).1
    unit.scope = ⟨id, unit.types.map (TypeDecl.symbol id) ++ unit.functions.map fun f => .function f.symbol⟩ ∧
      (unit.types.map TypeDecl.name ++ unit.functions.map FunctionDecl.name).Nodup ∧
      (∀ f ∈ unit.functions, unit.scope.lookup f.name = some (.function f.symbol)) ∧
      (∀ t ∈ unit.types, Ty.builtin? t.name = none) ∧
      (unit.imports.map ImportDecl.qualifier).Nodup ∧
      (∀ i ∈ unit.imports, registry.find? i.id = some i.module) ∧
      List.Forall₂ (ImportsAs registry file) (firsts registry.offers Surface.Import.qualifier program.imports)
        unit.imports ∧
      List.Forall₂ (RecordsAs id file) (firsts Surface.Record.isNew Surface.Record.name program.records) unit.types ∧
      List.Forall₂ unit.env.Declares
        ((firsts unit.env.hasSignature Surface.Function.name program.functions).filter
          fun f => !unit.types.any (·.name == f.name))
        unit.functions ∧
      ∀ n, if unit.types.any (·.name == n) then unit.findFunction? n = none
        else Option.Rel unit.env.Declares
          (program.functions.find? fun f => unit.env.hasSignature f && f.name == n) (unit.findFunction? n) := by
  intro unit
  obtain ⟨kept, -, -, -, h, -⟩ := resolveProgram_kept registry id file program
  obtain ⟨himports, htypes, hfunctions⟩ := resolveProgram_firsts registry id file program
  have hid : unit.id = id := resolveProgram_id rfl
  refine ⟨hid ▸ h.scope, h.names_nodup, fun f hf => h.lookup_function hf, ?_, h.prefixes,
    fun i hi => h.import_module hi, himports, htypes, hfunctions, fun n => ?_⟩
  · intro t ht
    obtain ⟨r, -, hnew, rfl⟩ := exists_of_mem_right h.types ht
    exact hnew
  · split
    · next hrecord => exact findFunction?_of_record hfunctions hrecord
    · next hrecord =>
      have hfind := find?_firsts unit.env.hasSignature Surface.Function.name program.functions n
      rw [← hfind]
      exact rel_findFunction? hfunctions (Bool.not_eq_true _ ▸ hrecord)

end Registrar
