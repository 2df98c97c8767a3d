import Registrar.Proofs.Contract
import Registrar.Proofs.Unit.Meaning
import Registrar.Proofs.Unit.Source

/-!
# Printing a unit and resolving it again

A unit that was resolved from text without a problem is printed as text that is read as the program by which the printer
writes the unit. That program is resolved to the same unit, places aside, exactly if two things hold that printing does
not ensure (`resolveProgram_render_iff`): no text literal has a code point that is written by a refused escape, and no
reference is to something of another module, since references are written without a prefix.
-/

namespace Registrar

open Surface (readProgram)

/-! ## Expressions without places -/

namespace Expr

mutual
theorem parts_unplaced : (x : Expr) → x.unplaced.parts = x.parts.map unplaced
  | .literal _ _ _ => by simp [unplaced, parts]
  | .ref _ _ _ _ => by simp [unplaced, parts]
  | .call _ _ args _ _ _ => by simp [unplaced, parts, partsAll_unplaced args]

theorem partsAll_unplaced : (xs : List Expr) → partsAll (unplacedAll xs) = (partsAll xs).map unplaced
  | [] => by simp [unplacedAll, partsAll]
  | x :: xs => by simp [unplacedAll, partsAll, parts_unplaced x, partsAll_unplaced xs]
end

theorem isOwn_unplaced (id : ModuleId) (x : Expr) : x.unplaced.isOwn id = x.isOwn id := by
  cases x <;> simp [unplaced, isOwn]

end Expr

/-- What is written in a function is the same up to places if the function is. -/
theorem FunctionDecl.written_unplaced (d : FunctionDecl) : d.unplaced.written = d.written.map Expr.unplaced := by
  have hstmt : ∀ t : Stmt, t.unplaced.expr? = t.expr?.map Expr.unplaced := by
    rintro (_ | _) <;> rfl
  have hparam : ∀ p : Param, p.unplaced.default = p.default.map Expr.unplaced := fun _ => rfl
  have hexprs : d.unplaced.body.filterMap Stmt.expr? ++
      (d.unplaced.required ++ d.unplaced.defaultable).filterMap Param.default =
      Expr.unplacedAll (d.body.filterMap Stmt.expr? ++ (d.required ++ d.defaultable).filterMap Param.default) := by
    simp [unplaced, Expr.unplacedAll_eq_map, List.filterMap_map, List.map_filterMap, hstmt, hparam]
  rw [written, hexprs, Expr.partsAll_unplaced, written]

theorem FunctionDecl.isOwn_of_unplaced {d d' : FunctionDecl} (h : d'.unplaced = d.unplaced) {id : ModuleId}
    (hown : ∀ y ∈ d'.written, y.isOwn id = true) : ∀ y ∈ d.written, y.isOwn id = true := by
  intro y hy
  have hmem : y.unplaced ∈ d'.written.map Expr.unplaced := by
    rw [← d'.written_unplaced, h, d.written_unplaced]
    exact List.mem_map_of_mem hy
  obtain ⟨z, hz, hzy⟩ := List.mem_map.mp hmem
  rw [← y.isOwn_unplaced, ← hzy, z.isOwn_unplaced]
  exact hown z hz

/-! ## Where names and types keep their meaning -/

namespace Env.Agrees

variable {env env' : Env}

theorem typeName (h : env.Agrees env') {n : Surface.Name} {t : Ty} (ht : (env.typeName n).value = some t) :
    (env'.typeName n).value = some t := by
  cases hq : n.qualifier with
  | none =>
    rw [typeName_plain hq] at ht ⊢
    rwa [← h.scope]
  | some q =>
    obtain ⟨i, s, hi, hs, rfl⟩ := (typeName_qualified hq).mp ht
    have hmodule := h.modules q
    rw [hi, Option.map_some] at hmodule
    obtain ⟨i', hi', hsame⟩ := Option.map_eq_some_iff.mp hmodule.symm
    exact (typeName_qualified hq).mpr ⟨i', s, hi', hsame ▸ hs, rfl⟩

theorem typeExpr (h : env.Agrees env') {te : Surface.TypeExpr} {t : Ty} (ht : (env.typeExpr te).value = some t) :
    (env'.typeExpr te).value = some t := by
  obtain ⟨ts, hts, rfl⟩ := typeExpr_value.mp ht
  exact typeExpr_value.mpr ⟨ts, hts.imp fun _ _ hn => h.typeName hn, rfl⟩

end Env.Agrees

namespace ResolvesTo

variable {registry : Registry} {program : Surface.Program Value} {unit : CompilationUnit}

/-- What a name without a prefix stands for is owned by the unit. -/
theorem owner_of_plain (h : ResolvesTo registry program unit) {params : List Param} {n : Surface.Name}
    {v : ValueSymbol} (hn : unit.env.Names params n v) (hq : n.qualifier = none) :
    v.symbol.base.owner = unit.id := by
  cases hn with
  | parameter => rfl
  | own _ _ hf =>
    obtain ⟨d, hd, rfl⟩ := h.function_of_lookup hf
    obtain ⟨f, -, decl, hsig, -, hsymbol⟩ := h.function_symbol hd
    show d.symbol.owner = unit.id
    rw [hsymbol]
    exact (Env.signature_name hsig).2.2.1
  | imported hq' =>
    rw [hq] at hq'
    simp at hq'

/-- A name that stands for something of the unit has no prefix. -/
theorem plain_of_owner (h : ResolvesTo registry program unit) (howned : registry.Owned)
    (hself : ∀ i ∈ unit.imports, i.id ≠ unit.id) {params : List Param} {n : Surface.Name} {v : ValueSymbol}
    (hn : unit.env.Names params n v) (howner : v.symbol.base.owner = unit.id) : n.qualifier = none := by
  cases hn with
  | parameter hq => exact hq
  | own hq => exact hq
  | @imported q i _ hq hi hv =>
    -- a module owns what it exports, and the unit does not import itself
    have hmem : i ∈ unit.imports := List.mem_of_find?_eq_some hi
    have hmodule := (h.import_owned howned hmem).owner v.symbol (Scope.lookup_mem hv)
    rw [howner, h.import_id hmem] at hmodule
    exact absurd hmodule.symm (hself i hmem)

/-! ## The written program -/

variable {den : Surface.TypeExpr → Ty → Prop} {written : Surface.Program Value}

theorem imports_of_writes (h : ResolvesTo registry program unit) {is : List Surface.Import}
    (hw : List.Forall₂ ImportWrites is unit.imports) (file : Option Text) :
    ∃ imports, List.Forall₂ (ImportsAs registry file) is imports ∧
      imports.map ImportDecl.unplaced = unit.imports.map ImportDecl.unplaced := by
  refine exists_forall₂_map hw fun {s i} hi hsi => ?_
  obtain ⟨hspace, hname, hasName⟩ := hsi
  have hid : (⟨s.space, s.name⟩ : ModuleId) = i.id := by rw [hspace, hname]
  refine ⟨{ i with span := .ofPosition file s.position }, ⟨i.module, ?_, ?_⟩, rfl⟩
  · rw [hid]
    exact h.import_module hi
  · rw [hid, hasName]

theorem types_of_writes (h : ResolvesTo registry program unit) {rs : List Surface.Record}
    (hw : List.Forall₂ RecordWrites rs unit.types) (file : Option Text) :
    ∃ types, List.Forall₂ (RecordsAs unit.id file) rs types ∧
      types.map TypeDecl.unplaced = unit.types.map TypeDecl.unplaced := by
  refine exists_forall₂_map hw fun {r t} ht hrt => ?_
  obtain ⟨r', -, hbuiltin, rfl⟩ := exists_of_mem_right h.types ht
  have hname : r.name = r'.name := hrt
  refine ⟨⟨r.name, .user r.name (some unit.id), .ofPosition file r.position⟩, ⟨hname ▸ hbuiltin, rfl⟩, ?_⟩
  rw [TypeDecl.unplaced, TypeDecl.unplaced, hname]

/-- Imports that differ in places only give every name its meaning. -/
theorem agrees_of_unplaced {imports : List ImportDecl}
    (himports : imports.map ImportDecl.unplaced = unit.imports.map ImportDecl.unplaced) :
    unit.env.Agrees { unit.env with imports } := by
  refine ⟨rfl, rfl, fun q => ?_⟩
  have hfind : ∀ is : List ImportDecl, (is.find? (·.qualifier == q)).map (·.module) =
      ((is.map ImportDecl.unplaced).find? (·.qualifier == q)).map (·.module) := by
    intro is
    rw [List.find?_map, Option.map_map]
    rfl
  show (unit.imports.find? (·.qualifier == q)).map (·.module) = (imports.find? (·.qualifier == q)).map (·.module)
  rw [hfind, hfind imports, himports]

/-- The program by which a unit is written is resolved to the unit, places aside, if every reference is to something
of the unit. -/
theorem of_writes (h : ResolvesTo registry program unit)
    (hwhole : List.Forall₂ unit.env.DeclaresWholly program.functions unit.functions) (howned : registry.Owned)
    (hself : ∀ i ∈ unit.imports, i.id ≠ unit.id)
    (hw : ProgramWrites id (fun te t => (unit.env.typeExpr te).value = some t) written unit)
    (hown : ∀ d ∈ unit.functions, ∀ y ∈ d.written, y.isOwn unit.id = true) :
    ∃ unit', ResolvesTo registry written unit' ∧
      List.Forall₂ unit'.env.DeclaresWholly written.functions unit'.functions ∧
      unit'.id = unit.id ∧ unit'.span = unit.span ∧ unit'.unplaced = unit.unplaced := by
  obtain ⟨imports, his, himports⟩ := h.imports_of_writes hw.imports unit.span.file
  obtain ⟨types, hrs, htypes⟩ := h.types_of_writes hw.records unit.span.file
  have hag := agrees_of_unplaced himports
  obtain ⟨functions, hfs, hfunctions⟩ : ∃ functions,
      List.Forall₂ (Env.DeclaresWholly { unit.env with imports }) written.functions functions ∧
      functions.map FunctionDecl.unplaced = unit.functions.map FunctionDecl.unplaced := by
    refine exists_forall₂_map hw.functions fun {f d} hd hfd => ?_
    obtain ⟨g, -, hg⟩ := exists_of_mem_right hwhole hd
    exact (hg.meaningful h.topLevel).declares hag.typeExpr hag (h.plain_of_owner howned hself) hfd (hown d hd)
  -- prefixes and symbols are what they were
  have hprefixes : imports.map ImportDecl.qualifier = unit.imports.map ImportDecl.qualifier := by
    simpa [Function.comp_def] using congrArg (List.map ImportDecl.qualifier) himports
  have htypeSymbols : types.map (TypeDecl.symbol unit.id) = unit.types.map (TypeDecl.symbol unit.id) := by
    have hsymbols := congrArg (List.map (TypeDecl.symbol unit.id)) htypes
    rw [List.map_map, List.map_map] at hsymbols
    exact hsymbols
  have hfunctionSymbols : (functions.map fun d => Symbol.function d.symbol) =
      unit.functions.map fun d => Symbol.function d.symbol := by
    simpa [Function.comp_def, FunctionDecl.unplaced] using
      congrArg (List.map fun d : FunctionDecl => Symbol.function d.symbol) hfunctions
  refine ⟨{ unit with imports, types, functions }, ⟨his, ?_, hrs, ?_, ?_, h.distinct⟩, hfs, rfl, rfl, ?_⟩
  · rw [hprefixes]
    exact h.prefixes
  · exact hfs.imp fun _ _ hd => hd.declares
  · rw [htypeSymbols, hfunctionSymbols]
    exact h.scope
  · rw [CompilationUnit.unplaced, CompilationUnit.unplaced, himports, htypes, hfunctions]

/-- What is resolved from the program by which a unit is written refers to nothing but its own. -/
theorem isOwn_of_writes (h : ResolvesTo registry written unit) {original : CompilationUnit}
    (hw : ProgramWrites id den written original) :
    ∀ d ∈ unit.functions, ∀ y ∈ d.written, y.isOwn unit.id = true := by
  intro d hd
  obtain ⟨f, hf, decl, hsig, rfl⟩ := exists_of_mem_right h.functions hd
  obtain ⟨d₀, -, hfd⟩ := exists_of_mem_left hw.functions hf
  rw [FunctionDecl.forall_mem_written]
  constructor
  · intro t ht x hx
    -- statements may have been left out, but each that was kept stands for a written one
    obtain ⟨kept, hsub, hmeans⟩ := Env.body_means h.topLevel f decl
    obtain ⟨s, hs, hst⟩ := exists_of_mem_right hmeans ht
    obtain ⟨e, he, hex⟩ := hst.expr_right hx
    obtain ⟨t₀, -, hwrites⟩ := exists_of_mem_left hfd.body (hsub.subset hs)
    obtain ⟨x₀, hx₀⟩ := hwrites.exists_writes he
    exact hx₀.isOwn h.owner_of_plain hex
  · intro p hp x hx
    obtain ⟨e, he, hmeans⟩ := Env.body_defaults h.topLevel hsig p (List.mem_append_left _ hp) x hx
    obtain ⟨p₀, -, -, x₀, -, hx₀⟩ := hfd.default_writes he
    exact hx₀.isOwn h.owner_of_plain hmeans

end ResolvesTo

/-! ## The round trip -/

/-- A unit that was resolved from text without a problem comes back from printing, reading and resolving exactly if
every text literal in it is readable and every reference in it is to something of the unit. -/
theorem resolveProgram_render_iff {registry : Registry} (howned : registry.Owned) {source : Text}
    {program : Surface.Program Value} (hread : readProgram source = .ok program) {id : ModuleId} {file : Option Text}
    {unit : CompilationUnit} (hresolve : resolveProgram registry id file program = (unit, []))
    (hself : ∀ i ∈ unit.imports, i.id ≠ id) :
    (∃ program' unit', readProgram unit.render = .ok program' ∧
        resolveProgram registry id file program' = (unit', []) ∧ unit'.unplaced = unit.unplaced) ↔
      ∀ d ∈ unit.functions, ∀ y ∈ d.written, y.readable = true ∧ y.isOwn id = true := by
  obtain ⟨⟨rfl, hspan⟩, hto, hwhole⟩ := resolveProgram_eq_iff.mp hresolve
  have hwritten := Surface.readProgram_written hread
  have hspelled := hto.spelled howned hself hwritten
  obtain ⟨raws, hparse, hraws⟩ := hspelled.parse_render
  have hwords : ∀ d ∈ unit.functions, ∀ y ∈ d.written, y.spelled = true := fun d hd => (hspelled.functions d hd).written
  constructor
  · -- what comes back was named without prefixes, so it is the unit's own; the unit differs from it in places only
    rintro ⟨program', unit', hread', hresolve', hsame⟩
    obtain ⟨raws', items, hparse', hitems, rfl⟩ := Surface.readProgram_eq_ok.mp hread'
    rw [hparse] at hparse'
    obtain rfl := Except.ok.inj hparse'
    obtain ⟨hparts, hreadable⟩ := read_parts_sound hraws hwords hitems
    obtain ⟨⟨hid, -⟩, hto', -⟩ := resolveProgram_eq_iff.mp hresolve'
    have hown := hto'.isOwn_of_writes (programWrites_ofItems hparts)
    rw [hid] at hown
    intro d hd y hy
    refine ⟨hreadable d hd y hy, ?_⟩
    have hmem : d.unplaced ∈ unit'.functions.map FunctionDecl.unplaced := by
      rw [show unit'.functions.map FunctionDecl.unplaced = unit.functions.map FunctionDecl.unplaced from
        congrArg CompilationUnit.functions hsame]
      exact List.mem_map_of_mem hd
    obtain ⟨d', hd', hdd⟩ := List.mem_map.mp hmem
    exact FunctionDecl.isOwn_of_unplaced hdd (hown d' hd') y hy
  · -- readable literals let the written program be read, own references let it be resolved
    intro hall
    have hkinded : ∀ d ∈ unit.functions, d.Kinded := by
      intro d hd
      obtain ⟨f, -, hf⟩ := exists_of_mem_right hwhole hd
      exact (hf.meaningful hto.topLevel).kinded
    obtain ⟨items, hitems⟩ := read_parts_complete hraws hkinded hwords fun d hd y hy => (hall d hd y hy).1
    obtain ⟨hparts, -⟩ := read_parts_sound hraws hwords hitems
    obtain ⟨unit', hto', hwhole', hid, hspan', hsame⟩ := hto.of_writes hwhole howned hself
      (programWrites_ofItems hparts) fun d hd y hy => (hall d hd y hy).2
    refine ⟨.ofItems items, unit', Surface.readProgram_eq_ok.mpr ⟨raws, items, hparse, hitems, rfl⟩, ?_, hsame⟩
    exact resolveProgram_eq_iff.mpr ⟨⟨hid, hspan'.trans hspan⟩, hto', hwhole'⟩

/-- A text in which an operation of another module is called, with a value as its last argument. -/
def registeringText (value : Text) : Text :=
  ("import ballerinax/awslambda as aws;\n@aws:Function function f(aws:Context|int c, string s = \"\\t\") \x7b" : Text) ++
    (" aws:register(s, " : Text) ++ value ++ ("); \x7d" : Text)

/-- A function of the unit itself comes back as a value, one of another module does not. -/
theorem resolveProgram_render_registering :
    let id : ModuleId := ⟨"demo", "app"⟩
    let registry := Contract.registry {}
    let comesBack (value : Text) (back : Bool) : Prop :=
      ∃ program unit, readProgram (registeringText value) = .ok program ∧
        resolveProgram registry id none program = (unit, []) ∧ (∀ i ∈ unit.imports, i.id ≠ id) ∧
        ((∃ program' unit', readProgram unit.render = .ok program' ∧
          resolveProgram registry id none program' = (unit', []) ∧ unit'.unplaced = unit.unplaced) ↔ back = true)
    comesBack "f" true ∧ comesBack "aws:process" false := by
  intro id registry comesBack
  have howned : registry.Owned := Contract.registry_owned {}
  have hcase : ∀ value back, (match readProgram (registeringText value) with
      | .ok program =>
        let r := resolveProgram registry id none program
        r.2.isEmpty && r.1.imports.all (·.id != id) &&
          (r.1.functions.all (fun d => d.written.all fun y => y.readable && y.isOwn id) == back)
      | .error _ => false) = true → comesBack value back := by
    intro value back hcheck
    cases hread : readProgram (registeringText value) with
    | error e => simp [hread] at hcheck
    | ok program =>
      simp only [hread, Bool.and_eq_true, List.isEmpty_iff, List.all_eq_true, bne_iff_ne, beq_iff_eq] at hcheck
      obtain ⟨⟨hquiet, hself⟩, hback⟩ := hcheck
      refine ⟨program, _, hread, Prod.ext rfl hquiet, hself, ?_⟩
      rw [resolveProgram_render_iff howned hread (Prod.ext rfl hquiet) hself, ← hback]
      simp only [List.all_eq_true, Bool.and_eq_true]
  exact ⟨hcase _ _ (by cbv), hcase _ _ (by cbv)⟩

end Registrar
