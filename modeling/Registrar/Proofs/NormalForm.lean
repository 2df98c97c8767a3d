import Registrar.Proofs.Contract
import Registrar.Proofs.Unit.Meaning
import Registrar.Proofs.Unit.Source

/-!
# Printed text is a normal form

A text that was printed for a unit says the unit again, or something else that is printed by the same text: if it is
read and resolved without a problem, the outcome is printed as it stands (`render_resolveProgram`). The outcome need not
be the unit. A reference is written without its prefix, a parameter whose default has no meaning is written as a
required one, and a type that a unit imports from its own module is written like one that it declares; none of this
changes what is printed the next time.
-/

namespace Registrar

open Surface (readProgram)

/-! ## Expressions and statements -/

section

variable {env : Env} {fits : FunctionSymbol → List Expr → Prop} {params : List Param}

mutual
/-- What the written form of an expression means is printed like the expression. -/
theorem Writes.render_eq : {e : Surface.Expr Value} → {x : Expr} → Writes id e x → {y : Expr} →
    Means env fits params e y → y.render = x.render
  | _, _, .literal, _, .literal => by rw [Expr.render, Expr.render, id]
  | _, _, .ref, _, .ref _ => by rw [Expr.render, Expr.render]
  | _, _, .call hs, _, .call _ hargs _ => by rw [Expr.render, Expr.render, WritesAll.render_eq hs hargs]

theorem WritesAll.render_eq : {es : List (Surface.Expr Value)} → {xs : List Expr} → WritesAll id es xs →
    {ys : List Expr} → MeansAll env fits params es ys → Expr.renderAll ys = Expr.renderAll xs
  | _, _, .nil, _, .nil => rfl
  | _, _, .cons h hs, _, .cons hy hys => by
    rw [Expr.renderAll, Expr.renderAll, Writes.render_eq h hy, WritesAll.render_eq hs hys]
end

theorem StmtWrites.render_eq {s : Surface.Stmt Value} {t t' : Stmt} (h : StmtWrites id s t) {ret : Ty}
    (ht' : StmtMeans env fits params ret s t') : t'.render = t.render := by
  cases h with
  | expr h =>
    cases ht' with
    | expr hy => rw [Stmt.render, Stmt.render, h.render_eq hy]
  | retNone =>
    cases ht'
    rfl
  | ret h =>
    cases ht' with
    | retSome hy => rw [Stmt.render, Stmt.render, h.render_eq hy]

end

/-! ## Types -/

/-- Two types that are printed alike, also as results, where the nil type is left out. -/
structure Ty.PrintedAlike (qs : Qualifiers) (t t' : Ty) : Prop where
  render : t'.render qs = t.render qs
  nil : t' = .nil ↔ t = .nil

theorem Ty.PrintedAlike.refl (qs : Qualifiers) (t : Ty) : Ty.PrintedAlike qs t t := ⟨rfl, Iff.rfl⟩

/-- Unions of types that are printed alike are. -/
theorem Ty.PrintedAlike.unionOf {qs : Qualifiers} {ts ts' : List Ty} (h : List.Forall₂ (Ty.PrintedAlike qs) ts ts') :
    Ty.PrintedAlike qs (.unionOf ts) (.unionOf ts') := by
  have hall : Ty.renderAll qs ts' = Ty.renderAll qs ts := by
    induction h with
    | nil => rfl
    | cons ht _ ih => rw [Ty.renderAll, Ty.renderAll, ht.render, ih]
  cases h with
  | nil => exact .refl qs _
  | cons ht hts =>
    cases hts with
    | nil => exact ht
    | cons ht' hts =>
      refine ⟨?_, by simp [Ty.unionOf]⟩
      rw [Ty.render_unionOf qs (List.cons_ne_nil _ _), Ty.render_unionOf qs (List.cons_ne_nil _ _), hall]

/-- Two imports that are printed alike. -/
def ImportDecl.PrintedAlike (i i' : ImportDecl) : Prop := i'.id = i.id ∧ i'.asName = i.asName

theorem ImportDecl.PrintedAlike.qualifier {i i' : ImportDecl} (h : i.PrintedAlike i') : i'.qualifier = i.qualifier := by
  rw [ImportDecl.qualifier, ImportDecl.qualifier, h.1, h.2]

namespace ResolvesTo

variable {registry : Registry} {program program' : Surface.Program Value} {unit unit' : CompilationUnit}

/-- What is written for a type is printed like the type, whatever it stands for behind the same imports. -/
theorem printedAlike_of_prints (h : ResolvesTo registry program unit) (h' : ResolvesTo registry program' unit')
    (howned : registry.Owned) (hid : unit'.id = unit.id)
    (himports : List.Forall₂ ImportDecl.PrintedAlike unit.imports unit'.imports) {n : Surface.Name} {t t' : Ty}
    (ht : unit.Prints n t) (ht' : (unit'.env.typeName n).value = some t') :
    Ty.PrintedAlike unit.qualifiers t t' := by
  cases ht with
  | builtin hb =>
    rcases h'.typeName_cases howned ht' with ⟨-, hb'⟩ | ⟨-, hnone, -⟩ | ⟨i, -, hq, -⟩
    · obtain rfl := Option.some.inj (hb.symm.trans hb')
      exact .refl _ _
    · simp [hb] at hnone
    · simp at hq
  | @own n p hn =>
    have hrender : (Ty.user n (some unit.id)).render unit.qualifiers = n := by rw [Ty.render, unit.find_own]
    rcases h'.typeName_cases howned ht' with ⟨-, hb⟩ | ⟨-, -, rfl⟩ | ⟨i, -, hq, -⟩
    · -- the record type has the name of a built-in type, which is no name if that is the nil type
      refine ⟨(Ty.render_builtin hb _).trans hrender.symm, ?_⟩
      simp only [reduceCtorEq, iff_false]
      rintro rfl
      obtain rfl : ("()" : Text) = n := Ty.render_builtin hb unit.qualifiers
      exact absurd hn (by decide)
    · rw [hid]
      exact .refl _ _
    · simp at hq
  | @imported n p j hj hne hfind =>
    rcases h'.typeName_cases howned ht' with ⟨hq, -⟩ | ⟨hq, -, -⟩ | ⟨i, hi, hq, rfl⟩
    · simp at hq
    · simp at hq
    · -- the prefix is that of one import only
      obtain ⟨k, hk, hki⟩ := exists_of_mem_right himports hi
      have hkj : k = j := by
        refine List.inj_on_of_nodup_map h.prefixes hk hj ?_
        rw [← hki.qualifier, ← Option.some.inj hq]
      rw [← hkj, hki.1]
      exact .refl _ _

/-- What is written for a type is printed like the type. -/
theorem printedAlike_of_printsType (h : ResolvesTo registry program unit) (h' : ResolvesTo registry program' unit')
    (howned : registry.Owned) (hid : unit'.id = unit.id)
    (himports : List.Forall₂ ImportDecl.PrintedAlike unit.imports unit'.imports) {te : Surface.TypeExpr} {t t' : Ty}
    (ht : unit.PrintsType te t) (ht' : (unit'.env.typeExpr te).value = some t') :
    Ty.PrintedAlike unit.qualifiers t t' := by
  obtain ⟨ts, hts, rfl⟩ := ht
  obtain ⟨ts', hts', rfl⟩ := Env.typeExpr_value.mp ht'
  exact .unionOf (forall₂_join hts hts' fun _ _ hn hn' => h.printedAlike_of_prints h' howned hid himports hn hn')

end ResolvesTo

/-! ## Functions -/

section

variable {env : Env} {qs : Qualifiers} {den : Surface.TypeExpr → Ty → Prop} {f : Surface.Function Value}
  {d decl : FunctionDecl}

section

variable (htypes : ∀ {te t t'}, den te t → (env.typeExpr te).value = some t' → Ty.PrintedAlike qs t t')

include htypes

/-- What is written for a parameter is printed like the parameter, the default aside. -/
theorem ParamWrites.param_render {q : Surface.Param Value} {p p' : Param} (h : ParamWrites id den q p)
    (hp' : (env.param q).value = some p') :
    p'.name = p.name ∧ p'.type.render qs = p.type.render qs ∧ p'.default = none := by
  obtain ⟨t', ht', rfl⟩ := Option.map_eq_some_iff.mp hp'
  cases h with
  | required ht => exact ⟨rfl, (htypes ht ht').render, rfl⟩
  | defaultable ht he => exact ⟨rfl, (htypes ht ht').render, rfl⟩

theorem RestWrites.render_eq {q : Surface.Param Value} {p p' : Param} (h : RestWrites den q p)
    (hp' : (env.param q).value = some p') : p'.renderRest qs = p.renderRest qs := by
  obtain ⟨t', ht', rfl⟩ := Option.map_eq_some_iff.mp hp'
  cases h with
  | mk ht => rw [Param.renderRest, Param.renderRest, (htypes ht ht').render]

theorem ReturnsWrites.printedAlike {r : Option Surface.TypeExpr} {t t' : Ty} (h : ReturnsWrites den r t)
    (ht' : (env.result r).value = some t') : Ty.PrintedAlike qs t t' := by
  cases r with
  | none =>
    obtain rfl := Option.some.inj ht'
    obtain rfl : t = .nil := h
    exact .refl _ _
  | some te => exact htypes h ht'

end

theorem Param.render_congr {p p' : Param} (hname : p'.name = p.name) (htype : p'.type.render qs = p.type.render qs)
    (hdefault : p'.default.map Expr.render = p.default.map Expr.render) : p'.render qs = p.render qs := by
  obtain ⟨n, t, default, span⟩ := p
  obtain ⟨n', t', default', span'⟩ := p'
  obtain rfl : n' = n := hname
  have htype : t'.render qs = t.render qs := htype
  cases default with
  | none =>
    obtain rfl : default' = none := Option.map_eq_none_iff.mp hdefault
    rw [Param.render, Param.render, htype]
  | some x =>
    obtain ⟨y, rfl, hyx⟩ := Option.map_eq_some_iff.mp hdefault
    simp only [Param.render, htype, hyx]

theorem ParamWrites.default_of_required {q : Surface.Param Value} {p : Param} (h : ParamWrites id den q p)
    (hk : q.kind = .required) : p.default = none := by
  cases h with
  | required ht => rfl
  | defaultable ht he => simp at hk

/-- The default that is written for a parameter is printed like its default. -/
theorem FunctionWrites.default_render (hw : FunctionWrites id den f d) (hd : d.DefaultsByName)
    (htop : env.scope.TopLevel) (hsig : (env.signature f).value = some decl) (hquiet : (env.body f decl).2 = [])
    {p p' : Param} (hp : p ∈ d.required ++ d.defaultable) {x : Expr} (hx : p.default = some x)
    (hp' : p' ∈ (env.body f decl).1.defaultable) (hname : p'.name = p.name) :
    ∃ y, p'.default = some y ∧ y.render = x.render := by
  have hmem : p ∈ d.defaultable := by
    refine (List.mem_append.mp hp).resolve_left fun hr => ?_
    rw [hd.required p hr] at hx
    simp at hx
  obtain ⟨e, he, hwrites⟩ := hd.writtenDefault? hw hmem hx
  obtain ⟨e', he', hvalue, hwhole⟩ := Env.body_default hsig hp'
  rw [hname, he] at he'
  obtain rfl := Option.some.inj he'
  obtain ⟨y, hy⟩ := hwhole hquiet
  exact ⟨y, hy, hwrites.render_eq (Env.expr_sound htop e (hvalue.symm.trans hy))⟩

variable (htypes : ∀ {te t t'}, den te t → (env.typeExpr te).value = some t' → Ty.PrintedAlike qs t t')

include htypes

/-- The parameters that are written for those of a function are printed like them. They may be declared by other kinds:
a defaultable parameter without a default is written as a required one. -/
theorem FunctionWrites.renderParams_eq (hw : FunctionWrites id den f d) (hd : d.DefaultsByName)
    (htop : env.scope.TopLevel) (horder : Surface.orderFault? false f.params = none)
    (hsig : (env.signature f).value = some decl) (hquiet : (env.body f decl).2 = []) :
    (env.body f decl).1.renderParams qs = d.renderParams qs := by
  obtain ⟨fixed, rest, hparams, hfixed, hrest⟩ := hw.params
  obtain ⟨rs, ds, rfl, hrs, hds⟩ : ∃ rs ds, fixed = rs ++ ds ∧ (∀ q ∈ rs, q.kind = .required) ∧
      ∀ q ∈ ds, ∃ e, q.kind = .defaultable e := by
    refine Surface.exists_of_orderFault? (forall_mem_of_forall₂ hfixed fun _ hq => ?_) (hparams ▸ horder)
    cases hq <;> simp
  obtain ⟨hrequired, hdefaultable, rests, hrests, hlast⟩ := Env.signature_kinds hsig hparams hrs hds
    (forall_mem_of_forall₂ hrest fun _ hq => by cases hq; rfl)
  obtain ⟨prs, pds, hsplit, hprs, hpds⟩ := exists_of_forall₂_append hfixed
  have hall : ∀ p ∈ prs ++ pds, p ∈ d.required ++ d.defaultable := fun p hp => hsplit ▸ hp
  have hrequired' : decl.required.map (Param.render qs) = prs.map (Param.render qs) := by
    have hkinds := forall₂_imp_of_mem hprs.flip fun hq hqp => And.intro hqp (hrs _ hq)
    refine map_eq_map_iff_forall₂.mpr (forall₂_join hrequired hkinds.flip fun _ _ hp' hqp => ?_)
    obtain ⟨hname, htype, hnone⟩ := hqp.1.param_render htypes hp'
    exact Param.render_congr hname htype (by rw [hnone, hqp.1.default_of_required hqp.2])
  have hdefaultable' : (env.body f decl).1.defaultable.map (Param.render qs) = pds.map (Param.render qs) := by
    have hkinds := forall₂_imp_of_mem hpds.flip fun hq hqp => And.intro hqp (hds _ hq)
    simp only [Env.body, List.map_map]
    refine map_eq_map_iff_forall₂.mpr (forall₂_join hdefaultable hkinds.flip fun {q p' p} hmem' hmem hp' hqp => ?_)
    obtain ⟨hqp, e, he⟩ := hqp
    obtain ⟨hname, htype, -⟩ := hqp.param_render htypes hp'
    obtain ⟨-, x, hx, -⟩ := hqp.default_of_kind he
    obtain ⟨y, hy, hyx⟩ := hw.default_render hd htop hsig hquiet (hall p (List.mem_append_right prs hmem)) hx
      (List.mem_map_of_mem (List.mem_map_of_mem hmem')) ((env.withDefault_name f p').trans hname)
    show (env.withDefault f p').1.render qs = p.render qs
    refine Param.render_congr ((env.withDefault_name f p').trans hname) ?_ ?_
    · rw [env.withDefault_type, htype]
    · rw [hy, hx, Option.map_some, Option.map_some, hyx]
  have hrest' : decl.rest.toList.map (Param.renderRest qs) = d.rest.toList.map (Param.renderRest qs) := by
    have hlen : rests.length ≤ 1 := by
      rw [← hrests.length_eq, hrest.length_eq]
      cases d.rest <;> simp
    have hone : rests.getLast?.toList = rests := by
      rcases rests with _ | ⟨p, _ | ⟨p', ps⟩⟩
      · rfl
      · rfl
      · simp at hlen
    rw [hlast, hone]
    exact map_eq_map_iff_forall₂.mpr (forall₂_join hrests hrest fun _ _ hp' hqp => hqp.render_eq htypes hp')
  show (decl.required ++ (env.body f decl).1.defaultable).map (Param.render qs) ++
    decl.rest.toList.map (Param.renderRest qs) = _
  rw [FunctionDecl.renderParams, hsplit, List.map_append, List.map_append, hrequired', hdefaultable', hrest']

omit htypes in
theorem FunctionDecl.render_congr {d d' : FunctionDecl}
    (hmarkers : d'.markers.map Marker.render = d.markers.map Marker.render) (hhead : d'.renderHead qs = d.renderHead qs)
    (hbody : d'.body.map Stmt.render = d.body.map Stmt.render) : d'.render qs = d.render qs := by
  have hlines := congrArg (List.map fun t : Text => ("    " ++ t : Text)) hbody
  simp only [List.map_map, Function.comp_def] at hlines
  rw [FunctionDecl.render, FunctionDecl.render, hmarkers, hhead, hlines]

/-- The function that is written for one is printed like it. -/
theorem FunctionWrites.render_eq (hw : FunctionWrites id den f d) (hd : d.DefaultsByName) (htop : env.scope.TopLevel)
    (horder : Surface.orderFault? false f.params = none) {d' : FunctionDecl} (h : env.DeclaresWholly f d') :
    d'.render qs = d.render qs := by
  obtain ⟨decl, hsig, hbody⟩ := h
  obtain ⟨rfl, hquiet⟩ := Prod.mk.inj hbody
  have hparams := hw.renderParams_eq htypes hd htop horder hsig hquiet
  obtain ⟨markers, ks, ret, hmarkers, -, hret, hdecl⟩ := Env.signature_value.mp hsig
  have hname : (env.body f decl).1.name = d.name := (Env.signature_name hsig).1.trans hw.name
  have hpublic : (env.body f decl).1.isPublic = d.isPublic := (congrArg FunctionDecl.isPublic hdecl).trans hw.isPublic
  have hreturns : Ty.PrintedAlike qs d.returnType (env.body f decl).1.returnType :=
    hw.returns.printedAlike htypes (hret.trans (congrArg (some ∘ FunctionDecl.returnType) hdecl.symm))
  have hmarkers' : (env.body f decl).1.markers.map Marker.render = d.markers.map Marker.render := by
    rw [show (env.body f decl).1.markers = markers from congrArg FunctionDecl.markers hdecl]
    refine map_eq_map_iff_forall₂.mpr (forall₂_join hmarkers hw.tags fun _ _ hm hwm => ?_)
    obtain ⟨q, i, s, hq, -, -, rfl⟩ := Env.marker_value.mp hm
    rw [Marker.render, Marker.render, ← hwm.1, ← hwm.2, hq]
  have hstmts : (env.body f decl).1.body.map Stmt.render = d.body.map Stmt.render :=
    map_eq_map_iff_forall₂.mpr (forall₂_join (Env.body_whole hquiet) hw.body fun _ _ ht hwt =>
      hwt.render_eq (Env.stmt_sound htop ht))
  have hhead : (env.body f decl).1.renderHead qs = d.renderHead qs := by
    simp only [FunctionDecl.renderHead, hname, hpublic, hparams, hreturns.render, hreturns.nil]
  exact FunctionDecl.render_congr hmarkers' hhead hstmts

/-! ## Units -/

end

namespace ResolvesTo

variable {registry : Registry} {program written : Surface.Program Value} {unit unit' : CompilationUnit}

/-- The imports that are written for those of a unit are printed like them. -/
theorem imports_printedAlike (h' : ResolvesTo registry written unit')
    (hw : List.Forall₂ ImportWrites written.imports unit.imports) :
    List.Forall₂ ImportDecl.PrintedAlike unit.imports unit'.imports := by
  refine forall₂_join hw h'.imports fun _ _ hwi hi => ?_
  obtain ⟨m, -, rfl⟩ := hi
  obtain ⟨hspace, hname, hasName⟩ := hwi
  exact ⟨by rw [hspace, hname], hasName⟩

/-- The unit that is written for one is printed like it. -/
theorem render_of_writes (h : ResolvesTo registry program unit) (howned : registry.Owned)
    (hw : ProgramWrites id unit.PrintsType written unit)
    (horder : ∀ f ∈ written.functions, Surface.orderFault? false f.params = none)
    (h' : ResolvesTo registry written unit')
    (hwhole : List.Forall₂ unit'.env.DeclaresWholly written.functions unit'.functions) (hid : unit'.id = unit.id) :
    unit'.render = unit.render := by
  have himports := h'.imports_printedAlike hw.imports
  have hqualifiers : unit'.qualifiers = unit.qualifiers := by
    have hprefixes : (unit.imports.map fun i => (i.id, some i.qualifier)) =
        unit'.imports.map fun i => (i.id, some i.qualifier) :=
      map_eq_of_forall₂ himports fun _ hi => by rw [hi.1, hi.qualifier]
    rw [CompilationUnit.qualifiers, CompilationUnit.qualifiers, hid, hprefixes]
  have himports' : unit'.imports.map ImportDecl.render = unit.imports.map ImportDecl.render :=
    (map_eq_of_forall₂ himports fun _ hi => by rw [ImportDecl.render, ImportDecl.render, hi.1, hi.2]).symm
  have htypes : unit'.types.map TypeDecl.render = unit.types.map TypeDecl.render := by
    refine map_eq_map_iff_forall₂.mpr (forall₂_join h'.types hw.records fun {r t' t} _ _ ht hwt => ?_)
    obtain ⟨-, rfl⟩ := ht
    have hname : r.name = t.name := hwt
    rw [TypeDecl.render, TypeDecl.render, hname]
  have hfunctions : unit'.functions.map (FunctionDecl.render unit.qualifiers) =
      unit.functions.map (FunctionDecl.render unit.qualifiers) := by
    have horders := forall₂_imp_of_mem hw.functions.flip fun hf hwf => And.intro hwf (horder _ hf)
    refine map_eq_map_iff_forall₂.mpr (forall₂_join hwhole horders.flip fun {f d' d} _ hd hf hwf => ?_)
    obtain ⟨g, -, hg⟩ := exists_of_mem_right h.functions hd
    exact hwf.1.render_eq (h.printedAlike_of_printsType h' howned hid himports) hg.defaultsByName h'.topLevel hwf.2 hf
  rw [CompilationUnit.render, CompilationUnit.render, hqualifiers, himports', htypes, hfunctions]

end ResolvesTo

/-! ## Rounds -/

/-- The text that is printed for what a text says, if that is resolved without a problem. -/
def reprint (registry : Registry) (id : ModuleId) (file : Option Text) (source : Text) : Option Text :=
  match readProgram source with
  | .error _ => none
  | .ok program =>
    let resolved := resolveProgram registry id file program
    if resolved.2.isEmpty then some resolved.1.render else none

theorem reprint_eq_some {registry : Registry} {id : ModuleId} {file : Option Text} {source text : Text} :
    reprint registry id file source = some text ↔ ∃ program unit, readProgram source = .ok program ∧
      resolveProgram registry id file program = (unit, []) ∧ unit.render = text := by
  rw [reprint]
  cases readProgram source with
  | error fault => simp
  | ok program =>
    simp only [List.isEmpty_iff, Option.ite_none_right_eq_some, Option.some.injEq, Except.ok.injEq, exists_eq_left',
      exists_and_left]
    constructor
    · rintro ⟨hquiet, htext⟩
      exact ⟨_, Prod.ext rfl hquiet, htext⟩
    · rintro ⟨unit, hresolve, htext⟩
      rw [hresolve]
      exact ⟨rfl, htext⟩

/-- A printed text that is read and resolved without a problem is printed as it stands, and so it is however often this
is done again. The unit that was printed first may have been resolved with problems. -/
theorem render_resolveProgram {registry : Registry} (howned : registry.Owned) {source : Text}
    {program : Surface.Program Value} (hread : readProgram source = .ok program) {id : ModuleId} {file : Option Text}
    {unit : CompilationUnit} {problems : List Diagnostic}
    (hresolve : resolveProgram registry id file program = (unit, problems)) {program' : Surface.Program Value}
    (hread' : readProgram unit.render = .ok program') {file' : Option Text} {unit' : CompilationUnit}
    (hresolve' : resolveProgram registry id file' program' = (unit', [])) :
    unit'.render = unit.render ∧
      ∀ rounds, (Option.bind · (reprint registry id file'))^[rounds] (some unit.render) = some unit.render := by
  obtain ⟨kept, himports, hrecords, hfunctions, hto, -⟩ := resolveProgram_kept registry id file program
  rw [hresolve] at hto
  obtain rfl := resolveProgram_id hresolve
  have hwritten := (Surface.readProgram_written hread).of_sublists himports hrecords hfunctions
  have hspelled : unit.Spelled unit.PrintsType := (hto.spelled_prints howned hwritten).imp fun hden => hden.1
  -- the printed text is read as the program by which the unit is written
  obtain ⟨raws, hparse, hraws⟩ := hspelled.parse_render
  obtain ⟨raws', items, hparse', hitems, rfl⟩ := Surface.readProgram_eq_ok.mp hread'
  rw [hparse] at hparse'
  obtain rfl := Except.ok.inj hparse'
  obtain ⟨hparts, -⟩ := read_parts_sound hraws (fun d hd => (hspelled.functions d hd).written) hitems
  obtain ⟨hto', hwhole⟩ := resolveProgram_whole hresolve'
  have horder := fun f hf => ((Surface.readProgram_written hread').functions f hf).order
  have hsame : unit'.render = unit.render :=
    hto.render_of_writes howned (programWrites_ofItems hparts) horder hto' hwhole (resolveProgram_id hresolve')
  refine ⟨hsame, fun rounds => Function.iterate_fixed ?_ rounds⟩
  exact reprint_eq_some.mpr ⟨_, unit', hread', hresolve', hsame⟩

/-- A text with two imports of one module, a number with leading zeros, and a default and a call that mean nothing. -/
def unsettledText : Text :=
  ("import ballerinax/awslambda as a; import ballerinax/awslambda as b;" : Text) ++
    ("function f(a:Context c, int m = k, int n = 07) \x7b g(); b:register(\"\", f); \x7d" : Text)

/-- What is printed for it. -/
def settledText : Text :=
  ("import ballerinax/awslambda as a;\n\nimport ballerinax/awslambda as b;\n\n" : Text) ++
    ("function f(b:Context c, int m, int n = 7) \x7b\n    b:register(\"\", f);\n\x7d\n" : Text)

/-- Two problems are reported for the text, and none for what is printed, which stays. -/
theorem render_resolveProgram_unsettled :
    let id : ModuleId := ⟨"demo", "app"⟩
    let registry := Contract.registry {}
    ∃ program unit problems program' unit', readProgram unsettledText = .ok program ∧
      resolveProgram registry id none program = (unit, problems) ∧ problems.length = 2 ∧ unit.render = settledText ∧
      readProgram unit.render = .ok program' ∧ resolveProgram registry id none program' = (unit', []) ∧
      unit'.render = unit.render ∧
      ∀ rounds, (Option.bind · (reprint registry id none))^[rounds] (some unit.render) = some unit.render := by
  intro id registry
  have hfirst : (readProgram unsettledText).map (fun program =>
      let r := resolveProgram registry id none program
      (r.2.length, r.1.render)) = .ok (2, settledText) := by
    cbv
  have hsecond : (readProgram settledText).map (fun program =>
      (resolveProgram registry id none program).2) = .ok [] := by
    cbv
  obtain ⟨program, hread, hprinted⟩ := map_eq_ok.mp hfirst
  obtain ⟨hproblems, hrender⟩ := Prod.mk.inj hprinted
  obtain ⟨program', hread', hquiet⟩ := map_eq_ok.mp hsecond
  rw [← hrender] at hread'
  have hresolve' : resolveProgram registry id none program' = (_, []) := Prod.ext rfl hquiet
  exact ⟨program, _, _, program', _, hread, rfl, hproblems, hrender, hread', hresolve',
    render_resolveProgram (Contract.registry_owned {}) hread rfl hread' hresolve'⟩

end Registrar
