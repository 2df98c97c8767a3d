import Registrar.Proofs.Resolve.Completeness
import Registrar.Proofs.Resolve.Soundness
import Registrar.Proofs.Unit.ReadBack

/-!
# What is written means what it was written for

A tree by which the printer writes an expression has that expression as its meaning, provided that every reference is to
something of the unit itself: references are written without a prefix. Conversely, what is resolved from a written tree
refers to nothing but what the unit owns. With the signatures this gives the functions of a unit back
(`FunctionDecl.MeaningfulIn.declares`).
-/

namespace Registrar

/-! ## Expressions -/

/-- Whether the reference that stands here, if there is one, is to something that a module owns. -/
def Expr.isOwn (id : ModuleId) : Expr → Bool
  | .ref _ s _ _ => s.base.owner == id
  | _ => true

/-- Where a name stands plays no role for what it names. -/
theorem Env.Names.of_same {env : Env} {params : List Param} {n m : Surface.Name} {v : ValueSymbol}
    (h : env.Names params n v) (hq : m.qualifier = n.qualifier) (hi : m.ident = n.ident) : env.Names params m v := by
  cases h with
  | parameter hn hp => exact .parameter (hq.trans hn) (hi ▸ hp)
  | own hn hp hf => exact .own (hq.trans hn) (hi ▸ hp) (hi ▸ hf)
  | imported hn hp hv => exact .imported (hq.trans hn) hp (hi ▸ hv)

section

variable {env env' : Env} {fits : FunctionSymbol → List Expr → Prop} {params params' : List Param} {id' : ModuleId}

mutual
/-- What the printer writes for a meaning has that meaning, if all references are to what the unit owns. -/
theorem Means.of_writes (hnames : ∀ {n v}, env.Names params n v → env'.Names params' n v)
    (hplain : ∀ {n v}, env.Names params n v → v.symbol.base.owner = id' → n.qualifier = none) :
    {e : Surface.Expr Value} → {x : Expr} → Means env fits params e x → {v : Surface.Expr Value} → Writes id v x →
    (∀ y ∈ x.parts, y.isOwn id' = true) → Means env' fits params' v x
  | _, _, .literal, _, .literal, _ => .literal
  | _, _, .ref hn, _, .ref, hown => by
    rw [Expr.parts, List.forall_mem_singleton] at hown
    -- the prefix is dropped by the printer, and there was none
    exact .ref (hnames (hn.of_same (hplain hn (by simpa [Expr.isOwn] using hown)).symm rfl))
  | _, _, .call hn hargs hfits, _, .call hs, hown => by
    rw [Expr.parts, List.forall_mem_cons] at hown
    exact .call (hnames (hn.of_same rfl rfl)) (MeansAll.of_writes hnames hplain hargs hs hown.2) hfits

theorem MeansAll.of_writes (hnames : ∀ {n v}, env.Names params n v → env'.Names params' n v)
    (hplain : ∀ {n v}, env.Names params n v → v.symbol.base.owner = id' → n.qualifier = none) :
    {es : List (Surface.Expr Value)} → {xs : List Expr} → MeansAll env fits params es xs →
    {vs : List (Surface.Expr Value)} → WritesAll id vs xs → (∀ y ∈ Expr.partsAll xs, y.isOwn id' = true) →
    MeansAll env' fits params' vs xs
  | _, _, .nil, _, .nil, _ => .nil
  | _, _, .cons h hs, _, .cons hw hws, hown => by
    rw [Expr.partsAll, List.forall_mem_append] at hown
    exact .cons (Means.of_writes hnames hplain h hw hown.1) (MeansAll.of_writes hnames hplain hs hws hown.2)
end

mutual
/-- What is resolved from a written expression refers to nothing but what the unit owns. -/
theorem Writes.isOwn (hown : ∀ {n v}, env.Names params n v → n.qualifier = none → v.symbol.base.owner = id') :
    {e : Surface.Expr Value} → {x : Expr} → Writes id e x → {y : Expr} → Means env fits params e y →
    ∀ z ∈ y.parts, z.isOwn id' = true
  | _, _, .literal, _, .literal => by
    rw [Expr.parts, List.forall_mem_singleton]
    rfl
  | _, _, .ref, _, .ref hn => by
    rw [Expr.parts, List.forall_mem_singleton, Expr.isOwn, beq_iff_eq]
    exact hown hn rfl
  | _, _, .call hs, _, .call _ hargs _ => by
    rw [Expr.parts, List.forall_mem_cons]
    exact ⟨rfl, WritesAll.isOwn hown hs hargs⟩

theorem WritesAll.isOwn (hown : ∀ {n v}, env.Names params n v → n.qualifier = none → v.symbol.base.owner = id') :
    {es : List (Surface.Expr Value)} → {xs : List Expr} → WritesAll id es xs → {ys : List Expr} →
    MeansAll env fits params es ys → ∀ z ∈ Expr.partsAll ys, z.isOwn id' = true
  | _, _, .nil, _, .nil => by simp [Expr.partsAll]
  | _, _, .cons h hs, _, .cons hy hys => by
    rw [Expr.partsAll, List.forall_mem_append]
    exact ⟨Writes.isOwn hown h hy, WritesAll.isOwn hown hs hys⟩
end

theorem StmtWrites.exists_writes {s : Surface.Stmt Value} {t : Stmt} (h : StmtWrites id s t) {e : Surface.Expr Value}
    (he : s.expr? = some e) : ∃ x, Writes id e x := by
  cases h with
  | expr h => exact ⟨_, Option.some.inj he ▸ h⟩
  | retNone => simp [Surface.Stmt.expr?] at he
  | ret h => exact ⟨_, Option.some.inj he ▸ h⟩

theorem StmtMeans.of_writes (hnames : ∀ {n v}, env.Names params n v → env'.Names params' n v)
    (hplain : ∀ {n v}, env.Names params n v → v.symbol.base.owner = id' → n.qualifier = none) {ret : Ty}
    {s : Surface.Stmt Value} {t : Stmt} (h : StmtMeans env fits params ret s t) {v : Surface.Stmt Value}
    (hw : StmtWrites id v t) (hown : ∀ x, t.expr? = some x → ∀ y ∈ x.parts, y.isOwn id' = true) :
    StmtMeans env' fits params' ret v t := by
  cases h with
  | expr h =>
    cases hw with
    | expr hw => exact .expr (h.of_writes hnames hplain hw (hown _ rfl))
  | retNone hr =>
    cases hw
    exact .retNone hr
  | retSome h hr =>
    cases hw with
    | ret hw => exact .retSome (h.of_writes hnames hplain hw (hown _ rfl)) hr

end

/-! ## Functions -/

/-- A function whose required parameters have no defaults and whose defaultable ones of one name have one default, or
none. -/
structure FunctionDecl.DefaultsByName (d : FunctionDecl) : Prop where
  required : ∀ p ∈ d.required, p.default = none
  defaults : ∀ p ∈ d.defaultable, ∀ p' ∈ d.defaultable, p.name = p'.name → p.default = p'.default

/-- A function all whose parts have a meaning. -/
structure FunctionDecl.MeaningfulIn (env : Env) (d : FunctionDecl) : Prop extends d.DefaultsByName where
  symbol : d.symbol = d.signatureSymbol env.id
  markers : ∀ m ∈ d.markers, ∃ q i, m.qualifier = some q ∧ env.imports.find? (·.qualifier == q) = some i ∧
    i.module.exports.lookup m.tag = some (.tag m.symbol)
  rest : ∀ p ∈ d.rest, p.default = none
  defaultable : ∀ p ∈ d.defaultable, ∃ e x, p.default = some x ∧ Means env FunctionSymbol.Accepts [] e x
  body : ∀ t ∈ d.body, ∃ s, StmtMeans env FunctionSymbol.Accepts d.params d.returnType s t

theorem FunctionDecl.MeaningfulIn.kinded {env : Env} {d : FunctionDecl} (h : d.MeaningfulIn env) : d.Kinded := by
  refine ⟨h.required, fun p hp => ?_⟩
  obtain ⟨e, x, hx, -⟩ := h.defaultable p hp
  exact ⟨x, hx⟩

namespace Env

variable {env env' : Env} {f : Surface.Function Value} {d decl : FunctionDecl}

theorem signature_symbol (h : (env.signature f).value = some decl) : decl.symbol = decl.signatureSymbol env.id := by
  obtain ⟨markers, params, ret, -, -, -, rfl⟩ := signature_value.mp h
  rfl

/-- A default is written for each defaultable parameter of a signature. -/
theorem signature_defaultable (h : (env.signature f).value = some decl) {p : Param} (hp : p ∈ decl.defaultable) :
    ∃ e, writtenDefault? f.params p.name = some e := by
  obtain ⟨markers, params, ret, -, hparams, -, rfl⟩ := signature_value.mp h
  obtain ⟨k, hk, hkind⟩ := List.mem_filterMap.mp hp
  obtain ⟨q, hq, hvalue⟩ := exists_of_mem_right hparams hk
  obtain ⟨t, -, rfl⟩ := kindedParam_value.mp hvalue
  split at hkind
  · next e r heq =>
    obtain ⟨hqkind, rfl⟩ := Prod.mk.inj heq
    obtain rfl := Option.some.inj hkind
    exact exists_writtenDefault? hq hqkind
  · simp at hkind

/-- A defaultable parameter gets the meaning of what is written for its name, if that has one. -/
theorem body_default (hsig : (env.signature f).value = some decl) {p : Param}
    (hp : p ∈ (env.body f decl).1.defaultable) :
    ∃ e, writtenDefault? f.params p.name = some e ∧ p.default = (env.expr [] e).value ∧
      ((env.body f decl).2 = [] → ∃ x, p.default = some x) := by
  obtain ⟨k, hk, rfl⟩ := List.mem_map.mp hp
  obtain ⟨q, hq, rfl⟩ := List.mem_map.mp hk
  obtain ⟨e, he⟩ := signature_defaultable hsig hq
  rw [withDefault_name]
  refine ⟨e, he, by rw [withDefault_eq he], fun hquiet => ?_⟩
  simp only [body, List.append_eq_nil_iff, List.flatMap_eq_nil_iff, List.forall_mem_map] at hquiet
  have hquiet := hquiet.1 q hq
  rw [withDefault_eq he] at hquiet ⊢
  exact (env.settled_expr [] e).exists_value hquiet

/-- The default of a parameter is a matter of its kind and its name. -/
theorem Declares.defaultsByName (h : env.Declares f d) : d.DefaultsByName := by
  obtain ⟨decl, hsig, rfl⟩ := h
  have hdefault := signature_default hsig
  simp only [FunctionDecl.params, List.forall_mem_append] at hdefault
  refine ⟨hdefault.1.1, fun p hp p' hp' hname => ?_⟩
  obtain ⟨e, he, hvalue, -⟩ := body_default hsig hp
  obtain ⟨e', he', hvalue', -⟩ := body_default hsig hp'
  rw [hname, he'] at he
  obtain rfl := Option.some.inj he
  rw [hvalue, hvalue']

/-- A function about which nothing was reported is meaningful. -/
theorem DeclaresWholly.meaningful (htop : env.scope.TopLevel) (h : env.DeclaresWholly f d) : d.MeaningfulIn env := by
  have hdefaults := h.declares.defaultsByName
  obtain ⟨decl, hsig, hbody⟩ := h
  obtain ⟨rfl, hnone⟩ := Prod.mk.inj hbody
  have hdefault := signature_default hsig
  simp only [FunctionDecl.params, List.forall_mem_append, Option.mem_toList] at hdefault
  refine ⟨hdefaults, ?_, fun m hm => signature_marker hsig hm, hdefault.2, fun p hp => ?_, fun t ht => ?_⟩
  · show decl.symbol = _
    rw [signature_symbol hsig, FunctionDecl.signatureSymbol, FunctionDecl.signatureSymbol]
    simp [FunctionDecl.params, functionType]
  · obtain ⟨e, -, hvalue, hwhole⟩ := body_default hsig hp
    obtain ⟨x, hx⟩ := hwhole hnone
    exact ⟨e, x, hx, expr_sound htop e (hvalue.symm.trans hx)⟩
  · obtain ⟨s, -, hs⟩ := exists_of_mem_right (body_whole hnone) ht
    refine ⟨s, (stmt_sound htop hs).transfer (fun hn => ?_) fun _ hacc => hacc⟩
    exact hn.congr ⟨rfl, rfl, fun _ => rfl⟩ (body_bindings env f decl).symm

/-! ## Signatures -/

/-- Parameters that stand in the order of their kinds are declared by kind. -/
theorem declaration_kinds (env : Env) (f : Surface.Function Value) (markers : List Marker) (ret : Ty)
    {rs ds rests : List (Surface.ParamKind Value × Param)} (hrs : ∀ k ∈ rs, k.1 = .required)
    (hds : ∀ k ∈ ds, ∃ e, k.1 = .defaultable e) (hrests : ∀ k ∈ rests, k.1 = .rest) :
    (env.declaration f markers (rs ++ ds ++ rests) ret).required = rs.map Prod.snd ∧
      (env.declaration f markers (rs ++ ds ++ rests) ret).defaultable = ds.map Prod.snd ∧
      (env.declaration f markers (rs ++ ds ++ rests) ret).rest = (rests.map Prod.snd).getLast? := by
  obtain ⟨rs, rfl⟩ : ∃ ps : List Param, rs = ps.map (.required, ·) :=
    exists_eq_map fun k hk => ⟨k.2, Prod.ext (hrs k hk) rfl⟩
  obtain ⟨rests, rfl⟩ : ∃ ps : List Param, rests = ps.map (.rest, ·) :=
    exists_eq_map fun k hk => ⟨k.2, Prod.ext (hrests k hk) rfl⟩
  obtain ⟨ds, rfl⟩ : ∃ ps : List (Surface.Expr Value × Param), ds = ps.map fun k => (.defaultable k.1, k.2) := by
    refine exists_eq_map fun k hk => ?_
    obtain ⟨e, he⟩ := hds k hk
    exact ⟨(e, k.2), Prod.ext he rfl⟩
  simp [declaration, List.filterMap_map]

/-- The signature of a function whose parameters stand in the order of their kinds. -/
theorem signature_kinds (h : (env.signature f).value = some decl) {rs ds rests : List (Surface.Param Value)}
    (hparams : f.params = rs ++ ds ++ rests) (hrs : ∀ q ∈ rs, q.kind = .required)
    (hds : ∀ q ∈ ds, ∃ e, q.kind = .defaultable e) (hrests : ∀ q ∈ rests, q.kind = .rest) :
    List.Forall₂ (fun q p => (env.param q).value = some p) rs decl.required ∧
      List.Forall₂ (fun q p => (env.param q).value = some p) ds decl.defaultable ∧
      ∃ ps, List.Forall₂ (fun q p => (env.param q).value = some p) rests ps ∧ decl.rest = ps.getLast? := by
  obtain ⟨markers, ks, ret, -, hks, -, rfl⟩ := signature_value.mp h
  have hkinded : ∀ {q k}, (env.kindedParam q).value = some k → k.1 = q.kind ∧ (env.param q).value = some k.2 := by
    intro q k hk
    obtain ⟨p, hp, rfl⟩ := Option.map_eq_some_iff.mp hk
    exact ⟨rfl, hp⟩
  rw [hparams] at hks
  obtain ⟨_, krests, rfl, hks, hkrests⟩ := exists_of_forall₂_append hks
  obtain ⟨krs, kds, rfl, hkrs, hkds⟩ := exists_of_forall₂_append hks
  obtain ⟨hrequired, hdefaultable, hrest⟩ := env.declaration_kinds f markers ret
    (forall_mem_of_forall₂ hkrs.flip fun hq hk => (hkinded hk).1.trans (hrs _ hq))
    (forall_mem_of_forall₂ hkds.flip fun hq hk => (hkinded hk).1 ▸ hds _ hq)
    (forall_mem_of_forall₂ hkrests.flip fun hq hk => (hkinded hk).1.trans (hrests _ hq))
  rw [hrequired, hdefaultable, hrest]
  refine ⟨?_, ?_, krests.map Prod.snd, ?_, rfl⟩
  all_goals rw [List.forall₂_map_right_iff]
  · exact hkrs.imp fun _ _ hk => (hkinded hk).2
  · exact hkds.imp fun _ _ hk => (hkinded hk).2
  · exact hkrests.imp fun _ _ hk => (hkinded hk).2

/-- The tags by which markers are written stand for these markers. -/
theorem markers_of_writes (hag : env.Agrees env') {tags : List Surface.Tag} {ms : List Marker}
    (hms : ∀ m ∈ ms, ∃ q i, m.qualifier = some q ∧ env.imports.find? (·.qualifier == q) = some i ∧
      i.module.exports.lookup m.tag = some (.tag m.symbol)) (h : List.Forall₂ TagWrites tags ms) :
    ∃ ms', List.Forall₂ (fun t m => (env'.marker t).value = some m) tags ms' ∧
      ms'.map Marker.unplaced = ms.map Marker.unplaced := by
  refine exists_forall₂_map h fun {t m} hm hw => ?_
  obtain ⟨q, i, hq, hi, hs⟩ := hms m hm
  have hmodule := hag.modules q
  rw [hi, Option.map_some] at hmodule
  obtain ⟨i', hi', hsame⟩ := Option.map_eq_some_iff.mp hmodule.symm
  refine ⟨{ m with span := env'.span t.position }, marker_value.mpr ⟨q, i', m.symbol, ?_, hi', ?_, ?_⟩, rfl⟩
  · rw [hw.1, hq]
  · rw [hw.2, hsame, hs]
  · rw [hw.2, ← hq]

end Env

/-! ## Written functions -/

theorem ParamWrites.default_of_kind {L : Type} {lit : Value → L} {den : Surface.TypeExpr → Ty → Prop}
    {q : Surface.Param L} {p : Param} (h : ParamWrites lit den q p) {e : Surface.Expr L}
    (hk : q.kind = .defaultable e) : p.name = q.name ∧ ∃ x, p.default = some x ∧ Writes lit e x := by
  cases h with
  | required ht => simp at hk
  | defaultable ht he =>
    obtain rfl := Surface.ParamKind.defaultable.inj hk
    exact ⟨rfl, _, rfl, he⟩

/-- A default of a written function is written for a default of the function. -/
theorem FunctionWrites.default_writes {den : Surface.TypeExpr → Ty → Prop} {f : Surface.Function Value}
    {d : FunctionDecl} (h : FunctionWrites id den f d) {n : Text} {e : Surface.Expr Value}
    (he : Env.writtenDefault? f.params n = some e) :
    ∃ p ∈ d.required ++ d.defaultable, p.name = n ∧ ∃ x, p.default = some x ∧ Writes id e x := by
  obtain ⟨q, hq, hkind, rfl⟩ := Env.writtenDefault?_mem he
  obtain ⟨fixed, rest, hparams, hfixed, hrest⟩ := h.params
  rw [hparams] at hq
  rcases List.mem_append.mp hq with hq | hq
  · obtain ⟨p, hp, hw⟩ := exists_of_mem_left hfixed hq
    obtain ⟨hname, hx⟩ := hw.default_of_kind hkind
    exact ⟨p, hp, hname, hx⟩
  · obtain ⟨p, -, hw⟩ := exists_of_mem_left hrest hq
    cases hw
    simp at hkind

/-- What is written for the name of a defaultable parameter is written for its default. -/
theorem FunctionDecl.DefaultsByName.writtenDefault? {den : Surface.TypeExpr → Ty → Prop} {f : Surface.Function Value}
    {d : FunctionDecl} (h : d.DefaultsByName) (hw : FunctionWrites id den f d) {p : Param} (hp : p ∈ d.defaultable)
    {x : Expr} (hx : p.default = some x) :
    ∃ e, Env.writtenDefault? f.params p.name = some e ∧ Writes id e x := by
  obtain ⟨e, he⟩ : ∃ e, Env.writtenDefault? f.params p.name = some e := by
    obtain ⟨fixed, rest, hparams, hfixed, -⟩ := hw.params
    obtain ⟨q, hq, hqp⟩ := exists_of_mem_right hfixed (List.mem_append_right d.required hp)
    obtain ⟨e, hkind, -⟩ := hqp.kind_defaultable hx
    rw [(hqp.default_of_kind hkind).1, hparams]
    exact Env.exists_writtenDefault? (List.mem_append_left rest hq) hkind
  -- of several parameters of this name another one may be meant, but their defaults are the same
  obtain ⟨p', hp', hname, x', hx', hwrites⟩ := hw.default_writes he
  refine ⟨e, he, ?_⟩
  rcases List.mem_append.mp hp' with hp' | hp'
  · rw [h.required p' hp'] at hx'
    simp at hx'
  · rw [h.defaults p' hp' p hp hname, hx] at hx'
    obtain rfl := Option.some.inj hx'
    exact hwrites

namespace FunctionDecl.MeaningfulIn

variable {env env' : Env} {f : Surface.Function Value} {d : FunctionDecl} {den : Surface.TypeExpr → Ty → Prop}
  (htypes : ∀ {te t}, den te t → (env'.typeExpr te).value = some t)

include htypes

/-- The parameters by which those of a function are written stand for them, the defaults aside. -/
theorem params_of_writes (h : d.MeaningfulIn env) {fixed rest : List (Surface.Param Value)}
    (hfixed : List.Forall₂ (ParamWrites id den) fixed (d.required ++ d.defaultable))
    (hrest : List.Forall₂ (RestWrites den) rest d.rest.toList) :
    ∃ rs ds rests : List (Surface.ParamKind Value × Param),
      List.Forall₂ (fun q k => (env'.kindedParam q).value = some k) (fixed ++ rest) (rs ++ ds ++ rests) ∧
      List.Forall₂ (fun k p => k.1 = .required ∧ k.2.unplaced = p.unplaced) rs d.required ∧
      List.Forall₂ (fun k p => (∃ e, k.1 = .defaultable e) ∧ k.2.name = p.name ∧ k.2.type = p.type) ds d.defaultable ∧
      List.Forall₂ (fun k p => k.1 = .rest ∧ k.2.unplaced = p.unplaced) rests d.rest.toList := by
  obtain ⟨fr, fd, rfl, hr, hd⟩ := exists_of_forall₂_append hfixed.flip
  obtain ⟨rs, hrs, hrequired⟩ : ∃ rs, List.Forall₂ (fun q k => (env'.kindedParam q).value = some k) fr rs ∧
      List.Forall₂ (fun k p => k.1 = .required ∧ k.2.unplaced = p.unplaced) rs d.required := by
    refine exists_forall₂_between hr.flip fun {q p} hp hw => ?_
    have hnone := h.required p hp
    cases hw with
    | required ht => exact ⟨_, Env.kindedParam_value.mpr ⟨_, htypes ht, rfl⟩, rfl, rfl⟩
    | defaultable ht he => simp at hnone
  obtain ⟨ds, hds, hdefaultable⟩ : ∃ ds, List.Forall₂ (fun q k => (env'.kindedParam q).value = some k) fd ds ∧
      List.Forall₂ (fun k p => (∃ e, k.1 = .defaultable e) ∧ k.2.name = p.name ∧ k.2.type = p.type) ds
        d.defaultable := by
    refine exists_forall₂_between hd.flip fun {q p} hp hw => ?_
    obtain ⟨e, x, hx, -⟩ := h.defaultable p hp
    cases hw with
    | required ht => simp at hx
    | defaultable ht he => exact ⟨_, Env.kindedParam_value.mpr ⟨_, htypes ht, rfl⟩, ⟨_, rfl⟩, rfl, rfl⟩
  obtain ⟨rests, hrests, hlast⟩ : ∃ rests, List.Forall₂ (fun q k => (env'.kindedParam q).value = some k) rest rests ∧
      List.Forall₂ (fun k p => k.1 = .rest ∧ k.2.unplaced = p.unplaced) rests d.rest.toList := by
    refine exists_forall₂_between hrest fun {q p} hp hw => ?_
    have hnone := h.rest p (Option.mem_toList.mp hp)
    cases hw with
    | @mk n te t default pos span ht =>
      obtain rfl : default = none := hnone
      exact ⟨_, Env.kindedParam_value.mpr ⟨_, htypes ht, rfl⟩, rfl, rfl⟩
  exact ⟨rs, ds, rests, List.rel_append (List.rel_append hrs hds) hrests, hrequired, hdefaultable, hlast⟩

/-- The function by which one is written has the same signature. -/
theorem signature_of_writes (hag : env.Agrees env') (h : d.MeaningfulIn env) (hw : FunctionWrites id den f d) :
    ∃ decl, (env'.signature f).value = some decl ∧ decl.SameSignature d := by
  obtain ⟨fixed, rest, hparams, hfixed, hrest⟩ := hw.params
  obtain ⟨ms, htags, hmarkers⟩ := Env.markers_of_writes hag h.markers hw.tags
  obtain ⟨rs, ds, rests, hkinded, hrs, hds, hrests⟩ := h.params_of_writes htypes hfixed hrest
  have hresult : (env'.result f.returns).value = some d.returnType := by
    have hreturns := hw.returns
    cases hr : f.returns with
    | none =>
      rw [hr] at hreturns
      rw [show d.returnType = .nil from hreturns]
      rfl
    | some te =>
      rw [hr] at hreturns
      exact htypes hreturns
  rw [← hparams] at hkinded
  obtain ⟨hrequired, hdefaultable, hlast⟩ := env'.declaration_kinds f ms d.returnType
    (forall_mem_of_forall₂ hrs fun _ hk => hk.1) (forall_mem_of_forall₂ hds fun _ hk => hk.1)
    (forall_mem_of_forall₂ hrests fun _ hk => hk.1)
  refine ⟨_, Env.signature_value.mpr ⟨ms, _, d.returnType, htags, hkinded, hresult, rfl⟩, ?_⟩
  refine ⟨hw.name, hw.isPublic, rfl, hmarkers, ?_, ?_, ?_⟩
  · rw [hrequired, List.map_map]
    exact map_eq_of_forall₂ hrs fun _ hkp => hkp.2
  · rw [hdefaultable, List.forall₂_map_left_iff]
    exact hds.imp fun _ _ hkp => hkp.2
  · have hunplaced : rests.map (Param.unplaced ∘ Prod.snd) = d.rest.toList.map Param.unplaced :=
      map_eq_of_forall₂ hrests fun _ hkp => hkp.2
    rw [hlast, ← List.getLast?_map, List.map_map, hunplaced, List.getLast?_map]
    cases d.rest <;> rfl

omit htypes

section

variable (h : d.MeaningfulIn env) (hag : env.Agrees env')
  (hplain : ∀ {params n v}, env.Names params n v → v.symbol.base.owner = env.id → n.qualifier = none)
  (hw : FunctionWrites id den f d) (hown : ∀ y ∈ d.written, y.isOwn env.id = true)

include h hag hplain hw hown

/-- A defaultable parameter gets its default back. -/
theorem withDefault_of_writes {p p' : Param} (hp : p ∈ d.defaultable) (hname : p'.name = p.name)
    (htype : p'.type = p.type) :
    (env'.withDefault f p').1.unplaced = p.unplaced ∧ (env'.withDefault f p').2 = [] := by
  obtain ⟨e, x, hx, hmeans⟩ := h.defaultable p hp
  obtain ⟨v, hv, hwrites⟩ := h.toDefaultsByName.writtenDefault? hw hp hx
  have hparts := (forall_mem_written.mp hown).2 p (List.mem_append_right d.required hp) x hx
  have hagain := hmeans.of_writes (fun hn => hn.congr hag rfl) hplain hwrites hparts
  obtain ⟨y, hy, hyx⟩ := Env.Means.expr_eq hagain
  rw [Env.withDefault_eq (hname ▸ hv), hy]
  refine ⟨?_, (env'.settled_expr [] v).diagnostics_eq_nil hy⟩
  rw [Param.unplaced, Param.unplaced, hname, htype, hx, Option.map_some, Option.map_some, hyx]

/-- The statements of a function are resolved to what they were. -/
theorem stmts_of_writes {decl : FunctionDecl} (hdecl : decl.SameSignature d) :
    ∃ ts, List.Forall₂ (fun s t => (env'.stmt decl s).value = some t) f.body ts ∧
      ts.map Stmt.unplaced = d.body.map Stmt.unplaced := by
  refine exists_forall₂_map hw.body fun {s t} ht hst => ?_
  obtain ⟨s', hmeans⟩ := h.body t ht
  have hnames : ∀ {n v}, env.Names d.params n v → env'.Names decl.params n v :=
    fun hn => hn.congr hag hdecl.bindings.symm
  have hagain := hmeans.of_writes hnames hplain hst ((forall_mem_written.mp hown).1 t ht)
  rw [← hdecl.returnType] at hagain
  exact Env.stmt_eq_of_means hagain

include htypes

/-- The function by which one is written is resolved to it, and nothing is reported. -/
theorem declares : ∃ d', env'.DeclaresWholly f d' ∧ d'.unplaced = d.unplaced := by
  obtain ⟨decl, hsig, hdecl⟩ := h.signature_of_writes htypes hag hw
  obtain ⟨ts, hts, hbody⟩ := h.stmts_of_writes hag hplain hw hown hdecl
  have hdefaults : ∀ p ∈ decl.defaultable, (env'.withDefault f p).2 = [] := by
    intro p hp
    obtain ⟨q, hq, hname, htype⟩ := exists_of_mem_left hdecl.defaultable hp
    exact (h.withDefault_of_writes hag hplain hw hown hq hname htype).2
  have hquiet : (env'.body f decl).2 = [] := by
    simp only [Env.body, List.append_eq_nil_iff, List.flatMap_eq_nil_iff, List.forall_mem_map]
    refine ⟨hdefaults, fun s hs => ?_⟩
    obtain ⟨t, -, ht⟩ := exists_of_mem_left hts hs
    exact (env'.settled_stmt decl s).diagnostics_eq_nil ht
  have hsymbol : decl.symbol = d.symbol := by
    rw [Env.signature_symbol hsig, h.symbol, hdecl.symbol, hag.id]
  have hdefaultable : (env'.body f decl).1.defaultable.map Param.unplaced = d.defaultable.map Param.unplaced := by
    simp only [Env.body, List.map_map]
    refine map_eq_of_forall₂ hdecl.defaultable fun hq hpq => ?_
    exact (h.withDefault_of_writes hag hplain hw hown hq hpq.1 hpq.2).1
  have hstmts : (env'.body f decl).1.body.map Stmt.unplaced = d.body.map Stmt.unplaced := by
    rw [Env.body_stmts, filterMap_eq_of_forall₂ hts, hbody]
  refine ⟨(env'.body f decl).1, ⟨decl, hsig, Prod.ext rfl hquiet⟩, ?_⟩
  rw [FunctionDecl.unplaced, FunctionDecl.unplaced, FunctionDecl.mk.injEq]
  exact ⟨hdecl.name, hsymbol, hdecl.returnType, hstmts, hdecl.required, hdefaultable, hdecl.rest, hdecl.markers,
    hdecl.isPublic, rfl⟩

end

end FunctionDecl.MeaningfulIn

end Registrar
