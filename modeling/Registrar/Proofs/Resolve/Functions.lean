import Registrar.Proofs.Resolve.Meaning
import Registrar.Resolve.Functions

/-!
# What functions declare

The signature of a function against its parts, and the declaration that a unit holds: the signature with its
defaults and with those statements that have a meaning. A signature depends on the types in scope only, so it is the
same whichever functions were declared before it.
-/

namespace Registrar.Env

open Resolved

variable {env env' : Env}

/-! ## Signatures -/

theorem settled_kindedParam (env : Env) (p : Surface.Param Value) : (env.kindedParam p).Settled :=
  ((env.settled_typeExpr p.type).map _).map _

theorem settled_result (env : Env) (t : Option Surface.TypeExpr) : (env.result t).Settled := by
  cases t with
  | none => exact settled_ok _
  | some t => exact env.settled_typeExpr t

theorem settled_signature (env : Env) (f : Surface.Function Value) : (env.signature f).Settled :=
  ((settled_all env.settled_marker _).both
    ((settled_all env.settled_kindedParam _).both (env.settled_result _))).map _

theorem kindedParam_value {p : Surface.Param Value} {k : Surface.ParamKind Value × Param} :
    (env.kindedParam p).value = some k ↔
      ∃ t, (env.typeExpr p.type).value = some t ∧
        k = (p.kind, { name := p.name, type := t, span := env.span p.position }) := by
  rw [kindedParam, map_value, param, map_value, Option.map_map, Option.map_eq_some_iff]
  exact ⟨fun ⟨t, ht, hk⟩ => ⟨t, ht, hk.symm⟩, fun ⟨t, ht, hk⟩ => ⟨t, ht, hk.symm⟩⟩

/-- A signature is the declaration of its resolved parts. -/
theorem signature_value {f : Surface.Function Value} {d : FunctionDecl} :
    (env.signature f).value = some d ↔
      ∃ markers params ret,
        List.Forall₂ (fun t m => (env.marker t).value = some m) f.tags markers ∧
        List.Forall₂ (fun p k => (env.kindedParam p).value = some k) f.params params ∧
        (env.result f.returns).value = some ret ∧ d = env.declaration f markers params ret := by
  rw [signature, map_value, Option.map_eq_some_iff]
  constructor
  · rintro ⟨⟨markers, params, ret⟩, hboth, rfl⟩
    obtain ⟨hm, hrest⟩ := both_value_eq_some.mp hboth
    obtain ⟨hp, hr⟩ := both_value_eq_some.mp hrest
    exact ⟨markers, params, ret, all_value_eq_some.mp hm, all_value_eq_some.mp hp, hr, rfl⟩
  · rintro ⟨markers, params, ret, hm, hp, hr, rfl⟩
    exact ⟨(markers, params, ret),
      both_value (all_value_eq_some.mpr hm) (both_value (all_value_eq_some.mpr hp) hr), rfl⟩

/-- The parameters of a declaration are those that it is made of. -/
theorem mem_declaration_params {f : Surface.Function Value} {markers : List Marker}
    {params : List (Surface.ParamKind Value × Param)} {ret : Ty} {p : Param}
    (h : p ∈ (env.declaration f markers params ret).params) : ∃ k ∈ params, k.2 = p := by
  simp only [declaration, FunctionDecl.params, List.mem_append, List.mem_filterMap, Option.mem_toList] at h
  rcases h with (⟨k, hk, h⟩ | ⟨k, hk, h⟩) | h
  · split at h <;> simp at h
    exact ⟨_, hk, h⟩
  · split at h <;> simp at h
    exact ⟨_, hk, h⟩
  · obtain ⟨k, hk, h⟩ := List.mem_filterMap.mp (List.mem_of_getLast? h)
    split at h <;> simp at h
    exact ⟨_, hk, h⟩

/-- Each parameter of a signature is one of the source, with its type and still without a default. -/
theorem signature_param {f : Surface.Function Value} {d : FunctionDecl} (h : (env.signature f).value = some d)
    {p : Param} (hp : p ∈ d.params) :
    ∃ q ∈ f.params, ∃ t, (env.typeExpr q.type).value = some t ∧
      p = { name := q.name, type := t, span := env.span q.position } := by
  obtain ⟨markers, params, ret, -, hparams, -, rfl⟩ := signature_value.mp h
  obtain ⟨k, hk, rfl⟩ := mem_declaration_params hp
  obtain ⟨q, hq, hvalue⟩ := exists_of_mem_right hparams hk
  obtain ⟨t, ht, rfl⟩ := kindedParam_value.mp hvalue
  exact ⟨q, hq, t, ht, rfl⟩

/-- Each marker of a signature is a tag of an imported module. -/
theorem signature_marker {f : Surface.Function Value} {d : FunctionDecl} (h : (env.signature f).value = some d)
    {m : Marker} (hm : m ∈ d.markers) :
    ∃ q i, m.qualifier = some q ∧ env.imports.find? (·.qualifier == q) = some i ∧
      i.module.exports.lookup m.tag = some (.tag m.symbol) := by
  obtain ⟨markers, params, ret, hmarkers, -, -, rfl⟩ := signature_value.mp h
  obtain ⟨t, -, hvalue⟩ := exists_of_mem_right hmarkers hm
  obtain ⟨q, i, s, -, hi, hs, rfl⟩ := marker_value.mp hvalue
  exact ⟨q, i, rfl, hi, hs⟩

/-! ## Signatures see types only -/

/-- Two environments that differ at most in the functions in scope. -/
structure SameTypes (env env' : Env) : Prop where
  file : env.file = env'.file
  id : env.id = env'.id
  imports : env.imports = env'.imports
  types : ∀ n s, env.scope.lookup n = some (.type s) ↔ env'.scope.lookup n = some (.type s)

theorem SameTypes.refl (env : Env) : env.SameTypes env := ⟨rfl, rfl, rfl, fun _ _ => Iff.rfl⟩

theorem SameTypes.trans {env'' : Env} (h : env.SameTypes env') (h' : env'.SameTypes env'') :
    env.SameTypes env'' :=
  ⟨h.file.trans h'.file, h.id.trans h'.id, h.imports.trans h'.imports,
    fun n s => (h.types n s).trans (h'.types n s)⟩

theorem SameTypes.span_eq (h : env.SameTypes env') (p : Position) : env.span p = env'.span p := by
  rw [span, span, h.file]

theorem SameTypes.problem_eq (h : env.SameTypes env') (p : Position) (message : Text) :
    env.problem p message = env'.problem p message := by
  rw [problem, problem, h.span_eq]

theorem SameTypes.exports_eq (h : env.SameTypes env') (q : Text) (p : Position) :
    env.exports q p = env'.exports q p := by
  simp only [exports, h.imports, h.problem_eq]

theorem SameTypes.typeName_eq (h : env.SameTypes env') (n : Surface.Name) :
    env.typeName n = env'.typeName n := by
  unfold typeName
  simp only [h.exports_eq, h.problem_eq]
  cases n.qualifier with
  | some q => rfl
  | none =>
    dsimp only
    cases Ty.builtin? n.ident with
    | some t => rfl
    | none =>
      dsimp only
      have ht := h.types n.ident
      -- a name that denotes no type in one of the two denotes none in the other
      split
      · next s hs => rw [(ht s).mp hs]
      · next hno =>
        split
        · next s hs => exact absurd ((ht s).mpr hs) (hno s)
        · rfl

theorem SameTypes.marker_eq (h : env.SameTypes env') (t : Surface.Tag) : env.marker t = env'.marker t := by
  unfold marker
  simp only [h.exports_eq, h.problem_eq, h.span_eq]

theorem SameTypes.typeExpr_eq (h : env.SameTypes env') (t : Surface.TypeExpr) :
    env.typeExpr t = env'.typeExpr t := by
  rw [typeExpr, typeExpr, funext h.typeName_eq]

theorem SameTypes.signature_eq (h : env.SameTypes env') (f : Surface.Function Value) :
    env.signature f = env'.signature f := by
  have hk : env.kindedParam = env'.kindedParam := by
    funext p
    simp only [kindedParam, param, h.typeExpr_eq, h.span_eq]
  have hr : env.result f.returns = env'.result f.returns := by
    cases f.returns with
    | none => rfl
    | some t => exact h.typeExpr_eq t
  have hd : ∀ markers params ret,
      env.declaration f markers params ret = env'.declaration f markers params ret := by
    intro markers params ret
    simp only [declaration, h.id, h.span_eq]
  simp only [signature, funext h.marker_eq, hk, hr, hd]

/-- Functions behind what is in scope change no type. -/
theorem sameTypes_append (env : Env) (fs : List FunctionSymbol) :
    env.SameTypes { env with scope := ⟨env.scope.owner, env.scope.symbols ++ fs.map .function⟩ } := by
  refine ⟨rfl, rfl, rfl, fun n t => ?_⟩
  show _ ↔ Scope.lookup ⟨env.scope.owner, env.scope.symbols ++ fs.map .function⟩ n = _
  rw [Scope.lookup_append, Option.or_eq_some_iff]
  constructor
  · exact fun h => .inl h
  · rintro (h | ⟨-, h⟩)
    · exact h
    · simpa using Scope.lookup_mem h

theorem sameTypes_define? {s : FunctionSymbol} {scope : Scope} (h : env.scope.define? (.function s) = some scope) :
    env.SameTypes { env with scope } := by
  obtain ⟨-, rfl⟩ := Scope.define?_eq_some.mp h
  exact env.sameTypes_append [s]

/-! ## Bodies -/

/-- The default that is written for a name stands at a defaultable parameter of that name. -/
theorem writtenDefault?_mem {params : List (Surface.Param Value)} {name : Text} {e : Surface.Expr Value}
    (h : writtenDefault? params name = some e) : ∃ p ∈ params, p.kind = .defaultable e ∧ p.name = name := by
  obtain ⟨p, hp, hsome⟩ := List.mem_filterMap.mp (List.mem_of_mem_head? h)
  refine ⟨p, List.mem_reverse.mp hp, ?_⟩
  split at hsome
  · next e' hk =>
    split at hsome
    · next hn => exact ⟨by rw [hk, Option.some.inj hsome], hn⟩
    · simp at hsome
  · simp at hsome

/-- For the name of a defaultable parameter a default is written. -/
theorem exists_writtenDefault? {params : List (Surface.Param Value)} {p : Surface.Param Value} (hp : p ∈ params)
    {e : Surface.Expr Value} (hk : p.kind = .defaultable e) : ∃ e', writtenDefault? params p.name = some e' := by
  refine Option.isSome_iff_exists.mp ?_
  rw [writtenDefault?, List.isSome_head?]
  refine List.ne_nil_of_mem (a := e) (List.mem_filterMap.mpr ⟨p, List.mem_reverse.mpr hp, ?_⟩)
  rw [hk]
  exact if_pos rfl

theorem withDefault_eq {f : Surface.Function Value} {p : Param} {e : Surface.Expr Value}
    (h : writtenDefault? f.params p.name = some e) :
    env.withDefault f p = ({ p with default := (env.expr [] e).value }, (env.expr [] e).diagnostics) := by
  rw [withDefault, h]

@[simp] theorem withDefault_name (env : Env) (f : Surface.Function Value) (p : Param) :
    (env.withDefault f p).1.name = p.name := by
  unfold withDefault
  split <;> rfl

@[simp] theorem withDefault_type (env : Env) (f : Surface.Function Value) (p : Param) :
    (env.withDefault f p).1.type = p.type := by
  unfold withDefault
  split <;> rfl

/-- A function keeps what its parameters bind when it gets its body. -/
theorem body_bindings (env : Env) (f : Surface.Function Value) (decl : FunctionDecl) :
    (env.body f decl).1.params.map (fun p => (p.name, p.type)) =
      decl.params.map fun p => (p.name, p.type) := by
  simp [body, FunctionDecl.params, Function.comp_def]

/-- A function of a unit: what its signature declares, with its defaults and its body. -/
def Declares (env : Env) (f : Surface.Function Value) (d : FunctionDecl) : Prop :=
  ∃ decl, (env.signature f).value = some decl ∧ d = (env.body f decl).1

theorem body_stmts (env : Env) (f : Surface.Function Value) (decl : FunctionDecl) :
    (env.body f decl).1.body = f.body.filterMap fun s => (env.stmt decl s).value := by
  simp [body, List.filterMap_map, Function.comp_def]

/-- Each statement that is kept is a meaning of one in the source, in the same order. -/
theorem body_means (htop : env.scope.TopLevel) (f : Surface.Function Value) (decl : FunctionDecl) :
    ∃ kept, kept.Sublist f.body ∧
      List.Forall₂ (StmtMeans env FunctionSymbol.Accepts decl.params decl.returnType) kept
        (env.body f decl).1.body := by
  rw [body_stmts]
  induction f.body with
  | nil => exact ⟨[], .slnil, .nil⟩
  | cons s ss ih =>
    obtain ⟨kept, hsub, hall⟩ := ih
    cases hs : (env.stmt decl s).value with
    | none => exact ⟨kept, hsub.cons s, by simpa [hs] using hall⟩
    | some t =>
      refine ⟨s :: kept, hsub.cons_cons s, ?_⟩
      simp only [List.filterMap_cons, hs]
      exact .cons (stmt_sound htop hs) hall

/-- If nothing is reported, every statement is kept. -/
theorem body_whole {f : Surface.Function Value} {decl : FunctionDecl} (h : (env.body f decl).2 = []) :
    List.Forall₂ (fun s t => (env.stmt decl s).value = some t) f.body (env.body f decl).1.body := by
  rw [body_stmts]
  refine forall₂_filterMap_value fun s hs => (env.settled_stmt decl s).exists_value ?_
  simp only [body, List.append_eq_nil_iff, List.flatMap_eq_nil_iff, List.forall_mem_map] at h
  exact h.2 s hs

/-- A default that is kept is a meaning of one written for a parameter of that name. -/
theorem withDefault_means (htop : env.scope.TopLevel) {f : Surface.Function Value} {p : Param} {x : Expr}
    (hp : p.default = none) (h : (env.withDefault f p).1.default = some x) :
    ∃ e, writtenDefault? f.params p.name = some e ∧ Means env FunctionSymbol.Accepts [] e x := by
  unfold withDefault at h
  split at h
  · rw [hp] at h
    simp at h
  · next e he => exact ⟨e, he, expr_sound htop e h⟩

end Registrar.Env
