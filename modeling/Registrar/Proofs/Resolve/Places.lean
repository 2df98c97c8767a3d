import Registrar.Proofs.Resolve.Outcome
import Registrar.Proofs.Scope
import Registrar.Proofs.Surface.Unplaced
import Registrar.Proofs.Unit.Unplaced
import Registrar.Resolve.Program

/-!
# Places play no part in resolving

Where something stands in the source decides about the spans of what it resolves to and about nothing else. Two outcomes
are *alike* if they differ in spans only, and two environments if they agree on what every name stands for. For each
part of a program, what it resolves to is alike to what its unplaced form resolves to, in any other environment that is
alike.
-/

namespace Registrar

/-- The diagnostic without its span. -/
def Diagnostic.unplaced (d : Diagnostic) : Diagnostic := { d with span := .unknown }

/-! ## Outcomes that differ in places -/

namespace Resolved

variable {α α' β β' : Type} {R : α → α' → Prop} {S : β → β' → Prop}

/-- Either both have a meaning, and then related ones, or neither has; and but for the places they say the same. -/
structure Alike (R : α → α' → Prop) (r : Resolved α) (r' : Resolved α') : Prop where
  value : Option.Rel R r.value r'.value
  diagnostics : r.diagnostics.map Diagnostic.unplaced = r'.diagnostics.map Diagnostic.unplaced

theorem alike_ok {a : α} {a' : α'} (h : R a a') : (ok a).Alike R (ok a') := ⟨.some h, rfl⟩

theorem alike_fail {d d' : Diagnostic} (h : d.unplaced = d'.unplaced) :
    (fail d : Resolved α).Alike R (fail d' : Resolved α') := ⟨.none, by simp [h]⟩

theorem Alike.map {r : Resolved α} {r' : Resolved α'} (h : r.Alike R r') {f : α → β} {f' : α' → β'}
    (hf : ∀ {a a'}, R a a' → S (f a) (f' a')) : (r.map f).Alike S (r'.map f') := by
  refine ⟨?_, h.diagnostics⟩
  have hvalue := h.value
  rw [map_value, map_value]
  generalize r.value = v at hvalue ⊢
  generalize r'.value = v' at hvalue ⊢
  cases hvalue with
  | none => exact .none
  | some ha => exact .some (hf ha)

theorem Alike.bind {r : Resolved α} {r' : Resolved α'} (h : r.Alike R r') {f : α → Resolved β}
    {f' : α' → Resolved β'} (hf : ∀ {a a'}, R a a' → (f a).Alike S (f' a')) : (r.bind f).Alike S (r'.bind f') := by
  obtain ⟨v, ds⟩ := r
  obtain ⟨v', ds'⟩ := r'
  obtain ⟨hvalue, hds⟩ := h
  cases hvalue with
  | none => exact ⟨.none, hds⟩
  | some ha =>
    refine ⟨(hf ha).value, ?_⟩
    show List.map _ (ds ++ _) = List.map _ (ds' ++ _)
    rw [List.map_append, List.map_append, hds, (hf ha).diagnostics]

theorem Alike.both {r : Resolved α} {r' : Resolved α'} {s : Resolved β} {s' : Resolved β'} (hr : r.Alike R r')
    (hs : s.Alike S s') : (r.both s).Alike (fun p p' => R p.1 p'.1 ∧ S p.2 p'.2) (r'.both s') := by
  obtain ⟨v, ds⟩ := r
  obtain ⟨v', ds'⟩ := r'
  obtain ⟨w, es⟩ := s
  obtain ⟨w', es'⟩ := s'
  obtain ⟨hv, hds⟩ := hr
  obtain ⟨hw, hes⟩ := hs
  refine ⟨?_, ?_⟩
  · cases hv with
    | none => exact .none
    | some ha =>
      cases hw with
      | none => exact .none
      | some hb => exact .some ⟨ha, hb⟩
  · show List.map _ (ds ++ es) = List.map _ (ds' ++ es')
    rw [List.map_append, List.map_append, hds, hes]

/-- Parts in a row, each alike to the part at the same place of another row. -/
theorem alike_all {γ : Type} {f : γ → Resolved α} {g : γ → γ} {f' : γ → Resolved α'}
    (hf : ∀ c, (f c).Alike R (f' (g c))) (cs : List γ) : (all f cs).Alike (List.Forall₂ R) (all f' (cs.map g)) := by
  induction cs with
  | nil => exact alike_ok .nil
  | cons c cs ih => exact ((hf c).both ih).map fun h => .cons h.1 h.2

/-- What is kept of two rows of outcomes, and what is said of them all. -/
theorem alike_kept {γ : Type} {f : α → γ} {f' : α' → γ} {rs : List (Resolved α)} {rs' : List (Resolved α')}
    (h : List.Forall₂ (Alike fun a a' => f a = f' a') rs rs') :
    (rs.filterMap value).map f = (rs'.filterMap value).map f' ∧
      (rs.flatMap diagnostics).map Diagnostic.unplaced = (rs'.flatMap diagnostics).map Diagnostic.unplaced :=
  ⟨map_eq_map_iff_forall₂.mpr (forall₂_filterMap h fun hr => hr.value),
    map_flatMap_eq_of_forall₂ h fun hr => hr.diagnostics⟩

end Resolved

open Resolved

/-! ## Environments -/

namespace Env

/-- Two environments in which names stand for the same. They may differ in the file, in the spans of imports and in the
order of what is in scope. -/
structure Alike (env env' : Env) : Prop where
  id : env.id = env'.id
  imports : env.imports.map ImportDecl.unplaced = env'.imports.map ImportDecl.unplaced
  scope : ∀ n, env.scope.lookup n = env'.scope.lookup n

variable {env env' : Env}

theorem Alike.refl (env : Env) : env.Alike env := ⟨rfl, rfl, fun _ => rfl⟩

theorem Alike.symm (h : env.Alike env') : env'.Alike env :=
  ⟨h.id.symm, h.imports.symm, fun n => (h.scope n).symm⟩

theorem Alike.trans {env'' : Env} (h : env.Alike env') (h' : env'.Alike env'') : env.Alike env'' :=
  ⟨h.id.trans h'.id, h.imports.trans h'.imports, fun n => (h.scope n).trans (h'.scope n)⟩

theorem Alike.exports (h : env.Alike env') (q : Text) (p p' : Position) :
    (env.exports q p).Alike Eq (env'.exports q p') := by
  unfold Env.exports
  have hfind : Option.Rel (fun i i' => i.unplaced = i'.unplaced) (env.imports.find? (·.qualifier == q))
      (env'.imports.find? (·.qualifier == q)) := by
    refine rel_find?_of_forall₂ (map_eq_map_iff_forall₂.mp h.imports) ?_
    intro i i' hi
    rw [← i.qualifier_unplaced, hi, i'.qualifier_unplaced]
  generalize env.imports.find? (·.qualifier == q) = found at hfind ⊢
  generalize env'.imports.find? (·.qualifier == q) = found' at hfind ⊢
  cases hfind with
  | none => exact alike_fail rfl
  | @some i i' hi => exact alike_ok (congrArg (fun j => j.module.exports) hi : i.unplaced.module.exports = _)

/-! ## Types and tags -/

theorem Alike.typeName (h : env.Alike env') (n : Surface.Name) :
    (env.typeName n).Alike Eq (env'.typeName n.unplaced) := by
  obtain ⟨qualifier, ident, position⟩ := n
  unfold Env.typeName Surface.Name.unplaced
  cases qualifier with
  | some q =>
    refine (h.exports q _ _).bind ?_
    rintro scope _ rfl
    dsimp only
    cases scope.lookup ident with
    | none => exact alike_fail rfl
    | some s =>
      cases s with
      | type s => exact alike_ok rfl
      | _ => exact alike_fail rfl
  | none =>
    dsimp only
    cases Ty.builtin? ident with
    | some t => exact alike_ok rfl
    | none =>
      dsimp only
      rw [h.scope]
      cases env'.scope.lookup ident with
      | none => exact alike_fail rfl
      | some s =>
        cases s with
        | type s => exact alike_ok rfl
        | _ => exact alike_fail rfl

theorem Alike.typeExpr (h : env.Alike env') (t : Surface.TypeExpr) :
    (env.typeExpr t).Alike Eq (env'.typeExpr t.unplaced) := by
  refine (alike_all h.typeName t.members).map ?_
  intro ts ts' hts
  rw [List.forall₂_eq_eq_eq] at hts
  rw [hts]

theorem Alike.marker (h : env.Alike env') (t : Surface.Tag) :
    (env.marker t).Alike (fun m m' => m.unplaced = m'.unplaced) (env'.marker t.unplaced) := by
  obtain ⟨qualifier, name, position⟩ := t
  unfold Env.marker Surface.Tag.unplaced
  cases qualifier with
  | none => exact alike_fail rfl
  | some q =>
    refine (h.exports q _ _).bind ?_
    rintro scope _ rfl
    dsimp only
    cases scope.lookup name with
    | none => exact alike_fail rfl
    | some s =>
      cases s with
      | tag s => exact alike_ok rfl
      | _ => exact alike_fail rfl

/-! ## Values -/

/-- Parameters that differ in spans only bind the same variables. -/
theorem Alike.findVariable? (h : env.Alike env') {params params' : List Param}
    (hparams : params.map Param.unplaced = params'.map Param.unplaced) (name : Text) :
    env.findVariable? params name = env'.findVariable? params' name := by
  have hfind : Option.Rel (fun p p' => p.unplaced = p'.unplaced) (params.reverse.find? (·.name == name))
      (params'.reverse.find? (·.name == name)) := by
    refine rel_find?_of_forall₂ (List.forall₂_reverse_iff.mpr (map_eq_map_iff_forall₂.mp hparams)) ?_
    intro p p' hp
    have hname : p.name = p'.name := (congrArg Param.name hp : p.unplaced.name = _)
    rw [hname]
  refine map_eq_map_of_rel hfind ?_
  intro p p' hp
  have hname : p.name = p'.name := (congrArg Param.name hp : p.unplaced.name = _)
  have htype : p.type = p'.type := (congrArg Param.type hp : p.unplaced.type = _)
  simp only [variableOf, hname, htype, h.id]

theorem Alike.value (h : env.Alike env') {params params' : List Param}
    (hparams : params.map Param.unplaced = params'.map Param.unplaced) (n : Surface.Name) :
    (env.value params n).Alike Eq (env'.value params' n.unplaced) := by
  obtain ⟨qualifier, ident, position⟩ := n
  unfold Env.value Surface.Name.unplaced
  cases qualifier with
  | some q =>
    refine (h.exports q _ _).bind ?_
    rintro scope _ rfl
    dsimp only
    cases (scope.lookup ident).bind Symbol.value? with
    | none => exact alike_fail rfl
    | some v => exact alike_ok rfl
  | none =>
    dsimp only
    rw [h.findVariable? hparams, h.scope]
    cases env'.findVariable? params' ident with
    | some v => exact alike_ok rfl
    | none =>
      dsimp only
      cases (env'.scope.lookup ident).bind Symbol.value? with
      | none => exact alike_fail rfl
      | some v => exact alike_ok rfl

end Env

/-! ## Expressions and statements -/

/-- Whether arguments fit depends on their types only. -/
theorem FunctionSymbol.misfit?_of_types (f : FunctionSymbol) {args args' : List Expr}
    (h : args.map Expr.type = args'.map Expr.type) (index : Nat) : f.misfit? index args = f.misfit? index args' := by
  have hrows := map_eq_map_iff_forall₂.mp h
  clear h
  induction hrows generalizing index with
  | nil => rfl
  | cons htype _ ih => simp only [misfit?, htype, ih]

namespace Env

variable {env env' : Env} {params params' : List Param}

theorem checkedCall_alike (env env' : Env) (callee : Surface.Name) (f : FunctionSymbol) {args args' : List Expr}
    (hargs : args.map Expr.unplaced = args'.map Expr.unplaced) :
    (env.checkedCall callee f args).Alike (fun x x' => x.unplaced = x'.unplaced)
      (env'.checkedCall callee.unplaced f args') := by
  have hlength : args.length = args'.length := by simpa using congrArg List.length hargs
  have htypes : args.map Expr.type = args'.map Expr.type :=
    map_eq_of_forall₂ (map_eq_map_iff_forall₂.mp hargs) fun _ hx => Expr.type_eq_of_unplaced hx
  unfold checkedCall
  rw [hlength, f.misfit?_of_types htypes]
  split
  · cases f.misfit? 0 args' with
    | some m => exact alike_fail rfl
    | none =>
      refine alike_ok ?_
      simp only [Expr.unplaced, Expr.unplacedAll_eq_map, hargs]
      rfl
  · exact alike_fail rfl

mutual
/-- An expression resolves to what its unplaced form resolves to. -/
theorem Alike.expr (h : env.Alike env') (hparams : params.map Param.unplaced = params'.map Param.unplaced) :
    (e : Surface.Expr Value) →
      (env.expr params e).Alike (fun x x' => x.unplaced = x'.unplaced) (env'.expr params' e.unplaced)
  | .literal v p => alike_ok rfl
  | .name n => (h.value hparams n).map fun hv => by rw [hv]; rfl
  | .call callee args => by
    refine (h.value hparams callee).bind ?_
    rintro v _ rfl
    rcases v with f | v
    · exact (Alike.exprs h hparams args).bind fun hargs => checkedCall_alike env env' callee f hargs
    · exact alike_fail rfl

theorem Alike.exprs (h : env.Alike env') (hparams : params.map Param.unplaced = params'.map Param.unplaced) :
    (es : List (Surface.Expr Value)) →
      (env.exprs params es).Alike (fun xs xs' => xs.map Expr.unplaced = xs'.map Expr.unplaced)
        (env'.exprs params' (Surface.Expr.unplacedAll es))
  | [] => alike_ok rfl
  | e :: es =>
    ((Alike.expr h hparams e).both (Alike.exprs h hparams es)).map fun hx => by
      rw [List.map_cons, List.map_cons, hx.1, hx.2]
end

/-- A `return` is checked on the types of its value and of its function. -/
theorem checkedReturn_alike (env env' : Env) {f f' : FunctionDecl} (hf : f.unplaced = f'.unplaced) (p p' : Position)
    {value value' : Option Expr} (hvalue : value.map Expr.unplaced = value'.map Expr.unplaced) :
    (env.checkedReturn f p value).Alike (fun t t' => t.unplaced = t'.unplaced) (env'.checkedReturn f' p' value') := by
  have hname : f.name = f'.name := (congrArg FunctionDecl.name hf : f.unplaced.name = _)
  have hreturn : f.returnType = f'.returnType := (congrArg FunctionDecl.returnType hf : f.unplaced.returnType = _)
  have htype : value.map Expr.type = value'.map Expr.type := by
    have h := congrArg (Option.map Expr.type) hvalue
    simpa only [Option.map_map, Function.comp_def, Expr.type_unplaced] using h
  unfold checkedReturn
  rw [htype, hreturn, hname]
  dsimp only
  split
  · exact alike_ok (by simp only [Stmt.unplaced, hvalue])
  · exact alike_fail rfl

theorem Alike.stmt (h : env.Alike env') {f f' : FunctionDecl} (hf : f.unplaced = f'.unplaced)
    (s : Surface.Stmt Value) :
    (env.stmt f s).Alike (fun t t' => t.unplaced = t'.unplaced) (env'.stmt f' s.unplaced) := by
  have hparams : f.params.map Param.unplaced = f'.params.map Param.unplaced := by
    rw [← f.params_unplaced, hf, f'.params_unplaced]
  rcases s with ⟨_ | e, p⟩ | ⟨e, p⟩
  · exact checkedReturn_alike env env' hf p .start rfl
  · refine (h.expr hparams e).bind fun hx => ?_
    exact checkedReturn_alike env env' hf p .start (by rw [Option.map_some, hx]; rfl)
  · exact (h.expr hparams e).map fun hx => by simp only [Stmt.unplaced, hx]

/-! ## Functions -/

/-- A parameter with its kind, beside the same one without places. -/
def KindAlike (k k' : Surface.ParamKind Value × Param) : Prop := k'.1 = k.1.unplaced ∧ k.2.unplaced = k'.2.unplaced

theorem Alike.kindedParam (h : env.Alike env') (p : Surface.Param Value) :
    (env.kindedParam p).Alike KindAlike (env'.kindedParam p.unplaced) := by
  have hparam : (env.param p).Alike (fun q q' => q.unplaced = q'.unplaced) (env'.param p.unplaced) :=
    (h.typeExpr p.type).map fun ht => by rw [ht]; rfl
  exact hparam.map fun hq => ⟨rfl, hq⟩

theorem Alike.result (h : env.Alike env') (t : Option Surface.TypeExpr) :
    (env.result t).Alike Eq (env'.result (t.map Surface.TypeExpr.unplaced)) := by
  cases t with
  | none => exact alike_ok rfl
  | some t => exact h.typeExpr t

theorem declaration_unplaced (hid : env.id = env'.id) (f : Surface.Function Value) {markers markers' : List Marker}
    (hmarkers : markers.map Marker.unplaced = markers'.map Marker.unplaced)
    {ks ks' : List (Surface.ParamKind Value × Param)} (hks : List.Forall₂ KindAlike ks ks') (ret : Ty) :
    (env.declaration f markers ks ret).unplaced = (env'.declaration f.unplaced markers' ks' ret).unplaced := by
  -- the parameters of each kind are chosen in the same way from both rows
  have hchosen : ∀ {choose : Surface.ParamKind Value × Param → Option Param},
      (∀ {k k'}, KindAlike k k' → Option.Rel (fun p p' => p.unplaced = p'.unplaced) (choose k) (choose k')) →
        (ks.filterMap choose).map Param.unplaced = (ks'.filterMap choose).map Param.unplaced :=
    fun hchoose => map_eq_map_iff_forall₂.mpr (forall₂_filterMap hks hchoose)
  have hrequired : (env.declaration f markers ks ret).required.map Param.unplaced =
      (env'.declaration f.unplaced markers' ks' ret).required.map Param.unplaced := by
    refine hchosen ?_
    rintro ⟨_ | e | _, p⟩ ⟨_, p'⟩ ⟨rfl, hp⟩
    · exact .some hp
    · exact .none
    · exact .none
  have hdefaultable : (env.declaration f markers ks ret).defaultable.map Param.unplaced =
      (env'.declaration f.unplaced markers' ks' ret).defaultable.map Param.unplaced := by
    refine hchosen ?_
    rintro ⟨_ | e | _, p⟩ ⟨_, p'⟩ ⟨rfl, hp⟩
    · exact .none
    · exact .some hp
    · exact .none
  have hrest : (env.declaration f markers ks ret).rest.map Param.unplaced =
      (env'.declaration f.unplaced markers' ks' ret).rest.map Param.unplaced := by
    unfold declaration
    rw [← List.getLast?_map, ← List.getLast?_map]
    refine congrArg List.getLast? (hchosen ?_)
    rintro ⟨_ | e | _, p⟩ ⟨_, p'⟩ ⟨rfl, hp⟩
    · exact .none
    · exact .none
    · exact .some hp
  have hsame : (env.declaration f markers ks ret).SameSignature (env'.declaration f.unplaced markers' ks' ret) :=
    { name := rfl, isPublic := rfl, returnType := rfl, markers := hmarkers, required := hrequired, rest := hrest
      defaultable := (map_eq_map_iff_forall₂.mp hdefaultable).imp fun p p' hp =>
        ⟨(congrArg Param.name hp : p.unplaced.name = _), (congrArg Param.type hp : p.unplaced.type = _)⟩ }
  have hsymbol : (env.declaration f markers ks ret).symbol = (env'.declaration f.unplaced markers' ks' ret).symbol := by
    show (env.declaration f markers ks ret).signatureSymbol env.id = _
    rw [hid, hsame.symbol]
    rfl
  rw [FunctionDecl.unplaced, FunctionDecl.unplaced, hsymbol, hrequired, hdefaultable, hrest, hsame.markers]
  rfl

theorem Alike.signature (h : env.Alike env') (f : Surface.Function Value) :
    (env.signature f).Alike (fun d d' => d.unplaced = d'.unplaced) (env'.signature f.unplaced) := by
  refine Resolved.Alike.map ((alike_all h.marker f.tags).both
    ((alike_all h.kindedParam f.params).both (h.result f.returns))) ?_
  rintro ⟨markers, ks, ret⟩ ⟨markers', ks', _⟩ ⟨hmarkers, hks, rfl⟩
  exact declaration_unplaced h.id f (map_eq_map_iff_forall₂.mpr hmarkers) hks ret

theorem writtenDefault?_unplaced (params : List (Surface.Param Value)) (name : Text) :
    writtenDefault? (params.map Surface.Param.unplaced) name =
      (writtenDefault? params name).map Surface.Expr.unplaced := by
  unfold writtenDefault?
  rw [← List.map_reverse, List.filterMap_map, ← List.head?_map, List.map_filterMap]
  congr 2
  funext p
  obtain ⟨n, position, type, kind⟩ := p
  cases kind with
  | defaultable e =>
    by_cases hn : n = name
    · simp [Surface.Param.unplaced, Surface.ParamKind.unplaced, hn]
    · simp [Surface.Param.unplaced, Surface.ParamKind.unplaced, hn]
  | _ => rfl

/-- A parameter gets the same default, and the same is said about it. -/
theorem Alike.withDefault (h : env.Alike env') (f : Surface.Function Value) {p p' : Param}
    (hp : p.unplaced = p'.unplaced) :
    (env.withDefault f p).1.unplaced = (env'.withDefault f.unplaced p').1.unplaced ∧
      (env.withDefault f p).2.map Diagnostic.unplaced = (env'.withDefault f.unplaced p').2.map Diagnostic.unplaced := by
  have hname : p.name = p'.name := (congrArg Param.name hp : p.unplaced.name = _)
  have htype : p.type = p'.type := (congrArg Param.type hp : p.unplaced.type = _)
  have hwritten : writtenDefault? f.unplaced.params p'.name =
      (writtenDefault? f.params p.name).map Surface.Expr.unplaced := by
    rw [hname]
    exact writtenDefault?_unplaced f.params p'.name
  unfold Env.withDefault
  rw [hwritten]
  cases writtenDefault? f.params p.name with
  | none => exact ⟨hp, rfl⟩
  | some e =>
    have he : (env.expr [] e).Alike _ (env'.expr [] e.unplaced) := h.expr rfl e
    refine ⟨?_, he.diagnostics⟩
    simp only [Option.map_some, Param.unplaced, hname, htype, map_eq_map_of_rel he.value fun hx => hx]

/-- A function gets the same defaults and the same body, and the same is said about them. -/
theorem Alike.body (h : env.Alike env') (f : Surface.Function Value) {decl decl' : FunctionDecl}
    (hdecl : decl.unplaced = decl'.unplaced) :
    (env.body f decl).1.unplaced = (env'.body f.unplaced decl').1.unplaced ∧
      (env.body f decl).2.map Diagnostic.unplaced = (env'.body f.unplaced decl').2.map Diagnostic.unplaced := by
  have hstmts : List.Forall₂ (Resolved.Alike fun t t' => t.unplaced = t'.unplaced) (f.body.map (env.stmt decl))
      (f.unplaced.body.map (env'.stmt decl')) := by
    rw [Surface.Function.unplaced, List.map_map, List.forall₂_map_left_iff, List.forall₂_map_right_iff,
      List.forall₂_same]
    exact fun s _ => h.stmt hdecl s
  have hrows : List.Forall₂ (fun p p' => p.unplaced = p'.unplaced) decl.defaultable decl'.defaultable :=
    map_eq_map_iff_forall₂.mp (congrArg FunctionDecl.defaultable hdecl)
  refine ⟨?_, ?_⟩
  · have hbody : (env.body f decl).1.body.map Stmt.unplaced = (env'.body f.unplaced decl').1.body.map Stmt.unplaced :=
      (alike_kept hstmts).1
    have hdefaults : (env.body f decl).1.defaultable.map Param.unplaced =
        (env'.body f.unplaced decl').1.defaultable.map Param.unplaced := by
      simp only [Env.body, List.map_map]
      exact map_eq_of_forall₂ hrows fun _ hp => (h.withDefault f hp).1
    calc (env.body f decl).1.unplaced
        = { decl.unplaced with
            defaultable := (env.body f decl).1.defaultable.map Param.unplaced
            body := (env.body f decl).1.body.map Stmt.unplaced } := rfl
      _ = { decl'.unplaced with
            defaultable := (env'.body f.unplaced decl').1.defaultable.map Param.unplaced
            body := (env'.body f.unplaced decl').1.body.map Stmt.unplaced } := by rw [hdecl, hdefaults, hbody]
      _ = (env'.body f.unplaced decl').1.unplaced := rfl
  · have hdefaults : ((decl.defaultable.map (env.withDefault f)).flatMap Prod.snd).map Diagnostic.unplaced =
        ((decl'.defaultable.map (env'.withDefault f.unplaced)).flatMap Prod.snd).map Diagnostic.unplaced := by
      rw [List.flatMap_map, List.flatMap_map]
      exact map_flatMap_eq_of_forall₂ hrows fun hp => (h.withDefault f hp).2
    simp only [Env.body, List.map_append, hdefaults, (alike_kept hstmts).2]

end Env

/-! ## Imports and records -/

variable {env env' : Env}

theorem resolveImport_alike (registry : Registry) (h : env.Alike env') (i : Surface.Import) :
    (resolveImport registry env i).Alike (fun d d' => d.unplaced = d'.unplaced)
      (resolveImport registry env' i.unplaced) := by
  have hqualifiers : env.imports.map ImportDecl.qualifier = env'.imports.map ImportDecl.qualifier := by
    have hmap := congrArg (List.map ImportDecl.qualifier) h.imports
    simpa only [List.map_map, Function.comp_def, ImportDecl.qualifier_unplaced] using hmap
  have hany : ∀ q, env.imports.any (·.qualifier == q) = env'.imports.any (·.qualifier == q) := by
    intro q
    have hmap := congrArg (List.any · (· == q)) hqualifiers
    simpa only [List.any_map, Function.comp_def] using hmap
  obtain ⟨space, name, asName, position⟩ := i
  unfold resolveImport Surface.Import.unplaced
  dsimp only
  cases registry.find? ⟨space, name⟩ with
  | none => exact alike_fail rfl
  | some m =>
    -- the two declarations differ in their spans, which the prefix does not see
    have hused : env.imports.any
          (·.qualifier == ImportDecl.qualifier ⟨⟨space, name⟩, m, asName, env.span position⟩) =
        env'.imports.any (·.qualifier == ImportDecl.qualifier ⟨⟨space, name⟩, m, asName, env'.span .start⟩) := hany _
    simp only [hused]
    split
    · exact alike_fail rfl
    · exact alike_ok rfl

/-- The imports are resolved in the same way wherever they stand. -/
theorem resolveImports_alike (registry : Registry) (h : env.Alike env') (is : List Surface.Import) :
    (resolveImports registry env is).1.Alike (resolveImports registry env' (is.map Surface.Import.unplaced)).1 ∧
      (resolveImports registry env is).2.map Diagnostic.unplaced =
        (resolveImports registry env' (is.map Surface.Import.unplaced)).2.map Diagnostic.unplaced := by
  induction is generalizing env env' with
  | nil => exact ⟨h, rfl⟩
  | cons i is ih =>
    have hi := resolveImport_alike registry h i
    have hnew : (resolveImport registry env i).value.toList.map ImportDecl.unplaced =
        (resolveImport registry env' i.unplaced).value.toList.map ImportDecl.unplaced := by
      rw [← Option.toList_map, ← Option.toList_map, map_eq_map_of_rel hi.value fun hd => hd]
    have hstep : Env.Alike { env with imports := env.imports ++ (resolveImport registry env i).value.toList }
        { env' with imports := env'.imports ++ (resolveImport registry env' i.unplaced).value.toList } :=
      ⟨h.id, by rw [List.map_append, List.map_append, h.imports, hnew], h.scope⟩
    refine ⟨(ih hstep).1, ?_⟩
    simp only [resolveImports, List.map_cons, List.map_append, hi.diagnostics, (ih hstep).2]

theorem resolveRecord_alike (h : env.Alike env') (r : Surface.Record) :
    (resolveRecord env r).Alike (fun k k' => k.1.unplaced = k'.1.unplaced ∧ ∀ n, k.2.lookup n = k'.2.lookup n)
      (resolveRecord env' r.unplaced) := by
  obtain ⟨name, position⟩ := r
  unfold resolveRecord Surface.Record.unplaced
  dsimp only
  rw [h.id]
  have hdefine := Scope.rel_define? h.scope
    (.type { name, owner := env'.id, stamp := .declared, type := .user name (some env'.id) })
  generalize env.scope.define? _ = scope at hdefine ⊢
  generalize env'.scope.define? _ = scope' at hdefine ⊢
  cases Ty.builtin? name with
  | some t => exact alike_fail rfl
  | none =>
    cases hdefine with
    | none => exact alike_fail rfl
    | some hscope => exact alike_ok ⟨rfl, hscope⟩

/-- The records are resolved in the same way wherever they stand. -/
theorem resolveRecords_alike (h : env.Alike env') (rs : List Surface.Record) :
    (resolveRecords env rs).1.Alike (resolveRecords env' (rs.map Surface.Record.unplaced)).1 ∧
      (resolveRecords env rs).2.1.map TypeDecl.unplaced =
        (resolveRecords env' (rs.map Surface.Record.unplaced)).2.1.map TypeDecl.unplaced ∧
      (resolveRecords env rs).2.2.map Diagnostic.unplaced =
        (resolveRecords env' (rs.map Surface.Record.unplaced)).2.2.map Diagnostic.unplaced := by
  induction rs generalizing env env' with
  | nil => exact ⟨h, rfl, rfl⟩
  | cons r rs ih =>
    obtain ⟨hvalue, hds⟩ := resolveRecord_alike h r
    simp only [resolveRecords, List.map_cons]
    generalize (resolveRecord env r).value = v at hvalue ⊢
    generalize (resolveRecord env' r.unplaced).value = v' at hvalue ⊢
    cases hvalue with
    | none =>
      obtain ⟨henv, htypes, hrest⟩ := ih h
      exact ⟨henv, htypes, by simp only [List.map_append, hds, hrest]⟩
    | @some k k' hk =>
      have hstep : Env.Alike { env with scope := k.2 } { env' with scope := k'.2 } := ⟨h.id, h.imports, hk.2⟩
      obtain ⟨henv, htypes, hrest⟩ := ih hstep
      exact ⟨henv, by simp only [List.map_cons, hk.1, htypes], by simp only [List.map_append, hds, hrest]⟩

end Registrar
