import Mathlib.Data.List.Find
import Registrar.Proofs.Handler.Spelling
import Registrar.Proofs.Resolve.Completeness

/-!
# The prefixes of imports play no part in resolving

A program may name its imports as it likes. `requalified f` replaces every prefix `q` of a program by `f q`, in the
imports and wherever a name is qualified; the same is said of units, where calls, markers and imports carry prefixes. A
program without problems, whose prefixes `f` keeps apart, is resolved to the same unit, requalified
(`resolveProgram_requalified`): what a qualified name stands for is a matter of the module behind its prefix.
-/

namespace Registrar

/-! ## Other prefixes in the source -/

namespace Surface

variable {L : Type} (f : Text → Text)

/-- The name behind another prefix. -/
def Name.requalified (n : Name) : Name := { n with qualifier := n.qualifier.map f }

/-- The type with its names behind other prefixes. -/
def TypeExpr.requalified (t : TypeExpr) : TypeExpr := ⟨t.first.requalified f, t.others.map (Name.requalified f)⟩

mutual
/-- The expression with its names behind other prefixes. -/
def Expr.requalified : Expr L → Expr L
  | .literal value p => .literal value p
  | .name n => .name (n.requalified f)
  | .call callee args => .call (callee.requalified f) (Expr.requalifiedAll args)

/-- Expressions with their names behind other prefixes. -/
def Expr.requalifiedAll : List (Expr L) → List (Expr L)
  | [] => []
  | e :: es => Expr.requalified e :: Expr.requalifiedAll es
end

/-- The statement with its names behind other prefixes. -/
def Stmt.requalified : Stmt L → Stmt L
  | .ret value p => .ret (value.map (Expr.requalified f)) p
  | .expr e p => .expr (e.requalified f) p

/-- The kind, its default with names behind other prefixes. -/
def ParamKind.requalified : ParamKind L → ParamKind L
  | .required => .required
  | .defaultable e => .defaultable (e.requalified f)
  | .rest => .rest

/-- The parameter with its names behind other prefixes. -/
def Param.requalified (p : Param L) : Param L :=
  { p with type := p.type.requalified f, kind := p.kind.requalified f }

/-- The annotation behind another prefix. -/
def Tag.requalified (t : Tag) : Tag := { t with qualifier := t.qualifier.map f }

/-- The function with all names behind other prefixes. -/
def Function.requalified (g : Function L) : Function L :=
  { g with
    tags := g.tags.map (Tag.requalified f)
    params := g.params.map (Param.requalified f)
    returns := g.returns.map (TypeExpr.requalified f)
    body := g.body.map (Stmt.requalified f) }

/-- The import under another prefix, which is then its alias. One that keeps its prefix stays as it is. -/
def Import.requalified (i : Import) : Import :=
  if f i.qualifier = i.qualifier then i else { i with asName := some (f i.qualifier) }

/-- The program under other prefixes. -/
def Program.requalified (program : Program L) : Program L :=
  { program with
    imports := program.imports.map (Import.requalified f)
    functions := program.functions.map (Function.requalified f) }

end Surface

/-! ## Other prefixes in units -/

section

variable (f : Text → Text)

mutual
/-- The expression with its calls behind other prefixes. -/
def Expr.requalified : Expr → Expr
  | .literal value type span => .literal value type span
  | .ref name symbol type span => .ref name symbol type span
  | .call name callee args type qualifier span =>
    .call name callee (Expr.requalifiedAll args) type (qualifier.map f) span

/-- Expressions with their calls behind other prefixes. -/
def Expr.requalifiedAll : List Expr → List Expr
  | [] => []
  | x :: xs => Expr.requalified x :: Expr.requalifiedAll xs
end

/-- The statement with its calls behind other prefixes. -/
def Stmt.requalified : Stmt → Stmt
  | .expr x span => .expr (x.requalified f) span
  | .ret value span => .ret (value.map (Expr.requalified f)) span

/-- The marker behind another prefix. -/
def Marker.requalified (m : Marker) : Marker := { m with qualifier := m.qualifier.map f }

/-- The parameter, its default with calls behind other prefixes. -/
def Param.requalified (p : Param) : Param := { p with default := p.default.map (Expr.requalified f) }

/-- The function with its calls and markers behind other prefixes. -/
def FunctionDecl.requalified (d : FunctionDecl) : FunctionDecl :=
  { d with
    body := d.body.map (Stmt.requalified f)
    required := d.required.map (Param.requalified f)
    defaultable := d.defaultable.map (Param.requalified f)
    rest := d.rest.map (Param.requalified f)
    markers := d.markers.map (Marker.requalified f) }

/-- The import under another prefix, which is then its alias. One that keeps its prefix stays as it is. -/
def ImportDecl.requalified (i : ImportDecl) : ImportDecl :=
  if f i.qualifier = i.qualifier then i else { i with asName := some (f i.qualifier) }

/-- The unit under other prefixes. -/
def CompilationUnit.requalified (unit : CompilationUnit) : CompilationUnit :=
  { unit with
    imports := unit.imports.map (ImportDecl.requalified f)
    functions := unit.functions.map (FunctionDecl.requalified f) }

end

variable {f : Text → Text}

@[simp] theorem Expr.type_requalified (x : Expr) : (x.requalified f).type = x.type := by
  cases x <;> simp [Expr.requalified, Expr.type]

theorem Expr.requalifiedAll_eq_map (xs : List Expr) : Expr.requalifiedAll f xs = xs.map (Expr.requalified f) := by
  induction xs with
  | nil => rfl
  | cons x xs ih => rw [Expr.requalifiedAll, ih, List.map_cons]

theorem FunctionDecl.params_requalified (d : FunctionDecl) :
    (d.requalified f).params = d.params.map (Param.requalified f) := by
  simp [FunctionDecl.params, FunctionDecl.requalified, Option.toList_map]

@[simp] theorem ImportDecl.module_requalified (i : ImportDecl) : (i.requalified f).module = i.module := by
  unfold ImportDecl.requalified
  split <;> rfl

@[simp] theorem ImportDecl.id_requalified (i : ImportDecl) : (i.requalified f).id = i.id := by
  unfold ImportDecl.requalified
  split <;> rfl

/-- A prefix that is replaced is replaced by one that is not empty. -/
def Renames (f : Text → Text) : Prop := ∀ q, f q ≠ q → f q ≠ []

theorem ImportDecl.qualifier_requalified (hf : Renames f) (i : ImportDecl) :
    (i.requalified f).qualifier = f i.qualifier := by
  unfold ImportDecl.requalified
  split
  · next hsame => exact hsame.symm
  · next hother =>
    show ((some (f i.qualifier)).filter (· ≠ [])).getD i.id.name = f i.qualifier
    rw [Option.filter_some_pos (by simpa using hf _ hother), Option.getD_some]

/-! ## What names stand for -/

namespace Env

open Resolved

/-- The second environment knows the modules of the first one by other prefixes, and all else is the same in both. -/
structure Requalifies (f : Text → Text) (env env' : Env) : Prop where
  file : env'.file = env.file
  id : env'.id = env.id
  scope : env'.scope = env.scope
  modules : ∀ {q i}, env.imports.find? (·.qualifier == q) = some i →
    ∃ i', env'.imports.find? (·.qualifier == f q) = some i' ∧ i'.module = i.module

variable {env env' : Env} {params : List Param}

theorem Requalifies.span_eq (h : env.Requalifies f env') (p : Position) : env'.span p = env.span p := by
  rw [span, span, h.file]

theorem Requalifies.typeName (h : env.Requalifies f env') {n : Surface.Name} {t : Ty}
    (ht : (env.typeName n).value = some t) : (env'.typeName (n.requalified f)).value = some t := by
  cases hq : n.qualifier with
  | some q =>
    obtain ⟨i, s, hi, hs, hst⟩ := (typeName_qualified hq).mp ht
    obtain ⟨i', hi', hmodule⟩ := h.modules hi
    have hq' : (n.requalified f).qualifier = some (f q) := by rw [Surface.Name.requalified, hq, Option.map_some]
    exact (typeName_qualified hq').mpr ⟨i', s, hi', hmodule ▸ hs, hst⟩
  | none =>
    have hq' : (n.requalified f).qualifier = none := by rw [Surface.Name.requalified, hq, Option.map_none]
    rw [typeName_plain hq] at ht
    rw [typeName_plain hq', h.scope]
    exact ht

theorem Requalifies.typeExpr (h : env.Requalifies f env') {te : Surface.TypeExpr} {t : Ty}
    (ht : (env.typeExpr te).value = some t) : (env'.typeExpr (te.requalified f)).value = some t := by
  obtain ⟨ts, hts, rfl⟩ := typeExpr_value.mp ht
  refine typeExpr_value.mpr ⟨ts, ?_, rfl⟩
  have hmembers : (te.requalified f).members = te.members.map (Surface.Name.requalified f) := rfl
  rw [hmembers, List.forall₂_map_left_iff]
  exact hts.imp fun n t hn => h.typeName hn

theorem Requalifies.marker (h : env.Requalifies f env') {t : Surface.Tag} {m : Marker}
    (hm : (env.marker t).value = some m) : (env'.marker (t.requalified f)).value = some (m.requalified f) := by
  obtain ⟨q, i, s, hq, hi, hs, rfl⟩ := marker_value.mp hm
  obtain ⟨i', hi', hmodule⟩ := h.modules hi
  refine marker_value.mpr ⟨f q, i', s, ?_, hi', hmodule ▸ hs, ?_⟩
  · rw [Surface.Tag.requalified, hq, Option.map_some]
  · simp [Marker.requalified, Surface.Tag.requalified, h.span_eq]

theorem Requalifies.names (h : env.Requalifies f env') {n : Surface.Name} {v : ValueSymbol}
    (hn : env.Names params n v) : env'.Names (params.map (Param.requalified f)) (n.requalified f) v := by
  cases hn with
  | @parameter p hq hp =>
    have hvariable : env.variableOf p = env'.variableOf (p.requalified f) := by
      simp only [variableOf, Param.requalified, h.id]
    rw [hvariable]
    refine .parameter (by rw [Surface.Name.requalified, hq, Option.map_none]) ?_
    rw [← List.map_reverse, List.find?_map]
    exact congrArg (Option.map (Param.requalified f)) hp
  | own hq hp hf =>
    refine .own (by rw [Surface.Name.requalified, hq, Option.map_none]) ?_ (h.scope ▸ hf)
    rw [List.forall_mem_map]
    exact hp
  | @imported q i _ hq hi hv =>
    obtain ⟨i', hi', hmodule⟩ := h.modules hi
    exact .imported (by rw [Surface.Name.requalified, hq, Option.map_some]) hi' (hmodule ▸ hv)

theorem Requalifies.value (h : env.Requalifies f env') (htop : env.scope.TopLevel) {n : Surface.Name} {v : ValueSymbol}
    (hv : (env.value params n).value = some v) :
    (env'.value (params.map (Param.requalified f)) (n.requalified f)).value = some v :=
  (h.names (names_of_value htop hv)).value_eq

/-! ## Expressions and statements -/

mutual
theorem Requalifies.expr (h : env.Requalifies f env') (htop : env.scope.TopLevel) :
    (e : Surface.Expr Value) → {x : Expr} → (env.expr params e).value = some x →
      (env'.expr (params.map (Param.requalified f)) (e.requalified f)).value = some (x.requalified f)
  | .literal v p, x, hx => by
    rw [Env.expr] at hx
    obtain rfl := Option.some.inj hx
    rw [Surface.Expr.requalified, Env.expr, ok_value, h.span_eq, Expr.requalified]
  | .name n, x, hx => by
    rw [Env.expr, map_value, Option.map_eq_some_iff] at hx
    obtain ⟨v, hv, rfl⟩ := hx
    rw [Surface.Expr.requalified, Env.expr, map_value, h.value htop hv, Option.map_some, h.span_eq, Expr.requalified]
    rfl
  | .call n args, x, hx => by
    rw [Env.expr, bind_value, Option.bind_eq_some_iff] at hx
    obtain ⟨v, hv, hx⟩ := hx
    rcases v with g | v
    · obtain ⟨xs, hxs, hcall⟩ := Option.bind_eq_some_iff.mp ((bind_value _ _).symm.trans hx)
      obtain ⟨haccepts, rfl⟩ := checkedCall_value.mp hcall
      rw [Surface.Expr.requalified, Env.expr, bind_value, h.value htop hv, Option.bind_some, bind_value,
        Requalifies.exprs h htop args hxs, Option.bind_some]
      refine checkedCall_value.mpr ⟨haccepts.of_types ?_, ?_⟩
      · rw [List.map_map]
        exact List.map_congr_left fun y _ => y.type_requalified
      · rw [Expr.requalified, Expr.requalifiedAll_eq_map, h.span_eq]
        rfl
    · simp at hx

theorem Requalifies.exprs (h : env.Requalifies f env') (htop : env.scope.TopLevel) :
    (es : List (Surface.Expr Value)) → {xs : List Expr} → (env.exprs params es).value = some xs →
      (env'.exprs (params.map (Param.requalified f)) (Surface.Expr.requalifiedAll f es)).value =
        some (xs.map (Expr.requalified f))
  | [], xs, hxs => by
    rw [Env.exprs] at hxs
    obtain rfl := Option.some.inj hxs
    rw [Surface.Expr.requalifiedAll, Env.exprs]
    rfl
  | e :: es, xs, hxs => by
    rw [Env.exprs, map_value, Option.map_eq_some_iff] at hxs
    obtain ⟨⟨y, ys⟩, hboth, rfl⟩ := hxs
    obtain ⟨hy, hys⟩ := both_value_eq_some.mp hboth
    rw [Surface.Expr.requalifiedAll, Env.exprs, map_value,
      both_value (Requalifies.expr h htop e hy) (Requalifies.exprs h htop es hys)]
    rfl
end

theorem Requalifies.stmt (h : env.Requalifies f env') (htop : env.scope.TopLevel) {d : FunctionDecl}
    {s : Surface.Stmt Value} {t : Stmt} (ht : (env.stmt d s).value = some t) :
    (env'.stmt (d.requalified f) (s.requalified f)).value = some (t.requalified f) := by
  rcases s with ⟨_ | e, p⟩ | ⟨e, p⟩
  · obtain ⟨hret, rfl⟩ := checkedReturn_value.mp ht
    exact checkedReturn_value.mpr ⟨hret, by rw [h.span_eq]; rfl⟩
  · rw [Env.stmt, bind_value, Option.bind_eq_some_iff] at ht
    obtain ⟨x, hx, hchecked⟩ := ht
    obtain ⟨hret, rfl⟩ := checkedReturn_value.mp hchecked
    have hx' := h.expr htop e hx
    rw [← d.params_requalified] at hx'
    rw [Surface.Stmt.requalified, Option.map_some, Env.stmt, bind_value, hx', Option.bind_some]
    refine checkedReturn_value.mpr ⟨?_, by rw [h.span_eq]; rfl⟩
    rw [Option.map_some, x.type_requalified]
    exact hret
  · rw [Env.stmt, map_value, Option.map_eq_some_iff] at ht
    obtain ⟨x, hx, rfl⟩ := ht
    have hx' := h.expr htop e hx
    rw [← d.params_requalified] at hx'
    rw [Surface.Stmt.requalified, Env.stmt, map_value, hx', Option.map_some, h.span_eq]
    rfl

/-! ## Functions -/

theorem Requalifies.kindedParam (h : env.Requalifies f env') {p : Surface.Param Value}
    {k : Surface.ParamKind Value × Param} (hk : (env.kindedParam p).value = some k) :
    (env'.kindedParam (p.requalified f)).value = some (k.1.requalified f, k.2.requalified f) := by
  obtain ⟨t, ht, rfl⟩ := kindedParam_value.mp hk
  exact kindedParam_value.mpr ⟨t, h.typeExpr ht, by rw [h.span_eq]; rfl⟩

theorem Requalifies.result (h : env.Requalifies f env') {returns : Option Surface.TypeExpr} {t : Ty}
    (ht : (env.result returns).value = some t) :
    (env'.result (returns.map (Surface.TypeExpr.requalified f))).value = some t := by
  cases returns with
  | none => exact ht
  | some te => exact h.typeExpr ht

theorem Requalifies.declaration (h : env.Requalifies f env') (g : Surface.Function Value) (markers : List Marker)
    (ks : List (Surface.ParamKind Value × Param)) (ret : Ty) :
    env'.declaration (g.requalified f) (markers.map (Marker.requalified f))
        (ks.map fun k => (k.1.requalified f, k.2.requalified f)) ret =
      (env.declaration g markers ks ret).requalified f := by
  -- the parameters of each kind are chosen in the same way from both rows
  have hchosen : ∀ {choose : Surface.ParamKind Value × Param → Option Param},
      (∀ k, choose (k.1.requalified f, k.2.requalified f) = (choose k).map (Param.requalified f)) →
        (ks.map fun k => (k.1.requalified f, k.2.requalified f)).filterMap choose =
          (ks.filterMap choose).map (Param.requalified f) := by
    intro choose hchoose
    rw [List.filterMap_map, List.map_filterMap]
    exact List.filterMap_congr fun k _ => hchoose k
  have htypes : ∀ ps : List Param, (ps.map (Param.requalified f)).map Param.type = ps.map Param.type := by
    intro ps
    rw [List.map_map]
    rfl
  unfold Env.declaration
  simp only
  rw [hchosen (by rintro ⟨_ | e | _, p⟩ <;> rfl), hchosen (by rintro ⟨_ | e | _, p⟩ <;> rfl),
    hchosen (by rintro ⟨_ | e | _, p⟩ <;> rfl)]
  simp only [FunctionDecl.requalified, Surface.Function.requalified, h.id, h.span_eq, List.getLast?_map,
    Option.toList_map, ← List.map_append, functionType, htypes, List.length_map, Option.isSome_map, List.map_nil]

theorem Requalifies.signature (h : env.Requalifies f env') {g : Surface.Function Value} {d : FunctionDecl}
    (hd : (env.signature g).value = some d) :
    (env'.signature (g.requalified f)).value = some (d.requalified f) := by
  obtain ⟨markers, ks, ret, hmarkers, hks, hret, rfl⟩ := signature_value.mp hd
  refine signature_value.mpr ⟨markers.map (Marker.requalified f),
    ks.map fun k => (k.1.requalified f, k.2.requalified f), ret, ?_, ?_, h.result hret, (h.declaration g ..).symm⟩
  · rw [Surface.Function.requalified, List.forall₂_map_left_iff, List.forall₂_map_right_iff]
    exact hmarkers.imp fun t m hm => h.marker hm
  · rw [Surface.Function.requalified, List.forall₂_map_left_iff, List.forall₂_map_right_iff]
    exact hks.imp fun p k hk => h.kindedParam hk

theorem writtenDefault?_requalified (params : List (Surface.Param Value)) (name : Text) :
    writtenDefault? (params.map (Surface.Param.requalified f)) name =
      (writtenDefault? params name).map (Surface.Expr.requalified f) := by
  unfold writtenDefault?
  rw [← List.map_reverse, List.filterMap_map, ← List.head?_map, List.map_filterMap]
  congr 2
  funext p
  obtain ⟨n, position, type, kind⟩ := p
  cases kind with
  | defaultable e =>
    by_cases hn : n = name
    · simp [Surface.Param.requalified, Surface.ParamKind.requalified, hn]
    · simp [Surface.Param.requalified, Surface.ParamKind.requalified, hn]
  | _ => rfl

/-- A default about which nothing is said keeps its meaning. -/
theorem Requalifies.withDefault (h : env.Requalifies f env') (htop : env.scope.TopLevel) {g : Surface.Function Value}
    {p : Param} (hclean : (env.withDefault g p).2 = []) :
    env'.withDefault (g.requalified f) (p.requalified f) = ((env.withDefault g p).1.requalified f, []) := by
  have hwritten : writtenDefault? (g.requalified f).params (p.requalified f).name =
      (writtenDefault? g.params p.name).map (Surface.Expr.requalified f) :=
    writtenDefault?_requalified g.params p.name
  unfold Env.withDefault at hclean ⊢
  rw [hwritten]
  cases hdefault : writtenDefault? g.params p.name with
  | none => rfl
  | some e =>
    rw [hdefault] at hclean
    obtain ⟨x, hx⟩ := (env.settled_expr [] e).exists_value hclean
    have hx' : (env'.expr [] (e.requalified f)).value = some (x.requalified f) := h.expr htop e hx
    have hclean' := (env'.settled_expr [] (e.requalified f)).diagnostics_eq_nil hx'
    simp only [Option.map_some, hx, hx', hclean']
    rfl

/-- A statement about which nothing is said keeps its meaning. -/
theorem Requalifies.stmt_clean (h : env.Requalifies f env') (htop : env.scope.TopLevel) {d : FunctionDecl}
    {s : Surface.Stmt Value} (hclean : (env.stmt d s).diagnostics = []) :
    (env'.stmt (d.requalified f) (s.requalified f)).value = (env.stmt d s).value.map (Stmt.requalified f) ∧
      (env'.stmt (d.requalified f) (s.requalified f)).diagnostics = [] := by
  obtain ⟨t, ht⟩ := (env.settled_stmt d s).exists_value hclean
  have ht' := h.stmt htop ht
  exact ⟨by rw [ht', ht, Option.map_some], (env'.settled_stmt _ _).diagnostics_eq_nil ht'⟩

/-- A function about whose defaults and body nothing is said keeps both. -/
theorem Requalifies.body (h : env.Requalifies f env') (htop : env.scope.TopLevel) {g : Surface.Function Value}
    {decl d : FunctionDecl} (hd : env.body g decl = (d, [])) :
    env'.body (g.requalified f) (decl.requalified f) = (d.requalified f, []) := by
  obtain ⟨rfl, hclean⟩ := Prod.mk.inj hd
  simp only [List.append_eq_nil_iff, List.flatMap_eq_nil_iff, List.forall_mem_map] at hclean
  obtain ⟨hdefaults, hstmts⟩ := hclean
  have hdefaults' : (decl.requalified f).defaultable.map (env'.withDefault (g.requalified f)) =
      decl.defaultable.map fun p => ((env.withDefault g p).1.requalified f, []) := by
    rw [FunctionDecl.requalified, List.map_map]
    exact List.map_congr_left fun p hp => h.withDefault htop (hdefaults p hp)
  have hvalues : ((g.requalified f).body.map (env'.stmt (decl.requalified f))).filterMap Resolved.value =
      ((g.body.map (env.stmt decl)).filterMap Resolved.value).map (Stmt.requalified f) := by
    rw [Surface.Function.requalified, List.map_map, List.filterMap_map, List.filterMap_map, List.map_filterMap]
    exact List.filterMap_congr fun s hs => (h.stmt_clean htop (hstmts s hs)).1
  have hnothing : ((g.requalified f).body.map (env'.stmt (decl.requalified f))).flatMap Resolved.diagnostics = [] := by
    rw [List.flatMap_eq_nil_iff, List.forall_mem_map, Surface.Function.requalified, List.forall_mem_map]
    exact fun s hs => (h.stmt_clean htop (hstmts s hs)).2
  unfold Env.body
  simp only [hdefaults', hvalues, hnothing]
  simp [FunctionDecl.requalified, Function.comp_def]

theorem Requalifies.declaresWholly (h : env.Requalifies f env') (htop : env.scope.TopLevel)
    {g : Surface.Function Value} {d : FunctionDecl} (hd : env.DeclaresWholly g d) :
    env'.DeclaresWholly (g.requalified f) (d.requalified f) := by
  obtain ⟨decl, hsig, hbody⟩ := hd
  exact ⟨decl.requalified f, h.signature hsig, h.body htop hbody⟩

end Env

/-! ## Programs -/

variable {registry : Registry} {id : ModuleId} {file : Option Text} {program : Surface.Program Value}
  {unit : CompilationUnit}

theorem ImportsAs.requalified {i : Surface.Import} {d : ImportDecl} (h : ImportsAs registry file i d) :
    ImportsAs registry file (i.requalified f) (d.requalified f) := by
  obtain ⟨m, hm, rfl⟩ := h
  have hqualifier : ImportDecl.qualifier
      { id := ⟨i.space, i.name⟩, module := m, asName := i.asName, span := .ofPosition file i.position } =
        i.qualifier := rfl
  unfold Surface.Import.requalified ImportDecl.requalified
  rw [hqualifier]
  split
  · exact ⟨m, hm, rfl⟩
  · exact ⟨m, hm, rfl⟩

/-- A unit without problems knows its modules by the new prefixes, if these are kept apart. -/
theorem CompilationUnit.env_requalifies (hf : Renames f)
    (hinj : ∀ q ∈ unit.imports.map ImportDecl.qualifier, ∀ q' ∈ unit.imports.map ImportDecl.qualifier,
      f q = f q' → q = q') : unit.env.Requalifies f (unit.requalified f).env where
  file := rfl
  id := rfl
  scope := rfl
  modules := by
    intro q i hi
    obtain ⟨hmem, hq⟩ := Env.find_prefix hi
    refine ⟨i.requalified f, ?_, i.module_requalified⟩
    have hsame : unit.imports.find? ((·.qualifier == f q) ∘ ImportDecl.requalified f) =
        unit.imports.find? (·.qualifier == q) := by
      refine List.find?_congr fun j hj => ?_
      rw [Function.comp_apply, j.qualifier_requalified hf, ← hq, Bool.eq_iff_iff, beq_iff_eq, beq_iff_eq]
      refine ⟨?_, congrArg f⟩
      exact hinj _ (List.mem_map_of_mem hj) _ (List.mem_map_of_mem hmem)
    rw [CompilationUnit.env, CompilationUnit.requalified, List.find?_map, hsame]
    exact congrArg (Option.map (ImportDecl.requalified f)) hi

/-- A program without problems is resolved to the same unit under other prefixes. -/
theorem resolveProgram_requalified (hf : Renames f)
    (hinj : ∀ q ∈ program.imports.map Surface.Import.qualifier, ∀ q' ∈ program.imports.map Surface.Import.qualifier,
      f q = f q' → q = q')
    (h : resolveProgram registry id file program = (unit, [])) :
    resolveProgram registry id file (program.requalified f) = (unit.requalified f, []) := by
  obtain ⟨⟨rfl, hspan⟩, hto, hwhole⟩ := resolveProgram_eq_iff.mp h
  have hqualifiers : program.imports.map Surface.Import.qualifier = unit.imports.map ImportDecl.qualifier :=
    map_eq_of_forall₂ hto.imports fun _ hi => (ImportsAs.qualifier hi).symm
  rw [hqualifiers] at hinj
  have henv := unit.env_requalifies hf hinj
  have hwhole' : List.Forall₂ (unit.requalified f).env.DeclaresWholly (program.requalified f).functions
      (unit.requalified f).functions := by
    rw [Surface.Program.requalified, CompilationUnit.requalified, List.forall₂_map_left_iff,
      List.forall₂_map_right_iff]
    exact hwhole.imp fun g d hd => henv.declaresWholly hto.topLevel hd
  refine resolveProgram_eq_iff.mpr ⟨⟨rfl, hspan⟩, ?_, hwhole'⟩
  exact
    { imports := by
        rw [Surface.Program.requalified, CompilationUnit.requalified, List.forall₂_map_left_iff,
          List.forall₂_map_right_iff]
        exact hto.imports.imp fun i d hi => hi.requalified
      prefixes := by
        have hmap : (unit.requalified f).imports.map ImportDecl.qualifier =
            (unit.imports.map ImportDecl.qualifier).map f := by
          rw [CompilationUnit.requalified, List.map_map, List.map_map]
          exact List.map_congr_left fun i _ => i.qualifier_requalified hf
        rw [hmap]
        exact hto.prefixes.map_on fun q hq q' hq' heq => hinj q hq q' hq' heq
      types := hto.types
      functions := hwhole'.imp fun g d hd => hd.declares
      scope := by
        rw [CompilationUnit.requalified, List.map_map]
        exact hto.scope
      distinct := hto.distinct }

end Registrar
