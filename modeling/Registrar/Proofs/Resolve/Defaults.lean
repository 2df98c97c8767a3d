import Registrar.Proofs.Resolve.Order
import Registrar.Proofs.Resolve.Reports
import Registrar.Proofs.Resolve.Representation

/-!
# Defaults and the types of their parameters

Arguments and returned values are checked against the types that are asked for. Defaults are resolved, but nothing is
asked of their types. So the type of a default may be any, also where nothing was reported, and it is exactly the check
of returned values that is missing: a default fits its parameter if and only if the program may be given one more
function that returns the default where the type of the parameter is declared (`resolveProgram_defaults`).

One more function of a new name changes nothing for the others: what a name stands for is kept where the scope grows
(`GrowsTo`).
-/

namespace Registrar

open Resolved

namespace Env

variable {env env' : Env} {params : List Param}

/-! ## Scopes that grow -/

/-- Two environments of which the second has at most more names in scope. -/
structure GrowsTo (env env' : Env) : Prop where
  id : env.id = env'.id
  imports : env.imports = env'.imports
  lookup : ∀ {n s}, env.scope.lookup n = some s → env'.scope.lookup n = some s

/-- Symbols behind those in scope take no name away. -/
theorem growsTo_append (env : Env) (more : List Symbol) :
    env.GrowsTo { env with scope := ⟨env.scope.owner, env.scope.symbols ++ more⟩ } := by
  refine ⟨rfl, rfl, fun {n s} h => ?_⟩
  show Scope.lookup ⟨env.scope.owner, env.scope.symbols ++ more⟩ n = some s
  rw [Scope.lookup_append, show Scope.lookup ⟨env.scope.owner, env.scope.symbols⟩ n = some s from h, Option.some_or]

namespace GrowsTo

theorem names (h : env.GrowsTo env') {n : Surface.Name} {v : ValueSymbol} (hn : env.Names params n v) :
    env'.Names params n v := by
  cases hn with
  | @parameter p hq hp =>
    have hvar : env.variableOf p = env'.variableOf p := by rw [variableOf, variableOf, h.id]
    rw [hvar]
    exact .parameter hq hp
  | own hq hp hf => exact .own hq hp (h.lookup hf)
  | imported hq hi hv => exact .imported hq (h.imports ▸ hi) hv

/-- An expression keeps its meaning, and with it its type. -/
theorem expr (h : env.GrowsTo env') (htop : env.scope.TopLevel) {e : Surface.Expr Value} {x : Expr}
    (hx : (env.expr params e).value = some x) : ∃ y, (env'.expr params e).value = some y ∧ y.type = x.type := by
  have hmeans := (expr_sound htop e hx).transfer h.names fun _ hacc => hacc
  obtain ⟨y, hy, heq⟩ := Means.expr_eq hmeans
  exact ⟨y, hy, Expr.type_eq_of_unplaced heq⟩

theorem withDefault (h : env.GrowsTo env') (htop : env.scope.TopLevel) {f : Surface.Function Value} {p : Param}
    (hquiet : (env.withDefault f p).2 = []) : (env'.withDefault f p).2 = [] := by
  unfold Env.withDefault at hquiet ⊢
  split
  · rfl
  · next e he =>
    rw [he] at hquiet
    obtain ⟨x, hx⟩ := (env.settled_expr [] e).exists_value hquiet
    obtain ⟨y, hy, -⟩ := h.expr htop hx
    exact (env'.settled_expr [] e).diagnostics_eq_nil hy

theorem stmt (h : env.GrowsTo env') (htop : env.scope.TopLevel) {d : FunctionDecl} {s : Surface.Stmt Value}
    (hquiet : (env.stmt d s).diagnostics = []) : (env'.stmt d s).diagnostics = [] := by
  obtain ⟨t, ht⟩ := (env.settled_stmt d s).exists_value hquiet
  have hmeans := (stmt_sound htop ht).transfer h.names fun _ hacc => hacc
  obtain ⟨u, hu, -⟩ := stmt_eq_of_means hmeans
  exact (env'.settled_stmt d s).diagnostics_eq_nil hu

/-- A body about which nothing is reported stays one. -/
theorem body (h : env.GrowsTo env') (htop : env.scope.TopLevel) {f : Surface.Function Value} {decl : FunctionDecl}
    (hquiet : (env.body f decl).2 = []) : (env'.body f decl).2 = [] := by
  simp only [Env.body, List.append_eq_nil_iff, List.flatMap_eq_nil_iff, List.forall_mem_map] at hquiet ⊢
  exact ⟨fun p hp => h.withDefault htop (hquiet.1 p hp), fun s hs => h.stmt htop (hquiet.2 s hs)⟩

end GrowsTo

end Env

/-! ## One more function -/

namespace Surface

/-- A function without parameters that returns an expression where a type is asked for. -/
def Function.returning (name : Text) (type : TypeExpr) (e : Expr Value) : Function Value where
  name
  position := .start
  tags := []
  isPublic := false
  params := []
  returns := some type
  body := [.ret (some e) .start]

/-- No item at the top level has this name. -/
def Program.IsFree (program : Program Value) (name : Text) : Prop :=
  name ∉ program.records.map Record.name ++ program.functions.map Function.name

/-- The program with one more function, behind the others. -/
def Program.withFunction (program : Program Value) (f : Function Value) : Program Value :=
  { program with functions := program.functions ++ [f] }

theorem Program.Distinct.withFunction {program : Program Value} (h : program.Distinct) {f : Function Value}
    (hfree : program.IsFree f.name) : (program.withFunction f).Distinct := by
  rw [Distinct, Program.withFunction, List.map_append, ← List.append_assoc]
  exact h.append (List.nodup_singleton _) (List.disjoint_singleton.mpr hfree)

end Surface

variable {registry : Registry} {id : ModuleId} {file : Option Text} {program : Surface.Program Value}
  {unit : CompilationUnit}

/-- More functions in scope take no name away. -/
theorem Env.declaring_growsTo (env : Env) (fs gs : List (Surface.Function Value)) :
    (env.declaring fs).GrowsTo (env.declaring (fs ++ gs)) := by
  have happend : env.declaring (fs ++ gs) = { env.declaring fs with
      scope := ⟨(env.declaring fs).scope.owner, (env.declaring fs).scope.symbols ++ gs.filterMap env.symbol?⟩ } := by
    simp [declaring]
  rw [happend]
  exact (env.declaring fs).growsTo_append _

theorem Env.sameTypes_declaring (env : Env) (fs : List (Surface.Function Value)) :
    env.SameTypes (env.declaring fs) := by
  have hsymbols : fs.filterMap env.symbol? =
      (fs.filterMap fun f => (env.signature f).value.map FunctionDecl.symbol).map .function := by
    rw [List.map_filterMap]
    refine List.filterMap_congr fun f _ => ?_
    rw [symbol?, Option.map_map]
    rfl
  rw [declaring, hsymbols]
  exact env.sameTypes_append _

/-- Where nothing is reported, no two items have one name. -/
theorem distinct_of_quiet (h : resolveProgram registry id file program = (unit, [])) : program.Distinct := by
  obtain ⟨hto, -⟩ := resolveProgram_whole h
  have htypes : program.records.map Surface.Record.name = unit.types.map TypeDecl.name :=
    map_eq_of_forall₂ hto.types fun _ ht => by rw [ht.2]
  have hfunctions : program.functions.map Surface.Function.name = unit.functions.map FunctionDecl.name :=
    map_eq_of_forall₂ hto.functions fun _ hd => hd.name.symm
  rw [Surface.Program.Distinct, htypes, hfunctions]
  exact hto.names_nodup

/-- The imports and the records change neither the file nor the module. -/
theorem typedStage_place (registry : Registry) (id : ModuleId) (file : Option Text) (program : Surface.Program Value) :
    (typedStage registry id file program).1.file = file ∧ (typedStage registry id file program).1.id = id := by
  obtain ⟨is, imports, -, -, henv, -, -⟩ := resolveImports_kept registry (.initial id file) program.imports
  obtain ⟨rs, -, -, hscope, -, -⟩ := resolveRecords_kept
    { Env.initial id file with imports := (Env.initial id file).imports ++ imports } program.records
  rw [typedStage, henv]
  dsimp only
  rw [hscope]
  exact ⟨rfl, rfl⟩

/-- The environment of a unit is that of its first two stages, with its functions in scope. -/
theorem env_resolveProgram (registry : Registry) (id : ModuleId) (file : Option Text) (hnames : program.Distinct) :
    (resolveProgram registry id file program).1.env =
      (typedStage registry id file program).1.declaring program.functions := by
  obtain ⟨hfile, hid⟩ := typedStage_place registry id file program
  rw [resolveProgram_distinct registry id file hnames]
  generalize typedStage registry id file program = typed at hfile hid ⊢
  subst hfile hid
  rfl

/-- Where all names are distinct, nothing is reported exactly if nothing is about the imports and the records, and every
function has a signature and a body about which nothing is. -/
theorem resolveProgram_quiet_iff (hnames : program.Distinct) :
    (resolveProgram registry id file program).2 = [] ↔
      (typedStage registry id file program).2.2 = [] ∧
        ∀ f ∈ program.functions, ∃ decl, ((typedStage registry id file program).1.signature f).value = some decl ∧
          (((typedStage registry id file program).1.declaring program.functions).body f decl).2 = [] := by
  rw [resolveProgram_distinct registry id file hnames]
  generalize typedStage registry id file program = typed
  simp only [List.append_eq_nil_iff, List.flatMap_eq_nil_iff, and_assoc]
  refine and_congr_right fun _ => ⟨?_, ?_⟩
  · rintro ⟨hsignatures, hbodies⟩ f hf
    obtain ⟨decl, hsig⟩ := (typed.1.settled_signature f).exists_value (hsignatures f hf)
    refine ⟨decl, hsig, hbodies _ (List.mem_filterMap.mpr ⟨f, hf, ?_⟩)⟩
    rw [Env.whole?, hsig, Option.map_some]
  · intro hall
    constructor
    · intro f hf
      obtain ⟨decl, hsig, -⟩ := hall f hf
      exact (typed.1.settled_signature f).diagnostics_eq_nil hsig
    · intro k hk
      obtain ⟨f, hf, hk⟩ := List.mem_filterMap.mp hk
      obtain ⟨decl, hsig, hquiet⟩ := hall f hf
      rw [Env.whole?, hsig, Option.map_some] at hk
      rw [← Option.some.inj hk]
      exact hquiet

/-- A function that returns an expression is accepted exactly if the expression fits. -/
theorem returning_quiet_iff {env all : Env} (name : Text) {type : Surface.TypeExpr} {e : Surface.Expr Value} {t : Ty}
    {x : Expr} (ht : (env.typeExpr type).value = some t) (hx : (all.expr [] e).value = some x) :
    (∃ decl, (env.signature (.returning name type e)).value = some decl ∧
      (all.body (.returning name type e) decl).2 = []) ↔ x.type.isAssignable t = true := by
  obtain ⟨decl, hsig, hparams, hdefaultable, hret⟩ : ∃ decl, (env.signature (.returning name type e)).value = some decl ∧
      decl.params = [] ∧ decl.defaultable = [] ∧ decl.returnType = t :=
    ⟨_, Env.signature_value.mpr ⟨[], [], t, .nil, .nil, ht, rfl⟩, rfl, rfl, rfl⟩
  have hbody : (all.body (.returning name type e) decl).2 = (all.stmt decl (.ret (some e) .start)).diagnostics := by
    simp [Env.body, hdefaultable, Surface.Function.returning]
  -- there are no parameters, so the expression is resolved like a default
  have hstmt : (all.stmt decl (.ret (some e) .start)).value = (all.checkedReturn decl .start (some x)).value := by
    rw [Env.stmt, bind_value, hparams, hx, Option.bind_some]
  have hquiet : (all.body (.returning name type e) decl).2 = [] ↔ x.type.isAssignable t = true := by
    rw [hbody, (all.settled_stmt decl _).quiet, hstmt, Option.isSome_iff_exists]
    simp [Env.checkedReturn_value, hret]
  rw [hsig, ← hquiet]
  simp

/-- A program about which nothing is reported may be given other functions exactly if each of them has a signature and a
body about which nothing is. -/
theorem otherFunctions_quiet_iff (h : resolveProgram registry id file program = (unit, []))
    {others : List (Surface.Function Value)} (hnames : Surface.Program.Distinct { program with functions := others }) :
    (resolveProgram registry id file { program with functions := others }).2 = [] ↔
      ∀ f ∈ others, ∃ decl, (unit.env.signature f).value = some decl ∧
        (((typedStage registry id file program).1.declaring others).body f decl).2 = [] := by
  obtain ⟨htyped, -⟩ := (resolveProgram_quiet_iff (distinct_of_quiet h)).mp (congrArg Prod.snd h)
  have htypes := (typedStage registry id file program).1.sameTypes_declaring program.functions
  rw [← env_resolveProgram registry id file (distinct_of_quiet h), h] at htypes
  rw [resolveProgram_quiet_iff hnames]
  -- the imports and the records are those of the program
  show (typedStage registry id file program).2.2 = [] ∧ _ ↔ _
  simp only [htyped, true_and, ← htypes.signature_eq]
  rfl

/-- A program about which nothing is reported may be given a function of a new name that returns an expression, exactly
if the expression fits. -/
theorem withFunction_returning_quiet_iff (h : resolveProgram registry id file program = (unit, [])) {name : Text}
    (hfree : program.IsFree name) {type : Surface.TypeExpr} {e : Surface.Expr Value} {t : Ty} {x : Expr}
    (ht : (unit.env.typeExpr type).value = some t) (hx : (unit.env.expr [] e).value = some x) :
    (resolveProgram registry id file (program.withFunction (.returning name type e))).2 = [] ↔
      x.type.isAssignable t = true := by
  have hnames := distinct_of_quiet h
  obtain ⟨hto, hwhole⟩ := resolveProgram_whole h
  have hgrows := (typedStage registry id file program).1.declaring_growsTo program.functions [.returning name type e]
  rw [← env_resolveProgram registry id file hnames, h] at hgrows
  obtain ⟨y, hy, htype⟩ := hgrows.expr hto.topLevel hx
  rw [Surface.Program.withFunction, otherFunctions_quiet_iff h (hnames.withFunction hfree), ← htype,
    ← returning_quiet_iff name ht hy]
  constructor
  · intro hall
    exact hall _ (List.mem_append_right _ (List.mem_singleton_self _))
  · intro hreturning f hf
    rcases List.mem_append.mp hf with hf | hf
    · obtain ⟨d, -, decl, hsig, hbody⟩ := exists_of_mem_left hwhole hf
      exact ⟨decl, hsig, hgrows.body hto.topLevel (congrArg Prod.snd hbody)⟩
    · rw [List.mem_singleton.mp hf]
      exact hreturning

/-! ## Defaults -/

/-- A defaultable parameter of a function, `q` in the source and `p` in the unit: the default is what the expression
resolves to that is written for the name. -/
structure Env.DefaultsTo (env : Env) (f : Surface.Function Value) (q : Surface.Param Value) (p : Param)
    (e : Surface.Expr Value) (x : Expr) : Prop where
  name : p.name = q.name
  type : (env.typeExpr q.type).value = some p.type
  written : Env.writtenDefault? f.params q.name = some e
  default : p.default = some x
  value : (env.expr [] e).value = some x

/-- Where nothing is reported, every defaultable parameter has its default. -/
theorem Env.DeclaresWholly.defaults {env : Env} {f : Surface.Function Value} {d : FunctionDecl}
    (h : env.DeclaresWholly f d) :
    List.Forall₂ (fun q p => ∃ e x, env.DefaultsTo f q p e x) f.defaultable d.defaultable := by
  obtain ⟨decl, hsig, hbody⟩ := h
  obtain ⟨rfl, hquiet⟩ := Prod.mk.inj hbody
  show List.Forall₂ _ f.defaultable ((decl.defaultable.map (env.withDefault f)).map Prod.fst)
  rw [List.map_map, List.forall₂_map_right_iff]
  refine forall₂_imp_of_mem (signature_defaultables hsig) fun {q p} hp hqp => ?_
  have hmem : (env.withDefault f p).1 ∈ (env.body f decl).1.defaultable :=
    List.mem_map_of_mem (List.mem_map_of_mem hp)
  obtain ⟨e, hwritten, hvalue, hkept⟩ := body_default hsig hmem
  obtain ⟨x, hx⟩ := hkept hquiet
  obtain ⟨t, ht, rfl⟩ := Option.map_eq_some_iff.mp hqp
  rw [withDefault_name] at hwritten
  refine ⟨e, x, by simp, ?_, hwritten, hx, hvalue.symm.trans hx⟩
  show (env.typeExpr q.type).value = some (env.withDefault f _).1.type
  rw [withDefault_type]
  exact ht

/-- Where nothing is reported, every defaultable parameter has a default, but nothing is said of its type. It fits the
type of the parameter exactly if the program may be given one more function that returns the default where that type is
declared. -/
theorem resolveProgram_defaults (h : resolveProgram registry id file program = (unit, [])) :
    List.Forall₂ (fun f d => List.Forall₂ (fun q p => ∃ e x, unit.env.DefaultsTo f q p e x ∧
        ∀ name, program.IsFree name → (x.type.isAssignable p.type = true ↔
          (resolveProgram registry id file (program.withFunction (.returning name q.type e))).2 = []))
      f.defaultable d.defaultable) program.functions unit.functions := by
  obtain ⟨-, hwhole⟩ := resolveProgram_whole h
  refine hwhole.imp fun f d hd => hd.defaults.imp ?_
  rintro q p ⟨e, x, hto⟩
  refine ⟨e, x, hto, fun name hfree => ?_⟩
  rw [withFunction_returning_quiet_iff h hfree hto.type hto.value]

/-- A number with a text for its default, about which nothing is reported. -/
theorem resolveProgram_defaults_unchecked :
    let int : Surface.TypeExpr := ⟨⟨none, "int", .start⟩, []⟩
    let json : Surface.TypeExpr := ⟨⟨none, "json", .start⟩, []⟩
    let text : Surface.Expr Value := .literal (.str "x") .start
    let call : Surface.Expr Value := .call ⟨none, "one", .start⟩ []
    let program : Surface.Program Value :=
      { imports := [], records := []
        functions := [.returning "one" int (.literal (.int 1) .start),
          { name := "f", position := .start, tags := [], isPublic := false
            params := [⟨"a", .start, int, .defaultable text⟩, ⟨"b", .start, json, .defaultable call⟩]
            returns := none, body := [] }] }
    let resolved := resolveProgram {} ⟨"demo", "app"⟩ none program
    resolved.2 = [] ∧
      (resolved.1.functions.map fun d => d.defaultable.map fun p => p.default.map (·.type.isAssignable p.type)) =
        [[], [some false, some true]] ∧
      (resolveProgram {} ⟨"demo", "app"⟩ none (program.withFunction (.returning "g" int text))).2 ≠ [] ∧
      (resolveProgram {} ⟨"demo", "app"⟩ none (program.withFunction (.returning "g" json call))).2 = [] := by
  intro int json text call program resolved
  have hquiet : resolved.2 = [] := by decide +kernel
  have hfits : (resolved.1.functions.map fun d => d.defaultable.map fun p => p.default.map (·.type.isAssignable p.type)) =
      [[], [some false, some true]] := by decide +kernel
  have hfree : program.IsFree "g" := by unfold Surface.Program.IsFree; decide
  have hall := resolveProgram_defaults (show resolveProgram {} ⟨"demo", "app"⟩ none program = (resolved.1, []) from
    Prod.ext rfl hquiet)
  obtain ⟨one, rest, -, hrest, hfunctions⟩ := List.forall₂_cons_left_iff.mp hall
  obtain ⟨f, others, hf, -, rfl⟩ := List.forall₂_cons_left_iff.mp hrest
  obtain ⟨a, more, ⟨e, x, ha, htext⟩, hmore, hdefaultable⟩ := List.forall₂_cons_left_iff.mp hf
  obtain ⟨b, last, ⟨e', y, hb, hcall⟩, -, rfl⟩ := List.forall₂_cons_left_iff.mp hmore
  obtain rfl : text = e := Option.some.inj ha.written
  obtain rfl : call = e' := Option.some.inj hb.written
  have hsome := hfits
  rw [hfunctions] at hsome
  simp only [List.map_cons, hdefaultable, ha.default, hb.default, Option.map_some, List.cons.injEq, Option.some.injEq]
    at hsome
  refine ⟨hquiet, hfits, fun haccept => ?_, (hcall "g" hfree).mp hsome.2.1.2.1⟩
  exact Bool.false_ne_true (hsome.2.1.1.symm.trans ((htext "g" hfree).mpr haccept))

end Registrar
