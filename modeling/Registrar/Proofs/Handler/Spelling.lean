import Registrar.Proofs.Contract
import Registrar.Proofs.Handler.Collection
import Registrar.Proofs.Resolve.Types
import Registrar.Surface.Program

/-!
# How a handler is spelled

Which functions of a unit are handlers is decided on what names stand for: the identity of a tag, the context type of
the contract. `Contract.spelledHandler` says it of the source: the function carries `@p:marker`, its parameters are
written `q:Context` and `json`, its result is a union of two members, each written `json` or `error`, and `p` and `q`
are prefixes of imports of the runtime support module. `collect_handlers_eq` says that the two come to the same for a
program without problems, if the other modules own the types that they export, and `collect_handlers_borrowed` that they
need not if these own no more than their symbols.
-/

namespace Registrar

/-! ## Spellings -/

namespace Surface

variable {L : Type}

/-- The prefix by which the names of an imported module are qualified. -/
def Import.qualifier (i : Import) : Text := (i.asName.filter (· ≠ [])).getD i.name

/-- The name is unqualified. -/
def Name.isPlain (n : Name) (ident : Text) : Bool := n.qualifier.isNone && n.ident == ident

/-- The name is qualified by one of the prefixes. -/
def Name.isFrom (n : Name) (prefixes : List Text) (ident : Text) : Bool :=
  n.qualifier.any (· ∈ prefixes) && n.ident == ident

def ParamKind.isRequired : ParamKind L → Bool
  | .required => true
  | _ => false

theorem ParamKind.isRequired_iff {k : ParamKind L} : k.isRequired = true ↔ k = .required := by
  cases k <;> simp [isRequired]

/-- A required parameter whose type is one name, spelled in some way. -/
def Param.isRequiredOf (p : Param L) (spelled : Name → Bool) : Bool :=
  p.kind.isRequired && p.type.others.isEmpty && spelled p.type.first

end Surface

namespace Contract

/-- The prefixes by which a program names the runtime support module. -/
def prefixes (c : Contract) (program : Surface.Program Value) : List Text :=
  (program.imports.filter fun i => (⟨i.space, i.name⟩ : ModuleId) = c.runtimeModule).map Surface.Import.qualifier

/-- The function is written as a handler. -/
def spelledHandler (c : Contract) (prefixes : List Text) (f : Surface.Function Value) : Bool :=
  f.tags.any (fun t => t.qualifier.any (· ∈ prefixes) && t.name == c.markerName) &&
    (match f.params with
      | [context, payload] =>
        context.isRequiredOf (·.isFrom prefixes c.contextTypeName) && payload.isRequiredOf (·.isPlain "json")
      | _ => false) &&
    f.returns.any fun t => t.members.length == 2 && t.members.all fun n => n.isPlain "json" || n.isPlain "error"

end Contract

/-! ## Spellings and what they stand for -/

theorem ImportsAs.qualifier {registry : Registry} {file : Option Text} {i : Surface.Import} {d : ImportDecl}
    (h : ImportsAs registry file i d) : d.qualifier = i.qualifier := by
  obtain ⟨m, -, rfl⟩ := h
  rfl

theorem Ty.builtin?_json (m : Text) : Ty.builtin? m = some .json ↔ m = "json" := by
  simp [Ty.builtin?_eq_some, Ty.builtins]

theorem Ty.builtin?_error (m : Text) : Ty.builtin? m = some .error ↔ m = "error" := by
  simp [Ty.builtin?_eq_some, Ty.builtins]

/-- A type is what one name stands for exactly if it is spelled so. -/
theorem Env.typeExpr_name {env : Env} {te : Surface.TypeExpr} {t b : Ty} (hb : ∀ ts, b ≠ .union ts)
    {spelled : Surface.Name → Bool}
    (hspelled : ∀ {n t}, (env.typeName n).value = some t → (t = b ↔ spelled n = true))
    (ht : (env.typeExpr te).value = some t) :
    t = b ↔ te.others.isEmpty = true ∧ spelled te.first = true := by
  rcases Env.typeExpr_cases ht with ⟨hone, ht⟩ | ⟨hmany, ts, -, rfl⟩
  · simp [hone, hspelled ht]
  · simp [hmany, Ne.symm (hb ts)]

/-- A declaration with required parameters only lists all of them. -/
theorem Env.declaration_required {env : Env} {f : Surface.Function Value} {markers : List Marker} {ret : Ty}
    {params : List (Surface.ParamKind Value × Param)}
    (hdefaultable : (env.declaration f markers params ret).defaultable = [])
    (hrest : (env.declaration f markers params ret).rest = none) :
    params = (env.declaration f markers params ret).required.map fun p => (.required, p) := by
  simp only [declaration, List.getLast?_eq_none_iff] at hdefaultable hrest ⊢
  induction params with
  | nil => rfl
  | cons k params ih =>
    obtain ⟨kind, p⟩ := k
    cases kind with
    | required =>
      simp only [List.filterMap_cons, List.map_cons] at hdefaultable hrest ⊢
      rw [← ih hdefaultable hrest]
    | defaultable e => simp at hdefaultable
    | rest => simp at hrest

namespace ResolvesTo

variable {c : Contract} {registry : Registry} {program : Surface.Program Value} {unit : CompilationUnit}

/-- The prefixes of the runtime support module are those of its imports. -/
theorem mem_prefixes (h : ResolvesTo registry program unit) {q : Text} :
    q ∈ c.prefixes program ↔ ∃ i ∈ unit.imports, i.qualifier = q ∧ i.id = c.runtimeModule := by
  simp only [Contract.prefixes, List.mem_map, List.mem_filter, decide_eq_true_eq]
  constructor
  · rintro ⟨i, ⟨hi, hid⟩, rfl⟩
    obtain ⟨d, hd, m, -, rfl⟩ := exists_of_mem_left h.imports hi
    exact ⟨_, hd, rfl, hid⟩
  · rintro ⟨d, hd, rfl, hid⟩
    obtain ⟨i, hi, m, -, rfl⟩ := exists_of_mem_right h.imports hd
    exact ⟨i, ⟨hi, hid⟩, rfl⟩

/-- Only a name behind a prefix of the runtime support module stands for the context type. -/
theorem typeName_context (h : ResolvesTo registry program unit) (howned : registry.Owned)
    (hid : unit.id ≠ c.runtimeModule) {n : Surface.Name} {t : Ty} (ht : (unit.env.typeName n).value = some t) :
    t = c.contextType ↔ n.isFrom (c.prefixes program) c.contextTypeName = true := by
  simp only [Contract.contextType, Surface.Name.isFrom, Bool.and_eq_true, beq_iff_eq, Option.any_eq_true,
    decide_eq_true_eq, h.mem_prefixes]
  rcases h.typeName_cases howned ht with ⟨hq, hb⟩ | ⟨hq, -, rfl⟩ | ⟨i, hi, hq, rfl⟩
  · simp [hq, (Ty.builtin?_simple hb).1]
  · simp [hq, hid]
  · simp only [Ty.user.injEq, Option.some.injEq, hq, exists_eq_left']
    constructor
    · rintro ⟨hn, hi'⟩
      exact ⟨⟨i, hi, rfl, hi'⟩, hn⟩
    · rintro ⟨⟨j, hj, hji, hj'⟩, hn⟩
      rw [List.inj_on_of_nodup_map h.prefixes hj hi hji] at hj'
      exact ⟨hn, hj'⟩

/-- Only its own unqualified name stands for a built-in type that is written by one word. -/
theorem typeName_builtin (h : ResolvesTo registry program unit) (howned : registry.Owned) {n : Surface.Name}
    {t b : Ty} {name : Text} (hname : ∀ m, Ty.builtin? m = some b ↔ m = name)
    (ht : (unit.env.typeName n).value = some t) : t = b ↔ n.isPlain name = true := by
  have hb := Ty.builtin?_simple ((hname name).mpr rfl)
  simp only [Surface.Name.isPlain, Bool.and_eq_true, beq_iff_eq, Option.isNone_iff_eq_none]
  rcases h.typeName_cases howned ht with ⟨hq, ht⟩ | ⟨hq, hnone, rfl⟩ | ⟨i, hi, hq, rfl⟩
  · rw [← hname, ht]
    simp [hq]
  · rw [← hname, hnone]
    simp [Ne.symm (hb.1 _ _)]
  · simp [hq, Ne.symm (hb.1 _ _)]

/-- A result type is the one of a handler exactly if it is spelled so. -/
theorem result_handler (h : ResolvesTo registry program unit) (howned : registry.Owned)
    {returns : Option Surface.TypeExpr} {ret : Ty} (hret : (unit.env.result returns).value = some ret) :
    (∃ members, ret = .union members ∧ members.length = 2 ∧ members.all Ty.isHandlerResult = true) ↔
      returns.any (fun t => t.members.length == 2 &&
        t.members.all fun n => n.isPlain "json" || n.isPlain "error") = true := by
  have hmember : ∀ {n t}, (unit.env.typeName n).value = some t →
      t.isHandlerResult = (n.isPlain "json" || n.isPlain "error") := by
    intro n t ht
    rw [Bool.eq_iff_iff, Bool.or_eq_true, ← h.typeName_builtin howned Ty.builtin?_json ht,
      ← h.typeName_builtin howned Ty.builtin?_error ht]
    cases t <;> simp [Ty.isHandlerResult]
  cases returns with
  | none =>
    obtain rfl := Option.some.inj hret
    simp
  | some te =>
    rcases Env.typeExpr_cases hret with ⟨hone, ht⟩ | ⟨hmany, ts, hts, rfl⟩
    · have hlen : te.members.length = 1 := by simp [Surface.TypeExpr.members, hone]
      simp [hlen, h.typeName_ne_union howned ht]
    · simp only [Ty.union.injEq, exists_eq_left', all_eq_of_forall₂ hts hmember, hts.length_eq, Option.any_some,
        Bool.and_eq_true, beq_iff_eq]

/-- A tag marks a handler exactly if it is spelled so. -/
theorem marker_handler (h : ResolvesTo registry program unit) (howned : registry.Owned) {t : Surface.Tag}
    {m : Marker} (hm : (unit.env.marker t).value = some m) :
    (m.symbol.identity == c.markerIdentity) =
      (t.qualifier.any (· ∈ c.prefixes program) && t.name == c.markerName) := by
  obtain ⟨q, i, s, hq, hi, hs, rfl⟩ := Env.marker_value.mp hm
  obtain ⟨hmem, hqi⟩ := Env.find_prefix hi
  have howner : s.owner = i.id :=
    ((h.import_owned howned hmem).owner _ (Scope.lookup_mem hs)).trans (h.import_id hmem)
  have hname : s.name = t.name := Scope.lookup_name hs
  rw [Bool.eq_iff_iff]
  simp only [TagSymbol.identity, Contract.markerIdentity, howner, hname, beq_iff_eq, Prod.mk.injEq, hq,
    Option.any_some, Bool.and_eq_true, decide_eq_true_eq, h.mem_prefixes]
  constructor
  · rintro ⟨hspace, hiname, hmarker⟩
    have hid : i.id = c.runtimeModule := by rw [ModuleId.mk.injEq]; exact ⟨hspace, hiname⟩
    exact ⟨⟨i, hmem, hqi, hid⟩, hmarker⟩
  · rintro ⟨⟨j, hj, hjq, hjid⟩, hmarker⟩
    rw [List.inj_on_of_nodup_map h.prefixes hj hmem (hjq.trans hqi.symm)] at hjid
    exact ⟨by rw [hjid], by rw [hjid], hmarker⟩

/-- The parameters are those of a handler exactly if they are spelled so. -/
theorem params_handler (h : ResolvesTo registry program unit) (howned : registry.Owned)
    (hid : unit.id ≠ c.runtimeModule) {f : Surface.Function Value}
    {params : List (Surface.ParamKind Value × Param)}
    (hparams : List.Forall₂ (fun p k => (unit.env.kindedParam p).value = some k) f.params params)
    (markers : List Marker) (ret : Ty) :
    (∃ context payload, (unit.env.declaration f markers params ret).required = [context, payload] ∧
        (unit.env.declaration f markers params ret).defaultable = [] ∧
        (unit.env.declaration f markers params ret).rest = none ∧
        context.type = c.contextType ∧ payload.type = .json) ↔
      (match f.params with
        | [context, payload] => context.isRequiredOf (·.isFrom (c.prefixes program) c.contextTypeName) &&
            payload.isRequiredOf (·.isPlain "json")
        | _ => false) = true := by
  have hcontext : ∀ {te t}, (unit.env.typeExpr te).value = some t → (t = c.contextType ↔
      te.others.isEmpty = true ∧ te.first.isFrom (c.prefixes program) c.contextTypeName = true) :=
    fun ht => Env.typeExpr_name (by simp [Contract.contextType]) (fun hn => h.typeName_context howned hid hn) ht
  have hjson : ∀ {te t}, (unit.env.typeExpr te).value = some t → (t = .json ↔
      te.others.isEmpty = true ∧ te.first.isPlain "json" = true) :=
    fun ht => Env.typeExpr_name (by simp) (fun hn => h.typeName_builtin howned Ty.builtin?_json hn) ht
  constructor
  · rintro ⟨context, payload, hrequired, hdefaultable, hrest, hctype, hptype⟩
    have hks := Env.declaration_required hdefaultable hrest
    rw [hrequired] at hks
    subst hks
    obtain ⟨p, ps, hp, hps, heq⟩ := List.forall₂_cons_right_iff.mp hparams
    obtain ⟨q, qs, hq, hqs, rfl⟩ := List.forall₂_cons_right_iff.mp hps
    obtain rfl := List.forall₂_nil_right_iff.mp hqs
    obtain ⟨s, hs, hpk⟩ := Env.kindedParam_value.mp hp
    obtain ⟨t, ht, hqk⟩ := Env.kindedParam_value.mp hq
    obtain ⟨hpkind, rfl⟩ := Prod.mk.inj hpk
    obtain ⟨hqkind, rfl⟩ := Prod.mk.inj hqk
    simp [heq, Surface.Param.isRequiredOf, Surface.ParamKind.isRequired, ← hpkind, ← hqkind, (hcontext hs).mp hctype,
      (hjson ht).mp hptype]
  · intro hspelled
    split at hspelled
    · next p q hps =>
      rw [hps] at hparams
      obtain ⟨k, ks, hk, hks, rfl⟩ := List.forall₂_cons_left_iff.mp hparams
      obtain ⟨l, ls, hl, hls, rfl⟩ := List.forall₂_cons_left_iff.mp hks
      obtain rfl := List.forall₂_nil_left_iff.mp hls
      obtain ⟨s, hs, rfl⟩ := Env.kindedParam_value.mp hk
      obtain ⟨t, ht, rfl⟩ := Env.kindedParam_value.mp hl
      simp only [Surface.Param.isRequiredOf, Bool.and_eq_true] at hspelled
      obtain ⟨⟨⟨hpkind, hpone⟩, hpname⟩, ⟨hqkind, hqone⟩, hqname⟩ := hspelled
      rw [Surface.ParamKind.isRequired_iff] at hpkind hqkind
      refine ⟨⟨p.name, s, none, unit.env.span p.position⟩, ⟨q.name, t, none, unit.env.span q.position⟩, ?_, ?_, ?_,
        (hcontext hs).mpr ⟨hpone, hpname⟩, (hjson ht).mpr ⟨hqone, hqname⟩⟩ <;>
        simp [Env.declaration, hpkind, hqkind]
    · simp at hspelled

/-- A function of the unit is a handler exactly if it is spelled as one. -/
theorem handler_iff (h : ResolvesTo registry program unit) (howned : registry.Owned)
    (hid : unit.id ≠ c.runtimeModule) {f : Surface.Function Value} {d : FunctionDecl}
    (hd : unit.env.Declares f d) :
    decide (c.standing d = .handler) = c.spelledHandler (c.prefixes program) f := by
  obtain ⟨decl, hsig, rfl⟩ := hd
  obtain ⟨markers, params, ret, hmarkers, hparams, hret, rfl⟩ := Env.signature_value.mp hsig
  have hmarked : c.isMarked (unit.env.body f (unit.env.declaration f markers params ret)).1 =
      f.tags.any fun t => t.qualifier.any (· ∈ c.prefixes program) && t.name == c.markerName :=
    any_eq_of_forall₂ hmarkers fun hm => h.marker_handler howned hm
  rw [Contract.spelledHandler, ← hmarked, Bool.and_assoc, Bool.eq_iff_iff, decide_eq_true_iff,
    Contract.standing_eq_handler, Contract.violation?_eq_find?, Contract.find?_breaks_eq_none, Bool.and_eq_true,
    Bool.and_eq_true, ← h.result_handler howned hret, ← h.params_handler howned hid hparams markers ret]
  refine and_congr_right fun _ => ?_
  -- a body changes no parameter but for its default
  have hdefaultable : (unit.env.body f (unit.env.declaration f markers params ret)).1.defaultable = [] ↔
      (unit.env.declaration f markers params ret).defaultable = [] := by
    simp [Env.body]
  simp only [hdefaultable]
  constructor
  · rintro ⟨context, payload, hreq, hdef, hrest, hctx, hpay, hresult⟩
    exact ⟨⟨context, payload, hreq, hdef, hrest, hctx, hpay⟩, hresult⟩
  · rintro ⟨⟨context, payload, hreq, hdef, hrest, hctx, hpay⟩, hresult⟩
    exact ⟨context, payload, hreq, hdef, hrest, hctx, hpay, hresult⟩

end ResolvesTo

/-! ## Handlers -/

/-- The handlers of a program without problems are, in the order of the source, the functions that are spelled as
handlers. Any modules may be imported beside the runtime support module, as long as they own their symbols and the types
that they export. -/
theorem collect_handlers_eq {c : Contract} {modules : List Module} (howned : ∀ m ∈ modules, m.Owned) {id : ModuleId}
    (hid : id ≠ c.runtimeModule) {file : Option Text} {program : Surface.Program Value} {unit : CompilationUnit}
    (hresolve : resolveProgram (modules.foldl Registry.add c.registry) id file program = (unit, [])) :
    unit.functions.map FunctionDecl.name = program.functions.map Surface.Function.name ∧
      (c.collect unit).handlers =
        ((program.functions.zip unit.functions).filter fun k =>
          c.spelledHandler (c.prefixes program) k.1).map Prod.snd := by
  obtain ⟨h, -⟩ := resolveProgram_whole hresolve
  obtain rfl := resolveProgram_id hresolve
  have hreg : (modules.foldl Registry.add c.registry).Owned := c.registry_owned.foldl_add howned
  refine ⟨?_, ?_⟩
  · have hnames : List.Forall₂ (fun f d => Surface.Function.name f = FunctionDecl.name d) program.functions
        unit.functions := by
      refine h.functions.imp ?_
      rintro f d ⟨decl, hsig, rfl⟩
      exact (Env.signature_name hsig).1.symm
    rw [← List.forall₂_eq_eq_eq, List.forall₂_map_left_iff, List.forall₂_map_right_iff]
    exact hnames.flip.imp fun d f hfd => Eq.symm hfd
  · rw [Contract.collect_handlers_standing]
    exact filter_eq_of_forall₂ h.functions fun hd => h.handler_iff hreg hid hd

/-- Two prefixes of the runtime support module, and a module with a type and a tag of the same names: only the function
that names the right ones is a handler. -/
theorem collect_handlers_spoofed :
    let base (name : Text) : SymbolBase := { name, owner := ⟨"acme", "fake"⟩, stamp := .exported }
    let fake : Module := ⟨⟨"acme", "fake"⟩, ⟨⟨"acme", "fake"⟩,
      [.type { toSymbolBase := base "Context", type := .user "Context" (some ⟨"acme", "fake"⟩) },
        .tag { toSymbolBase := base "Function" }]⟩⟩
    let name (q : Option Text) (ident : Text) : Surface.Name := ⟨q, ident, .start⟩
    let function (n tag context : Text) : Surface.Function Value :=
      { name := n, position := .start, tags := [⟨some tag, "Function", .start⟩], isPublic := true
        params := [⟨"ctx", .start, ⟨name (some context) "Context", []⟩, .required⟩,
          ⟨"event", .start, ⟨name none "json", []⟩, .required⟩]
        returns := some ⟨name none "error", [name none "json"]⟩, body := [] }
    let program : Surface.Program Value :=
      { imports := [⟨"ballerinax", "awslambda", none, .start⟩, ⟨"ballerinax", "awslambda", some "rt", .start⟩,
          ⟨"acme", "fake", none, .start⟩]
        records := [⟨"Context", .start⟩]
        functions := [function "spoof" "fake" "rt", function "handle" "rt" "awslambda", function "half" "rt" "fake"] }
    let resolved := resolveProgram ([fake].foldl Registry.add ({} : Contract).registry) ⟨"demo", "app"⟩ none program
    resolved.2 = [] ∧ ((({} : Contract).collect resolved.1).handlers.map FunctionDecl.name = [("handle" : Text)]) := by
  intro base fake name function program resolved
  have hclean : resolved.2 = [] := by decide +kernel
  have hfake : ∀ m ∈ [fake], m.Owned := by
    intro m hm
    rw [List.mem_singleton.mp hm]
    refine ⟨by decide +kernel, fun t ht => ?_⟩
    rcases List.mem_cons.mp ht with h | h
    · rw [Symbol.type.inj h]
    · simp at h
  have hhandlers := (collect_handlers_eq hfake (by decide) (Prod.ext rfl hclean)).2
  refine ⟨hclean, ?_⟩
  rw [hhandlers]
  decide +kernel

/-- A module that owns its symbols, but not the types under two of them: these are the context type and `json`. -/
def borrowing : Module :=
  let base (name : Text) : SymbolBase := { name, owner := ⟨"acme", "fake"⟩, stamp := .exported }
  ⟨⟨"acme", "fake"⟩, ⟨⟨"acme", "fake"⟩, [.type { toSymbolBase := base "Context", type := ({} : Contract).contextType },
    .type { toSymbolBase := base "Payload", type := .json }]⟩⟩

/-- A function that takes its types from that module. -/
def borrowedText : Text :=
  "import ballerinax/awslambda;\nimport acme/fake;\n" ++
    "@awslambda:Function\nfunction h(fake:Context c, fake:Payload p) returns json|error {}\n"

/-- It is not enough that modules own their symbols: a function that is not spelled as a handler becomes one if another
module lends it the types. -/
theorem collect_handlers_borrowed :
    ¬ ∀ (c : Contract) (modules : List Module) (id : ModuleId) (file : Option Text) (source : Text)
        (program : Surface.Program Value) (unit : CompilationUnit),
      [c.contextTypeName, c.markerName, c.registerOp, c.processOp].Nodup →
      (∀ m ∈ modules, m.id ≠ c.runtimeModule ∧ ∀ s ∈ m.exports.symbols, s.base.owner = m.id) →
      id ≠ c.runtimeModule → Surface.readProgram source = .ok program →
      resolveProgram (modules.foldl Registry.add c.registry) id file program = (unit, []) →
      (c.collect unit).handlers = ((program.functions.zip unit.functions).filter fun k =>
        c.spelledHandler (c.prefixes program) k.1).map Prod.snd := by
  intro hall
  have hborrowed : (match Surface.readProgram borrowedText with
      | .error _ => false
      | .ok program =>
        let registry := [borrowing].foldl Registry.add ({} : Contract).registry
        let resolved := resolveProgram registry ⟨"demo", "app"⟩ none program
        resolved.2.isEmpty && !(({} : Contract).collect resolved.1).handlers.isEmpty &&
          !program.functions.any (({} : Contract).spelledHandler (({} : Contract).prefixes program))) = true := by
    decide +kernel
  cases hread : Surface.readProgram borrowedText with
  | error e => simp [hread] at hborrowed
  | ok program =>
    simp only [hread, Bool.and_eq_true, Bool.not_eq_true', List.isEmpty_iff, List.any_eq_false] at hborrowed
    obtain ⟨⟨hclean, hhandlers⟩, hspelled⟩ := hborrowed
    have heq := hall {} [borrowing] ⟨"demo", "app"⟩ none borrowedText program _ (by decide) (by decide) (by decide) hread
      (Prod.ext rfl hclean)
    rw [List.filter_eq_nil_iff.mpr fun k hk => hspelled k.1 (List.of_mem_zip hk).1] at heq
    rw [heq] at hhandlers
    cases hhandlers

end Registrar
