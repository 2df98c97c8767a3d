import Registrar.Proofs.Resolve.Noninterference

/-!
# Which default counts

Defaults are kept by the names of their parameters, and nothing keeps two parameters of one function from having one
name. Of the defaults that are written for a name the last one *counts*: all defaultable parameters of that name get it.
The others are not looked at, so a program may have any expression there (`resolveProgram_countingDefaults`).
-/

namespace Registrar

open Resolved

/-! ## Defaults by name -/

namespace Surface

/-- No parameter of a row has this name and a default. -/
def Lacks (params : List (Param Value)) (name : Text) : Prop :=
  ∀ p ∈ params, p.kind.isDefaultable = true → p.name ≠ name

/-- The default that counts for a name: no parameter behind has the name and a default. -/
def Counts (params : List (Param Value)) (name : Text) (e : Expr Value) : Prop :=
  ∃ ps q qs, params = ps ++ q :: qs ∧ q.kind = .defaultable e ∧ q.name = name ∧ Lacks qs name

/-- The parameter with a default, whatever it had before. -/
def Param.redefault (p : Param Value) (e : Expr Value) : Param Value := { p with kind := .defaultable e }

theorem Param.redefault_self {p : Param Value} {e : Expr Value} (h : p.kind = .defaultable e) : p.redefault e = p := by
  rw [redefault, ← h]

end Surface

namespace Env

variable {ps qs : List (Surface.Param Value)} {n : Text}

theorem writtenDefault?_append (ps qs : List (Surface.Param Value)) (n : Text) :
    writtenDefault? (ps ++ qs) n = (writtenDefault? qs n).or (writtenDefault? ps n) := by
  rw [writtenDefault?, List.reverse_append, List.filterMap_append, List.head?_append]
  rfl

theorem writtenDefault?_eq_none : writtenDefault? qs n = none ↔ Surface.Lacks qs n := by
  constructor
  · intro h p hp hk hn
    cases hkind : p.kind with
    | defaultable e =>
      obtain ⟨e', he'⟩ := exists_writtenDefault? hp hkind
      rw [hn, h] at he'
      cases he'
    | _ => simp [hkind, Surface.ParamKind.isDefaultable] at hk
  · intro h
    cases hwritten : writtenDefault? qs n with
    | none => rfl
    | some e =>
      obtain ⟨p, hp, hk, hn⟩ := writtenDefault?_mem hwritten
      exact absurd hn (h p hp (by rw [hk]; rfl))

/-- The default of one parameter among others. -/
theorem writtenDefault?_redefault (ps : List (Surface.Param Value)) (q : Surface.Param Value) (e : Surface.Expr Value)
    (qs : List (Surface.Param Value)) (n : Text) :
    writtenDefault? (ps ++ q.redefault e :: qs) n =
      (writtenDefault? qs n).or (if q.name = n then some e else writtenDefault? ps n) := by
  have hone : writtenDefault? [q.redefault e] n = if q.name = n then some e else none := by
    by_cases hn : q.name = n <;> simp [writtenDefault?, Surface.Param.redefault, hn]
  rw [writtenDefault?_append, ← List.singleton_append, writtenDefault?_append, hone, Option.or_assoc]
  by_cases hn : q.name = n <;> simp [hn]

/-- A default that does not count makes no difference, and no default makes one for another name. -/
theorem writtenDefault?_indifferent {q : Surface.Param Value} {e : Surface.Expr Value} (hkind : q.kind = .defaultable e)
    (h : q.name = n → ¬ Surface.Lacks qs n) (e' : Surface.Expr Value) :
    writtenDefault? (ps ++ q.redefault e' :: qs) n = writtenDefault? (ps ++ q :: qs) n := by
  have hother := writtenDefault?_redefault ps q e qs n
  rw [Surface.Param.redefault_self hkind] at hother
  rw [writtenDefault?_redefault, hother]
  by_cases hn : q.name = n
  · obtain ⟨e₀, he₀⟩ := Option.ne_none_iff_exists'.mp (mt writtenDefault?_eq_none.mp (h hn))
    rw [he₀, Option.some_or, Option.some_or]
  · rw [if_neg hn, if_neg hn]

/-- A default counts where no parameter behind has its name and a default. -/
theorem writtenDefault?_of_lacks {q : Surface.Param Value} (h : Surface.Lacks qs q.name) (e : Surface.Expr Value) :
    writtenDefault? (ps ++ q.redefault e :: qs) q.name = some e := by
  rw [writtenDefault?_redefault, writtenDefault?_eq_none.mpr h, Option.none_or, if_pos rfl]

/-- What is kept by the name is the default that counts. -/
theorem counts_of_writtenDefault? {e : Surface.Expr Value} (h : writtenDefault? ps n = some e) :
    Surface.Counts ps n e := by
  induction ps with
  | nil => cases h
  | cons q ps ih =>
    rw [← List.singleton_append, writtenDefault?_append] at h
    cases hrest : writtenDefault? ps n with
    | some e' =>
      rw [hrest, Option.some_or] at h
      obtain ⟨front, r, back, rfl, hr⟩ := ih (hrest.trans h)
      exact ⟨q :: front, r, back, rfl, hr⟩
    | none =>
      rw [hrest, Option.none_or] at h
      obtain ⟨r, hr, hkind, hname⟩ := writtenDefault?_mem h
      obtain rfl := List.mem_singleton.mp hr
      exact ⟨[], r, ps, rfl, hkind, hname, writtenDefault?_eq_none.mp hrest⟩

/-! ## Bodies with another default -/

variable {env : Env} {f f' : Surface.Function Value} {q : Surface.Param Value} {e : Surface.Expr Value}

theorem signature_of_header (hheader : f'.header = f.header) : env.signature f' = env.signature f := by
  rw [← env.signature_header f', hheader, env.signature_header]

theorem withDefault_congr {p : Param} (hwritten : writtenDefault? f'.params p.name = writtenDefault? f.params p.name) :
    env.withDefault f' p = env.withDefault f p := by
  simp only [withDefault, hwritten]

/-- A default that does not count makes no difference to what a function resolves to. -/
theorem body_indifferent (hparams : f.params = ps ++ q :: qs) (hkind : q.kind = .defaultable e)
    (hhidden : ¬ Surface.Lacks qs q.name) (e' : Surface.Expr Value) (decl : FunctionDecl) :
    env.body { f with params := ps ++ q.redefault e' :: qs } decl = env.body f decl := by
  have hsame : env.withDefault { f with params := ps ++ q.redefault e' :: qs } = env.withDefault f := by
    funext p
    refine withDefault_congr ?_
    rw [hparams]
    exact writtenDefault?_indifferent hkind (fun hn => hn ▸ hhidden) e'
  simp only [body, hsame]

/-- A default that counts is all that is looked at, where nothing is said about the function before. -/
theorem body_quiet_iff {decl : FunctionDecl} (hsig : (env.signature f).value = some decl)
    (hquiet : (env.body f decl).2 = []) (hparams : f.params = ps ++ q :: qs) (hkind : q.kind = .defaultable e)
    (hlast : Surface.Lacks qs q.name) (e' : Surface.Expr Value) :
    (env.body { f with params := ps ++ q.redefault e' :: qs } decl).2 = [] ↔ (env.expr [] e').diagnostics = [] := by
  have hown : ∀ p : Param, p.name = q.name →
      (env.withDefault { f with params := ps ++ q.redefault e' :: qs } p).2 = (env.expr [] e').diagnostics := by
    intro p hp
    simp only [withDefault, hp, writtenDefault?_of_lacks hlast]
  simp only [body, List.append_eq_nil_iff, List.flatMap_eq_nil_iff, List.forall_mem_map] at hquiet ⊢
  obtain ⟨hdefaults, hstmts⟩ := hquiet
  constructor
  · rintro ⟨hdefaults', -⟩
    obtain ⟨p, hp, hqp⟩ := exists_of_mem_left (signature_defaultables hsig) (a := q) (by
      simp [Surface.Function.defaultable, hparams, hkind, Surface.ParamKind.isDefaultable])
    have hname : p.name = q.name := by
      obtain ⟨t, -, rfl⟩ := Option.map_eq_some_iff.mp hqp
      rfl
    rw [← hown p hname]
    exact hdefaults' p hp
  · intro he'
    refine ⟨fun p hp => ?_, hstmts⟩
    by_cases hn : p.name = q.name
    · rw [hown p hn, he']
    · have hother : writtenDefault? (ps ++ q.redefault e' :: qs) p.name = writtenDefault? f.params p.name := by
        rw [hparams]
        exact writtenDefault?_indifferent hkind (fun h => absurd h.symm hn) e'
      rw [withDefault_congr hother]
      exact hdefaults p hp

/-- Where nothing is reported, a parameter with a default stands at its place among those that have one. -/
theorem DeclaresWholly.defaultAt {d : FunctionDecl} (h : env.DeclaresWholly f d) (hparams : f.params = ps ++ q :: qs)
    (hkind : q.kind = .defaultable e) :
    ∃ p, d.defaultable[(ps.filter (·.kind.isDefaultable)).length]? = some p ∧ ∃ e₀ x, env.DefaultsTo f q p e₀ x := by
  have hdefaults := h.defaults
  have hdefaultable : f.defaultable = ps.filter (·.kind.isDefaultable) ++ q :: qs.filter (·.kind.isDefaultable) := by
    simp [Surface.Function.defaultable, hparams, hkind, Surface.ParamKind.isDefaultable]
  rw [hdefaultable] at hdefaults
  exact exists_getElem?_of_forall₂ hdefaults

end Env

/-! ## Another default in a program -/

variable {registry : Registry} {id : ModuleId} {file : Option Text} {program : Surface.Program Value}
  {unit : CompilationUnit} {fs gs : List (Surface.Function Value)} {f f' : Surface.Function Value}

/-- A function that resolves to the same takes the place of another one. -/
theorem resolveProgram_replaced (h : resolveProgram registry id file program = (unit, []))
    (hfunctions : program.functions = fs ++ f :: gs) (hheader : f'.header = f.header)
    (hbody : ∀ decl, unit.env.body f' decl = unit.env.body f decl) :
    resolveProgram registry id file { program with functions := fs ++ f' :: gs } = (unit, []) := by
  obtain ⟨hplace, hto, hwhole⟩ := resolveProgram_eq_iff.mp h
  have hreplaced : List.Forall₂ unit.env.DeclaresWholly (fs ++ f' :: gs) unit.functions := by
    rw [hfunctions] at hwhole
    obtain ⟨front, back, hunit, hfront, hback⟩ := exists_of_forall₂_append hwhole
    obtain ⟨d, rest, hd, hrest, rfl⟩ := List.forall₂_cons_left_iff.mp hback
    obtain ⟨decl, hsig, hquiet⟩ := hd
    rw [hunit]
    refine List.rel_append hfront (.cons ⟨decl, ?_, ?_⟩ hrest)
    · rw [Env.signature_of_header hheader, hsig]
    · rw [hbody, hquiet]
  have hdeclared : List.Forall₂ unit.env.Declares (fs ++ f' :: gs) unit.functions :=
    hreplaced.imp fun _ _ hd => hd.declares
  exact resolveProgram_eq_iff.mpr
    ⟨hplace, ⟨hto.imports, hto.prefixes, hto.types, hdeclared, hto.scope, hto.distinct⟩, hreplaced⟩

/-- Where nothing is reported, and a function takes the place of one with the same header, nothing is reported exactly if
nothing is said about its body and its defaults. -/
theorem resolveProgram_replaced_quiet_iff (h : resolveProgram registry id file program = (unit, []))
    (hfunctions : program.functions = fs ++ f :: gs) (hheader : f'.header = f.header) {decl : FunctionDecl}
    (hsig : (unit.env.signature f).value = some decl) :
    (resolveProgram registry id file { program with functions := fs ++ f' :: gs }).2 = [] ↔
      (unit.env.body f' decl).2 = [] := by
  have hnames := distinct_of_quiet h
  have hname : f'.name = f.name := (congrArg Surface.Function.name hheader : f'.header.name = _)
  have hnames' : Surface.Program.Distinct { program with functions := fs ++ f' :: gs } := by
    rw [Surface.Program.Distinct, hfunctions] at hnames
    simpa [Surface.Program.Distinct, hname] using hnames
  have henv : unit.env = (typedStage registry id file program).1.declaring (fs ++ f' :: gs) := by
    have henv := env_resolveProgram registry id file hnames
    rw [h, hfunctions] at henv
    rw [henv]
    simp only [Env.declaring, Env.symbol?, List.filterMap_append, List.filterMap_cons, Env.signature_of_header hheader]
  rw [otherFunctions_quiet_iff h hnames', ← henv]
  constructor
  · intro hall
    obtain ⟨decl', hsig', hbody⟩ := hall f' (by simp)
    rw [Env.signature_of_header hheader, hsig] at hsig'
    rwa [Option.some.inj hsig']
  · intro hbody g hg
    by_cases hg' : g = f'
    · rw [hg']
      exact ⟨decl, by rw [Env.signature_of_header hheader, hsig], hbody⟩
    · obtain ⟨-, hwhole⟩ := resolveProgram_whole h
      have hkept : g ∈ program.functions := by
        rw [hfunctions]
        grind
      obtain ⟨d, -, decl', hsig', hquiet⟩ := exists_of_mem_left hwhole hkept
      exact ⟨decl', hsig', congrArg Prod.snd hquiet⟩

/-- Where nothing is reported, the default of a defaultable parameter is the one that counts for its name. It is the
parameter's own if no parameter behind has its name and a default, and then it is all that is looked at there; otherwise
any other default could be written in its place. -/
theorem resolveProgram_countingDefaults (h : resolveProgram registry id file program = (unit, []))
    (hfunctions : program.functions = fs ++ f :: gs) {ps qs : List (Surface.Param Value)} {q : Surface.Param Value}
    (hparams : f.params = ps ++ q :: qs) {e : Surface.Expr Value} (hkind : q.kind = .defaultable e) :
    let other := fun e' => resolveProgram registry id file
      { program with functions := fs ++ { f with params := ps ++ q.redefault e' :: qs } :: gs }
    (∃ d p e₀ x, unit.functions[fs.length]? = some d ∧
        d.defaultable[(ps.filter (·.kind.isDefaultable)).length]? = some p ∧ p.name = q.name ∧
        Surface.Counts f.params q.name e₀ ∧ unit.env.expr [] e₀ = .ok x ∧ p.default = some x ∧
        (Surface.Lacks qs q.name → e₀ = e)) ∧
      (Surface.Lacks qs q.name → ∀ e', (other e').2 = [] ↔ (unit.env.expr [] e').diagnostics = []) ∧
      (¬ Surface.Lacks qs q.name → ∀ e', other e' = (unit, [])) := by
  intro other
  obtain ⟨-, hwhole⟩ := resolveProgram_whole h
  rw [hfunctions] at hwhole
  obtain ⟨d, hunit, hd⟩ := exists_getElem?_of_forall₂ hwhole
  have hheader : ∀ e', ({ f with params := ps ++ q.redefault e' :: qs } : Surface.Function Value).header = f.header := by
    intro e'
    simp [Surface.Function.header, hparams, Surface.Param.header, Surface.Param.redefault, hkind,
      Surface.ParamKind.header]
  refine ⟨?_, fun hlast e' => ?_, fun hhidden e' => ?_⟩
  · obtain ⟨p, hp, e₀, x, hto⟩ := hd.defaultAt hparams hkind
    refine ⟨d, p, e₀, x, hunit, hp, hto.name, Env.counts_of_writtenDefault? hto.written, ?_, hto.default, fun hlast => ?_⟩
    · exact (unit.env.settled_expr [] e₀).eq_ok hto.value
    · have hown : Env.writtenDefault? (ps ++ q.redefault e :: qs) q.name = some e := Env.writtenDefault?_of_lacks hlast e
      rw [Surface.Param.redefault_self hkind, ← hparams, hto.written] at hown
      exact Option.some.inj hown
  · obtain ⟨decl, hsig, hbody⟩ := hd
    rw [resolveProgram_replaced_quiet_iff h hfunctions (hheader e') hsig]
    exact Env.body_quiet_iff hsig (congrArg Prod.snd hbody) hparams hkind hlast e'
  · exact resolveProgram_replaced h hfunctions (hheader e') (Env.body_indifferent hparams hkind hhidden e')

/-- Two parameters of one name: the text in front is not looked at, so an unknown name may stand there, but not behind. -/
theorem resolveProgram_countingDefaults_namesakes :
    let int : Surface.TypeExpr := ⟨⟨none, "int", .start⟩, []⟩
    let text : Surface.Expr Value := .literal (.str "x") .start
    let one : Surface.Expr Value := .literal (.int 1) .start
    let nowhere : Surface.Expr Value := .name ⟨none, "nowhere", .start⟩
    let f (first second : Surface.Expr Value) : Surface.Function Value :=
      { name := "f", position := .start, tags := [], isPublic := false
        params := [⟨"a", .start, int, .defaultable first⟩, ⟨"a", .start, int, .defaultable second⟩]
        returns := none, body := [] }
    let resolved first second := resolveProgram {} ⟨"demo", "app"⟩ none
      { imports := [], records := [], functions := [f first second] }
    (resolved text one).2 = [] ∧
      ((resolved text one).1.functions.map fun d => d.defaultable.map fun p => p.default.map Expr.type) =
        [[some .int, some .int]] ∧
      resolved nowhere one = resolved text one ∧ (resolved text nowhere).2 ≠ [] := by
  intro int text one nowhere f resolved
  have hquiet : (resolved text one).2 = [] := by decide +kernel
  have htypes : ((resolved text one).1.functions.map fun d => d.defaultable.map fun p => p.default.map Expr.type) =
      [[some .int, some .int]] := by decide +kernel
  have h : resolved text one = ((resolved text one).1, []) := Prod.ext rfl hquiet
  let front : Surface.Param Value := ⟨"a", .start, int, .defaultable text⟩
  let behind : Surface.Param Value := ⟨"a", .start, int, .defaultable one⟩
  have hhidden : ¬ Surface.Lacks [behind] front.name := fun hlacks => hlacks behind (by simp) rfl rfl
  have hlast : Surface.Lacks [] behind.name := fun _ hp => absurd hp List.not_mem_nil
  have hone : [f text one] = [] ++ f text one :: [] := rfl
  obtain ⟨-, -, hfront⟩ := resolveProgram_countingDefaults h hone
    (show (f text one).params = [] ++ front :: [behind] from rfl) rfl
  obtain ⟨-, hbehind, -⟩ := resolveProgram_countingDefaults h hone
    (show (f text one).params = [front] ++ behind :: [] from rfl) rfl
  have hunknown : ((resolved text one).1.env.expr [] nowhere).diagnostics ≠ [] := by decide +kernel
  exact ⟨hquiet, htypes, (hfront hhidden nowhere).trans h.symm, mt (hbehind hlast nowhere).mp hunknown⟩

end Registrar
