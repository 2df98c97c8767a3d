import Registrar.Proofs.Handler.Spelling
import Registrar.Proofs.Resolve.Reports
import Registrar.Proofs.Unit.Meaning
import Registrar.Proofs.Unit.Source

/-!
# The order of parameters

The check of the order goes through a row of parameters once and keeps one flag. What it accepts are the rows of
required parameters, then defaultable ones, then at most one rest parameter, and of any other row it reports the first
parameter that cannot stand where it stands (`paramOrder_kept`). This is what makes it right to declare parameters kind
by kind: put together again, the kinds are the row of the source.
-/

namespace Registrar

/-! ## The check -/

namespace Surface

variable {L : Type} {before ps : List (Param L)} {p : Param L} {fault : SourceFault}

def ParamKind.isRest : ParamKind L → Bool
  | .rest => true
  | _ => false

/-- Required parameters, then defaultable ones, then at most one rest parameter. -/
def InOrder (ps : List (Param L)) : Prop :=
  ∃ required defaultable rest, ps = required ++ (defaultable ++ rest) ∧ (∀ p ∈ required, p.kind = .required) ∧
    (∀ p ∈ defaultable, ∃ e, p.kind = .defaultable e) ∧ (∀ p ∈ rest, p.kind = .rest) ∧ rest.length ≤ 1

/-- A parameter that cannot stand between these two rows, and what is said about it. -/
inductive Misplaced (before : List (Param L)) (p : Param L) (after : List (Param L)) : SourceFault → Prop
  | rest : p.kind = .rest → after ≠ [] → Misplaced before p after (.restNotLast p.name p.position)
  | required {q : Param L} {e : Expr L} : p.kind = .required → q ∈ before → q.kind = .defaultable e →
      Misplaced before p after (.requiredAfterDefaultable p.name p.position)

/-- What is said about the first misplaced parameter of a row that stands behind another one. -/
def FirstMisplaced (before ps : List (Param L)) (fault : SourceFault) : Prop :=
  ∃ ready p after, ps = ready ++ p :: after ∧ Misplaced (before ++ ready) p after fault ∧
    ∀ front q back, ready = front ++ q :: back → ∀ other, ¬ Misplaced (before ++ front) q (back ++ p :: after) other

theorem any_isDefaultable_iff :
    before.any (·.kind.isDefaultable) = true ↔ ∃ q ∈ before, ∃ e, q.kind = .defaultable e := by
  rw [List.any_eq_true]
  refine exists_congr fun q => and_congr_right fun _ => ?_
  cases q.kind <;> simp [ParamKind.isDefaultable]

/-- The check stops at a misplaced parameter. -/
theorem Misplaced.orderFault?_eq {after : List (Param L)} (h : Misplaced before p after fault) :
    orderFault? (before.any (·.kind.isDefaultable)) (p :: after) = some fault := by
  cases h with
  | rest hk hafter => simp [orderFault?, hk, hafter]
  | required hk hq he => simp only [orderFault?, hk, any_isDefaultable_iff.mpr ⟨_, hq, _, he⟩, if_true]

/-- The check passes over any other one, and then knows whether it was defaultable. -/
theorem orderFault?_cons_of_not_misplaced {after : List (Param L)} (h : ∀ fault, ¬ Misplaced before p after fault) :
    orderFault? (before.any (·.kind.isDefaultable)) (p :: after) =
      orderFault? ((before ++ [p]).any (·.kind.isDefaultable)) after := by
  rw [List.any_append, List.any_cons, List.any_nil, Bool.or_false, orderFault?]
  cases hk : p.kind with
  | required =>
    have hseen : before.any (·.kind.isDefaultable) = false := by
      by_contra hseen
      obtain ⟨q, hq, e, he⟩ := any_isDefaultable_iff.mp (Bool.not_eq_false _ ▸ hseen)
      exact h _ (.required hk hq he)
    rw [hseen]
    rfl
  | defaultable e => simp [ParamKind.isDefaultable]
  | rest =>
    have hafter : after = [] := by
      by_contra hafter
      exact h _ (.rest hk hafter)
    simp [hafter, orderFault?]

theorem Misplaced.unique {after : List (Param L)} {other : SourceFault} (h : Misplaced before p after fault)
    (h' : Misplaced before p after other) : fault = other :=
  Option.some.inj (h.orderFault?_eq.symm.trans h'.orderFault?_eq)

theorem firstMisplaced_cons_of_misplaced {after : List (Param L)} {other : SourceFault}
    (h : Misplaced before p after other) : FirstMisplaced before (p :: after) fault ↔ other = fault := by
  constructor
  · rintro ⟨ready, p', after', hps, hmis, hfirst⟩
    cases ready with
    | nil =>
      obtain ⟨rfl, rfl⟩ := List.cons.inj hps
      rw [List.append_nil] at hmis
      exact h.unique hmis
    | cons q ready =>
      obtain ⟨rfl, rfl⟩ := List.cons.inj hps
      exact absurd (by rwa [List.append_nil]) (hfirst [] p ready rfl other)
  · rintro rfl
    exact ⟨[], p, after, rfl, by rwa [List.append_nil], by simp⟩

theorem firstMisplaced_cons_of_not_misplaced {after : List (Param L)} (h : ∀ other, ¬ Misplaced before p after other) :
    FirstMisplaced before (p :: after) fault ↔ FirstMisplaced (before ++ [p]) after fault := by
  constructor
  · rintro ⟨ready, p', after', hps, hmis, hfirst⟩
    cases ready with
    | nil =>
      obtain ⟨rfl, rfl⟩ := List.cons.inj hps
      rw [List.append_nil] at hmis
      exact absurd hmis (h _)
    | cons q ready =>
      obtain ⟨rfl, rfl⟩ := List.cons.inj hps
      refine ⟨ready, p', after', rfl, by simpa using hmis, fun front q back hready other => ?_⟩
      simpa using hfirst (p :: front) q back (by rw [hready, List.cons_append]) other
  · rintro ⟨ready, p', after', rfl, hmis, hfirst⟩
    refine ⟨p :: ready, p', after', rfl, by simpa using hmis, fun front q back hready other => ?_⟩
    cases front with
    | nil =>
      obtain ⟨rfl, rfl⟩ := List.cons.inj hready
      simpa using h other
    | cons q' front =>
      obtain ⟨rfl, rfl⟩ := List.cons.inj hready
      simpa using hfirst front q back rfl other

/-- The check, started behind a row, reports the first misplaced parameter. -/
theorem orderFault?_eq_some_iff (before : List (Param L)) :
    orderFault? (before.any (·.kind.isDefaultable)) ps = some fault ↔ FirstMisplaced before ps fault := by
  induction ps generalizing before with
  | nil => simp [orderFault?, FirstMisplaced]
  | cons p after ih =>
    by_cases h : ∃ other, Misplaced before p after other
    · obtain ⟨other, h⟩ := h
      rw [h.orderFault?_eq, firstMisplaced_cons_of_misplaced h, Option.some.injEq]
    · rw [not_exists] at h
      rw [orderFault?_cons_of_not_misplaced h, firstMisplaced_cons_of_not_misplaced h, ih]

/-- Nothing stands behind the first rest parameter of a row that passes the check. -/
theorem exists_rest_of_orderFault? {seen : Bool} (h : orderFault? seen ps = none) :
    ∃ fixed rest, ps = fixed ++ rest ∧ (∀ p ∈ fixed, p.kind ≠ .rest) ∧ (∀ p ∈ rest, p.kind = .rest) ∧
      rest.length ≤ 1 := by
  induction ps generalizing seen with
  | nil => exact ⟨[], [], by simp⟩
  | cons p ps ih =>
    have hlater : p.kind ≠ .rest → ∀ {seen}, orderFault? seen ps = none → ∃ fixed rest, p :: ps = fixed ++ rest ∧
        (∀ p ∈ fixed, p.kind ≠ .rest) ∧ (∀ p ∈ rest, p.kind = .rest) ∧ rest.length ≤ 1 := by
      intro hp seen h
      obtain ⟨fixed, rest, rfl, hfixed, hrest⟩ := ih h
      exact ⟨p :: fixed, rest, rfl, List.forall_mem_cons.mpr ⟨hp, hfixed⟩, hrest⟩
    rw [orderFault?] at h
    cases hk : p.kind with
    | required =>
      cases seen with
      | false => exact hlater (by simp [hk]) (by simpa [hk] using h)
      | true => simp [hk] at h
    | defaultable e => exact hlater (by simp [hk]) (by simpa [hk] using h)
    | rest =>
      have hps : ps = [] := by simpa [hk] using h
      exact ⟨[], [p], by simp [hps], by simp, by simp [hk], by simp⟩

theorem orderFault?_eq_none_iff : orderFault? false ps = none ↔ InOrder ps := by
  constructor
  · intro h
    obtain ⟨fixed, rest, rfl, hfixed, hrest, hlen⟩ := exists_rest_of_orderFault? h
    obtain ⟨required, defaultable, rfl, hr, hd⟩ := exists_of_orderFault? hfixed h
    exact ⟨required, defaultable, rest, List.append_assoc .., hr, hd, hrest, hlen⟩
  · rintro ⟨required, defaultable, rest, rfl, hr, hd, hrest, hlen⟩
    exact orderFault?_eq_none hr hd hrest hlen

theorem countP_of_forall {q : Param L → Bool} {b : Bool} (h : ∀ p ∈ ps, q p = b) :
    ps.countP q = if b then ps.length else 0 := by
  cases b with
  | false => exact List.countP_eq_zero.mpr fun p hp => by simp [h p hp]
  | true => exact List.countP_eq_length.mpr h

/-- Of parameters in order each kind is counted by its part. -/
theorem count_kinds {required defaultable rest : List (Param L)} (hr : ∀ p ∈ required, p.kind = .required)
    (hd : ∀ p ∈ defaultable, ∃ e, p.kind = .defaultable e) (hrest : ∀ p ∈ rest, p.kind = .rest) :
    (required ++ (defaultable ++ rest)).countP (·.kind.isRequired) = required.length ∧
      (required ++ (defaultable ++ rest)).countP (·.kind.isDefaultable) = defaultable.length ∧
      (required ++ (defaultable ++ rest)).countP (·.kind.isRest) = rest.length := by
  have hr' : ∀ p ∈ required, p.kind.isRequired = true ∧ p.kind.isDefaultable = false ∧ p.kind.isRest = false := by
    intro p hp
    rw [hr p hp]
    exact ⟨rfl, rfl, rfl⟩
  have hd' : ∀ p ∈ defaultable, p.kind.isRequired = false ∧ p.kind.isDefaultable = true ∧ p.kind.isRest = false := by
    intro p hp
    obtain ⟨e, he⟩ := hd p hp
    rw [he]
    exact ⟨rfl, rfl, rfl⟩
  have hrest' : ∀ p ∈ rest, p.kind.isRequired = false ∧ p.kind.isDefaultable = false ∧ p.kind.isRest = true := by
    intro p hp
    rw [hrest p hp]
    exact ⟨rfl, rfl, rfl⟩
  simp only [List.countP_append]
  refine ⟨?_, ?_, ?_⟩
  · rw [countP_of_forall fun p hp => (hr' p hp).1, countP_of_forall fun p hp => (hd' p hp).1,
      countP_of_forall fun p hp => (hrest' p hp).1]
    simp
  · rw [countP_of_forall fun p hp => (hr' p hp).2.1, countP_of_forall fun p hp => (hd' p hp).2.1,
      countP_of_forall fun p hp => (hrest' p hp).2.1]
    simp
  · rw [countP_of_forall fun p hp => (hr' p hp).2.2, countP_of_forall fun p hp => (hd' p hp).2.2,
      countP_of_forall fun p hp => (hrest' p hp).2.2]
    simp

end Surface

/-! ## Declarations -/

/-- A parameter is declared as it is written: with its name, the type that is spelled, and its place. Its default comes
with the body. -/
structure Env.DeclaresParam (env : Env) (q : Surface.Param Value) (p : Param) : Prop where
  name : p.name = q.name
  type : (env.typeExpr q.type).value = some p.type
  span : p.span = .ofPosition env.file q.position
  noDefault : p.default = none

/-- A declaration takes the parameters of a row: in its order, each as it is written, and by its symbol as many of them
must be given as are required, and more may be given if there is a rest parameter. -/
structure FunctionDecl.Takes (d : FunctionDecl) (env : Env) (ps : List (Surface.Param Value)) : Prop where
  params : List.Forall₂ env.DeclaresParam ps (d.required ++ d.defaultable ++ d.rest.toList)
  required : d.required.length = ps.countP (·.kind.isRequired)
  defaultable : d.defaultable.length = ps.countP (·.kind.isDefaultable)
  type : ∃ types, List.Forall₂ (fun q t => (env.typeExpr q.type).value = some t) ps types ∧
    d.symbol.type = .function types (some d.returnType)
  requiredCount : d.symbol.requiredCount = some (ps.countP (·.kind.isRequired))
  variadic : d.symbol.variadic = ps.any (·.kind.isRest)

namespace Env

variable {env : Env} {f : Surface.Function Value} {d : FunctionDecl}

theorem declaresParam {q : Surface.Param Value} {p : Param} (h : (env.param q).value = some p) :
    env.DeclaresParam q p := by
  obtain ⟨t, ht, rfl⟩ := Option.map_eq_some_iff.mp h
  exact ⟨rfl, ht, rfl, rfl⟩

theorem signature_takes (h : (env.signature f).value = some d) (horder : Surface.InOrder f.params) :
    d.Takes env f.params := by
  obtain ⟨rs, ds, rest, hparams, hrs, hds, hrest, hlen⟩ := horder
  obtain ⟨hrequired, hdefaultable, ps, hps, hlast⟩ :=
    signature_kinds h (by rw [hparams, List.append_assoc]) hrs hds hrest
  -- of at most one rest parameter the last one is all
  have hall : d.rest.toList = ps := by
    rw [hlast]
    match ps, hps.length_eq with
    | [], _ => rfl
    | [_], _ => rfl
    | _ :: _ :: _, heq => simp at heq; omega
  have hrows : List.Forall₂ env.DeclaresParam f.params (d.required ++ d.defaultable ++ d.rest.toList) := by
    rw [hparams, hall, List.append_assoc]
    exact (List.rel_append hrequired (List.rel_append hdefaultable hps)).imp fun _ _ => declaresParam
  obtain ⟨hmust, hmay, hmore⟩ := Surface.count_kinds hrs hds hrest
  rw [← hparams] at hmust hmay hmore
  have hsymbol := signature_symbol h
  have htypes : List.Forall₂ (fun q t => (env.typeExpr q.type).value = some t) f.params (d.params.map Param.type) := by
    rw [List.forall₂_map_right_iff]
    exact hrows.imp fun _ _ h => h.type
  refine ⟨hrows, ?_, ?_, ⟨_, htypes, ?_⟩, ?_, ?_⟩
  · rw [hmust, hrequired.length_eq]
  · rw [hmay, hdefaultable.length_eq]
  · rw [hsymbol]
    rfl
  · rw [hsymbol, hmust, hrequired.length_eq]
    rfl
  · rw [hsymbol, Bool.eq_iff_iff, List.any_eq_true, ← List.countP_pos_iff, hmore, FunctionDecl.signatureSymbol, hlast]
    cases hps <;> simp

end Env

/-- The check of the order accepts the rows of required, then defaultable and then at most one rest parameter, and of
any other row it reports the first misplaced parameter. So a declared function takes the parameters of its source. -/
theorem paramOrder_kept :
    (∀ {L : Type} (ps : List (Surface.Param L)),
      (Surface.orderFault? false ps = none ↔ Surface.InOrder ps) ∧
        ∀ fault, Surface.orderFault? false ps = some fault ↔ Surface.FirstMisplaced [] ps fault) ∧
      ∀ {source : Text} {program : Surface.Program Value}, Surface.readProgram source = .ok program →
        ∀ f ∈ program.functions, ∀ {env : Env} {d : FunctionDecl} {scope : Scope},
          (declareFunction env f).value = some (d, scope) → d.Takes env f.params := by
  refine ⟨fun ps => ⟨Surface.orderFault?_eq_none_iff, fun fault => ?_⟩, fun hread f hf env d scope hdecl => ?_⟩
  · exact Surface.orderFault?_eq_some_iff []
  · have horder := ((Surface.readProgram_written hread).functions f hf).order
    exact Env.signature_takes (declareFunction_value.mp hdecl).1 (Surface.orderFault?_eq_none_iff.mp horder)

/-- Of two misplaced parameters the first is named; a function with parameters of all kinds is declared with them. -/
theorem paramOrder_kept_variadic :
    let id : ModuleId := ⟨"demo", "app"⟩
    let env : Env := { file := none, id, imports := [], scope := { owner := id } }
    let int : Surface.TypeExpr := ⟨⟨none, "int", .start⟩, []⟩
    let one : Surface.ParamKind Value := .defaultable (.literal (.int 1) .start)
    let swapped : List (Surface.Param Value) :=
      [⟨"a", ⟨1, 1⟩, int, one⟩, ⟨"b", ⟨1, 9⟩, int, .required⟩, ⟨"c", ⟨1, 16⟩, int, .rest⟩, ⟨"d", ⟨1, 24⟩, int, one⟩]
    Surface.FirstMisplaced [] swapped (.requiredAfterDefaultable "b" ⟨1, 9⟩) ∧
      ∃ program f d scope,
        Surface.readProgram "function f(int a, json b, string c = \"\", int d = 1, int... e) \x7b \x7d" = .ok program ∧
        program.functions = [f] ∧ (declareFunction env f).value = some (d, scope) ∧ d.Takes env f.params := by
  intro id env int one swapped
  have h : (Surface.readProgram "function f(int a, json b, string c = \"\", int d = 1, int... e) \x7b \x7d").map
      (fun program => program.functions.map fun f => (declareFunction env f).value.isSome) = .ok [true] := by
    cbv
  obtain ⟨program, hread, hdeclared⟩ := map_eq_ok.mp h
  obtain ⟨f, hf, hsome⟩ := List.map_eq_singleton_iff.mp hdeclared
  obtain ⟨⟨d, scope⟩, hd⟩ := Option.isSome_iff_exists.mp hsome
  refine ⟨((paramOrder_kept.1 swapped).2 _).mp rfl, program, f, d, scope, hread, hf, hd, ?_⟩
  exact paramOrder_kept.2 hread f (by simp [hf]) hd

end Registrar
