import Registrar.Proofs.Resolve.ParamOrder

/-!
# What a declared function asks of its arguments

The symbol of a function keeps the types of all its parameters in one row, that of a rest parameter at the end. How many
arguments a call may have and which type is asked of each are both read off that row, by two computations of their own
(`FunctionSymbol.arity`, `FunctionSymbol.paramTypeAt`). For a function that was declared from its source the two agree
with the parameters and with each other (`declareFunction_arity`): of every argument that a call may have, a type is
asked. So it makes no difference that the resolver lets an argument pass of which no type is asked and the check of
units does not.
-/

namespace Registrar

/-! ## Parameters in order -/

namespace Surface

variable {L : Type} {ps : List (Param L)}

/-- Parameters in order are counted by their kinds, of which there is at most one rest parameter. -/
theorem InOrder.length_eq (h : InOrder ps) :
    ps.length = ps.countP (·.kind.isRequired) + ps.countP (·.kind.isDefaultable) +
      if ps.any (·.kind.isRest) then 1 else 0 := by
  obtain ⟨required, defaultable, rest, rfl, hr, hd, hrest, hlen⟩ := h
  obtain ⟨hmust, hmay, hmore⟩ := count_kinds hr hd hrest
  have hany : (required ++ (defaultable ++ rest)).any (·.kind.isRest) = true ↔ 0 < rest.length := by
    rw [← hmore, List.countP_pos_iff, List.any_eq_true]
  rw [hmust, hmay, List.length_append, List.length_append]
  split
  · next h =>
    have hpos := hany.mp h
    omega
  · next h =>
    have hzero := mt hany.mpr h
    omega

/-- A rest parameter stands behind all others. -/
theorem InOrder.rest_getElem? (h : InOrder ps) (hany : ps.any (·.kind.isRest) = true) :
    ∃ q, ps[ps.countP (·.kind.isRequired) + ps.countP (·.kind.isDefaultable)]? = some q ∧ q.kind = .rest := by
  obtain ⟨required, defaultable, rest, rfl, hr, hd, hrest, hlen⟩ := h
  obtain ⟨hmust, hmay, hmore⟩ := count_kinds hr hd hrest
  rw [List.any_eq_true, ← List.countP_pos_iff, hmore] at hany
  obtain ⟨q, more, rfl⟩ := List.exists_cons_of_length_pos hany
  exact ⟨q, by simp [hmust, hmay], hrest q List.mem_cons_self⟩

end Surface

/-! ## Symbols -/

namespace FunctionSymbol

variable {f : FunctionSymbol}

/-- A variadic function asks the type of its last parameter from that one on. -/
theorem paramTypeAt_variadic (hv : f.variadic = true) (i : Nat) :
    f.paramTypeAt i = f.type.params[min i (f.type.params.length - 1)]? := by
  rw [paramTypeAt, if_pos hv]
  split
  · next hi => rw [min_eq_left (by omega)]
  · next hi => rw [min_eq_right (by omega), List.getLast?_eq_getElem?]

theorem Fits.accepts {args : List Expr} (h : f.Fits args) : f.Accepts args := by
  refine ⟨h.1, fun i x t hx ht => ?_⟩
  obtain ⟨t', ht', hassign⟩ := h.2 i x hx
  rw [ht] at ht'
  obtain rfl := Option.some.inj ht'
  exact hassign

end FunctionSymbol

/-- Where of every argument a type is asked, the check of units stops at the argument that the resolver reports. -/
theorem CompilationUnit.checkArgs_eq {inside : Text} {f : FunctionSymbol} {k : Nat} {args : List Expr}
    (h : ∀ i < args.length, ∃ t, f.paramTypeAt (k + i) = some t) :
    checkArgs inside f k args =
      (f.misfit? k args).elim (.ok ()) fun m => .error (.wrongArgument inside f.name m.1 m.2.2) := by
  induction args generalizing k with
  | nil => rfl
  | cons arg args ih =>
    obtain ⟨t, ht⟩ := h 0 (by simp)
    have hlater : ∀ i < args.length, ∃ t, f.paramTypeAt (k + 1 + i) = some t := by
      intro i hi
      have hasked := h (i + 1) (by simpa using hi)
      rwa [← Nat.add_assoc, Nat.add_right_comm] at hasked
    rw [checkArgs, FunctionSymbol.misfit?, show f.paramTypeAt k = some t from ht, ih hlater]
    by_cases hfits : arg.type.isAssignable t = true
    · simp [hfits]
    · simp [hfits]

/-! ## Declarations -/

namespace FunctionDecl.Takes

variable {d : FunctionDecl} {env : Env} {ps : List (Surface.Param Value)}

/-- The row has the type of each parameter. -/
theorem length_params (h : d.Takes env ps) : d.symbol.type.params.length = ps.length := by
  obtain ⟨types, htypes, htype⟩ := h.type
  rw [htype]
  exact htypes.length_eq.symm

theorem arity_eq (h : d.Takes env ps) (horder : Surface.InOrder ps) :
    d.symbol.arity = ⟨ps.countP (·.kind.isRequired),
      if ps.any (·.kind.isRest) then none
      else some (ps.countP (·.kind.isRequired) + ps.countP (·.kind.isDefaultable))⟩ := by
  rw [FunctionSymbol.arity, h.requiredCount, h.variadic, h.length_params, horder.length_eq]
  cases ps.any (·.kind.isRest) <;> rfl

/-- The type at an index of the row is that of the parameter there. -/
theorem exists_type (h : d.Takes env ps) {i : Nat} {q : Surface.Param Value} (hq : ps[i]? = some q) :
    ∃ t, (env.typeExpr q.type).value = some t ∧ d.symbol.type.params[i]? = some t := by
  obtain ⟨types, htypes, htype⟩ := h.type
  obtain ⟨hi, rfl⟩ := List.getElem?_eq_some_iff.mp hq
  have hi' : i < types.length := htypes.length_eq ▸ hi
  rw [htype]
  exact ⟨types[i], htypes.get hi hi', List.getElem?_eq_getElem hi'⟩

theorem admits_iff (h : d.Takes env ps) (horder : Surface.InOrder ps) {n : Nat} :
    d.symbol.arity.admits n = true ↔ ps.countP (·.kind.isRequired) ≤ n ∧
      (ps.any (·.kind.isRest) = false → n ≤ ps.countP (·.kind.isRequired) + ps.countP (·.kind.isDefaultable)) := by
  rw [h.arity_eq horder, Arity.admits]
  cases ps.any (·.kind.isRest) <;> simp

/-- Which type of the row is asked of an argument: from the rest parameter on, if there is one, always the last. -/
theorem paramTypeAt_eq (h : d.Takes env ps) (horder : Surface.InOrder ps) (i : Nat) :
    d.symbol.paramTypeAt i = d.symbol.type.params[if ps.any (·.kind.isRest) then
      min i (ps.countP (·.kind.isRequired) + ps.countP (·.kind.isDefaultable)) else i]? := by
  cases hany : ps.any (·.kind.isRest) with
  | false => rw [FunctionSymbol.paramTypeAt, h.variadic, hany]; rfl
  | true =>
    rw [FunctionSymbol.paramTypeAt_variadic (h.variadic.trans hany), h.length_params, horder.length_eq, hany]
    rfl

/-- Of each argument that a call may have the type of a parameter is asked: of the parameter at its index, or else of
the rest parameter. -/
theorem exists_param (h : d.Takes env ps) (horder : Surface.InOrder ps) {n i : Nat}
    (hn : d.symbol.arity.admits n = true) (hi : i < n) :
    ∃ q t, (if i < ps.countP (·.kind.isRequired) + ps.countP (·.kind.isDefaultable) then ps[i]? = some q
        else q ∈ ps ∧ q.kind = .rest) ∧
      (env.typeExpr q.type).value = some t ∧ d.symbol.paramTypeAt i = some t := by
  rw [h.paramTypeAt_eq horder]
  by_cases hfixed : i < ps.countP (·.kind.isRequired) + ps.countP (·.kind.isDefaultable)
  · have hlen : i < ps.length := by
      rw [horder.length_eq]
      omega
    obtain ⟨t, ht, hparam⟩ := h.exists_type (List.getElem?_eq_getElem hlen)
    refine ⟨ps[i], t, by rw [if_pos hfixed, List.getElem?_eq_getElem hlen], ht, ?_⟩
    rw [min_eq_left (by omega), ite_self, hparam]
  · have hany : ps.any (·.kind.isRest) = true := by
      rw [← Bool.not_eq_false]
      intro hnone
      have hmost := ((h.admits_iff horder).mp hn).2 hnone
      omega
    obtain ⟨q, hq, hkind⟩ := horder.rest_getElem? hany
    obtain ⟨t, ht, hparam⟩ := h.exists_type hq
    refine ⟨q, t, by rw [if_neg hfixed]; exact ⟨List.mem_of_getElem? hq, hkind⟩, ht, ?_⟩
    rw [if_pos hany, min_eq_right (by omega), hparam]

/-- Behind all arguments that a call may have nothing is asked. -/
theorem paramTypeAt_eq_none (h : d.Takes env ps) (horder : Surface.InOrder ps) {i : Nat}
    (hi : ∀ n, d.symbol.arity.admits n = true → n ≤ i) : d.symbol.paramTypeAt i = none := by
  cases hany : ps.any (·.kind.isRest) with
  | true =>
    -- with a rest parameter no index is behind all arguments
    have hmore := hi (ps.countP (·.kind.isRequired) + (i + 1)) ((h.admits_iff horder).mpr ⟨by omega, by simp [hany]⟩)
    omega
  | false =>
    have hlast := hi _ ((h.admits_iff horder).mpr ⟨Nat.le_add_right _ _, fun _ => Nat.le_refl _⟩)
    rw [h.paramTypeAt_eq horder, hany]
    refine List.getElem?_eq_none ?_
    rw [h.length_params, horder.length_eq, hany]
    exact hlast

end FunctionDecl.Takes

/-- The arity of a declared function is counted by its parameters. Of each argument that a call may have the type of the
parameter at its index is asked, or that of the rest parameter, and of no argument beyond. So the check of units finds
fault with the same argument as the resolver, and a call passes the one exactly if it passes the other. -/
theorem declareFunction_arity {source : Text} {program : Surface.Program Value}
    (hread : Surface.readProgram source = .ok program) {f : Surface.Function Value} (hf : f ∈ program.functions)
    {env : Env} {d : FunctionDecl} {scope : Scope} (hdecl : (declareFunction env f).value = some (d, scope)) :
    let required := f.params.countP (·.kind.isRequired)
    let fixed := required + f.params.countP (·.kind.isDefaultable)
    d.symbol.arity = ⟨required, if f.params.any (·.kind.isRest) then none else some fixed⟩ ∧
      (∀ n, d.symbol.arity.admits n = true → ∀ i < n, ∃ q t,
        (if i < fixed then f.params[i]? = some q else q ∈ f.params ∧ q.kind = .rest) ∧
          (env.typeExpr q.type).value = some t ∧ d.symbol.paramTypeAt i = some t) ∧
      (∀ i, (∀ n, d.symbol.arity.admits n = true → n ≤ i) → d.symbol.paramTypeAt i = none) ∧
      ∀ (inside : Text) (args : List Expr),
        (d.symbol.arity.admits args.length = true →
          CompilationUnit.checkArgs inside d.symbol 0 args = (d.symbol.misfit? 0 args).elim (.ok ()) fun m =>
            .error (.wrongArgument inside d.symbol.name m.1 m.2.2)) ∧
          ∀ (env' : Env) (callee : Surface.Name),
            (∃ call, (env'.checkedCall callee d.symbol args).value = some call) ↔
              CompilationUnit.checkFit inside d.symbol args d.returnType = .ok () := by
  have horder := Surface.orderFault?_eq_none_iff.mp ((Surface.readProgram_written hread).functions f hf).order
  have hsig := (declareFunction_value.mp hdecl).1
  have htakes := Env.signature_takes hsig horder
  have hwell := Env.signature_wellFormed hsig
  refine ⟨htakes.arity_eq horder, fun n hn i hi => htakes.exists_param horder hn hi,
    fun i hi => htakes.paramTypeAt_eq_none horder hi, fun inside args => ⟨fun hcount => ?_, fun env' callee => ?_⟩⟩
  · refine CompilationUnit.checkArgs_eq fun i hi => ?_
    rw [Nat.zero_add]
    exact hwell.paramTypeAt_isSome hcount hi
  · have hret : ∀ r, d.symbol.type.ret? = some r → r = d.returnType := by
      obtain ⟨types, -, htype⟩ := htakes.type
      rw [htype]
      rintro r ⟨⟩
      rfl
    rw [CompilationUnit.checkFit_eq_ok]
    constructor
    · rintro ⟨call, hcall⟩
      exact ⟨(Env.checkedCall_value.mp hcall).1.fits hwell, hret⟩
    · rintro ⟨hfits, -⟩
      exact ⟨_, Env.checkedCall_value.mpr ⟨hfits.accepts, rfl⟩⟩

/-- A function with parameters of all kinds takes one argument or more, and of the sixth the type of its rest parameter
is asked. -/
theorem declareFunction_arity_variadic :
    let id : ModuleId := ⟨"demo", "app"⟩
    let env : Env := { file := none, id, imports := [], scope := { owner := id } }
    ∃ program f d scope,
      Surface.readProgram "function f(int a, string b = \"\", json|error... c) \x7b \x7d" = .ok program ∧
      f ∈ program.functions ∧ (declareFunction env f).value = some (d, scope) ∧ d.symbol.arity = ⟨1, none⟩ ∧
      ∃ q t, (q ∈ f.params ∧ q.kind = .rest) ∧ (env.typeExpr q.type).value = some t ∧
        d.symbol.paramTypeAt 5 = some t := by
  intro id env
  have h : (Surface.readProgram "function f(int a, string b = \"\", json|error... c) \x7b \x7d").map
      (fun program => program.functions.map fun f => (f.params.countP (·.kind.isRequired),
        f.params.countP (·.kind.isDefaultable), f.params.any (·.kind.isRest), (declareFunction env f).value.isSome)) =
      .ok [(1, 1, true, true)] := by
    cbv
  obtain ⟨program, hread, hcounted⟩ := map_eq_ok.mp h
  obtain ⟨f, hf, hparts⟩ := List.map_eq_singleton_iff.mp hcounted
  obtain ⟨hrequired, hdefaultable, hrest, hsome⟩ : _ ∧ _ ∧ _ ∧ _ := by simpa only [Prod.mk.injEq] using hparts
  obtain ⟨⟨d, scope⟩, hd⟩ := Option.isSome_iff_exists.mp hsome
  have hmem : f ∈ program.functions := by rw [hf]; exact List.mem_cons_self
  obtain ⟨harity, hasked, -⟩ := declareFunction_arity hread hmem hd
  simp only [hrequired, hdefaultable, hrest, if_true] at harity hasked
  exact ⟨program, f, d, scope, hread, hmem, hd, harity, hasked 6 (by rw [harity]; decide) 5 (by decide)⟩

end Registrar
