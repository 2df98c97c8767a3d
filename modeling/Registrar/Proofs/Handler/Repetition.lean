import Registrar.Proofs.Handler.Pass

/-!
# Passes one after the other

Any number of passes over one unit, each with its own contract and runtime support module, some of which fail. What
carries the induction is that the unit is always the one at the start with some entry points more, whose names are new
and distinct (`CompilationUnit.ExtendedBy`). `runPasses_invariant` draws the conclusions: the handlers of the unit stay
what they are, and a pass that made an entry point can only fail when it is repeated.
-/

namespace Registrar

/-! ## Runs of passes -/

/-- What a pass is run with. -/
structure PassCall where
  contract : Contract
  runtime : Option Runtime := none
  log : Log := {}

/-- Runs the pass on a unit. -/
def PassCall.run (call : PassCall) (unit : CompilationUnit) : PassRun :=
  call.contract.runPass call.runtime unit call.log

/-- Runs passes one after the other, each on the unit that the one before has left: how each of them ended, and the unit
at the end. -/
def runPasses (unit : CompilationUnit) : List PassCall → List (Except EntryPointError PassResult) × CompilationUnit
  | [] => ([], unit)
  | call :: calls =>
    let rest := runPasses (call.run unit).unit calls
    ((call.run unit).outcome :: rest.1, rest.2)

/-- The entry point that a pass has made. -/
def madeEntryPoint? : Except EntryPointError PassResult → Option FunctionDecl
  | .ok result => result.entryPoint
  | .error _ => none

theorem length_runPasses (unit : CompilationUnit) (calls : List PassCall) :
    (runPasses unit calls).1.length = calls.length := by
  induction calls generalizing unit with
  | nil => rfl
  | cons call calls ih => simp [runPasses, ih]

theorem runPasses_append (unit : CompilationUnit) (calls more : List PassCall) :
    (runPasses unit (calls ++ more)).2 = (runPasses (runPasses unit calls).2 more).2 := by
  induction calls generalizing unit with
  | nil => rfl
  | cons call calls ih => exact ih (call.run unit).unit

/-- How a pass ends is decided by the unit that the passes before it have left. -/
theorem getElem?_runPasses (unit : CompilationUnit) (calls : List PassCall) (k : Nat) :
    (runPasses unit calls).1[k]? =
      calls[k]?.map fun call => (call.run (runPasses unit (calls.take k)).2).outcome := by
  induction calls generalizing unit k with
  | nil => rfl
  | cons call calls ih =>
    cases k with
    | zero => rfl
    | succ k => exact ih (call.run unit).unit k

/-! ## What passes leave of a unit -/

/-- The unit `after` is `unit` with some more functions: they have no markers, and their names, which had no meaning
before, denote them. -/
structure CompilationUnit.ExtendedBy (unit : CompilationUnit) (added : List FunctionDecl) (after : CompilationUnit) :
    Prop where
  id : after.id = unit.id
  span : after.span = unit.span
  imports : after.imports = unit.imports
  types : after.types = unit.types
  functions : after.functions = unit.functions ++ added
  /-- The symbols follow each other as the functions do. -/
  scope : after.scope = ⟨unit.scope.owner, unit.scope.symbols ++ added.map fun f => .function f.symbol⟩
  named : ∀ f ∈ added, f.symbol.name = f.name
  /-- No contract takes what was added for a handler. -/
  unmarked : ∀ f ∈ added, f.markers = []
  fresh : ∀ f ∈ added, unit.scope.contains f.name = false
  distinct : (added.map FunctionDecl.name).Nodup

namespace CompilationUnit.ExtendedBy

variable {unit mid after : CompilationUnit} {added more : List FunctionDecl} {f : FunctionDecl}

theorem refl (unit : CompilationUnit) : unit.ExtendedBy [] unit where
  id := rfl
  span := rfl
  imports := rfl
  types := rfl
  functions := (List.append_nil _).symm
  scope := by simp
  named := by simp
  unmarked := by simp
  fresh := by simp
  distinct := List.nodup_nil

theorem install (hname : f.symbol.name = f.name) (hmarkers : f.markers = [])
    (hfree : unit.scope.contains f.name = false) : unit.ExtendedBy [f] (unit.install f) where
  id := rfl
  span := rfl
  imports := rfl
  types := rfl
  functions := rfl
  scope := rfl
  named := by simpa using hname
  unmarked := by simpa using hmarkers
  fresh := by simpa using hfree
  distinct := List.nodup_singleton _

/-- A name has a meaning afterwards if it had one before or is that of a new function. -/
theorem contains_iff (h : unit.ExtendedBy added after) {name : Text} :
    after.scope.contains name = true ↔ unit.scope.contains name = true ∨ ∃ f ∈ added, f.name = name := by
  rw [Scope.contains_iff, Scope.contains_iff, h.scope]
  constructor
  · rintro ⟨s, hs, rfl⟩
    rcases List.mem_append.mp hs with hs | hs
    · exact .inl ⟨s, hs, rfl⟩
    · obtain ⟨f, hf, rfl⟩ := List.mem_map.mp hs
      exact .inr ⟨f, hf, (h.named f hf).symm⟩
  · rintro (⟨s, hs, rfl⟩ | ⟨f, hf, rfl⟩)
    · exact ⟨s, List.mem_append_left _ hs, rfl⟩
    · exact ⟨.function f.symbol, List.mem_append_right _ (List.mem_map_of_mem hf), h.named f hf⟩

/-- Functions that are added to a unit that has been added to. -/
theorem trans (h : unit.ExtendedBy added mid) (h' : mid.ExtendedBy more after) :
    unit.ExtendedBy (added ++ more) after where
  id := h'.id.trans h.id
  span := h'.span.trans h.span
  imports := h'.imports.trans h.imports
  types := h'.types.trans h.types
  functions := by rw [h'.functions, h.functions, List.append_assoc]
  scope := by simp [h'.scope, h.scope]
  named := fun f hf => (List.mem_append.mp hf).elim (h.named f) (h'.named f)
  unmarked := fun f hf => (List.mem_append.mp hf).elim (h.unmarked f) (h'.unmarked f)
  fresh := by
    intro f hf
    rcases List.mem_append.mp hf with hf | hf
    · exact h.fresh f hf
    · refine Bool.eq_false_iff.mpr fun hold => ?_
      exact absurd (h.contains_iff.mpr (.inl hold)) (by simp [h'.fresh f hf])
  distinct := by
    rw [List.map_append, List.nodup_append]
    refine ⟨h.distinct, h'.distinct, ?_⟩
    -- a name that was added first is taken when the others are added
    rintro n hn m hm rfl
    obtain ⟨f, hf, rfl⟩ := List.mem_map.mp hn
    obtain ⟨g, hg, hname⟩ := List.mem_map.mp hm
    have htaken : mid.scope.contains g.name = true := h.contains_iff.mpr (.inr ⟨f, hf, hname.symm⟩)
    simp [h'.fresh g hg] at htaken

/-- What has no markers is not collected. -/
theorem collect_eq (h : unit.ExtendedBy added after) (c : Contract) : c.collect after = c.collect unit := by
  have hnone : added.filter c.isMarked = [] := by
    refine List.filter_eq_nil_iff.mpr fun f hf => ?_
    simp [Contract.isMarked, h.unmarked f hf]
  have hmarked : c.marked after = c.marked unit := by
    rw [Contract.marked, h.functions, List.filter_append, hnone, List.append_nil, Contract.marked]
  rw [Contract.collect, hmarked, Contract.collect]

/-- The runtime support module is still found where it was. -/
theorem runtimeFor?_eq (h : unit.ExtendedBy added after) (c : Contract) (runtime : Option Runtime) :
    c.runtimeFor? runtime after = c.runtimeFor? runtime unit := by
  rw [Contract.runtimeFor?, CompilationUnit.findImport?, h.imports]
  rfl

end CompilationUnit.ExtendedBy

/-- One pass adds the entry point that it makes, if it makes one. -/
theorem PassCall.run_extends (call : PassCall) (unit : CompilationUnit) :
    unit.ExtendedBy (madeEntryPoint? (call.run unit).outcome).toList (call.run unit).unit := by
  unfold PassCall.run
  rcases call.contract.runPass_ends call.runtime unit call.log with
    ⟨-, hout, hunit⟩ | ⟨-, e, -, hout, hunit⟩ | ⟨-, f, hplan, hout, hunit⟩
  · rw [hout, hunit]
    exact .refl unit
  · rw [hout, hunit]
    exact .refl unit
  · rw [hout, hunit]
    obtain ⟨r, -, hplan⟩ := Contract.plan_eq_ok.mp hplan
    obtain ⟨hfree, register, process, -, -, rfl⟩ := Contract.planWith_eq_ok.mp hplan
    exact .install rfl rfl hfree

/-- Passes add the entry points that they make, in the order in which they are run. -/
theorem runPasses_extends (unit : CompilationUnit) (calls : List PassCall) :
    unit.ExtendedBy ((runPasses unit calls).1.filterMap madeEntryPoint?) (runPasses unit calls).2 := by
  induction calls generalizing unit with
  | nil => exact .refl unit
  | cons call calls ih =>
    have hadded : (runPasses unit (call :: calls)).1.filterMap madeEntryPoint? =
        (madeEntryPoint? (call.run unit).outcome).toList ++
          (runPasses (call.run unit).unit calls).1.filterMap madeEntryPoint? := by
      rw [runPasses, List.filterMap_cons]
      cases madeEntryPoint? (call.run unit).outcome <;> rfl
    rw [hadded]
    exact (call.run_extends unit).trans (ih (call.run unit).unit)

/-! ## Repeated passes -/

/-- What a pass that makes an entry point has found: handlers and a runtime support module. -/
theorem PassCall.found_of_made {call : PassCall} {unit : CompilationUnit} {f : FunctionDecl}
    (h : madeEntryPoint? (call.run unit).outcome = some f) :
    f.name = call.contract.entryPointName ∧ (call.contract.collect unit).handlers ≠ [] ∧
      ∃ r, call.contract.runtimeFor? call.runtime unit = some r := by
  unfold PassCall.run at h
  rcases call.contract.runPass_ends call.runtime unit call.log with
    ⟨-, hout, -⟩ | ⟨-, e, -, hout, -⟩ | ⟨hne, g, hplan, hout, -⟩
  · rw [hout] at h
    cases h
  · rw [hout] at h
    cases h
  · rw [hout] at h
    obtain rfl := Option.some.inj h
    obtain ⟨r, hr, hplan⟩ := Contract.plan_eq_ok.mp hplan
    exact ⟨(Contract.isEntryPoint_of_planWith hplan).name, hne, r, hr⟩

/-- A pass that made an entry point finds its name taken ever after. -/
theorem PassCall.run_again {call again : PassCall} {unit after : CompilationUnit} {f : FunctionDecl}
    {added : List FunctionDecl} (hmade : madeEntryPoint? (call.run unit).outcome = some f)
    (hafter : (call.run unit).unit.ExtendedBy added after) (hcontract : again.contract = call.contract)
    (hruntime : again.runtime = call.runtime) :
    (again.run after).outcome = .error (.nameTaken call.contract.entryPointName) := by
  have hall := (call.run_extends unit).trans hafter
  obtain ⟨hname, hhandlers, r, hr⟩ := found_of_made hmade
  have htaken : after.scope.contains call.contract.entryPointName = true := by
    refine hall.contains_iff.mpr (.inr ⟨f, ?_, hname⟩)
    rw [hmade]
    exact List.mem_append_left _ List.mem_cons_self
  -- handlers and runtime support module are what they were, so the name is the first thing in the way
  unfold PassCall.run
  rw [hcontract, hruntime, Contract.runPass_eq_error, hall.collect_eq]
  exact ⟨hhandlers, .taken ((hall.runtimeFor?_eq _ _).trans hr) htaken⟩

/-- A pass that is run after another one starts from what that one has left, with the entry points of the passes in
between. -/
theorem exists_extendedBy_between (unit : CompilationUnit) {calls : List PassCall} {call : PassCall} {i j : Nat}
    (hij : i < j) (hcall : calls[i]? = some call) :
    ∃ added, (call.run (runPasses unit (calls.take i)).2).unit.ExtendedBy added
      (runPasses unit (calls.take j)).2 := by
  -- the passes before the later one: those before the earlier one, itself, and those in between
  have hsplit : calls.take j = calls.take i ++ call :: (calls.take j).drop (i + 1) := by
    have hkept : (calls.take j)[i]? = some call := (List.getElem?_take_of_lt hij).trans hcall
    obtain ⟨hi, hget⟩ := List.getElem?_eq_some_iff.mp hkept
    calc calls.take j = (calls.take j).take i ++ (calls.take j).drop i := (List.take_append_drop i _).symm
      _ = calls.take i ++ call :: (calls.take j).drop (i + 1) := by
        rw [List.take_take, Nat.min_eq_left (Nat.le_of_lt hij), List.drop_eq_getElem_cons hi, hget]
  rw [hsplit, runPasses_append]
  exact ⟨_, runPasses_extends _ _⟩

/-- However many passes are run over a unit and whichever of them fail, its functions stay in front of the entry points
that were made, in the order in which they were made; these have distinct new names, which are bound behind the symbols
of the unit. Imports and types stay as they are, and so do the handlers and the reports under any contract. A pass that
made an entry point fails when it is repeated, since the name is taken. -/
theorem runPasses_invariant (unit : CompilationUnit) (calls : List PassCall) :
    let outcomes := (runPasses unit calls).1
    let after := (runPasses unit calls).2
    let added := outcomes.filterMap madeEntryPoint?
    outcomes.length = calls.length ∧
      after.functions = unit.functions ++ added ∧
      (after.id = unit.id ∧ after.span = unit.span ∧ after.imports = unit.imports ∧ after.types = unit.types) ∧
      (added.map FunctionDecl.name).Nodup ∧
      (∀ f ∈ added, f.symbol.name = f.name ∧ unit.scope.contains f.name = false) ∧
      after.scope = ⟨unit.scope.owner, unit.scope.symbols ++ added.map fun f => .function f.symbol⟩ ∧
      (∀ c : Contract, c.collect after = c.collect unit) ∧
      ∀ (i j : Nat) (call again : PassCall) (f : FunctionDecl), i < j → calls[i]? = some call → calls[j]? = some again →
        again.contract = call.contract → again.runtime = call.runtime →
        outcomes[i]?.bind madeEntryPoint? = some f →
        outcomes[j]? = some (.error (.nameTaken call.contract.entryPointName)) := by
  intro outcomes after added
  have h : unit.ExtendedBy added after := runPasses_extends unit calls
  refine ⟨length_runPasses unit calls, h.functions, ⟨h.id, h.span, h.imports, h.types⟩, h.distinct,
    fun f hf => ⟨h.named f hf, h.fresh f hf⟩, h.scope, h.collect_eq, ?_⟩
  intro i j call again f hij hcall hagain hcontract hruntime hmade
  have houtcome : ∀ k, outcomes[k]? = _ := getElem?_runPasses unit calls
  rw [houtcome, hcall] at hmade
  obtain ⟨between, hbetween⟩ := exists_extendedBy_between unit hij hcall
  rw [houtcome, hagain, Option.map_some, PassCall.run_again hmade hbetween hcontract hruntime]

/-- Two passes with different names for the entry point, and the first one again: two entry points are made, and the third
pass fails. -/
theorem runPasses_invariant_repeated :
    let call : PassCall := { contract := {} }
    let other : PassCall := { contract := ({} : Contract).withEntryPoint "start" }
    let ran := runPasses mixedUnit [call, other, call]
    ran.2.functions.map FunctionDecl.name =
        mixedUnit.functions.map FunctionDecl.name ++ [({} : Contract).entryPointName, "start"] ∧
      ran.1[2]? = some (.error (.nameTaken ({} : Contract).entryPointName)) := by
  intro call other ran
  obtain ⟨-, hfunctions, -, -, -, -, -, hrepeated⟩ := runPasses_invariant mixedUnit [call, other, call]
  have hadded : (ran.1.filterMap madeEntryPoint?).map FunctionDecl.name = [({} : Contract).entryPointName, "start"] := by
    decide +kernel
  refine ⟨?_, ?_⟩
  · rw [hfunctions, List.map_append, hadded]
  · have hsome : (ran.1[0]?.bind madeEntryPoint?).isSome = true := by decide +kernel
    obtain ⟨f, hf⟩ := Option.isSome_iff_exists.mp hsome
    exact hrepeated 0 2 call call f (by decide) rfl rfl rfl rfl hf

end Registrar
