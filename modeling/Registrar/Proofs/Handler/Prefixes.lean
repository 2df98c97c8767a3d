import Registrar.Proofs.Handler.Collection
import Registrar.Proofs.Handler.EntryPoint
import Registrar.Proofs.Resolve.Layout
import Registrar.Proofs.Resolve.Prefixes

/-!
# Prefixes and places play no part in the handler pass

What the pass makes of a unit it makes of the same unit without spans, and of the same unit under other prefixes: both
changes leave what it goes by, the symbols of tags and the types of parameters and results (`KeepsSignatures`). Only the
calls in an entry point carry a prefix, the one by which the unit imports the runtime support module.

Together with what is known of the resolver, a prefix can be renamed all over a program and nothing else changes
(`renamePrefix_preserves`).
-/

namespace Registrar

/-! ## What the pass goes by -/

/-- A change of functions that leaves what the pass goes by: names, symbols, tags and types. -/
structure KeepsSignatures (g : FunctionDecl → FunctionDecl) : Prop where
  name : ∀ d, (g d).name = d.name
  symbol : ∀ d, (g d).symbol = d.symbol
  tags : ∀ d, (g d).markers.map Marker.symbol = d.markers.map Marker.symbol
  required : ∀ d, (g d).required.map Param.type = d.required.map Param.type
  defaultable : ∀ d, (g d).defaultable.length = d.defaultable.length
  rest : ∀ d, (g d).rest.isSome = d.rest.isSome
  returnType : ∀ d, (g d).returnType = d.returnType

theorem keepsSignatures_unplaced : KeepsSignatures FunctionDecl.unplaced where
  name _ := rfl
  symbol _ := rfl
  tags d := by simp [FunctionDecl.unplaced, Marker.unplaced, Function.comp_def]
  required d := by simp [FunctionDecl.unplaced, Param.unplaced, Function.comp_def]
  defaultable d := by simp [FunctionDecl.unplaced]
  rest d := by simp [FunctionDecl.unplaced]
  returnType _ := rfl

theorem keepsSignatures_requalified (f : Text → Text) : KeepsSignatures (FunctionDecl.requalified f) where
  name _ := rfl
  symbol _ := rfl
  tags d := by simp [FunctionDecl.requalified, Marker.requalified, Function.comp_def]
  required d := by simp [FunctionDecl.requalified, Param.requalified, Function.comp_def]
  defaultable d := by simp [FunctionDecl.requalified]
  rest d := by simp [FunctionDecl.requalified]
  returnType _ := rfl

namespace KeepsSignatures

variable {g : FunctionDecl → FunctionDecl} {c : Contract} {unit unit' : CompilationUnit}

theorem isMarked_eq (h : KeepsSignatures g) (c : Contract) (d : FunctionDecl) : c.isMarked (g d) = c.isMarked d := by
  have hany : ∀ d, c.isMarked d = (d.markers.map Marker.symbol).any fun s => s.identity == c.markerIdentity := by
    intro d
    rw [List.any_map]
    rfl
  rw [hany, hany, h.tags]

theorem breaks_eq (h : KeepsSignatures g) (c : Contract) (d : FunctionDecl) : c.breaks (g d) = c.breaks d := by
  have hlength : (g d).required.length = d.required.length := by simpa using congrArg List.length (h.required d)
  have hempty : (g d).defaultable.isEmpty = d.defaultable.isEmpty := by
    rw [Bool.eq_iff_iff, List.isEmpty_iff_length_eq_zero, List.isEmpty_iff_length_eq_zero, h.defaultable]
  have htype : ∀ i : Nat, (g d).required[i]?.map Param.type = d.required[i]?.map Param.type := by
    intro i
    rw [← List.getElem?_map, h.required, List.getElem?_map]
  funext rule
  cases rule <;> simp only [Contract.breaks, hlength, hempty, htype, h.rest, h.returnType]

theorem violation?_eq (h : KeepsSignatures g) (c : Contract) (d : FunctionDecl) :
    c.violation? (g d) = c.violation? d := by
  rw [c.violation?_eq_find?, c.violation?_eq_find?, h.breaks_eq]

/-- The marked functions are those that were marked. -/
theorem marked_eq (h : KeepsSignatures g) (hfunctions : unit'.functions = unit.functions.map g) :
    c.marked unit' = (c.marked unit).map g := by
  rw [Contract.marked, hfunctions, List.filter_map, Contract.marked]
  exact congrArg (List.map g) (List.filter_congr fun d _ => h.isMarked_eq c d)

/-- The handlers are those that were handlers. -/
theorem handlers_eq (h : KeepsSignatures g) (hfunctions : unit'.functions = unit.functions.map g) :
    (c.collect unit').handlers = (c.collect unit).handlers.map g := by
  rw [Contract.collect, h.marked_eq hfunctions, List.filter_map, Contract.collect]
  exact congrArg (List.map g) (List.filter_congr fun d _ => by rw [Function.comp_apply, h.violation?_eq])

/-- The same functions are reported, and the same rules. -/
theorem diagnostics_eq (h : KeepsSignatures g) (hfunctions : unit'.functions = unit.functions.map g) :
    (c.collect unit').diagnostics =
      (c.marked unit).filterMap fun d => (c.violation? d).map (c.signatureDiagnostic (g d)) := by
  rw [Contract.collect, h.marked_eq hfunctions, List.filterMap_map]
  exact List.filterMap_congr fun d _ => by rw [Function.comp_apply, h.violation?_eq]

end KeepsSignatures

/-! ## The planned entry point -/

namespace Contract

variable {c : Contract} {f : Text → Text}

theorem entryPoint_unplaced (c : Contract) (r : Runtime) (register process : FunctionSymbol) (unit : CompilationUnit)
    (handlers : List FunctionDecl) :
    c.entryPoint r register process unit.unplaced (handlers.map FunctionDecl.unplaced) =
      (c.entryPoint r register process unit handlers).unplaced := by
  simp [entryPoint, FunctionDecl.unplaced, Draft.emptyFunction, registration, Runtime.call, Stmt.unplaced, Expr.unplaced,
    Expr.unplacedAll, CompilationUnit.unplaced, Function.comp_def]

/-- The handlers of an entry point are named in it without a prefix. -/
theorem entryPoint_handlers_requalified (c : Contract) (r : Runtime) (register process : FunctionSymbol)
    (unit : CompilationUnit) (handlers : List FunctionDecl) :
    c.entryPoint r register process (unit.requalified f) (handlers.map (FunctionDecl.requalified f)) =
      c.entryPoint r register process unit handlers := by
  simp [entryPoint, FunctionDecl.requalified, Draft.emptyFunction, registration, Runtime.call,
    CompilationUnit.requalified, Function.comp_def]

/-- Its calls are behind the prefix of the runtime support module. -/
theorem entryPoint_runtime_requalified (c : Contract) (r : Runtime) (register process : FunctionSymbol)
    (unit : CompilationUnit) (handlers : List FunctionDecl) :
    c.entryPoint ⟨r.module, f r.qualifier⟩ register process unit handlers =
      (c.entryPoint r register process unit handlers).requalified f := by
  simp [entryPoint, FunctionDecl.requalified, Draft.emptyFunction, registration, Runtime.call, Stmt.requalified,
    Expr.requalified, Expr.requalifiedAll, Function.comp_def]

theorem planWith_unplaced (c : Contract) (r : Runtime) (unit : CompilationUnit) (handlers : List FunctionDecl) :
    c.planWith r unit.unplaced (handlers.map FunctionDecl.unplaced) =
      (c.planWith r unit handlers).map FunctionDecl.unplaced := by
  unfold planWith
  have hscope : unit.unplaced.scope = unit.scope := rfl
  rw [hscope]
  split
  · rfl
  · cases r.operation c.registerOp with
    | error e => rfl
    | ok register =>
      cases r.operation c.processOp with
      | error e => rfl
      | ok process => exact congrArg Except.ok (c.entryPoint_unplaced r register process unit handlers)

theorem planWith_requalified (c : Contract) (r : Runtime) (unit : CompilationUnit) (handlers : List FunctionDecl) :
    c.planWith r (unit.requalified f) (handlers.map (FunctionDecl.requalified f)) = c.planWith r unit handlers := by
  unfold planWith
  have hscope : (unit.requalified f).scope = unit.scope := rfl
  simp only [hscope, entryPoint_handlers_requalified]

theorem planWith_runtime_requalified (c : Contract) (r : Runtime) (unit : CompilationUnit)
    (handlers : List FunctionDecl) :
    c.planWith ⟨r.module, f r.qualifier⟩ unit handlers =
      (c.planWith r unit handlers).map (FunctionDecl.requalified f) := by
  unfold planWith
  have hoperation : ∀ name, Runtime.operation ⟨r.module, f r.qualifier⟩ name = r.operation name := fun _ => rfl
  simp only [hoperation]
  split
  · rfl
  · cases r.operation c.registerOp with
    | error e => rfl
    | ok register =>
      cases r.operation c.processOp with
      | error e => rfl
      | ok process => exact congrArg Except.ok (c.entryPoint_runtime_requalified r register process unit handlers)

theorem plan_unplaced (c : Contract) (runtime : Option Runtime) (unit : CompilationUnit)
    (handlers : List FunctionDecl) :
    c.plan runtime unit.unplaced (handlers.map FunctionDecl.unplaced) =
      (c.plan runtime unit handlers).map FunctionDecl.unplaced := by
  have hruntime : c.runtimeFor? runtime unit.unplaced = c.runtimeFor? runtime unit := by
    have hfind : unit.unplaced.findImport? c.runtimeModule =
        (unit.findImport? c.runtimeModule).map ImportDecl.unplaced := by
      rw [CompilationUnit.findImport?, CompilationUnit.unplaced, List.find?_map]
      rfl
    rw [runtimeFor?, hfind, Option.map_map]
    rfl
  rw [plan_eq, plan_eq, hruntime]
  cases c.runtimeFor? runtime unit with
  | none => rfl
  | some r => exact c.planWith_unplaced r unit handlers

/-- Whatever runtime support module is given, no prefix of the unit counts. -/
theorem plan_given_requalified (c : Contract) (r : Runtime) (unit : CompilationUnit) (handlers : List FunctionDecl) :
    c.plan (some r) (unit.requalified f) (handlers.map (FunctionDecl.requalified f)) = c.plan (some r) unit handlers :=
  c.planWith_requalified r unit handlers

/-- If none is given, the entry point has the prefix of the import. -/
theorem plan_imported_requalified (hf : Renames f) (c : Contract) (unit : CompilationUnit)
    (handlers : List FunctionDecl) :
    c.plan none (unit.requalified f) (handlers.map (FunctionDecl.requalified f)) =
      (c.plan none unit handlers).map (FunctionDecl.requalified f) := by
  have hfind : (unit.requalified f).findImport? c.runtimeModule =
      (unit.findImport? c.runtimeModule).map (ImportDecl.requalified f) := by
    rw [CompilationUnit.findImport?, CompilationUnit.requalified, List.find?_map]
    refine congrArg _ (List.find?_congr fun i _ => ?_)
    rw [Function.comp_apply, i.id_requalified]
  rw [plan_eq, plan_eq, runtimeFor?, runtimeFor?, hfind]
  cases unit.findImport? c.runtimeModule with
  | none => rfl
  | some i =>
    simp only [Option.map_some, Option.none_or, i.module_requalified, i.qualifier_requalified hf]
    rw [c.planWith_requalified]
    exact c.planWith_runtime_requalified ⟨i.module, i.qualifier⟩ unit handlers

end Contract

/-! ## The pass -/

/-- What a pass found and made, without spans. -/
def PassResult.unplaced (r : PassResult) : PassResult where
  handlers := r.handlers.map FunctionDecl.unplaced
  diagnostics := r.diagnostics.map Diagnostic.unplaced
  entryPoint := r.entryPoint.map FunctionDecl.unplaced

/-- What a pass found and made, under other prefixes. The calls of an entry point have the prefix of the unit only if
the runtime support module is the one that it imports. -/
def PassResult.requalified (f : Text → Text) (imported : Bool) (r : PassResult) : PassResult where
  handlers := r.handlers.map (FunctionDecl.requalified f)
  diagnostics := r.diagnostics
  entryPoint := if imported then r.entryPoint.map (FunctionDecl.requalified f) else r.entryPoint

namespace Contract

variable {f : Text → Text}

/-- How a pass ends: without handlers nothing is made, and otherwise the plan is what counts. -/
theorem runPass_outcome (c : Contract) (runtime : Option Runtime) (unit : CompilationUnit) (log : Log) :
    (c.runPass runtime unit log).outcome =
      if (c.collect unit).handlers = [] then .ok ⟨[], (c.collect unit).diagnostics, none⟩
      else (c.plan runtime unit (c.collect unit).handlers).map fun entry =>
        ⟨(c.collect unit).handlers, (c.collect unit).diagnostics, some entry⟩ := by
  rcases c.runPass_ends runtime unit log with ⟨hnone, hout, -⟩ | ⟨hsome, e, hplan, hout, -⟩ |
    ⟨hsome, entry, hplan, hout, -⟩
  · rw [if_pos hnone, hout]
  · rw [if_neg hsome, hplan, hout]
    rfl
  · rw [if_neg hsome, hplan, hout]
    rfl

theorem collect_diagnostics_unplaced (c : Contract) (unit : CompilationUnit) :
    (c.collect unit.unplaced).diagnostics = (c.collect unit).diagnostics.map Diagnostic.unplaced := by
  rw [keepsSignatures_unplaced.diagnostics_eq rfl, collect, List.map_filterMap]
  refine List.filterMap_congr fun d _ => ?_
  rw [Option.map_map]
  rfl

theorem collect_diagnostics_requalified (c : Contract) (unit : CompilationUnit) :
    (c.collect (unit.requalified f)).diagnostics = (c.collect unit).diagnostics :=
  (keepsSignatures_requalified f).diagnostics_eq rfl

theorem runPass_unplaced (c : Contract) (runtime : Option Runtime) (unit : CompilationUnit) (log : Log) :
    (c.runPass runtime unit.unplaced log).outcome =
      (c.runPass runtime unit log).outcome.map PassResult.unplaced := by
  have hhandlers : (c.collect unit.unplaced).handlers = (c.collect unit).handlers.map FunctionDecl.unplaced :=
    keepsSignatures_unplaced.handlers_eq rfl
  rw [runPass_outcome, runPass_outcome, hhandlers, collect_diagnostics_unplaced, c.plan_unplaced]
  by_cases hnone : (c.collect unit).handlers = []
  · rw [if_pos hnone, if_pos (List.map_eq_nil_iff.mpr hnone)]
    rfl
  · rw [if_neg hnone, if_neg (fun hnil => hnone (List.map_eq_nil_iff.mp hnil))]
    cases c.plan runtime unit (c.collect unit).handlers <;> rfl

theorem runPass_requalified (hf : Renames f) (c : Contract) (runtime : Option Runtime) (unit : CompilationUnit)
    (log : Log) :
    (c.runPass runtime (unit.requalified f) log).outcome =
      (c.runPass runtime unit log).outcome.map (PassResult.requalified f runtime.isNone) := by
  have hhandlers : (c.collect (unit.requalified f)).handlers =
      (c.collect unit).handlers.map (FunctionDecl.requalified f) := (keepsSignatures_requalified f).handlers_eq rfl
  rw [runPass_outcome, runPass_outcome, hhandlers, collect_diagnostics_requalified]
  by_cases hnone : (c.collect unit).handlers = []
  · rw [if_pos hnone, if_pos (List.map_eq_nil_iff.mpr hnone)]
    cases runtime <;> rfl
  · rw [if_neg hnone, if_neg (fun hnil => hnone (List.map_eq_nil_iff.mp hnil))]
    cases runtime with
    | none =>
      rw [c.plan_imported_requalified hf]
      cases c.plan none unit (c.collect unit).handlers <;> rfl
    | some r =>
      rw [c.plan_given_requalified]
      cases c.plan (some r) unit (c.collect unit).handlers <;> rfl

/-- The pass on a unit that differs from another one in its prefixes and in spans. -/
theorem runPass_alike (hf : Renames f) {unit unit' : CompilationUnit}
    (hunit : unit'.unplaced = (unit.requalified f).unplaced) (c : Contract) (runtime : Option Runtime) (log : Log) :
    (c.runPass runtime unit' log).outcome.map PassResult.unplaced =
      (c.runPass runtime unit log).outcome.map fun r => (r.requalified f runtime.isNone).unplaced := by
  calc (c.runPass runtime unit' log).outcome.map PassResult.unplaced
      = (c.runPass runtime unit'.unplaced log).outcome := (c.runPass_unplaced runtime unit' log).symm
    _ = (c.runPass runtime (unit.requalified f) log).outcome.map PassResult.unplaced := by
      rw [hunit, c.runPass_unplaced]
    _ = ((c.runPass runtime unit log).outcome.map (PassResult.requalified f runtime.isNone)).map
          PassResult.unplaced := by rw [c.runPass_requalified hf]
    _ = _ := by cases (c.runPass runtime unit log).outcome <;> rfl

/-- It logs the same, but for the spans. -/
theorem runPass_log_alike {unit unit' : CompilationUnit} (hunit : unit'.unplaced = (unit.requalified f).unplaced)
    (c : Contract) (runtime : Option Runtime) (log : Log) :
    (c.runPass runtime unit' log).log.entries.map Diagnostic.unplaced =
      (c.runPass runtime unit log).log.entries.map Diagnostic.unplaced := by
  have hdiagnostics : (c.collect unit').diagnostics.map Diagnostic.unplaced =
      (c.collect unit).diagnostics.map Diagnostic.unplaced := by
    rw [← c.collect_diagnostics_unplaced, hunit, c.collect_diagnostics_unplaced, c.collect_diagnostics_requalified]
  have hlog : ∀ unit, (c.runPass runtime unit log).log.entries.map Diagnostic.unplaced =
      log.entries.map Diagnostic.unplaced ++
        ((c.collect unit).diagnostics.map Diagnostic.unplaced).map (Diagnostic.stamped log.phase) := by
    intro unit
    have hextend : (c.runPass runtime unit log).log = log.extend (c.collect unit).diagnostics := rfl
    simp only [hextend, Log.extend, List.map_append, List.map_map]
    rfl
  rw [hlog, hlog, hdiagnostics]

end Contract

/-! ## One prefix under another name -/

/-- Names one prefix anew. -/
def renamePrefix (old new q : Text) : Text := if q = old then new else q

theorem renames_renamePrefix {old new : Text} (hnew : new ≠ []) : Renames (renamePrefix old new) := by
  intro q hq
  unfold renamePrefix at hq ⊢
  split
  · exact hnew
  · next hother => exact absurd (if_neg hother) hq

theorem renamePrefix_inj {old new : Text} {qs : List Text} (hfresh : new ∉ qs) :
    ∀ q ∈ qs, ∀ q' ∈ qs, renamePrefix old new q = renamePrefix old new q' → q = q' := by
  intro q hq q' hq' heq
  unfold renamePrefix at heq
  by_cases h : q = old
  · by_cases h' : q' = old
    · rw [h, h']
    · rw [if_pos h, if_neg h'] at heq
      exact absurd (heq ▸ hq') hfresh
  · by_cases h' : q' = old
    · rw [if_neg h, if_pos h'] at heq
      exact absurd (heq ▸ hq) hfresh
    · rw [if_neg h, if_neg h'] at heq
      exact heq

/-- The prefix of an import can be renamed. If a program has no problems, then neither has the program in which the
prefix is another one, new to the program, in the import and wherever a name is qualified by it, whatever becomes of the
layout. Its unit differs in that prefix and in spans only, and so does what the handler pass makes of it, with any
contract and runtime support module: the handlers, the diagnostics, and the failure or the entry point are the same. -/
theorem renamePrefix_preserves {registry : Registry} {id : ModuleId} {file : Option Text}
    {program program' : Surface.Program Value} {unit : CompilationUnit} (old new : Text) (file' : Option Text)
    (h : resolveProgram registry id file program = (unit, [])) (hnew : new ≠ [])
    (hfresh : new ∉ program.imports.map Surface.Import.qualifier)
    (hprogram : program'.unplaced = (program.requalified (renamePrefix old new)).unplaced) :
    ∃ unit', resolveProgram registry id file' program' = (unit', []) ∧
      unit'.unplaced = (unit.requalified (renamePrefix old new)).unplaced ∧
      ∀ (c : Contract) (runtime : Option Runtime) (log : Log),
        (c.runPass runtime unit' log).outcome.map PassResult.unplaced =
            (c.runPass runtime unit log).outcome.map
              (fun r => (r.requalified (renamePrefix old new) runtime.isNone).unplaced) ∧
          (c.runPass runtime unit' log).log.entries.map Diagnostic.unplaced =
            (c.runPass runtime unit log).log.entries.map Diagnostic.unplaced := by
  have hf : Renames (renamePrefix old new) := renames_renamePrefix hnew
  have hrenamed := resolveProgram_requalified hf (renamePrefix_inj hfresh) h
  obtain ⟨hunit, hnothing⟩ := resolveProgram_layout registry id file' file hprogram
  rw [hrenamed] at hunit hnothing
  refine ⟨(resolveProgram registry id file' program').1, ?_, hunit, fun c runtime log => ?_⟩
  · exact Prod.ext rfl (List.map_eq_nil_iff.mp hnothing)
  · exact ⟨c.runPass_alike hf hunit runtime log, c.runPass_log_alike hunit runtime log⟩

/-- The calls that the statements of a function make, each with its prefix. -/
def FunctionDecl.calls (f : FunctionDecl) : List (Option Text × Text) :=
  f.body.filterMap fun
    | .expr (.call name _ _ _ qualifier _) _ => some (qualifier, name)
    | _ => none

/-- The runtime support module under two prefixes, of which the first becomes another one; the text is laid out anew. The
handler is the same, and the calls in its body and in the entry point have the new prefix. -/
theorem renamePrefix_preserves_twoPrefixes :
    let name (q : Option Text) (ident : Text) (line : Nat) : Surface.Name := ⟨q, ident, ⟨line, 1⟩⟩
    let program (q : Text) (asName : Option Text) (line : Nat) : Surface.Program Value :=
      { imports := [⟨"ballerinax", "awslambda", asName, ⟨line, 1⟩⟩, ⟨"ballerinax", "awslambda", some "rt", ⟨line, 9⟩⟩]
        records := []
        functions := [
          { name := "handle", position := ⟨line, 4⟩, tags := [⟨some q, "Function", ⟨line, 1⟩⟩], isPublic := true
            params := [⟨"ctx", ⟨line, 2⟩, ⟨name (some "rt") "Context" line, []⟩, .required⟩,
              ⟨"event", ⟨line, 3⟩, ⟨name none "json" line, []⟩, .required⟩]
            returns := some ⟨name none "error" line, [name none "json" line]⟩
            body := [.expr (.call (name (some q) "process" line) []) ⟨line, 5⟩,
              .ret (some (.name (name none "event" line))) ⟨line, 6⟩] }] }
    let before := resolveProgram ({} : Contract).registry ⟨"demo", "app"⟩ none (program "awslambda" none 1)
    let after := resolveProgram ({} : Contract).registry ⟨"demo", "app"⟩ (some "b") (program "lib" (some "lib") 7)
    let call (q operation : Text) : Option Text × Text := (some q, operation)
    let passed (unit : CompilationUnit) : Option (List Text × Option (List (Option Text × Text))) :=
      ((({} : Contract).runPass none unit {}).outcome.map PassResult.unplaced).toOption.map fun r =>
        (r.handlers.map FunctionDecl.name, r.entryPoint.map FunctionDecl.calls)
    before.2 = [] ∧ after.2 = [] ∧
      after.1.unplaced = (before.1.requalified (renamePrefix "awslambda" "lib")).unplaced ∧
      before.1.unplaced.functions.map FunctionDecl.calls = [[call "awslambda" "process"]] ∧
      after.1.unplaced.functions.map FunctionDecl.calls = [[call "lib" "process"]] ∧
      passed before.1 = some ([("handle" : Text)], some [call "awslambda" "register", call "awslambda" "process"]) ∧
      passed after.1 = some ([("handle" : Text)], some [call "lib" "register", call "lib" "process"]) := by
  intro name program before after call passed
  have hclean : before.2 = [] := by decide +kernel
  have hprogram : (program "lib" (some "lib") 7).unplaced =
      ((program "awslambda" none 1).requalified (renamePrefix "awslambda" "lib")).unplaced := rfl
  obtain ⟨unit', hafter, hunit, hpass⟩ := renamePrefix_preserves "awslambda" "lib" (some "b")
    (Prod.ext rfl hclean) (by decide) (by decide) hprogram
  have hfst : after.1 = unit' := congrArg Prod.fst hafter
  refine ⟨hclean, congrArg Prod.snd hafter, hfst ▸ hunit, by decide +kernel, ?_, by decide +kernel, ?_⟩
  · rw [hfst, hunit]
    decide +kernel
  · simp only [passed, hfst, (hpass {} none {}).1]
    decide +kernel

end Registrar
