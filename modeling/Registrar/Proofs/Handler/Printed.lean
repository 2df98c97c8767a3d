import Registrar.Proofs.Handler.EntryPoint
import Registrar.Proofs.Resolve.Layout
import Registrar.Proofs.Resolve.Representation
import Registrar.Proofs.Unit.Source

/-!
# The entry point as text

A printed entry point is read as what it was made to be: a public function that registers the handlers in order and then
starts to process events (`entryPoint_reads`). This rests on names: handlers and prefixes come from source text, so they
are names of the language, which are printed as one token each and need no escape between quotes.
-/

namespace Registrar

open Surface (readProgram)

/-! ## Functions that stand alone -/

/-- The text of a function is a program with this function and nothing else, if its literals are readable. -/
theorem FunctionDecl.Spelled.read_render {qs : Qualifiers} {den : Surface.TypeExpr → Ty → Prop} {d : FunctionDecl}
    (h : d.Spelled qs den) (hkinded : d.Kinded) (hreadable : ∀ y ∈ d.written, y.readable = true) :
    ∃ f, readProgram (d.render qs) = .ok { imports := [], records := [], functions := [f] } ∧
      FunctionWrites id den f d := by
  obtain ⟨tokens, ⟨raw, htokens, hwrites⟩, hscan⟩ := (FunctionDecl.lexes h).scan_eq (by simp [Breaks])
  have hparse : Surface.parse (d.render qs) = .ok [.function raw] := by
    have hrow := Surface.RowTokens.cons (Surface.ItemTokens.function htokens) .nil
    rw [List.append_nil] at hrow
    exact Surface.parse_complete hscan hrow
  obtain ⟨f, hf⟩ := hwrites.read_complete hkinded h.written hreadable
  refine ⟨f, ?_, (hwrites.read_sound h.written hf).1⟩
  refine Surface.readProgram_eq_ok.mpr ⟨_, [.function f], hparse, ?_, rfl⟩
  rw [mapM_eq_ok]
  exact .cons (map_eq_ok.mpr ⟨f, hf, rfl⟩) .nil

/-- A name has no code point that is written by a refused escape. -/
theorem Value.readable_of_isName {n : Text} (h : n.isName = true) : (Value.str n).readable = true := by
  have hparts := (Text.isWord_iff.mp (Text.isName_iff.mp h).1).2
  have hplain : ∀ c : Char, CodePoint.isNamePart (.scalar c) = false → .scalar c ∉ n := by
    intro c hc hmem
    rw [hparts _ hmem] at hc
    cases hc
  simp [readable, hplain _ (show CodePoint.isNamePart (.scalar '\x08') = false by decide),
    hplain _ (show CodePoint.isNamePart (.scalar '\x0c') = false by decide)]

/-! ## Entry points -/

namespace Contract

/-- A call of an operation of the runtime support module, as a statement of the source. -/
def operationCall (q operation : Text) (args : List (Surface.Expr Value)) : Surface.Stmt Value :=
  .expr (.call ⟨some q, operation, .start⟩ args) .start

/-- The source of an entry point: handlers are registered by name and as a value, and then events are processed. -/
def entryPointSource (c : Contract) (q : Text) (handlers : List Text) : Surface.Function Value where
  name := c.entryPointName
  position := .start
  tags := []
  isPublic := true
  params := []
  returns := none
  body := handlers.map (fun h => operationCall q c.registerOp [.literal (.str h) .start, .name ⟨none, h, .start⟩]) ++
    [operationCall q c.processOp []]

variable {c : Contract} {r : Runtime} {register process : FunctionSymbol} {unit : CompilationUnit}
  {handlers : List FunctionDecl}

/-- What holds of the parts of both calls holds of all that is written in an entry point. -/
theorem forall_mem_written_entryPoint {P : Expr → Prop}
    (hregister : ∀ h ∈ handlers, ∀ x, (c.registration r register unit.span h).expr? = some x → ∀ y ∈ x.parts, P y)
    (hprocess : ∀ x, (r.call c.processOp process [] unit.span).expr? = some x → ∀ y ∈ x.parts, P y) :
    ∀ y ∈ (c.entryPoint r register process unit handlers).written, P y := by
  rw [FunctionDecl.forall_mem_written]
  refine ⟨fun s hs => ?_, fun p hp => absurd hp List.not_mem_nil⟩
  rcases List.mem_append.mp hs with hs | hs
  · obtain ⟨h, hh, rfl⟩ := List.mem_map.mp hs
    exact hregister h hh
  · obtain rfl := List.mem_singleton.mp hs
    exact hprocess

/-- An entry point is printed by tokens of the right spelling, whatever types are written by. -/
theorem entryPoint_spelled (hentry : c.entryPointName.isName = true) (hregister : c.registerOp.isName = true)
    (hprocess : c.processOp.isName = true) (hqualifier : r.qualifier.isName = true)
    (hhandlers : ∀ h ∈ handlers, h.name.isName = true) (qs : Qualifiers) (den : Surface.TypeExpr → Ty → Prop) :
    (c.entryPoint r register process unit handlers).Spelled qs den where
  name := hentry
  markers := fun m hm => absurd hm List.not_mem_nil
  params := fun p hp => absurd hp List.not_mem_nil
  returns := fun hnil => absurd rfl hnil
  written := by
    refine forall_mem_written_entryPoint (fun h hh x hx => ?_) fun x hx => ?_
    · obtain rfl := Option.some.inj hx
      simp [Expr.parts, Expr.partsAll, Expr.spelled, Value.spelled, hregister, hqualifier, hhandlers h hh]
    · obtain rfl := Option.some.inj hx
      simp [Expr.parts, Expr.partsAll, Expr.spelled, hprocess, hqualifier]

theorem entryPoint_readable (hhandlers : ∀ h ∈ handlers, h.name.isName = true) :
    ∀ y ∈ (c.entryPoint r register process unit handlers).written, y.readable = true := by
  refine forall_mem_written_entryPoint (fun h hh x hx => ?_) fun x hx => ?_
  · obtain rfl := Option.some.inj hx
    simp [Expr.parts, Expr.partsAll, Expr.readable, Value.readable_of_isName (hhandlers h hh)]
  · obtain rfl := Option.some.inj hx
    simp [Expr.parts, Expr.partsAll, Expr.readable]

/-- By which statements a call of an operation is written. -/
theorem call_unplaced {operation : Text} {callee : FunctionSymbol} {args : List Expr} {span : Span}
    {s : Surface.Stmt Value} (hw : StmtWrites id s (r.call operation callee args span)) :
    ∃ es, WritesAll id es args ∧ s.unplaced = operationCall r.qualifier operation (Surface.Expr.unplacedAll es) := by
  cases hw with
  | expr hcall =>
    cases hcall with
    | call hargs => exact ⟨_, hargs, rfl⟩

theorem registration_unplaced {span : Span} {h : FunctionDecl} {s : Surface.Stmt Value}
    (hw : StmtWrites id s (c.registration r register span h)) :
    s.unplaced = operationCall r.qualifier c.registerOp
      [.literal (.str h.name) .start, .name ⟨none, h.name, .start⟩] := by
  obtain ⟨es, hargs, hs⟩ := call_unplaced hw
  obtain _ | ⟨hname, _ | ⟨hvalue, ⟨⟩⟩⟩ := hargs
  cases hname
  cases hvalue
  exact hs

theorem processing_unplaced {span : Span} {s : Surface.Stmt Value}
    (hw : StmtWrites id s (r.call c.processOp process [] span)) :
    s.unplaced = operationCall r.qualifier c.processOp [] := by
  obtain ⟨es, ⟨⟩, hs⟩ := call_unplaced hw
  exact hs

/-- An entry point is written by its source alone: no type is written in it. -/
theorem entryPoint_unplaced_of_writes {f : Surface.Function Value}
    (hw : FunctionWrites id (fun _ _ => False) f (c.entryPoint r register process unit handlers)) :
    f.unplaced = c.entryPointSource r.qualifier (handlers.map FunctionDecl.name) := by
  obtain ⟨name, position, tags, isPublic, params, returns, body⟩ := f
  obtain ⟨rfl, rfl, htags, ⟨fixed, rest, rfl, hfixed, hrest⟩, hreturns, hbody⟩ := hw
  cases htags
  cases hfixed
  cases hrest
  have hnone : returns = none := by
    cases returns with
    | none => rfl
    | some te => exact hreturns.elim
  obtain ⟨calls, last, rfl, hcalls, hlast⟩ := exists_of_forall₂_append hbody.flip
  obtain _ | ⟨hprocess, ⟨⟩⟩ := hlast
  have hregister : calls.map Surface.Stmt.unplaced = handlers.map fun h => operationCall r.qualifier c.registerOp
      [.literal (.str h.name) .start, .name ⟨none, h.name, .start⟩] := by
    rw [List.forall₂_map_left_iff] at hcalls
    exact (map_eq_map_iff_forall₂.mpr (hcalls.imp fun h s hs => (registration_unplaced hs).symm)).symm
  simp [Surface.Function.unplaced, entryPointSource, hnone, hregister, processing_unplaced hprocess, entryPoint,
    Draft.emptyFunction]

/-- A printed entry point is read as its source, if all that it names is named by names of the language. -/
theorem read_render_entryPoint (hentry : c.entryPointName.isName = true) (hregister : c.registerOp.isName = true)
    (hprocess : c.processOp.isName = true) (hqualifier : r.qualifier.isName = true)
    (hhandlers : ∀ h ∈ handlers, h.name.isName = true) (qs : Qualifiers) :
    ∃ printed, readProgram ((c.entryPoint r register process unit handlers).render qs) = .ok printed ∧
      printed.unplaced =
        { imports := [], records := []
          functions := [c.entryPointSource r.qualifier (handlers.map FunctionDecl.name)] } := by
  have hspelled : (c.entryPoint r register process unit handlers).Spelled qs fun _ _ => False :=
    entryPoint_spelled hentry hregister hprocess hqualifier hhandlers qs _
  have hkinded : (c.entryPoint r register process unit handlers).Kinded :=
    ⟨fun p hp => absurd hp List.not_mem_nil, fun p hp => absurd hp List.not_mem_nil⟩
  obtain ⟨f, hf, hw⟩ := hspelled.read_render hkinded (entryPoint_readable hhandlers)
  refine ⟨_, hf, ?_⟩
  rw [Surface.Program.unplaced, List.map_singleton, entryPoint_unplaced_of_writes hw]
  rfl

/-- The entry point that a pass makes of the handlers of a source is printed as a program of its own: one public
function, which registers the handlers in order, by the prefix of the first import of the runtime support module. -/
theorem entryPoint_reads (hentry : c.entryPointName.isName = true) (hregister : c.registerOp.isName = true)
    (hprocess : c.processOp.isName = true) {source : Text} {program : Surface.Program Value}
    (hread : readProgram source = .ok program) {registry : Registry} {id : ModuleId} {file : Option Text}
    {problems : List Diagnostic} (hresolve : resolveProgram registry id file program = (unit, problems)) {log : Log}
    {result : PassResult} (hpass : (c.runPass none unit log).outcome = .ok result) (hhandlers : result.handlers ≠ []) :
    ∃ entry i, result.entryPoint = some entry ∧ unit.findImport? c.runtimeModule = some i ∧
      ∀ qs : Qualifiers, ∃ printed, readProgram (entry.render qs) = .ok printed ∧
        printed.unplaced =
          { imports := [], records := []
            functions := [c.entryPointSource i.qualifier (result.handlers.map FunctionDecl.name)] } := by
  obtain ⟨kept, himports, hrecords, hfunctions, hto, -⟩ := resolveProgram_kept registry id file program
  rw [hresolve] at hto
  have hwritten := (Surface.readProgram_written hread).of_sublists himports hrecords hfunctions
  rcases c.runPass_ends none unit log with ⟨-, hend, -⟩ | ⟨-, e, -, hend, -⟩ | ⟨-, entry, hplan, hend, -⟩
  · obtain rfl := Except.ok.inj (hpass.symm.trans hend)
    exact absurd rfl hhandlers
  · rw [hend] at hpass
    cases hpass
  · obtain rfl := Except.ok.inj (hpass.symm.trans hend)
    obtain ⟨i, hi, hwith⟩ := plan_none_eq_ok.mp hplan
    obtain ⟨-, register, process, -, -, rfl⟩ := planWith_eq_ok.mp hwith
    have hnames : ∀ h ∈ (c.collect unit).handlers, h.name.isName = true := by
      intro h hh
      obtain ⟨f, hf, hdeclares⟩ := exists_of_mem_right hto.functions (mem_of_mem_collect hh)
      rw [hdeclares.name]
      exact (hwritten.functions f hf).name
    have hqualifier : i.qualifier.isName = true :=
      (hto.import_spelled hwritten (List.mem_of_find?_eq_some hi)).qualifier
    exact ⟨_, i, rfl, hi, read_render_entryPoint hentry hregister hprocess hqualifier hnames⟩

/-- A text with two handlers, and with the runtime support module under two prefixes. -/
def twoHandlersText : Text :=
  ("import ballerinax/awslambda as lam; import ballerinax/awslambda as other; " : Text) ++
    ("@other:Function function first(lam:Context c, json event) returns json|error \x7b return event; \x7d " : Text) ++
    ("@lam:Function function second(other:Context c, json event) returns error|json \x7b return event; \x7d" : Text)

theorem entryPoint_reads_twoHandlers :
    ∃ program unit result entry printed, readProgram twoHandlersText = .ok program ∧
      resolveProgram (registry {}) ⟨"demo", "app"⟩ none program = (unit, []) ∧
      (runPass {} none unit {}).outcome = .ok result ∧ result.entryPoint = some entry ∧
      readProgram (entry.render unit.qualifiers) = .ok printed ∧
      printed.unplaced =
        { imports := [], records := [], functions := [entryPointSource {} "lam" ["first", "second"]] } := by
  have h : (readProgram twoHandlersText).map (fun program =>
      let resolved := resolveProgram (registry {}) ⟨"demo", "app"⟩ none program
      (resolved.2, (resolved.1.findImport? ⟨"ballerinax", "awslambda"⟩).map ImportDecl.qualifier,
        (runPass {} none resolved.1 {}).outcome.toOption.map fun result => result.handlers.map FunctionDecl.name)) =
      .ok ([], some "lam", some ["first", "second"]) := by
    cbv
  obtain ⟨program, hread, hrest⟩ := map_eq_ok.mp h
  obtain ⟨hquiet, hrest⟩ := Prod.mk.inj hrest
  obtain ⟨hqualifier, hnames⟩ := Prod.mk.inj hrest
  generalize hunit : resolveProgram (registry {}) ⟨"demo", "app"⟩ none program = resolved at hquiet hqualifier hnames
  obtain ⟨unit, problems⟩ := resolved
  obtain rfl : problems = [] := hquiet
  obtain ⟨result, hresult, hhandlers⟩ := Option.map_eq_some_iff.mp hnames
  have hpass : (runPass {} none unit {}).outcome = .ok result := toOption_eq_some.mp hresult
  have hne : result.handlers ≠ [] := by
    intro hnil
    rw [hnil] at hhandlers
    cases hhandlers
  obtain ⟨entry, i, hentry, hi, hprinted⟩ :=
    entryPoint_reads (by decide) (by decide) (by decide) hread hunit hpass hne
  obtain ⟨printed, hreads, hsource⟩ := hprinted unit.qualifiers
  refine ⟨program, unit, result, entry, printed, hread, hunit, hpass, hentry, hreads, ?_⟩
  have hlam : i.qualifier = "lam" := by
    rw [show unit.findImport? ⟨"ballerinax", "awslambda"⟩ = some i from hi] at hqualifier
    exact Option.some.inj hqualifier
  rw [hsource, hhandlers, hlam]

end Contract

end Registrar
