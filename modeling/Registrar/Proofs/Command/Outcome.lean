import Registrar.Proofs.Command.Source

/-!
# How builds end

All that a build can do from the text of its source on is listed once (`Built`). It ends with the exit code of the
source, whatever becomes of the trace, or crashes; the trace is written exactly if the code is 0 and there are handlers.
-/

namespace Registrar.Command

/-! ## Compiling -/

variable {c : Contract} {s : Source} {unit : CompilationUnit} {tree tree' : FileTree} {o : Options}

theorem compileUnit_of_failsOn (h : FailsOn c unit) : ∃ reason, compileUnit c unit = .failed reason := by
  unfold FailsOn passOn at h
  rw [compileUnit]
  rcases h with ⟨error, h⟩ | ⟨fault, h⟩
  · exact ⟨error.message, by simp only [h]⟩
  · cases houtcome : (c.runPass none unit { phase := some Contract.handlerPhase }).outcome with
    | error error => exact ⟨error.message, rfl⟩
    | ok result => exact ⟨fault.message, by simp only [h]⟩

theorem compileUnit_of_not_failsOn (h : ¬ FailsOn c unit) :
    ∃ result, (passOn c unit).outcome = .ok result ∧
      compileUnit c unit = .done (passOn c unit).unit result (passOn c unit).log := by
  cases houtcome : (passOn c unit).outcome with
  | error error => exact absurd (.inl ⟨error, houtcome⟩) h
  | ok result =>
    cases hvalidate : (passOn c unit).unit.validate with
    | error fault => exact absurd (.inr ⟨fault, hvalidate⟩) h
    | ok u =>
      refine ⟨result, rfl, ?_⟩
      unfold passOn at *
      rw [compileUnit]
      simp only [houtcome, hvalidate]

/-- What the pass logs are errors of its own phase, and there are some exactly if a signature is invalid. -/
theorem passOn_log (c : Contract) (unit : CompilationUnit) :
    (∀ d ∈ (passOn c unit).log.entries, d.isError = true ∧ d.phase = some Contract.handlerPhase) ∧
      ((passOn c unit).log.entries ≠ [] ↔ HasInvalidSignature c unit) := by
  have hentries : (passOn c unit).log.entries =
      (c.collect unit).diagnostics.map (Diagnostic.stamped (some Contract.handlerPhase)) := rfl
  constructor
  · intro d hd
    rw [hentries] at hd
    obtain ⟨d', hd', rfl⟩ := List.mem_map.mp hd
    obtain ⟨f, -, hf⟩ := List.mem_filterMap.mp hd'
    obtain ⟨rule, -, rfl⟩ := Option.map_eq_some_iff.mp hf
    exact ⟨rfl, rfl⟩
  · have hreports := c.collect_diagnostics_standing unit
    rw [hentries, ne_eq, List.map_eq_nil_iff]
    constructor
    · intro hne
      obtain ⟨d, hd⟩ := List.exists_mem_of_ne_nil _ hne
      obtain ⟨f, hf, -⟩ := exists_of_mem_right hreports hd
      exact ⟨f, (List.mem_filter.mp hf).1, (List.mem_filter.mp hf).2⟩
    · rintro ⟨f, hf, hbroken⟩ hnil
      obtain ⟨d, hd, -⟩ := exists_of_mem_left hreports (List.mem_filter.mpr ⟨hf, hbroken⟩)
      rw [hnil] at hd
      cases hd

theorem passOn_hasErrors (c : Contract) (unit : CompilationUnit) :
    (passOn c unit).log.hasErrors = true ↔ HasInvalidSignature c unit := by
  obtain ⟨herrors, hinvalid⟩ := passOn_log c unit
  rw [← hinvalid, Log.hasErrors, List.any_eq_true]
  constructor
  · rintro ⟨d, hd, -⟩
    exact List.ne_nil_of_mem hd
  · intro hne
    obtain ⟨d, hd⟩ := List.exists_mem_of_ne_nil _ hne
    exact ⟨d, hd, (herrors d hd).1⟩

/-- The pass keeps the handlers, and makes an entry point if there are some. -/
theorem passOn_result {result : PassResult} (h : (passOn c unit).outcome = .ok result) :
    result.handlers = (c.collect unit).handlers ∧ (result.entryPoint.isSome = true ↔ (c.collect unit).handlers ≠ []) := by
  rw [passOn, Contract.runPass_outcome] at h
  by_cases hnone : (c.collect unit).handlers = []
  · rw [if_pos hnone] at h
    obtain rfl := Except.ok.inj h
    simp [hnone]
  · rw [if_neg hnone] at h
    obtain ⟨entry, -, rfl⟩ := map_eq_ok.mp h
    simp [hnone]

/-- What becomes of the program of a source: the compilation goes with the exit code. -/
inductive Compiled (s : Source) : Compilation → Prop
  | rejected (diagnostics : List Diagnostic) (hcode : s.code = 1) : Compiled s (.rejected diagnostics)
  | failed (reason : Text) (hcode : s.code = 2) : Compiled s (.failed reason)
  | done (unit : CompilationUnit) (result : PassResult) (log : Log)
      (herrors : ∀ d ∈ log.entries, d.isError = true ∧ d.phase = some Contract.handlerPhase)
      (hcode : s.code = if log.hasErrors then 1 else 0) (hhandlers : result.handlers.map (·.name) = s.handlers)
      (hentry : result.entryPoint.isSome = true ↔ s.handlers ≠ []) : Compiled s (.done unit result log)

theorem compiled {program : Surface.Program Value} (h : s.program = .ok program) :
    Compiled s (compileProgram s.contract true s.id s.file program) := by
  have hcompile : compileProgram s.contract true s.id s.file program =
      if (s.resolve program).2.any Diagnostic.isError then .rejected (s.resolve program).2
      else compileUnit s.contract (s.resolve program).1 := rfl
  rw [hcompile]
  split
  · next herror => exact .rejected _ (Source.code_of_resolutionFails ⟨program, h, List.any_eq_true.mp herror⟩)
  · next herror =>
    have hgives : s.Gives (s.resolve program).1 := by
      refine ⟨program, h, rfl, fun d hd => Bool.eq_false_iff.mpr fun hd' => herror ?_⟩
      exact List.any_eq_true.mpr ⟨d, hd, hd'⟩
    by_cases hfails : FailsOn s.contract (s.resolve program).1
    · obtain ⟨reason, hreason⟩ := compileUnit_of_failsOn hfails
      rw [hreason]
      exact .failed reason (Source.code_of_failsOn hgives hfails)
    · obtain ⟨result, houtcome, hdone⟩ := compileUnit_of_not_failsOn hfails
      obtain ⟨hkept, hentry⟩ := passOn_result houtcome
      have hhandlers : s.handlers = (s.contract.collect (s.resolve program).1).handlers.map (·.name) := by
        rw [Source.handlers, h, Contract.collect_handlers_standing]
      rw [hdone]
      refine .done _ _ _ (passOn_log s.contract (s.resolve program).1).1 ?_ (by rw [hkept, hhandlers]) ?_
      · rw [Source.code_of_not_failsOn hgives hfails]
        exact if_congr (passOn_hasErrors s.contract (s.resolve program).1).symm rfl rfl
      · rw [hentry, hhandlers, ne_eq, ne_eq, List.map_eq_nil_iff]

/-! ## Reports -/

/-- What is printed tells the exit code, if an object of JSON is asked for. -/
def Announces (o : Options) (code : Nat) (prints : List Print) : Prop :=
  o.json = true → ∃ fields, prints =
    [{ channel := .out, text := (JsonValue.obj (("exit_code", .int code) :: fields)).render }]

theorem announces_report (o : Options) (r : Report) : Announces o r.exitCode (r.prints o) := by
  intro hjson
  rw [Report.prints, if_pos hjson]
  exact ⟨_, rfl⟩

theorem announces_failure (o : Options) (reason : Text) : Announces o 2 (failurePrints o reason) := by
  intro hjson
  rw [failurePrints, if_pos hjson]
  exact ⟨_, rfl⟩

theorem exitCode_eq {log : Log}
    (h : ∀ d ∈ log.entries, d.isError = true ∧ d.phase = some Contract.handlerPhase) :
    exitCode log = if log.hasErrors then 1 else 0 := by
  have hphase : Contract.handlerPhase ≠ tracePhase := by decide
  have hcounts : (log.entries.any fun d => d.isError && d.phase ≠ some tracePhase) = log.hasErrors := by
    rw [Bool.eq_iff_iff, Log.hasErrors, List.any_eq_true, List.any_eq_true]
    refine exists_congr fun d => and_congr_right fun hd => ?_
    obtain ⟨herror, hd⟩ := h d hd
    simp [herror, hd, hphase]
  rw [exitCode, hcounts]

/-- What is reported of a trace does not count. -/
theorem exitCode_extend (log : Log) {more : List Diagnostic} (h : ∀ d ∈ more, d.phase = some tracePhase) :
    exitCode (log.extend more) = exitCode log := by
  have hnone : ((more.map (Diagnostic.stamped log.phase)).any fun d => d.isError && d.phase ≠ some tracePhase) =
      false := by
    refine List.any_eq_false.mpr fun d hd => ?_
    obtain ⟨d', hd', rfl⟩ := List.mem_map.mp hd
    simp [Diagnostic.stamped, h d' hd']
  unfold exitCode
  rw [Log.extend, List.any_append, hnone, Bool.or_false]

/-! ## Traces -/

/-- Where the trace of an output is, seen from the root of a tree. -/
def traceTarget (tree : FileTree) (output : Path) : Except TraceError Path :=
  match tree.absolute? output with
  | .error error => .error (.file error)
  | .ok output => (({} : Contract).tracePath output).mapError .suffix

theorem traceTarget_mono {output target : Path} (hkeeps : tree.Keeps tree') (h : traceTarget tree output = .ok target) :
    traceTarget tree' output = .ok target := by
  unfold traceTarget at *
  cases habsolute : tree.absolute? output with
  | error error => simp [habsolute] at h
  | ok output =>
    rw [FileTree.absolute?_mono hkeeps habsolute]
    rwa [habsolute] at h

theorem absolute?_of_traceTarget {output : Path} {error : FileError} (h : traceTarget tree output = .error (.file error)) :
    tree.absolute? output = .error error := by
  unfold traceTarget at h
  split at h
  · next habsolute =>
    obtain rfl := TraceError.file.inj (Except.error.inj h)
    exact habsolute
  · next output _ => cases htarget : ({} : Contract).tracePath output <;> simp [htarget, Except.mapError] at h

theorem tracePath_contract (o : Options) (output : Path) :
    o.contract.tracePath output = ({} : Contract).tracePath output := by
  unfold Options.contract
  cases o.entryName.value? <;> rfl

/-- What becomes of a trace, by its target and by what can be written there. -/
theorem run_emitTrace (o : Options) (output : Path) (names : List Text) (log : Log) (tree : FileTree) :
    (o.contract.emitTrace FileTree.system output names log).run tree = match traceTarget tree output with
      | .error error => (.error error, tree)
      | .ok target => match FileTree.exec (FileTree.system.appendEnsuring target (traceText names)) tree with
        | (.ok _, after) => (.ok (some target, log), after)
        | (.error (.refused refusal path), after) =>
          (.ok (none, log.extend [traceDiagnostic target (.refused refusal path)]), after)
        | (.error error, after) => (.error (.file error), after) := by
  have habsolute : (FileTree.system.absolute output).run.run tree = pure (tree.absolute? output, tree) :=
    FileTree.exec_absolute output tree
  rw [Contract.emitTrace, StateT.run_bind, habsolute, pure_bind, traceTarget]
  cases tree.absolute? output with
  | error error => rfl
  | ok output =>
    dsimp only
    rw [tracePath_contract]
    cases ({} : Contract).tracePath output with
    | error fault => rfl
    | ok target =>
      rcases hexec : FileTree.exec (FileTree.system.appendEnsuring target (traceText names)) tree with ⟨result, after⟩
      have hrun : (FileTree.system.appendEnsuring target (traceText names)).run.run tree = pure (result, after) := hexec
      dsimp only [Except.mapError]
      rw [StateT.run_bind, hrun, pure_bind, hexec]
      rcases result with (_ | _ | _ | _) | _ <;> rfl

/-! ## All that a build can do -/

/-- Why a build cannot end with a code: an integer is too long to be read, the name of the entry point or the output was
taken back, or the output has no name that could get a suffix. -/
inductive Unfit (o : Options) (s : Source) (tree : FileTree) : Prop
  | integerTooLong (digits : Nat) (h : s.program = .error (.integerTooLong digits))
  | nameless (h : o.namesEntryPoint = false)
  | noOutput (h : o.output = .emptied)
  | noTarget (output : Path) (fault : Path.SuffixFault) (h : o.output = .given output)
      (hfault : traceTarget tree output = .error (.suffix fault))

/-- Whether a trace is due, and the output for which it is. -/
structure Due (o : Options) (s : Source) (output : Path) : Prop where
  code : s.code = 0
  handlers : s.handlers ≠ []
  output : o.output = .given output

/-- How a build ends with its source and its options, from a tree, and the tree that it leaves. -/
inductive Built (o : Options) (s : Source) (tree : FileTree) : Outcome × FileTree → Prop
  /-- There is nothing to trace. -/
  | untraced (prints : List Print) (hprints : Announces o s.code prints)
      (h : s.code ≠ 0 ∨ s.handlers = [] ∨ o.output = .unset) : Built o s tree (.ofPrints s.code prints, tree)
  /-- The trace was written, or refused and that reported. -/
  | traced (prints : List Print) (hprints : Announces o s.code prints) (output target : Path) (hdue : Due o s output)
      (htarget : traceTarget tree output = .ok target) (written : Except FileError Unit) (tree' : FileTree)
      (h : FileTree.exec (FileTree.system.appendEnsuring target (traceText s.handlers)) tree = (written, tree'))
      (hreported : ∀ error, written = .error error → error.isRefusal = true) :
      Built o s tree (.ofPrints s.code prints, tree')
  /-- There is no current directory in which the output could be. -/
  | lost (output : Path) (hdue : Due o s output) (error : FileError) (h : tree.absolute? output = .error error) :
      Built o s tree (.ofCrash (.file error), tree)
  /-- The path of the trace is none that the system is asked about. -/
  | unasked (output target : Path) (hdue : Due o s output) (htarget : traceTarget tree output = .ok target)
      (error : FileError) (hunasked : tree.Unasked target error) (tree' : FileTree)
      (h : FileTree.exec (FileTree.system.appendEnsuring target (traceText s.handlers)) tree = (.error error, tree')) :
      Built o s tree (.ofCrash (.file error), tree')
  | crashed (crash : Crash) (h : Unfit o s tree) : Built o s tree (.ofCrash crash, tree)

theorem built_of_code {code : Nat} {prints : List Print} (hcode : s.code = code) (hprints : Announces o code prints)
    (h : s.code ≠ 0 ∨ s.handlers = [] ∨ o.output = .unset) : Built o s tree (.ofPrints code prints, tree) := by
  subst hcode
  exact .untraced prints hprints h

section

variable {result : PassResult} {log log' : Log}

theorem run_conclude_done (h : (writeTrace FileTree.system o result log).run tree = pure (.ok log', tree')) :
    (conclude FileTree.system o (.done unit result log)).run tree =
      (.ofReport o (doneReport o unit result log'), tree') := by
  rw [conclude, StateT.run_bind, h, pure_bind]
  rfl

theorem run_conclude_crash {crash : Crash}
    (h : (writeTrace FileTree.system o result log).run tree = pure (.error crash, tree')) :
    (conclude FileTree.system o (.done unit result log)).run tree = (.ofCrash crash, tree') := by
  rw [conclude, StateT.run_bind, h, pure_bind]
  rfl

theorem run_writeTrace_of_not_due (h : result.entryPoint = none ∨ log.hasErrors = true ∨ o.output = .unset) :
    (writeTrace FileTree.system o result log).run tree = pure (.ok log, tree) := by
  unfold writeTrace
  rcases h with h | h | h
  · rw [h]
    cases o.output <;> rfl
  · rw [h]
    cases o.output <;> cases result.entryPoint <;> rfl
  · rw [h]
    cases result.entryPoint <;> rfl

theorem run_writeTrace_of_emptied {entry : FunctionDecl} (hentry : result.entryPoint = some entry)
    (herrors : log.hasErrors = false) (houtput : o.output = .emptied) :
    (writeTrace FileTree.system o result log).run tree = pure (.error .noOutput, tree) := by
  unfold writeTrace
  rw [hentry, herrors, houtput]
  rfl

/-- What is due is written, refused, or a crash. -/
theorem run_writeTrace_of_given {entry : FunctionDecl} {output target : Path} {written : Except FileError Unit}
    (hentry : result.entryPoint = some entry) (herrors : log.hasErrors = false) (houtput : o.output = .given output)
    (htarget : traceTarget tree output = .ok target)
    (h : FileTree.exec (FileTree.system.appendEnsuring target (traceText (result.handlers.map (·.name)))) tree =
      (written, tree')) :
    (writeTrace FileTree.system o result log).run tree = pure (match written with
      | .ok _ => .ok (log.extend [])
      | .error (.refused refusal path) =>
        .ok (log.extend [(traceDiagnostic target (.refused refusal path)).stamped (some tracePhase)])
      | .error error => .error (.file error), tree') := by
  unfold writeTrace
  rw [hentry, herrors, houtput]
  dsimp only
  rw [StateT.run_bind, run_emitTrace, htarget]
  simp only [h]
  rcases written with (_ | _ | _ | _) | _ <;> rfl

theorem run_writeTrace_of_noTarget {entry : FunctionDecl} {output : Path} {error : TraceError}
    (hentry : result.entryPoint = some entry) (herrors : log.hasErrors = false) (houtput : o.output = .given output)
    (htarget : traceTarget tree output = .error error) :
    (writeTrace FileTree.system o result log).run tree = pure (.error (.ofTrace error), tree) := by
  unfold writeTrace
  rw [hentry, herrors, houtput]
  dsimp only
  rw [StateT.run_bind, run_emitTrace, htarget]
  rfl

theorem Compiled.exitCode (h : Compiled s (.done unit result log)) : exitCode log = s.code := by
  cases h with
  | done _ _ _ herrors hcode _ _ => rw [exitCode_eq herrors, hcode]

theorem conclude_untraced (h : Compiled s (.done unit result log))
    (hnot : result.entryPoint = none ∨ log.hasErrors = true ∨ o.output = .unset)
    (hquiet : s.code ≠ 0 ∨ s.handlers = [] ∨ o.output = .unset) :
    Built o s tree ((conclude FileTree.system o (.done unit result log)).run tree) := by
  rw [run_conclude_done (run_writeTrace_of_not_due hnot)]
  exact built_of_code h.exitCode.symm (announces_report o _) hquiet

theorem Compiled.due {entry : FunctionDecl} {output : Path} (h : Compiled s (.done unit result log))
    (hpoint : result.entryPoint = some entry) (hlog : log.hasErrors = false) (houtput : o.output = .given output) :
    Due o s output := by
  cases h with
  | done _ _ _ herrors hcode hhandlers hentry =>
    exact ⟨by rw [hcode, hlog]; rfl, hentry.mp (by rw [hpoint]; rfl), houtput⟩

/-- A build that went through writes its trace where it has one. -/
theorem conclude_traced {entry : FunctionDecl} {output target : Path} (h : Compiled s (.done unit result log))
    (hpoint : result.entryPoint = some entry) (hlog : log.hasErrors = false) (houtput : o.output = .given output)
    (htarget : traceTarget tree output = .ok target) :
    Built o s tree ((conclude FileTree.system o (.done unit result log)).run tree) := by
  have hexit := h.exitCode
  have hdue := h.due hpoint hlog houtput
  cases h with
  | done _ _ _ herrors hcode hhandlers hentry =>
    rcases hexec : FileTree.exec (FileTree.system.appendEnsuring target (traceText s.handlers)) tree with ⟨written, tree'⟩
    have hwrite := run_writeTrace_of_given hpoint hlog houtput htarget (hhandlers ▸ hexec)
    have hreported : ∀ more, (∀ d ∈ more, d.phase = some tracePhase) →
        (∀ error, written = .error error → error.isRefusal = true) →
        (writeTrace FileTree.system o result log).run tree = pure (.ok (log.extend more), tree') →
        Built o s tree ((conclude FileTree.system o (.done unit result log)).run tree) := by
      intro more hmore hrefusal hwrite
      have hsame : s.code = exitCode (log.extend more) := by rw [exitCode_extend log hmore, hexit]
      have hprints : Announces o s.code ((doneReport o unit result (log.extend more)).prints o) := by
        rw [hsame]
        exact announces_report o (doneReport o unit result (log.extend more))
      have hends := Built.traced _ hprints output target hdue htarget written tree' hexec hrefusal
      rw [hsame] at hends
      rw [run_conclude_done hwrite]
      exact hends
    cases written with
    | ok u => exact hreported [] (by simp) (fun _ h => by cases h) hwrite
    | error e =>
      obtain ⟨bytes, hbytes⟩ := exists_encode_traceText s.isName_of_mem_handlers
      rcases FileTree.refusal_or_unasked hbytes (congrArg Prod.fst hexec) with hrefusal | hunasked
      · have hall : ∀ error, Except.error e = (.error error : Except FileError Unit) → error.isRefusal = true :=
          fun error h => Except.error.inj h ▸ hrefusal
        cases e with
        | refused refusal path => exact hreported [_] (by simp [Diagnostic.stamped, traceDiagnostic]) hall hwrite
        | _ => cases hrefusal
      · have hcrash : (writeTrace FileTree.system o result log).run tree = pure (.error (.file e), tree') := by
          have hnot : e.isRefusal = false := hunasked.isRefusal
          rw [hwrite]
          cases e with
          | refused refusal path => cases hnot
          | _ => rfl
        rw [run_conclude_crash hcrash]
        exact .unasked output target hdue htarget e hunasked tree' hexec

theorem conclude_done (h : Compiled s (.done unit result log)) (o : Options) (tree : FileTree) :
    Built o s tree ((conclude FileTree.system o (.done unit result log)).run tree) := by
  have hwhole := h
  cases h with
  | done _ _ _ herrors hcode hhandlers hentry =>
    cases hlog : log.hasErrors with
    | true =>
      refine conclude_untraced hwhole (.inr (.inl hlog)) (.inl ?_)
      rw [hcode, hlog]
      decide
    | false =>
      cases hpoint : result.entryPoint with
      | none =>
        refine conclude_untraced hwhole (.inl hpoint) (.inr (.inl (by_contra fun hne => ?_)))
        simp [hpoint, hne] at hentry
      | some entry =>
        cases houtput : o.output with
        | unset => exact conclude_untraced hwhole (.inr (.inr houtput)) (.inr (.inr houtput))
        | emptied =>
          rw [run_conclude_crash (run_writeTrace_of_emptied hpoint hlog houtput)]
          exact .crashed _ (.noOutput houtput)
        | given output =>
          cases htarget : traceTarget tree output with
          | error error =>
            have hwrite := run_writeTrace_of_noTarget hpoint hlog houtput htarget
            cases error with
            | suffix fault =>
              rw [run_conclude_crash hwrite]
              exact .crashed _ (.noTarget output fault houtput htarget)
            | file error =>
              rw [run_conclude_crash hwrite]
              exact .lost output (hwhole.due hpoint hlog houtput) error (absolute?_of_traceTarget htarget)
          | ok target => exact conclude_traced hwhole hpoint hlog houtput htarget

end

theorem conclude_built {compilation : Compilation} (h : Compiled s compilation) (o : Options) (tree : FileTree) :
    Built o s tree ((conclude FileTree.system o compilation).run tree) := by
  cases h with
  | rejected diagnostics hcode => exact built_of_code hcode (announces_report o _) (.inl (by rw [hcode]; decide))
  | failed reason hcode => exact built_of_code hcode (announces_failure o reason) (.inl (by rw [hcode]; decide))
  | done unit result log herrors hcode hhandlers hentry =>
    exact conclude_done (.done unit result log herrors hcode hhandlers hentry) o tree

/-! ## Whole runs -/

/-- The source of a build, with its text. -/
def Options.sourceWith (o : Options) (text : Text) : Source where
  contract := o.contract
  id := o.moduleId
  file := o.source.render
  text := text

/-- The text of the file to which a path leads. -/
def textAt? (tree : FileTree) (p : Path) : Option Text :=
  (tree.content? p).bind fun bytes => (Utf8.decode bytes).toOption

theorem compileProgram_nameless (c : Contract) (id : ModuleId) (file : Text) (program : Surface.Program Value) :
    compileProgram c false id file program = .nameless ∨
      compileProgram c false id file program = compileProgram c true id file program := by
  unfold compileProgram
  dsimp only
  split
  · exact .inr rfl
  · split
    · exact .inl rfl
    · exact .inr rfl

theorem buildBytes_built {bytes : Utf8.Bytes} {text : Text} (h : Utf8.decode bytes = .ok text) (o : Options)
    (tree : FileTree) : Built o (o.sourceWith text) tree ((buildBytes FileTree.system o bytes).run tree) := by
  unfold buildBytes Surface.readSource
  rw [h]
  dsimp only
  cases hprogram : Surface.readProgram (Utf8.unifyLineEnds text) with
  | error e =>
    cases e with
    | integerTooLong digits => exact .crashed _ (.integerTooLong digits hprogram)
    | fault fault =>
      have hcode : (o.sourceWith text).code = 1 := Source.code_of_parseFails ⟨fault, hprogram⟩
      exact built_of_code hcode (announces_report o _) (.inl (by rw [hcode]; decide))
  | ok program =>
    have hcompiled : Compiled (o.sourceWith text) (compileProgram o.contract true o.moduleId o.source.render program) :=
      compiled hprogram
    show Built o (o.sourceWith text) tree ((conclude FileTree.system o
      (compileProgram o.contract o.namesEntryPoint o.moduleId o.source.render program)).run tree)
    cases hnamed : o.namesEntryPoint with
    | true => exact conclude_built hcompiled o tree
    | false =>
      rcases compileProgram_nameless o.contract o.moduleId o.source.render program with hnameless | hsame
      · rw [hnameless]
        exact .crashed _ (.nameless hnamed)
      · rw [hsame]
        exact conclude_built hcompiled o tree

/-- A build looks for its source, and reads it if it is there. -/
theorem run_build (o : Options) (tree : FileTree) :
    (build FileTree.system o).run tree = match tree.exists? o.source with
      | .error e => (.ofCrash (.file e), tree)
      | .ok false => (.ofRejection o [missingSource o.source], tree)
      | .ok true =>
        match (FileTree.exec (FileTree.read o.source) tree).1 with
        | .error e => (.ofCrash (.file e), tree)
        | .ok bytes => (buildBytes FileTree.system o bytes).run tree := by
  have hexists : (FileTree.system.pathExists o.source).run.run tree = pure (tree.exists? o.source, tree) :=
    FileTree.exec_pathExists o.source tree
  have hread : (FileTree.system.read o.source).run.run tree =
      pure ((FileTree.exec (FileTree.read o.source) tree).1, tree) :=
    (FileTree.exec_read o.source tree).trans (by rw [FileTree.exec_read]; rfl)
  rw [build, StateT.run_bind, hexists, pure_bind]
  rcases tree.exists? o.source with e | _ | _
  · rfl
  · rfl
  · dsimp only
    rw [StateT.run_bind, hread, pure_bind]
    rcases (FileTree.exec (FileTree.read o.source) tree).1 with e | bytes <;> rfl

theorem run_build_of_content? {bytes : Utf8.Bytes} (h : tree.content? o.source = some bytes) :
    (build FileTree.system o).run tree = (buildBytes FileTree.system o bytes).run tree := by
  have hat := FileTree.content?_eq_some.mp h
  rw [run_build, FileTree.exists?_eq_true.mpr ⟨_, hat, by simp⟩, FileTree.exec_read, hat]

theorem exit_ofRejection (o : Options) (diagnostics : List Diagnostic) :
    (Outcome.ofRejection o diagnostics).exit ≠ .ok 0 := by
  intro h
  rcases Outcome.exit_ofPrints 1 (Report.prints o { exitCode := 1, diagnostics }) with hexit | ⟨fault, hexit⟩
  · simp [Outcome.ofRejection, Outcome.ofReport, hexit] at h
  · simp [Outcome.ofRejection, Outcome.ofReport, hexit] at h

/-- A build without a source does not succeed, and leaves the files alone. -/
theorem run_build_of_textAt?_eq_none (h : textAt? tree o.source = none) :
    ∃ outcome, (build FileTree.system o).run tree = (outcome, tree) ∧ outcome.exit ≠ .ok 0 := by
  have hcrash : ∀ crash, (Outcome.ofCrash crash).exit ≠ .ok 0 := fun crash => by simp [Outcome.ofCrash]
  cases hcontent : tree.content? o.source with
  | some bytes =>
    rw [run_build_of_content? hcontent, buildBytes]
    cases hdecode : Utf8.decode bytes with
    | ok text => simp [textAt?, hcontent, hdecode, Except.toOption] at h
    | error fault => exact ⟨_, rfl, hcrash _⟩
  | none =>
    rw [run_build]
    split
    · exact ⟨_, rfl, hcrash _⟩
    · exact ⟨_, rfl, exit_ofRejection o _⟩
    · next hthere =>
      obtain ⟨kind, hat, hne⟩ := FileTree.exists?_eq_true.mp hthere
      rw [FileTree.exec_read, hat]
      cases kind with
      | nothing => exact absurd rfl hne
      | file content => simp [FileTree.content?_eq_some.mpr hat] at hcontent
      | directory => exact ⟨_, rfl, hcrash _⟩

end Registrar.Command
