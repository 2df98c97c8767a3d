import Registrar.Proofs.Command.Outcome

/-!
# Runs and their trace

Command lines that are carried out one after another, and the trace that they leave. Main result: the exit code of a run
is that of its source, and a sequence of runs with one output leaves the handlers of those that returned 0, in order,
behind what the trace held (`run_outcome`).
-/

namespace Registrar

theorem traceText_append (names more : List Text) : traceText (names ++ more) = traceText names ++ traceText more :=
  List.flatMap_append

namespace Command

/-! ## What a run adds to the trace -/

/-- The source of a command line, with the text that it has in a tree. -/
def source? (tree : FileTree) (words : List Text) : Option Source :=
  match Options.parse words with
  | .error _ => none
  | .ok o => (textAt? tree o.source).map o.sourceWith

/-- How a command line ends in a tree, and the tree that it leaves. -/
def runOn (tree : FileTree) (words : List Text) : Outcome × FileTree := (run FileTree.system words).run tree

/-- The handlers of a command line that returns 0. -/
def builtHandlers (tree : FileTree) (words : List Text) : List Text :=
  if (runOn tree words).1.exit.toOption = some 0 then ((source? tree words).map Source.handlers).getD [] else []

/-- The handlers of command lines that are carried out one after another, of those that return 0. -/
def builtHandlersOf : FileTree → List (List Text) → List Text
  | _, [] => []
  | tree, words :: commands => builtHandlers tree words ++ builtHandlersOf (runOn tree words).2 commands

variable {tree tree' : FileTree} {words : List Text} {o : Options} {s : Source} {output target : Path}

theorem runOn_of_parse (h : Options.parse words = .ok o) : runOn tree words = (build FileTree.system o).run tree := by
  rw [runOn, run, h]

theorem runOn_built (h : Options.parse words = .ok o) {text : Text} (htext : textAt? tree o.source = some text) :
    Built o (o.sourceWith text) tree (runOn tree words) := by
  obtain ⟨bytes, hcontent, hdecode⟩ := Option.bind_eq_some_iff.mp htext
  rw [runOn_of_parse h, run_build_of_content? hcontent]
  refine buildBytes_built ?_ o tree
  cases hbytes : Utf8.decode bytes with
  | error fault => simp [hbytes, Except.toOption] at hdecode
  | ok text => simpa [hbytes, Except.toOption] using hdecode

theorem builtHandlers_of_exit (h : (runOn tree words).1.exit ≠ .ok 0) : builtHandlers tree words = [] := by
  refine if_neg fun hzero => h ?_
  cases hexit : (runOn tree words).1.exit with
  | error crash => simp [hexit, Except.toOption] at hzero
  | ok code => simpa [hexit, Except.toOption] using hzero

/-- The whole effect of a build on the files, if what it prints can be printed: nothing, or the trace goes on with the
handlers. -/
theorem Built.extends {outcome : Outcome} (h : Built o s tree (outcome, tree')) (houtput : o.output = .given output)
    (htarget : traceTarget tree output = .ok target) (hwritable : tree.Writable target)
    (hprinted : ∀ fault, outcome.exit ≠ .error (.unprintable fault)) :
    ((outcome.exit = .ok 0 → s.handlers = []) ∧ tree' = tree) ∨
      (outcome.exit = .ok 0 ∧ s.handlers ≠ [] ∧
        ∃ bytes, Utf8.encode (traceText s.handlers) = .ok bytes ∧ FileTree.Extends target bytes tree tree') := by
  obtain ⟨bytes, hbytes⟩ := exists_encode_traceText s.isName_of_mem_handlers
  obtain ⟨after, hexec, hextends⟩ := hwritable.exec hbytes
  have hsame : ∀ output' target', o.output = .given output' → traceTarget tree output' = .ok target' →
      target' = target := by
    intro output' target' houtput' htarget'
    obtain rfl : output = output' := Setting.given.inj (houtput.symm.trans houtput')
    exact Except.ok.inj (htarget'.symm.trans htarget)
  cases h with
  | untraced prints _ hquiet =>
    refine .inl ⟨fun hexit => ?_, rfl⟩
    rcases hquiet with hcode | hnone | hunset
    · have hok := Outcome.exit_ofPrints_of_printed hprinted
      exact absurd (Except.ok.inj (hok.symm.trans hexit)) hcode
    · exact hnone
    · rw [houtput] at hunset
      cases hunset
  | traced prints _ output' target' hdue htarget' written _ hwritten _ =>
    obtain rfl := hsame output' target' hdue.output htarget'
    obtain ⟨-, rfl⟩ := Prod.mk.inj (hwritten.symm.trans hexec)
    refine .inr ⟨?_, hdue.handlers, bytes, hbytes, hextends⟩
    rw [Outcome.exit_ofPrints_of_printed hprinted, hdue.code]
  | lost output' hdue error hlost =>
    obtain rfl : output = output' := Setting.given.inj (houtput.symm.trans hdue.output)
    rw [traceTarget, hlost] at htarget
    cases htarget
  | unasked output' target' hdue htarget' error _ _ hwritten =>
    obtain rfl := hsame output' target' hdue.output htarget'
    cases (Prod.mk.inj (hwritten.symm.trans hexec)).1
  | crashed crash _ => exact .inl ⟨fun hexit => by simp [Outcome.ofCrash] at hexit, rfl⟩

/-- The whole effect of a run on the files: nothing, or the trace goes on with the handlers. -/
theorem runOn_extends (houtput : ∀ o, Options.parse words = .ok o → o.output = .given output)
    (htarget : traceTarget tree output = .ok target) (hwritable : tree.Writable target)
    (hprinted : ∀ fault, (runOn tree words).1.exit ≠ .error (.unprintable fault)) :
    (builtHandlers tree words = [] ∧ (runOn tree words).2 = tree) ∨
      ∃ bytes, Utf8.encode (traceText (builtHandlers tree words)) = .ok bytes ∧ builtHandlers tree words ≠ [] ∧
        FileTree.Extends target bytes tree (runOn tree words).2 := by
  cases hparse : Options.parse words with
  | error stop =>
    refine .inl ⟨?_, ?_⟩
    · simp [builtHandlers, source?, hparse]
    · rw [runOn, run, hparse]
      rfl
  | ok o =>
    cases htext : textAt? tree o.source with
    | none =>
      obtain ⟨outcome, hrun, hexit⟩ := run_build_of_textAt?_eq_none htext
      rw [← runOn_of_parse hparse] at hrun
      exact .inl ⟨builtHandlers_of_exit (by rw [hrun]; exact hexit), by rw [hrun]⟩
    | some text =>
      have hhandlers : (runOn tree words).1.exit = .ok 0 → builtHandlers tree words = (o.sourceWith text).handlers := by
        intro hexit
        simp [builtHandlers, source?, hparse, htext, hexit, Except.toOption]
      rcases (runOn_built hparse htext).extends (houtput o hparse) htarget hwritable hprinted with
        ⟨hnone, hsame⟩ | ⟨hexit, hne, bytes, hbytes, hextends⟩
      · refine .inl ⟨?_, hsame⟩
        by_cases hexit : (runOn tree words).1.exit = .ok 0
        · rw [hhandlers hexit, hnone hexit]
        · exact builtHandlers_of_exit hexit
      · rw [hhandlers hexit]
        exact .inr ⟨bytes, hbytes, hne, hextends⟩

/-! ## Runs one after another -/

/-- How command lines end that are carried out one after another, and the tree that they leave. -/
def runAllOn (tree : FileTree) (commands : List (List Text)) : List Outcome × FileTree :=
  (commands.mapM (run FileTree.system)).run tree

theorem runAllOn_cons (tree : FileTree) (words : List Text) (commands : List (List Text)) :
    runAllOn tree (words :: commands) = ((runOn tree words).1 :: (runAllOn (runOn tree words).2 commands).1,
      (runAllOn (runOn tree words).2 commands).2) := by
  rw [runAllOn, List.mapM_cons, StateT.run_bind]
  rfl

/-- The whole effect of command lines with one output on the files: nothing, or its trace goes on with all the handlers
of those that return 0. -/
theorem runAllOn_extends {commands : List (List Text)}
    (houtput : ∀ words ∈ commands, ∀ o, Options.parse words = .ok o → o.output = .given output)
    (htarget : traceTarget tree output = .ok target) (hwritable : tree.Writable target)
    (hprinted : ∀ outcome ∈ (runAllOn tree commands).1, ∀ fault, outcome.exit ≠ .error (.unprintable fault)) :
    (builtHandlersOf tree commands = [] ∧ (runAllOn tree commands).2 = tree) ∨
      ∃ bytes, Utf8.encode (traceText (builtHandlersOf tree commands)) = .ok bytes ∧ builtHandlersOf tree commands ≠ [] ∧
        FileTree.Extends target bytes tree (runAllOn tree commands).2 := by
  induction commands generalizing tree with
  | nil => exact .inl ⟨rfl, rfl⟩
  | cons words commands ih =>
    rw [runAllOn_cons, List.forall_mem_cons] at hprinted
    rw [List.forall_mem_cons] at houtput
    rw [runAllOn_cons, builtHandlersOf]
    rcases runOn_extends houtput.1 htarget hwritable hprinted.1 with ⟨hnone, hsame⟩ | ⟨bytes, hbytes, hne, hextends⟩
    · rw [hsame] at hprinted ⊢
      rw [hnone, List.nil_append]
      exact ih houtput.2 htarget hwritable hprinted.2
    · have htarget' : traceTarget (runOn tree words).2 output = .ok target := traceTarget_mono hextends.toKeeps htarget
      refine .inr ?_
      rcases ih houtput.2 htarget' hextends.writable hprinted.2 with ⟨hnone, hsame⟩ | ⟨more, hmore, -, hextends'⟩
      · rw [hnone, List.append_nil]
        exact ⟨bytes, hbytes, hne, by rw [hsame]; exact hextends⟩
      · refine ⟨bytes ++ more, ?_, by simp [hne], hextends.trans hextends'⟩
        rw [traceText_append]
        exact Utf8.encode_append hbytes hmore

/-! ## The exit code and the trace -/

/-- A command line that asks for the build of a source whose text can be read, with a name for the entry point, and
without an output or with one that has a last name. -/
structure Asks (tree : FileTree) (words : List Text) (o : Options) (s : Source) : Prop where
  parsed : Options.parse words = .ok o
  source : o.sourceWith s.text = s
  text : textAt? tree o.source = some s.text
  integers : Surface.IntegersFit (scan (Utf8.unifyLineEnds s.text)).tokens
  named : o.namesEntryPoint = true
  output : o.output = .unset ∨ ∃ path, o.output = .given path ∧ path.name ≠ []

/-- An output with a last name gets a suffix. -/
theorem traceTarget_ne_suffix (h : output.name ≠ []) (fault : Path.SuffixFault) :
    traceTarget tree output ≠ .error (.suffix fault) := by
  have hsuffix : Path.isSuffix ({} : Contract).traceSuffix = true := by decide
  have hnamed : ∀ q : Path, q.name ≠ [] → ∃ target, ({} : Contract).tracePath q = .ok target := by
    intro q hq
    unfold Contract.tracePath Path.withSuffix
    rw [if_neg (by simp [hsuffix]), if_neg hq]
    exact ⟨_, rfl⟩
  unfold traceTarget
  cases habsolute : tree.absolute? output with
  | error error => simp
  | ok q =>
    obtain ⟨target, htarget⟩ := hnamed q (by rwa [FileTree.name_of_absolute? habsolute h])
    simp [htarget, Except.mapError]

theorem Asks.not_unfit (h : Asks tree words o s) : ¬ Unfit o s tree := by
  rintro (⟨digits, hlong⟩ | hnameless | hemptied | ⟨path, fault, hgiven, hfault⟩)
  · exact Surface.readProgram_stopless h.integers digits hlong
  · rw [h.named] at hnameless
    cases hnameless
  · rcases h.output with hunset | ⟨path, hgiven, -⟩
    · rw [hunset] at hemptied
      cases hemptied
    · rw [hgiven] at hemptied
      cases hemptied
  · rcases h.output with hunset | ⟨path', hgiven', hname⟩
    · rw [hunset] at hgiven
      cases hgiven
    · obtain rfl := Setting.given.inj (hgiven.symm.trans hgiven')
      exact traceTarget_ne_suffix hname fault hfault

/-- Why the trace of an output ends a build without a report: there is no current directory in which the output could be,
or the system is not asked about the path of the trace. -/
inductive Unreported (tree : FileTree) (output : Path) (error : FileError) : Prop
  | lost (h : tree.absolute? output = .error error)
  | unasked (target : Path) (htarget : traceTarget tree output = .ok target) (h : tree.Unasked target error)

/-- How a build ends that is asked for: with the exit code of its source, or with a trace that is due and not reported. -/
theorem Asks.ends (h : Asks tree words o s) :
    (∃ prints, (runOn tree words).1 = .ofPrints s.code prints ∧ Announces o s.code prints ∧
      ∀ output error, Due o s output → ¬ Unreported tree output error) ∨
    ∃ output error, Due o s output ∧ Unreported tree output error ∧ (runOn tree words).1.exit = .error (.file error) := by
  have hbuilt := runOn_built h.parsed h.text
  rw [h.source] at hbuilt
  generalize runOn tree words = ran at hbuilt ⊢
  cases hbuilt with
  | untraced prints hprints hquiet =>
    refine .inl ⟨prints, rfl, hprints, fun output error hdue _ => ?_⟩
    rcases hquiet with hcode | hnone | hunset
    · exact hcode hdue.code
    · exact hdue.handlers hnone
    · cases hunset.symm.trans hdue.output
  | traced prints hprints output target hdue htarget written _ hwritten hreported =>
    refine .inl ⟨prints, rfl, hprints, fun output' error hdue' hunreported => ?_⟩
    obtain rfl : output = output' := Setting.given.inj (hdue.output.symm.trans hdue'.output)
    cases hunreported with
    | lost hlost =>
      rw [traceTarget, hlost] at htarget
      cases htarget
    | unasked target' htarget' hunasked =>
      obtain rfl := Except.ok.inj (htarget.symm.trans htarget')
      have hfails := hunasked.exec (traceText s.handlers)
      rw [hwritten] at hfails
      exact absurd (hreported error hfails) (by simp [hunasked.isRefusal])
  | lost output hdue error hlost => exact .inr ⟨output, error, hdue, .lost hlost, rfl⟩
  | unasked output target hdue htarget error hunasked _ _ =>
    exact .inr ⟨output, error, hdue, .unasked target htarget hunasked, rfl⟩
  | crashed crash hunfit => exact absurd hunfit h.not_unfit

/-- An output has at most one reason to end a build without a report. -/
theorem Unreported.unique {error error' : FileError} (h : Unreported tree output error)
    (h' : Unreported tree output error') : error = error' := by
  cases h with
  | lost hlost =>
    cases h' with
    | lost hlost' => exact Except.error.inj (hlost.symm.trans hlost')
    | unasked target htarget _ => simp [traceTarget, hlost] at htarget
  | unasked target htarget hunasked =>
    cases h' with
    | lost hlost' => simp [traceTarget, hlost'] at htarget
    | unasked target' htarget' hunasked' =>
      obtain rfl := Except.ok.inj (htarget.symm.trans htarget')
      exact Except.error.inj ((hunasked.exec []).symm.trans (hunasked'.exec []))

/-- A build that is asked for fails on a file exactly if its trace is due and not reported. -/
theorem Asks.exit_eq_file_iff (h : Asks tree words o s) (error : FileError) :
    (runOn tree words).1.exit = .error (.file error) ↔ ∃ output, Due o s output ∧ Unreported tree output error := by
  rcases h.ends with ⟨prints, hends, -, hreported⟩ | ⟨output, error', hdue, hunreported, hexit⟩
  · refine ⟨fun hexit => ?_, fun ⟨output, hdue, hunreported⟩ => absurd hunreported (hreported output error hdue)⟩
    rw [hends] at hexit
    rcases Outcome.exit_ofPrints s.code prints with hok | ⟨fault, hfault⟩
    · cases hok.symm.trans hexit
    · cases hfault.symm.trans hexit
  · constructor
    · intro hexit'
      obtain rfl : error' = error := Crash.file.inj (Except.error.inj (hexit.symm.trans hexit'))
      exact ⟨output, hdue, hunreported⟩
    · rintro ⟨output', hdue', hunreported'⟩
      obtain rfl : output = output' := Setting.given.inj (hdue.output.symm.trans hdue'.output)
      rw [hexit, hunreported.unique hunreported']

/-- The exit code of a build depends on its source alone, and not on what is to be printed, on the output or on the
files. It is 1 if the text is no program, if resolution reports an error, or if all goes well and a marked function has
an invalid signature; 2 if the pass fails or leaves a unit that is not valid; and 0 otherwise. A JSON report has the
code as its field.

What can keep a build from its code is a trace that is due, if its failure is no refusal of the system at the path of the
trace: the output is relative and the current directory was removed, or the path holds a zero or a surrogate that says
nothing, so that the system is not asked. A trace that is due and fails so always does.

Builds with one output add one line to its trace for each handler of a build that returned 0, in order, and touch no
other file. The lines come behind what the file held to which the path led, which is all that the file held if the
directory of the trace was there. Where the path leads nowhere for want of a directory, the directory is made and a file
that the path leads to from then on is emptied. -/
theorem run_outcome (s : Source) (tree : FileTree) (commands : List (List Text)) (output target : Path) :
    (∃ code,
      (code = 1 ↔ s.ParseFails ∨ s.ResolutionFails ∨
        ∃ unit, s.Gives unit ∧ ¬ FailsOn s.contract unit ∧ HasInvalidSignature s.contract unit) ∧
      (code = 2 ↔ ∃ unit, s.Gives unit ∧ FailsOn s.contract unit) ∧ (code ≠ 1 → code ≠ 2 → code = 0) ∧
      ∀ tree words o, Asks tree words o s →
        ((∃ prints, (runOn tree words).1 = .ofPrints code prints ∧ Announces o code prints ∧
          ((∀ x ∈ prints, ∀ c ∈ x.text, c.isSurrogate = false) → (runOn tree words).1.exit = .ok code)) ∨
        ∃ error, (runOn tree words).1.exit = .error (.file error)) ∧
        ∀ error, (runOn tree words).1.exit = .error (.file error) ↔
          code = 0 ∧ s.handlers ≠ [] ∧ ∃ output, o.output = .given output ∧ Unreported tree output error) ∧
    ((∀ words ∈ commands, ∀ o, Options.parse words = .ok o → o.output = .given output) →
      traceTarget tree output = .ok target → tree.Writable target →
      (∀ outcome ∈ (runAllOn tree commands).1, ∀ fault, outcome.exit ≠ .error (.unprintable fault)) →
      (builtHandlersOf tree commands = [] → (runAllOn tree commands).2 = tree) ∧
      (builtHandlersOf tree commands ≠ [] → ∃ place bytes,
        Utf8.encode (traceText (builtHandlersOf tree commands)) = .ok bytes ∧
        (runAllOn tree commands).2.place? target = .ok place ∧
        (runAllOn tree commands).2.fileAt? place = some ((tree.content? target).getD [] ++ bytes) ∧
        (∀ q, q ≠ place → (runAllOn tree commands).2.fileAt? q = tree.fileAt? q) ∧
        (tree.at? target.parent = .ok .directory → tree.content? target = tree.fileAt? place))) := by
  refine ⟨⟨s.code, s.code_eq_one_iff, s.code_eq_two_iff, ?_, ?_⟩, ?_⟩
  · intro hone htwo
    rcases s.code_le_two with h | h | h
    · exact h
    · exact absurd h hone
    · exact absurd h htwo
  · intro tree words o h
    refine ⟨?_, fun error => (h.exit_eq_file_iff error).trans ?_⟩
    · rcases h.ends with ⟨prints, hends, hprints, -⟩ | ⟨-, error, -, -, hexit⟩
      · refine .inl ⟨prints, hends, hprints, fun hprintable => ?_⟩
        rw [hends]
        exact Outcome.exit_ofPrints_of_printable hprintable s.code
      · exact .inr ⟨error, hexit⟩
    · exact ⟨fun ⟨output, hdue, h⟩ => ⟨hdue.code, hdue.handlers, output, hdue.output, h⟩,
        fun ⟨hcode, hhandlers, output, houtput, h⟩ => ⟨output, ⟨hcode, hhandlers, houtput⟩, h⟩⟩
  · intro houtput htarget hwritable hprinted
    rcases runAllOn_extends houtput htarget hwritable hprinted with ⟨hnone, hsame⟩ | ⟨bytes, hbytes, hne, hextends⟩
    · exact ⟨fun _ => hsame, fun hne => absurd hnone hne⟩
    · refine ⟨fun hnone => absurd hnone hne, fun _ => ?_⟩
      obtain ⟨place, hplace, hkind⟩ := FileTree.at?_eq_ok.mp (FileTree.content?_eq_some.mp hextends.content)
      refine ⟨place, bytes, hbytes, hplace, FileTree.fileAt?_eq_some.mpr hkind, fun q hq => ?_, fun hparent => ?_⟩
      · exact hextends.others q fun h => hq (Except.ok.inj (h.symm.trans hplace))
      · exact hextends.inPlace hparent place hplace

/-- A source with one handler. -/
def handlerText : Text :=
  "import ballerinax/awslambda;\n@awslambda:Function\nfunction h(awslambda:Context c, json j) returns json|error {}\n"

/-- A directory with that source and with a trace. -/
def tracedTree : FileTree where
  root := .directory [(.ofText "work", .directory [(.ofText "a.bal", .file (handlerText.flatMap Utf8.encodePoint)),
    (.ofText "app.txt", .file (("old\n" : Text).flatMap Utf8.encodePoint))])]
  current := [.ofText "work"]

/-- The place of the trace. -/
def tracePlace : FileTree.Place := [.ofText "work", .ofText "app.txt"]

/-- The tree after the current directory, which was in that one, was removed. -/
def removedTree : FileTree := { tracedTree with removed := 1 }

/-- An output behind a directory that is not there. -/
def detour : Path := .parse "late/../app.balx"

/-- The trace of that output. -/
def detourTrace : Path := .parse "/work/late/../app.txt"

/-- A command line with that output. -/
def detourWords : List Text := ["/work/a.bal", "-o", "late/../app.balx"]

/-- What it asks for. -/
def detourOptions : Options := { source := .parse "/work/a.bal", output := .given detour }

theorem asks_detour_of_text {tree : FileTree} (h : textAt? tree detourOptions.source = some handlerText) :
    Asks tree detourWords detourOptions (detourOptions.sourceWith handlerText) where
  parsed := by cbv
  source := rfl
  text := h
  integers := by
    have hno : ((scan (Utf8.unifyLineEnds handlerText)).tokens.all fun t => t.terminal ≠ .int) = true := by cbv
    intro t ht hint
    exact absurd hint (of_decide_eq_true (List.all_eq_true.mp hno t ht))
  named := rfl
  output := by
    have hname : detour.name.isEmpty = false := by cbv
    exact .inr ⟨_, rfl, fun h => by simp [h] at hname⟩

theorem asks_detour : Asks tracedTree detourWords detourOptions (detourOptions.sourceWith handlerText) :=
  asks_detour_of_text (by cbv)

theorem asks_removed : Asks removedTree detourWords detourOptions (detourOptions.sourceWith handlerText) :=
  asks_detour_of_text (by cbv)

theorem traceTarget_detour : traceTarget tracedTree detour = .ok detourTrace ∧ tracedTree.Writable detourTrace ∧
    tracedTree.content? detourTrace = none :=
  ⟨by cbv, of_decide_eq_true (by cbv), by cbv⟩

theorem runAllOn_detour :
    (runAllOn tracedTree [detourWords, detourWords]).1.map (·.exit.toOption) = [some 0, some 0] ∧
      builtHandlersOf tracedTree [detourWords, detourWords] = ["h", "h"] ∧
      ((runAllOn tracedTree [detourWords, detourWords]).2.place? detourTrace).toOption = some tracePlace := by
  -- all at once, so that the runs are evaluated only once
  cbv
  exact ⟨rfl, trivial⟩

/-- Two builds with an output behind a directory that is not there. The trace is in the current directory and has a line
from before; the first build empties it and the second one goes on. In a current directory that was removed such a build
has no code. -/
theorem run_outcome_detour :
    Asks tracedTree detourWords detourOptions (detourOptions.sourceWith handlerText) ∧
      (∃ prints, (runOn tracedTree detourWords).1 = .ofPrints 0 prints) ∧
      traceTarget tracedTree detour = .ok detourTrace ∧ tracedTree.Writable detourTrace ∧
      tracedTree.fileAt? tracePlace = some (("old\n" : Text).flatMap Utf8.encodePoint) ∧
      (runAllOn tracedTree [detourWords, detourWords]).2.fileAt? tracePlace =
        some (("h\nh\n" : Text).flatMap Utf8.encodePoint) ∧
      Asks removedTree detourWords detourOptions (detourOptions.sourceWith handlerText) ∧
      (runOn removedTree detourWords).1.exit = .error (.file (.noCurrent .notFound)) := by
  obtain ⟨⟨code, -, -, -, hcode⟩, htrace⟩ := run_outcome (detourOptions.sourceWith handlerText) tracedTree
    [detourWords, detourWords] detour detourTrace
  obtain ⟨htarget, hwritable, hnone⟩ := traceTarget_detour
  obtain ⟨hexits, hhandlers, hplace⟩ := runAllOn_detour
  obtain ⟨rfl, prints, hends⟩ : code = 0 ∧ ∃ prints, (runOn tracedTree detourWords).1 = .ofPrints 0 prints := by
    rcases (hcode _ _ _ asks_detour).1 with ⟨prints, hends, -⟩ | ⟨error, hexit⟩
    · rw [runAllOn_cons, hends] at hexits
      rcases Outcome.exit_ofPrints code prints with hexit | ⟨fault, hexit⟩
      · obtain rfl : code = 0 := by simpa [hexit, Except.toOption] using congrArg List.head? hexits
        exact ⟨rfl, prints, hends⟩
      · simp [hexit, Except.toOption] at hexits
    · simp [runAllOn_cons, hexit, Except.toOption] at hexits
  refine ⟨asks_detour, ⟨prints, hends⟩, htarget, hwritable, by cbv, ?_, asks_removed, ?_⟩
  · have houtput : ∀ words ∈ [detourWords, detourWords], ∀ o, Options.parse words = .ok o → o.output = .given detour := by
      intro words hwords o ho
      obtain rfl : words = detourWords := by simpa using hwords
      obtain rfl := Except.ok.inj (asks_detour.parsed.symm.trans ho)
      rfl
    have hprinted : ∀ outcome ∈ (runAllOn tracedTree [detourWords, detourWords]).1, ∀ fault,
        outcome.exit ≠ .error (.unprintable fault) := by
      intro outcome houtcome fault hfault
      have hexit : outcome.exit.toOption ∈ [some 0, some 0] := hexits ▸ List.mem_map_of_mem houtcome
      simp [hfault, Except.toOption] at hexit
    obtain ⟨-, htrace⟩ := htrace houtput htarget hwritable hprinted
    rw [hhandlers, hnone] at htrace
    obtain ⟨place, bytes, hbytes, hplace', hfile, -⟩ := htrace (by simp)
    obtain rfl : place = tracePlace := by simpa [hplace', Except.toOption] using hplace
    rw [hfile, ← Except.ok.inj hbytes]
    rfl
  · have hnames : (detourOptions.sourceWith handlerText).handlers = ["h"] := by cbv
    have hlost : removedTree.absolute? detour = .error (.noCurrent .notFound) := by cbv
    exact ((hcode _ _ _ asks_removed).2 _).mpr ⟨rfl, by simp [hnames], detour, rfl, .lost hlost⟩

end Command

end Registrar
