import Registrar.Command.Run
import Registrar.Proofs.Files.Writing
import Registrar.Proofs.Handler.Prefixes
import Registrar.Proofs.Resolve.Representation
import Registrar.Proofs.Surface.Faults

/-!
# Sources of builds

A build goes through phases that fail in different ways, and ends with one exit code. The code is that of its *source*
(`Source.code`), which says nothing of what is to be printed, of the output or of the files.
-/

namespace Registrar

/-! ## Texts that can be written -/

theorem isSurrogate_of_isName {name : Text} (h : name.isName = true) : ∀ c ∈ name, c.isSurrogate = false := by
  intro c hc
  have hpart := (Text.isWord_iff.mp (Text.isName_iff.mp h).1).2 c hc
  cases c with
  | scalar c => rfl
  | surrogate n => cases hpart

/-- The names of handlers can be written into a trace. -/
theorem exists_encode_traceText {names : List Text} (h : ∀ name ∈ names, name.isName = true) :
    ∃ bytes, Utf8.encode (traceText names) = .ok bytes := by
  refine Utf8.exists_encode fun c hc => ?_
  obtain ⟨name, hname, hc⟩ := List.mem_flatMap.mp hc
  rcases List.mem_append.mp hc with hc | hc
  · exact isSurrogate_of_isName (h name hname) c hc
  · have hbreak : ∀ c ∈ ("\n" : Text), c.isSurrogate = false := by decide
    exact hbreak c hc

namespace Command

/-- What is printed ends a build with its code, unless it holds a surrogate. -/
theorem Outcome.exit_ofPrints (code : Nat) (prints : List Print) :
    (ofPrints code prints).exit = .ok code ∨ ∃ fault, (ofPrints code prints).exit = .error (.unprintable fault) := by
  unfold ofPrints
  rcases Printed.addAll {} prints with ⟨printed, _ | fault⟩
  · exact .inl rfl
  · exact .inr ⟨fault, rfl⟩

theorem Outcome.exit_ofPrints_of_printed {code : Nat} {prints : List Print}
    (h : ∀ fault, (ofPrints code prints).exit ≠ .error (.unprintable fault)) : (ofPrints code prints).exit = .ok code := by
  rcases exit_ofPrints code prints with hexit | ⟨fault, hexit⟩
  · exact hexit
  · exact absurd hexit (h fault)

theorem Printed.addAll_eq_none {prints : List Print} (h : ∀ x ∈ prints, ∀ c ∈ x.text, c.isSurrogate = false)
    (p : Printed) : (p.addAll prints).2 = none := by
  induction prints generalizing p with
  | nil => rfl
  | cons x prints ih =>
    obtain ⟨bytes, hbytes⟩ := Utf8.exists_encode (h x List.mem_cons_self)
    rw [addAll, hbytes]
    exact ih (fun y hy => h y (List.mem_cons_of_mem x hy)) _

theorem Outcome.exit_ofPrints_of_printable {prints : List Print}
    (h : ∀ x ∈ prints, ∀ c ∈ x.text, c.isSurrogate = false) (code : Nat) :
    (ofPrints code prints).exit = .ok code := by
  have hnone := Printed.addAll_eq_none h {}
  unfold ofPrints
  rcases hprinted : Printed.addAll {} prints with ⟨printed, _ | fault⟩
  · rfl
  · rw [hprinted] at hnone
    cases hnone

/-! ## Sources -/

/-- What the exit code of a build depends on: the contract, the module id, and the source with its name and its text. -/
structure Source where
  contract : Contract
  id : ModuleId
  file : Text
  text : Text

/-- The handler pass of a build. -/
def passOn (c : Contract) (unit : CompilationUnit) : PassRun :=
  c.runPass none unit { phase := some Contract.handlerPhase }

/-- Whether the pass fails on a unit, or leaves a unit that is not valid. -/
def FailsOn (c : Contract) (unit : CompilationUnit) : Prop :=
  (∃ error, (passOn c unit).outcome = .error error) ∨ ∃ fault, (passOn c unit).unit.validate = .error fault

/-- Whether some marked function of a unit has an invalid signature. -/
def HasInvalidSignature (c : Contract) (unit : CompilationUnit) : Prop :=
  ∃ f ∈ unit.functions, (c.standing f).isBroken = true

instance (c : Contract) (unit : CompilationUnit) : Decidable (HasInvalidSignature c unit) := by
  unfold HasInvalidSignature
  infer_instance

namespace Source

/-- The program that the source says. -/
def program (s : Source) : Except Surface.ReadError (Surface.Program Value) :=
  Surface.readProgram (Utf8.unifyLineEnds s.text)

/-- The unit of a program, and what is reported about it. -/
def resolve (s : Source) (program : Surface.Program Value) : CompilationUnit × List Diagnostic :=
  resolveProgram s.contract.registry s.id (some s.file) program

/-- Parsing fails. -/
def ParseFails (s : Source) : Prop := ∃ fault, s.program = .error (.fault fault)

/-- Resolution reports an error. -/
def ResolutionFails (s : Source) : Prop :=
  ∃ program, s.program = .ok program ∧ ∃ d ∈ (s.resolve program).2, d.isError = true

/-- Parsing and resolution succeed and give a unit. -/
def Gives (s : Source) (unit : CompilationUnit) : Prop :=
  ∃ program, s.program = .ok program ∧ (s.resolve program).1 = unit ∧ ∀ d ∈ (s.resolve program).2, d.isError = false

/-- The names of the handlers of a source, in order. -/
def handlers (s : Source) : List Text :=
  match s.program with
  | .error _ => []
  | .ok program => ((s.resolve program).1.functions.filter fun f => s.contract.standing f = .handler).map (·.name)

/-- The exit code that a source calls for. -/
def code (s : Source) : Nat :=
  match s.program with
  | .error (.integerTooLong _) => 0
  | .error (.fault _) => 1
  | .ok program =>
    let (unit, diagnostics) := s.resolve program
    if diagnostics.any Diagnostic.isError then 1
    else
      match (passOn s.contract unit).outcome, (passOn s.contract unit).unit.validate with
      | .ok _, .ok _ => if HasInvalidSignature s.contract unit then 1 else 0
      | _, _ => 2

/-- Handlers of a source have names of the language. -/
theorem isName_of_mem_handlers (s : Source) : ∀ name ∈ s.handlers, name.isName = true := by
  intro name hname
  unfold handlers at hname
  split at hname
  · cases hname
  · next program hprogram =>
    obtain ⟨f, hf, rfl⟩ := List.mem_map.mp hname
    obtain ⟨kept, himports, hrecords, hfunctions, hresolves, -⟩ :=
      resolveProgram_kept s.contract.registry s.id (some s.file) program
    obtain ⟨g, hg, hdeclares⟩ := exists_of_mem_right hresolves.functions (List.mem_filter.mp hf).1
    rw [hdeclares.name]
    have hwritten := (Surface.readProgram_written hprogram).of_sublists himports hrecords hfunctions
    exact (hwritten.functions g hg).name

section

variable {s : Source} {unit : CompilationUnit}

/-- How far the phases before the pass come. -/
theorem cases (s : Source) :
    (∃ digits, s.program = .error (.integerTooLong digits)) ∨ s.ParseFails ∨ s.ResolutionFails ∨
      ∃ unit, s.Gives unit := by
  cases hprogram : s.program with
  | error e =>
    cases e with
    | integerTooLong digits => exact .inl ⟨digits, rfl⟩
    | fault fault => exact .inr (.inl ⟨fault, hprogram⟩)
  | ok program =>
    by_cases herror : ∃ d ∈ (s.resolve program).2, d.isError = true
    · exact .inr (.inr (.inl ⟨program, hprogram, herror⟩))
    · refine .inr (.inr (.inr ⟨_, program, hprogram, rfl, fun d hd => ?_⟩))
      exact Bool.eq_false_iff.mpr fun h => herror ⟨d, hd, h⟩

theorem code_of_parseFails (h : s.ParseFails) : s.code = 1 := by
  obtain ⟨fault, h⟩ := h
  rw [code, h]

theorem code_of_resolutionFails (h : s.ResolutionFails) : s.code = 1 := by
  obtain ⟨program, h, herror⟩ := h
  rw [code, h]
  dsimp only
  rw [if_pos (List.any_eq_true.mpr herror)]

theorem code_of_gives (h : s.Gives unit) :
    s.code = match (passOn s.contract unit).outcome, (passOn s.contract unit).unit.validate with
      | .ok _, .ok _ => if HasInvalidSignature s.contract unit then 1 else 0
      | _, _ => 2 := by
  obtain ⟨program, h, rfl, hno⟩ := h
  rw [code, h]
  dsimp only
  rw [if_neg (fun herror => ?_)]
  obtain ⟨d, hd, herror⟩ := List.any_eq_true.mp herror
  rw [hno d hd] at herror
  cases herror

theorem code_of_failsOn (h : s.Gives unit) (hfails : FailsOn s.contract unit) : s.code = 2 := by
  rw [code_of_gives h]
  rcases hfails with ⟨error, hfails⟩ | ⟨fault, hfails⟩
  · rw [hfails]
  · rw [hfails]
    cases (passOn s.contract unit).outcome <;> rfl

theorem code_of_not_failsOn (h : s.Gives unit) (hfails : ¬ FailsOn s.contract unit) :
    s.code = if HasInvalidSignature s.contract unit then 1 else 0 := by
  rw [code_of_gives h]
  split
  · rfl
  · next hno =>
    exfalso
    cases houtcome : (passOn s.contract unit).outcome with
    | error error => exact hfails (.inl ⟨error, houtcome⟩)
    | ok result =>
      cases hvalidate : (passOn s.contract unit).unit.validate with
      | error fault => exact hfails (.inr ⟨fault, hvalidate⟩)
      | ok u => exact hno result u houtcome hvalidate

/-- When a source calls for the exit code 1. -/
theorem code_eq_one_iff (s : Source) :
    s.code = 1 ↔ s.ParseFails ∨ s.ResolutionFails ∨
      ∃ unit, s.Gives unit ∧ ¬ FailsOn s.contract unit ∧ HasInvalidSignature s.contract unit := by
  constructor
  · intro hcode
    rcases s.cases with ⟨digits, hlong⟩ | hparse | hresolution | ⟨unit, hgives⟩
    · rw [code, hlong] at hcode
      cases hcode
    · exact .inl hparse
    · exact .inr (.inl hresolution)
    · by_cases hfails : FailsOn s.contract unit
      · rw [code_of_failsOn hgives hfails] at hcode
        cases hcode
      · rw [code_of_not_failsOn hgives hfails] at hcode
        exact .inr (.inr ⟨unit, hgives, hfails, by_contra fun hvalid => by simp [hvalid] at hcode⟩)
  · rintro (hparse | hresolution | ⟨unit, hgives, hfails, hinvalid⟩)
    · exact code_of_parseFails hparse
    · exact code_of_resolutionFails hresolution
    · rw [code_of_not_failsOn hgives hfails, if_pos hinvalid]

/-- When a source calls for the exit code 2. -/
theorem code_eq_two_iff (s : Source) : s.code = 2 ↔ ∃ unit, s.Gives unit ∧ FailsOn s.contract unit := by
  constructor
  · intro hcode
    rcases s.cases with ⟨digits, hlong⟩ | hparse | hresolution | ⟨unit, hgives⟩
    · rw [code, hlong] at hcode
      cases hcode
    · rw [code_of_parseFails hparse] at hcode
      cases hcode
    · rw [code_of_resolutionFails hresolution] at hcode
      cases hcode
    · refine ⟨unit, hgives, by_contra fun hfails => ?_⟩
      rw [code_of_not_failsOn hgives hfails] at hcode
      split at hcode <;> cases hcode
  · rintro ⟨unit, hgives, hfails⟩
    exact code_of_failsOn hgives hfails

theorem code_le_two (s : Source) : s.code = 0 ∨ s.code = 1 ∨ s.code = 2 := by
  rcases s.cases with ⟨digits, hlong⟩ | hparse | hresolution | ⟨unit, hgives⟩
  · exact .inl (by rw [code, hlong])
  · exact .inr (.inl (code_of_parseFails hparse))
  · exact .inr (.inl (code_of_resolutionFails hresolution))
  · by_cases hfails : FailsOn s.contract unit
    · exact .inr (.inr (code_of_failsOn hgives hfails))
    · rw [code_of_not_failsOn hgives hfails]
      split
      · exact .inr (.inl rfl)
      · exact .inl rfl

end

end Source

end Command

end Registrar
