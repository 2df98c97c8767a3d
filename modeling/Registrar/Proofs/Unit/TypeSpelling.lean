import Registrar.Proofs.Contract
import Registrar.Proofs.Unit.Source

/-!
# Printed types are read back

Every type that a unit can name is printed by a text that the unit reads as the same type, wherever in a program a type
may be written.
-/

namespace Registrar

open Surface

/-! ## Reading a printed type -/

/-- The type expressions of a program, which are those of its parameters and of its results. -/
def Surface.Program.typeExprs {L : Type} (program : Program L) : List TypeExpr :=
  program.functions.flatMap fun f => f.params.map Param.type ++ f.returns.toList

theorem Surface.Program.Written.isMember {program : Program Value} (h : program.Written) {te : TypeExpr}
    (hte : te ∈ program.typeExprs) : ∀ n ∈ te.members, n.IsMember := by
  obtain ⟨f, hf, hte⟩ := List.mem_flatMap.mp hte
  rcases List.mem_append.mp hte with hparam | hresult
  · obtain ⟨p, hp, rfl⟩ := List.mem_map.mp hparam
    exact ((h.functions f hf).params p hp).type
  · exact (h.functions f hf).returns te (Option.mem_toList.mp hresult)

/-- A text in which a type is written, as the result type of a function. -/
def returningText (type : Text) : Text :=
  "function f() returns " ++ (type ++ " \x7b \x7d")

section

variable {den : TypeExpr → Ty → Prop} {qs : Qualifiers} {t : Ty}

/-- In front of anything that may follow a type, a printed type is parsed. -/
theorem Ty.Spells.gives (h : t.Spells qs den) :
    Lexes Breaks (t.render qs) fun tokens => ∃ te, (∀ rest, terminalOf rest ∈ typeEnds → ∀ follow extra,
      Gives (typeExpr follow extra (tokens ++ rest)) te rest) ∧ den te t := by
  refine h.imp ?_
  rintro tokens ⟨te, hte, hden⟩
  exact ⟨te, fun rest hends follow extra => hte.gives rest hends follow extra, hden⟩

/-- A printed type is read as the result type of a function. -/
theorem Ty.Spells.readProgram (h : t.Spells qs den) :
    ∃ f te, readProgram (returningText (t.render qs)) = .ok ⟨[], [], [f]⟩ ∧ f.returns = some te ∧ den te t := by
  have hfunction : Lexes Anything "function " (OneToken .kwFunction "function") :=
    (Lexes.word (by decide) : Lexes Breaks "function" (OneToken .kwFunction "function")).thenSpace
  have hname : Lexes Anything "f(" (Then (OneToken .name "f") (OneToken .lparen "(")) :=
    (Lexes.name (by decide) : Lexes Breaks "f" (OneToken .name "f")).broken Lexes.lparen rfl rfl
  have hreturns : Lexes Anything ") returns " (Then (OneToken .rparen ")") (OneToken .kwReturns "returns")) :=
    Lexes.rparen.followed (Lexes.indented (s := " ") (by decide)
      (Lexes.word (by decide) : Lexes Breaks "returns" (OneToken .kwReturns "returns")).thenSpace)
  have hblock : Lexes Anything " \x7b \x7d" (Then (OneToken .lbrace "\x7b") (OneToken .rbrace "\x7d")) :=
    Lexes.indented (s := " ") (by decide)
      ((Lexes.sign rfl (by decide) : Lexes Anything "\x7b" (OneToken .lbrace "\x7b")).followed
        (Lexes.indented (s := " ") (by decide) (Lexes.sign rfl (by decide))))
  obtain ⟨tokens, htokens, hscan⟩ :=
    ((hfunction.followed (hname.followed hreturns)).followed (h.broken hblock rfl rfl)).scan_eq trivial
  obtain ⟨_, _, ⟨_, _, ⟨p₀, rfl⟩, ⟨_, _, ⟨_, _, ⟨p, rfl⟩, ⟨p₁, rfl⟩, rfl⟩, ⟨_, _, ⟨p₂, rfl⟩, ⟨p₃, rfl⟩, rfl⟩, rfl⟩,
    rfl⟩, ⟨us, _, ⟨te, hte, hden⟩, ⟨_, _, ⟨p₄, rfl⟩, ⟨p₅, rfl⟩, rfl⟩, rfl⟩, rfl⟩ := htokens
  have hbare : BareTokens false (⟨.kwFunction, "function", p₀⟩ :: ⟨.name, "f", p⟩ :: ⟨.lparen, "(", p₁⟩ :: ([] ++
      ⟨.rparen, ")", p₂⟩ :: ((⟨.kwReturns, "returns", p₃⟩ :: us) ++ ⟨.lbrace, "\x7b", p₄⟩ ::
        ([] ++ [⟨.rbrace, "\x7d", p₅⟩])))) ⟨"f", p, [], false, [], some te, []⟩ :=
    .mk .none (.some hte) (.mk .nil)
  have hitems := RowTokens.cons (ItemTokens.function (.mk .nil .no hbare)) .nil
  have hparse : parse (returningText (t.render qs)) = .ok [.function ⟨"f", p, [], false, [], some te, []⟩] :=
    parse_complete hscan (by simpa using hitems)
  exact ⟨⟨"f", p, [], false, [], some te, []⟩, te, readProgram_eq_ok.mpr ⟨_, _, hparse, rfl, rfl⟩, rfl, hden⟩

end

/-! ## Units -/

/-- Let a type be what some type expression of some text stands for in a unit that was resolved from source, with or
without reports, and that does not import its own module. The text that is printed for the type is parsed as a type
expression in front of anything that may follow one, and that expression stands for the type, with nothing to report.
So a function with the printed text as its result type is read, and its result type is the type. -/
theorem resolveProgram_render_typeExpr {registry : Registry} (howned : registry.Owned) {source : Text}
    {program : Program Value} (hread : readProgram source = .ok program) {id : ModuleId} {file : Option Text}
    {unit : CompilationUnit} {reported : List Diagnostic}
    (hresolve : resolveProgram registry id file program = (unit, reported)) (hself : ∀ i ∈ unit.imports, i.id ≠ unit.id)
    {other : Text} {program' : Program Value} (hother : readProgram other = .ok program') {te : TypeExpr}
    (hte : te ∈ program'.typeExprs) {t : Ty} (ht : (unit.env.typeExpr te).value = some t) :
    (Lexes Breaks (t.render unit.qualifiers) fun tokens => ∃ te',
      (∀ rest, terminalOf rest ∈ typeEnds → ∀ follow extra, Gives (typeExpr follow extra (tokens ++ rest)) te' rest) ∧
        unit.env.typeExpr te' = .ok t) ∧
      ∃ f te', readProgram (returningText (t.render unit.qualifiers)) = .ok ⟨[], [], [f]⟩ ∧ f.returns = some te' ∧
        unit.env.typeExpr te' = .ok t := by
  obtain ⟨kept, himports, hrecords, hfunctions, hto, -⟩ := resolveProgram_kept registry id file program
  rw [hresolve] at hto
  have hwritten : kept.Written := (readProgram_written hread).of_sublists himports hrecords hfunctions
  have hspells : t.Spells unit.qualifiers fun te t => unit.env.typeExpr te = .ok t := by
    refine (hto.spells_prints howned (fun i hi => hto.import_spelled hwritten hi)
      ((readProgram_written hother).isMember hte) ht).imp ?_
    rintro tokens ⟨te', hte', -, hvalue⟩
    exact ⟨te', hte', (unit.env.settled_typeExpr te').eq_ok (hvalue hself)⟩
  exact ⟨hspells.gives, hspells.readProgram⟩

/-- A text that imports a module under two prefixes, and has a record type with the name of a type of that module. -/
def twiceImportingText : Text :=
  ("import ballerinax/awslambda; import ballerinax/awslambda as aws; type Context record \x7b \x7d" : Text) ++
    (" function g(awslambda:Context|Context|json|aws:Context c) \x7b \x7d" : Text)

/-- Of two prefixes of a module the second is printed, the record type of the same name is printed without one, and a
member that stands twice in a union is printed twice. -/
theorem resolveProgram_render_typeExpr_union :
    let id : ModuleId := ⟨"demo", "app"⟩
    let context (id : ModuleId) : Ty := .user "Context" (some id)
    let t : Ty := .union [context ⟨"ballerinax", "awslambda"⟩, context id, .json, context ⟨"ballerinax", "awslambda"⟩]
    ∃ program unit, readProgram twiceImportingText = .ok program ∧
      resolveProgram (Contract.registry {}) id none program = (unit, []) ∧
      t.render unit.qualifiers = "aws:Context|Context|json|aws:Context" ∧
      ∃ f te, readProgram (returningText (t.render unit.qualifiers)) = .ok ⟨[], [], [f]⟩ ∧ f.returns = some te ∧
        unit.env.typeExpr te = .ok t := by
  intro id context t
  have h : (readProgram twiceImportingText).map (fun program =>
      let r := resolveProgram (Contract.registry {}) id none program
      (r.2, r.1.imports.all (·.id != r.1.id), program.typeExprs.map fun te => (r.1.env.typeExpr te).value,
        t.render r.1.qualifiers)) = .ok ([], true, [some t], "aws:Context|Context|json|aws:Context") := by
    cbv
  obtain ⟨program, hread, hfacts⟩ := map_eq_ok.mp h
  obtain ⟨hquiet, hself, hnamed, hprinted⟩ : _ ∧ _ ∧ _ ∧ _ := by simpa only [Prod.mk.injEq] using hfacts
  obtain ⟨te, hte, ht⟩ := List.map_eq_singleton_iff.mp hnamed
  simp only [List.all_eq_true, bne_iff_ne] at hself
  generalize hr : resolveProgram (Contract.registry {}) id none program = r at hquiet hself hprinted ht ⊢
  obtain ⟨unit, reported⟩ := r
  obtain rfl : reported = [] := hquiet
  obtain ⟨-, hback⟩ := resolveProgram_render_typeExpr (Contract.registry_owned {}) hread hr hself hread
    (hte ▸ List.mem_cons_self) ht
  exact ⟨program, unit, hread, hr, hprinted, hback⟩

end Registrar
