import Registrar.Proofs.Rows
import Registrar.Proofs.Unit.Validity
import Registrar.Surface.Program
import Registrar.Unit.Printer

/-!
# Units as trees

What the printer writes, as surface trees instead of text: a literal by its spelling or its value, a reference without
its prefix, a call with it. The relations are parametric in `lit`, which says what stands for a value, so that they hold
before and after the literals are read, and in `den`, which says by which type expression a type may be written.
-/

namespace Registrar

open Surface (TypeExpr Raw)

/-! ## Expressions and statements -/

/-- How the printer spells a value. -/
def Value.raw : Value → Raw
  | .nil => .nil
  | .bool b => .bool b
  | .int n => .int (Text.ofInt n)
  | .str t => .str (Literal.encode t)

section

variable {L : Type} (lit : Value → L) (den : TypeExpr → Ty → Prop)

mutual
/-- The expression by which the printer writes one. -/
inductive Writes : Surface.Expr L → Expr → Prop
  | literal {v : Value} {t : Ty} {p : Position} {span : Span} : Writes (.literal (lit v) p) (.literal v t span)
  | ref {n : Text} {s : Symbol} {t : Ty} {p : Position} {span : Span} :
      Writes (.name ⟨none, n, p⟩) (.ref n s t span)
  | call {n : Text} {q : Option Text} {s : Symbol} {t : Ty} {p : Position} {span : Span}
      {es : List (Surface.Expr L)} {xs : List Expr} (hs : WritesAll es xs) :
      Writes (.call ⟨q, n, p⟩ es) (.call n s xs t q span)

/-- Expressions in a row. -/
inductive WritesAll : List (Surface.Expr L) → List Expr → Prop
  | nil : WritesAll [] []
  | cons {e : Surface.Expr L} {es : List (Surface.Expr L)} {x : Expr} {xs : List Expr} (h : Writes e x)
      (hs : WritesAll es xs) : WritesAll (e :: es) (x :: xs)
end

/-- The statement by which the printer writes one. -/
inductive StmtWrites : Surface.Stmt L → Stmt → Prop
  | expr {e : Surface.Expr L} {x : Expr} {p : Position} {span : Span} (h : Writes lit e x) :
      StmtWrites (.expr e p) (.expr x span)
  | retNone {p : Position} {span : Span} : StmtWrites (.ret none p) (.ret none span)
  | ret {e : Surface.Expr L} {x : Expr} {p : Position} {span : Span} (h : Writes lit e x) :
      StmtWrites (.ret (some e) p) (.ret (some x) span)

/-! ## Declarations -/

/-- The parameter by which the printer writes one that is no rest parameter: with its default, if it has one. -/
inductive ParamWrites : Surface.Param L → Param → Prop
  | required {n : Text} {te : TypeExpr} {t : Ty} {p : Position} {span : Span} (ht : den te t) :
      ParamWrites ⟨n, p, te, .required⟩ ⟨n, t, none, span⟩
  | defaultable {n : Text} {te : TypeExpr} {t : Ty} {e : Surface.Expr L} {x : Expr} {p : Position} {span : Span}
      (ht : den te t) (he : Writes lit e x) : ParamWrites ⟨n, p, te, .defaultable e⟩ ⟨n, t, some x, span⟩

/-- The parameter by which the printer writes a rest parameter. -/
inductive RestWrites : Surface.Param L → Param → Prop
  | mk {n : Text} {te : TypeExpr} {t : Ty} {default : Option Expr} {p : Position} {span : Span} (ht : den te t) :
      RestWrites ⟨n, p, te, .rest⟩ ⟨n, t, default, span⟩

/-- The annotation by which the printer writes a marker. -/
def TagWrites (t : Surface.Tag) (m : Marker) : Prop := t.qualifier = m.qualifier ∧ t.name = m.tag

/-- The result type that the printer writes: none for nil. -/
def ReturnsWrites (r : Option TypeExpr) (t : Ty) : Prop :=
  match r with
  | none => t = .nil
  | some te => den te t

/-- The function by which the printer writes one. -/
structure FunctionWrites (f : Surface.Function L) (d : FunctionDecl) : Prop where
  name : f.name = d.name
  isPublic : f.isPublic = d.isPublic
  tags : List.Forall₂ TagWrites f.tags d.markers
  params : ∃ fixed rest, f.params = fixed ++ rest ∧
    List.Forall₂ (ParamWrites lit den) fixed (d.required ++ d.defaultable) ∧
    List.Forall₂ (RestWrites den) rest d.rest.toList
  returns : ReturnsWrites den f.returns d.returnType
  body : List.Forall₂ (StmtWrites lit) f.body d.body

/-- The import by which the printer writes one. -/
def ImportWrites (i : Surface.Import) (d : ImportDecl) : Prop :=
  i.space = d.id.space ∧ i.name = d.id.name ∧ i.asName = d.asName

/-- The record by which the printer writes a record type. -/
def RecordWrites (r : Surface.Record) (t : TypeDecl) : Prop := r.name = t.name

/-! ## Units -/

/-- What stands at the top level of a unit. -/
inductive UnitPart where
  | use (i : ImportDecl)
  | record (t : TypeDecl)
  | function (f : FunctionDecl)

/-- The item by which the printer writes a part of a unit. -/
inductive PartWrites : Surface.Item L → UnitPart → Prop
  | use {i : Surface.Import} {d : ImportDecl} (h : ImportWrites i d) : PartWrites (.use i) (.use d)
  | record {r : Surface.Record} {t : TypeDecl} (h : RecordWrites r t) : PartWrites (.record r) (.record t)
  | function {f : Surface.Function L} {d : FunctionDecl} (h : FunctionWrites lit den f d) :
      PartWrites (.function f) (.function d)

/-- The program by which the printer writes a unit. -/
structure ProgramWrites (program : Surface.Program L) (unit : CompilationUnit) : Prop where
  imports : List.Forall₂ ImportWrites program.imports unit.imports
  records : List.Forall₂ RecordWrites program.records unit.types
  functions : List.Forall₂ (FunctionWrites lit den) program.functions unit.functions

end

/-- A part of a unit as source text. -/
def UnitPart.render (qs : Qualifiers) : UnitPart → Text
  | .use i => i.render
  | .record t => t.render
  | .function f => f.render qs

namespace CompilationUnit

/-- The parts of a unit in the order in which they are printed. -/
def parts (unit : CompilationUnit) : List UnitPart :=
  unit.imports.map .use ++ unit.types.map .record ++ unit.functions.map .function

theorem render_eq (unit : CompilationUnit) :
    unit.render = List.intercalate ("\n\n" : Text) (unit.parts.map (UnitPart.render unit.qualifiers)) ++ "\n" := by
  simp [render, parts, Function.comp_def, UnitPart.render]

end CompilationUnit

/-- The items by which the parts of a unit are written make up the program by which the unit is. -/
theorem programWrites_ofItems {L : Type} {lit : Value → L} {den : TypeExpr → Ty → Prop}
    {items : List (Surface.Item L)} {unit : CompilationUnit} (h : List.Forall₂ (PartWrites lit den) items unit.parts) :
    ProgramWrites lit den (.ofItems items) unit := by
  have himports : unit.parts.filterMap (fun | .use i => some i | _ => none) = unit.imports := by
    simp [CompilationUnit.parts]
  have hrecords : unit.parts.filterMap (fun | .record t => some t | _ => none) = unit.types := by
    simp [CompilationUnit.parts]
  have hfunctions : unit.parts.filterMap (fun | .function f => some f | _ => none) = unit.functions := by
    simp [CompilationUnit.parts]
  refine ⟨himports ▸ ?_, hrecords ▸ ?_, hfunctions ▸ ?_⟩
  all_goals
    refine forall₂_filterMap h fun hpart => ?_
    cases hpart
  case refine_1.use h => exact .some h
  case refine_2.record h => exact .some h
  case refine_3.function h => exact .some h
  all_goals exact .none

end Registrar
