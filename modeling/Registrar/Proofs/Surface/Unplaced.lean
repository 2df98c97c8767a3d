import Registrar.Surface.Tree

/-!
# Surface trees without places

A surface tree with every position taken out. Two programs with one and the same unplaced form differ in nothing but
where their parts stand in the source.
-/

namespace Registrar.Surface

variable {L : Type}

/-- The name without its position. -/
def Name.unplaced (n : Name) : Name := { n with position := .start }

/-- The type without positions. -/
def TypeExpr.unplaced (t : TypeExpr) : TypeExpr := ⟨t.first.unplaced, t.others.map Name.unplaced⟩

/-! ## Expressions and statements -/

mutual
/-- The expression without positions. -/
def Expr.unplaced : Expr L → Expr L
  | .literal value _ => .literal value .start
  | .name n => .name n.unplaced
  | .call callee args => .call callee.unplaced (Expr.unplacedAll args)

/-- Expressions without positions. -/
def Expr.unplacedAll : List (Expr L) → List (Expr L)
  | [] => []
  | e :: es => Expr.unplaced e :: Expr.unplacedAll es
end

/-- The statement without positions. -/
def Stmt.unplaced : Stmt L → Stmt L
  | .ret value _ => .ret (value.map Expr.unplaced) .start
  | .expr e _ => .expr e.unplaced .start

/-! ## Declarations -/

/-- The kind, its default without positions. -/
def ParamKind.unplaced : ParamKind L → ParamKind L
  | .required => .required
  | .defaultable e => .defaultable e.unplaced
  | .rest => .rest

/-- The parameter without positions. -/
def Param.unplaced (p : Param L) : Param L := ⟨p.name, .start, p.type.unplaced, p.kind.unplaced⟩

/-- The annotation without its position. -/
def Tag.unplaced (t : Tag) : Tag := { t with position := .start }

/-- The import without its position. -/
def Import.unplaced (i : Import) : Import := { i with position := .start }

/-- The record type without its position. -/
def Record.unplaced (r : Record) : Record := { r with position := .start }

/-- The function without positions. -/
def Function.unplaced (f : Function L) : Function L where
  name := f.name
  position := .start
  tags := f.tags.map Tag.unplaced
  isPublic := f.isPublic
  params := f.params.map Param.unplaced
  returns := f.returns.map TypeExpr.unplaced
  body := f.body.map Stmt.unplaced

/-- The item without positions. -/
def Item.unplaced : Item L → Item L
  | .use i => .use i.unplaced
  | .record r => .record r.unplaced
  | .function f => .function f.unplaced

theorem Program.ofItems_unplaced (items : List (Item L)) :
    Program.ofItems (items.map Item.unplaced) =
      ⟨(Program.ofItems items).imports.map Import.unplaced, (Program.ofItems items).records.map Record.unplaced,
        (Program.ofItems items).functions.map Function.unplaced⟩ := by
  simp only [Program.ofItems, List.filterMap_map, List.map_filterMap]
  congr 2 <;> funext item <;> cases item <;> rfl

@[simp] theorem TypeExpr.members_unplaced (t : TypeExpr) : t.unplaced.members = t.members.map Name.unplaced := rfl

@[simp] theorem Name.spelled_unplaced (n : Name) : n.unplaced.spelled = n.spelled := rfl

end Registrar.Surface
