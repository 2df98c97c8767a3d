import Registrar.Source.Span

/-!
# Surface trees

What the text of a module says, before any name has a meaning. The trees are the same before and after the
literals are read; `L` is what stands for a literal: its spelling (`Raw`) or its value (`Value`).
-/

namespace Registrar

/-- The value of a literal. -/
inductive Value where
  | nil
  | bool (b : Bool)
  | int (n : Int)
  | str (t : Text)
deriving DecidableEq, Repr, Inhabited

namespace Surface

/-- A literal as it is spelled: a string with its quotes, an integer as its digits. -/
inductive Raw where
  | nil
  | bool (b : Bool)
  | int (digits : Text)
  | str (spelling : Text)
deriving DecidableEq, Repr, Inhabited

/-- A name, perhaps qualified by the prefix of an import. -/
structure Name where
  qualifier : Option Text
  ident : Text
  position : Position
deriving DecidableEq, Repr, Inhabited

/-- The name with its qualifier, as messages spell it. -/
def Name.spelled (n : Name) : Text :=
  match n.qualifier with
  | none => n.ident
  | some q => q ++ ":" ++ n.ident

/-- A type: one name, or the members of a union in the order in which they are written. The nil type is the
name `()`. -/
structure TypeExpr where
  first : Name
  others : List Name
deriving DecidableEq, Repr, Inhabited

/-- The members of the type, one at least. -/
def TypeExpr.members (t : TypeExpr) : List Name := t.first :: t.others

/-- An expression. -/
inductive Expr (L : Type) where
  | literal (value : L) (position : Position)
  | name (n : Name)
  | call (callee : Name) (args : List (Expr L))
deriving Repr, Inhabited

/-- A statement: `return` with or without a value, or an expression. -/
inductive Stmt (L : Type) where
  | ret (value : Option (Expr L)) (position : Position)
  | expr (e : Expr L) (position : Position)
deriving Repr, Inhabited

/-- What a parameter asks of a call. -/
inductive ParamKind (L : Type) where
  | required
  | defaultable (default : Expr L)
  | rest
deriving Repr, Inhabited

/-- A parameter. -/
structure Param (L : Type) where
  name : Text
  position : Position
  type : TypeExpr
  kind : ParamKind L
deriving Repr, Inhabited

/-- An annotation `@name` or `@qualifier:name`. -/
structure Tag where
  qualifier : Option Text
  name : Text
  position : Position
deriving DecidableEq, Repr, Inhabited

/-- `import space/name as asName;` -/
structure Import where
  space : Text
  name : Text
  asName : Option Text
  position : Position
deriving DecidableEq, Repr, Inhabited

/-- `type name record` with an empty body. -/
structure Record where
  name : Text
  position : Position
deriving DecidableEq, Repr, Inhabited

/-- A function. -/
structure Function (L : Type) where
  name : Text
  position : Position
  tags : List Tag
  isPublic : Bool
  params : List (Param L)
  returns : Option TypeExpr
  body : List (Stmt L)
deriving Repr, Inhabited

/-- What stands at the top level. -/
inductive Item (L : Type) where
  | use (i : Import)
  | record (r : Record)
  | function (f : Function L)
deriving Repr, Inhabited

/-- A whole module: its items of each kind, in the order in which they are written. -/
structure Program (L : Type) where
  imports : List Import
  records : List Record
  functions : List (Function L)
deriving Repr, Inhabited

/-- The program of some items. -/
def Program.ofItems {L : Type} (items : List (Item L)) : Program L where
  imports := items.filterMap fun | .use i => some i | _ => none
  records := items.filterMap fun | .record r => some r | _ => none
  functions := items.filterMap fun | .function f => some f | _ => none

end Surface

end Registrar
