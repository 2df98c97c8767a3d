import Registrar.Text.Literal
import Registrar.Unit.Tree

/-!
# Units as text

A unit, or a part of one, as source text. Calls are written with the prefix that they carry, references
without any.
-/

namespace Registrar

/-! ## Types -/

/-- By which prefix a module's types are written: `none` for no prefix. The last entry of a module counts. -/
abbrev Qualifiers := List (ModuleId × Option Text)

/-- How the types of a module are written, if that is said. -/
def Qualifiers.find? (qs : Qualifiers) (id : ModuleId) : Option (Option Text) := qs.reverse.lookup id

/-- The prefixes of a unit: those of its imports, and none for what it declares itself. -/
def CompilationUnit.qualifiers (unit : CompilationUnit) : Qualifiers :=
  unit.imports.map (fun i => (i.id, some i.qualifier)) ++ [(unit.id, none)]

mutual
/-- A type as source text. A record type of a module without an entry is spelled as in messages. -/
def Ty.render (qs : Qualifiers) : Ty → Text
  | .union members => List.intercalate ("|" : Text) (Ty.renderAll qs members)
  | .user name (some origin) =>
    match qs.find? origin with
    | some none => name
    | some (some qualifier) => qualifier ++ ":" ++ name
    | none => origin.name ++ ":" ++ name
  | t => t.describe

/-- Types as source text. -/
def Ty.renderAll (qs : Qualifiers) : List Ty → List Text
  | [] => []
  | t :: ts => Ty.render qs t :: Ty.renderAll qs ts
end

/-! ## Expressions and statements -/

/-- A literal as source text. -/
def Value.render : Value → Text
  | .nil => "()"
  | .bool true => "true"
  | .bool false => "false"
  | .int n => Text.ofInt n
  | .str t => Literal.encode t

/-- A name behind a prefix; an empty prefix counts as none. -/
def qualified (qualifier : Option Text) (name : Text) : Text :=
  match qualifier with
  | none | some [] => name
  | some q => q ++ ":" ++ name

mutual
/-- An expression as source text. -/
def Expr.render : Expr → Text
  | .literal value _ _ => value.render
  | .ref name _ _ _ => name
  | .call name _ args _ qualifier _ =>
    qualified qualifier name ++ "(" ++ List.intercalate (", " : Text) (Expr.renderAll args) ++ ")"

/-- Expressions as source text. -/
def Expr.renderAll : List Expr → List Text
  | [] => []
  | e :: es => Expr.render e :: Expr.renderAll es
end

/-- A statement as source text. -/
def Stmt.render : Stmt → Text
  | .expr e _ => e.render ++ ";"
  | .ret none _ => "return;"
  | .ret (some e) _ => "return " ++ e.render ++ ";"

/-! ## Declarations -/

/-- A parameter as source text. -/
def Param.render (qs : Qualifiers) (p : Param) : Text :=
  p.type.render qs ++ " " ++ p.name ++
    match p.default with
    | none => []
    | some e => " = " ++ e.render

/-- A rest parameter as source text. -/
def Param.renderRest (qs : Qualifiers) (p : Param) : Text := p.type.render qs ++ "... " ++ p.name

/-- A marker as source text. -/
def Marker.render (m : Marker) : Text := "@" ++ qualified m.qualifier m.tag

namespace FunctionDecl

/-- The parameters as source text. -/
def renderParams (qs : Qualifiers) (f : FunctionDecl) : List Text :=
  (f.required ++ f.defaultable).map (Param.render qs) ++ f.rest.toList.map (Param.renderRest qs)

/-- The first line of a function, up to the opening brace. The result type is left out if it is nil. -/
def renderHead (qs : Qualifiers) (f : FunctionDecl) : Text :=
  let visibility : Text := if f.isPublic then "public " else []
  let result : Text := if f.returnType = .nil then [] else " returns " ++ f.returnType.render qs
  visibility ++ "function " ++ f.name ++ "(" ++ List.intercalate (", " : Text) (f.renderParams qs) ++ ")" ++
    result ++ " \x7b"

/-- A function as source text. -/
def render (qs : Qualifiers) (f : FunctionDecl) : Text :=
  List.intercalate ("\n" : Text)
    (f.markers.map Marker.render ++ [f.renderHead qs] ++
      f.body.map (fun s => ("    " ++ s.render : Text)) ++ [("\x7d" : Text)])

end FunctionDecl

/-- An import as source text. -/
def ImportDecl.render (i : ImportDecl) : Text :=
  let asName : Text := match i.asName with
    | none | some [] => []
    | some asName => " as " ++ asName
  "import " ++ i.id.render ++ asName ++ ";"

/-- A record type as source text. -/
def TypeDecl.render (t : TypeDecl) : Text := "type " ++ t.name ++ " record \x7b\x7d"

/-- A unit as source text: imports, record types and functions, with an empty line between any two. -/
def CompilationUnit.render (unit : CompilationUnit) : Text :=
  List.intercalate ("\n\n" : Text)
    (unit.imports.map ImportDecl.render ++ unit.types.map TypeDecl.render ++
      unit.functions.map (FunctionDecl.render unit.qualifiers)) ++ "\n"

end Registrar
