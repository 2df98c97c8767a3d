import Registrar.Text.CodePoint

/-!
# Module ids

A module is known by two names, written `namespace/name`.
-/

namespace Registrar

/-- The identity of a module. -/
structure ModuleId where
  space : Text
  name : Text
deriving DecidableEq, Repr, Inhabited

namespace ModuleId

/-- The id as it is written. -/
def render (id : ModuleId) : Text := id.space ++ "/" ++ id.name

/-- A text that is no module id. -/
structure Fault where
  text : Text
deriving DecidableEq, Repr

/-- The fault in words. -/
def Fault.message (f : Fault) : Text :=
  "invalid module id '" ++ f.text ++ "', expected 'namespace/name'"

/-- Reads `namespace/name`: one slash, and something on both sides of it. -/
def parse (text : Text) : Except Fault ModuleId :=
  match text.splitOn (.scalar '/') with
  | [space, name] => if space = [] ∨ name = [] then .error ⟨text⟩ else .ok ⟨space, name⟩
  | _ => .error ⟨text⟩

end ModuleId

end Registrar
