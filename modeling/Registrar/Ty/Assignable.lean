import Registrar.Ty

/-!
# Assignability

Whether a value of one type may stand where another type is asked for.

* Every type fits itself. Otherwise the unknown type fits nothing and nothing fits it.
* A union fits a union if each of its members does; it fits nothing else but itself.
* Any other type fits a union if it fits one of its members.
* Strings, integers, booleans and nil fit `json`; every function fits the type of any function.

The recursion is first on the source, as long as that is a union, and then on the slot.
-/

namespace Registrar.Ty

/-- The types whose values are JSON values. -/
def isJson : Ty → Bool
  | .json | .string | .int | .boolean | .nil => true
  | _ => false

mutual
/-- Whether a value of type `source`, which is no union, fits the slot. -/
def fits (source : Ty) : (slot : Ty) → Bool
  | .union members =>
    source == .union members || (source != .unknown && fitsSome source members)
  | .json => source.isJson
  | .anyFunction => source.isFunction
  | slot => source == slot

/-- Whether a value of type `source` fits one of the slots. -/
def fitsSome (source : Ty) : (slots : List Ty) → Bool
  | [] => false
  | slot :: slots => fits source slot || fitsSome source slots
end

mutual
/-- Whether a value of type `source` may stand where `slot` is asked for. -/
def isAssignable (source slot : Ty) : Bool :=
  match source with
  | .union members =>
    .union members == slot ||
      match slot with
      | .union _ => allAssignable members slot
      | _ => false
  | other => fits other slot

/-- Whether values of all the types may stand where `slot` is asked for. -/
def allAssignable (sources : List Ty) (slot : Ty) : Bool :=
  match sources with
  | [] => true
  | source :: sources => isAssignable source slot && allAssignable sources slot
end

end Registrar.Ty
