import Registrar.ModuleId

/-!
# Types

The types of the language: a few built in, the record types that modules declare, unions in the order in
which their members are written (duplicates kept), and function types. `anyFunction` is the type of function
values of which nothing else is known.

Since a type holds lists of types, equality is decided by three functions on types, lists and options of
types that call each other; `Ty.beq_eq` says that they decide equality.
-/

namespace Registrar

/-- A type. -/
inductive Ty where
  | json
  | error
  | string
  | int
  | boolean
  | nil
  /-- The type of any function. -/
  | anyFunction
  | unknown
  /-- A record type, with the module that declares it. -/
  | user (name : Text) (origin : Option ModuleId)
  | union (members : List Ty)
  | function (params : List Ty) (ret : Option Ty)
deriving Repr, Inhabited

namespace Ty

/-! ## Equality -/

mutual
/-- Whether two types are equal. -/
def beq : Ty → Ty → Bool
  | .json, .json => true
  | .error, .error => true
  | .string, .string => true
  | .int, .int => true
  | .boolean, .boolean => true
  | .nil, .nil => true
  | .anyFunction, .anyFunction => true
  | .unknown, .unknown => true
  | .user name origin, .user name' origin' => name == name' && origin == origin'
  | .union members, .union members' => beqList members members'
  | .function params ret, .function params' ret' => beqList params params' && beqOption ret ret'
  | _, _ => false

/-- Whether two lists of types are equal. -/
def beqList : List Ty → List Ty → Bool
  | [], [] => true
  | a :: as, b :: bs => beq a b && beqList as bs
  | _, _ => false

/-- Whether two optional types are equal. -/
def beqOption : Option Ty → Option Ty → Bool
  | none, none => true
  | some a, some b => beq a b
  | _, _ => false
end

mutual
theorem beq_eq : (a b : Ty) → (beq a b = true ↔ a = b)
  | .json, b | .error, b | .string, b | .int, b | .boolean, b | .nil, b | .anyFunction, b
  | .unknown, b | .user _ _, b => by cases b <;> simp [beq]
  | .union members, b => by
    cases b with
    | union members' => simp [beq, beqList_eq members members']
    | _ => simp [beq]
  | .function params ret, b => by
    cases b with
    | function params' ret' => simp [beq, beqList_eq params params', beqOption_eq ret ret']
    | _ => simp [beq]

theorem beqList_eq : (as bs : List Ty) → (beqList as bs = true ↔ as = bs)
  | [], bs => by cases bs <;> simp [beqList]
  | a :: as, bs => by
    cases bs with
    | nil => simp [beqList]
    | cons b bs => simp [beqList, beq_eq a b, beqList_eq as bs]

theorem beqOption_eq : (a b : Option Ty) → (beqOption a b = true ↔ a = b)
  | none, b => by cases b <;> simp [beqOption]
  | some a, b => by
    cases b with
    | none => simp [beqOption]
    | some b => simp [beqOption, beq_eq a b]
end

instance : DecidableEq Ty := fun a b => decidable_of_iff (beq a b = true) (beq_eq a b)

/-! ## Parts -/

/-- The types that are written by one word, with that word. -/
def builtins : List (Text × Ty) :=
  [("json", .json), ("error", .error), ("string", .string), ("int", .int), ("boolean", .boolean),
    ("()", .nil), ("function", .anyFunction)]

/-- The built-in type of a name. -/
def builtin? (name : Text) : Option Ty := builtins.lookup name

/-- The union of some types; one type alone is that type. -/
def unionOf : List Ty → Ty
  | [member] => member
  | members => .union members

/-- The members of a union; another type has none. -/
def members : Ty → List Ty
  | .union members => members
  | _ => []

/-- The parameter types of a function type, if it says them. -/
def params? : Ty → Option (List Ty)
  | .function params _ => some params
  | _ => none

/-- The parameter types of a function type; none if it does not say them. -/
def params (t : Ty) : List Ty := t.params?.getD []

/-- The type of the result of a function type, if it says one. -/
def ret? : Ty → Option Ty
  | .function _ ret => ret
  | _ => none

/-- Whether this is a function type, with or without parameter types. -/
def isFunction : Ty → Bool
  | .anyFunction | .function _ _ => true
  | _ => false

/-! ## Spelling -/

mutual
/-- The type as messages spell it: a record type with the name of its module. -/
def describe : Ty → Text
  | .json => "json"
  | .error => "error"
  | .string => "string"
  | .int => "int"
  | .boolean => "boolean"
  | .nil => "()"
  | .anyFunction => "function"
  | .unknown => "<unknown>"
  | .user name none => name
  | .user name (some origin) => origin.name ++ ":" ++ name
  | .union members => List.intercalate ("|" : Text) (describeAll members)
  | .function params ret =>
    "function (" ++ List.intercalate (", " : Text) (describeAll params) ++ ") returns " ++ describeResult ret

/-- The spellings of some types. -/
def describeAll : List Ty → List Text
  | [] => []
  | t :: ts => describe t :: describeAll ts

/-- The spelling of the type of a result; without one it is the nil type's. -/
def describeResult : Option Ty → Text
  | none => "()"
  | some t => describe t
end

end Ty

end Registrar
