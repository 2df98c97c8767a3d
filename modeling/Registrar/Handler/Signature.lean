import Registrar.Contract
import Registrar.Unit.Tree

/-!
# Handler signatures

A function is a handler if it carries the tag of the contract. Its signature is then checked: two required
parameters, the context and a `json` payload, and a result that is a union of two members, each `json` or
`error`. The first rule that is broken is the one reported.
-/

namespace Registrar

/-- A rule that the signature of a handler breaks. -/
inductive SignatureViolation where
  | paramShape
  | contextParam
  | payloadParam
  | returnNotUnion
  | returnArity
  | returnMembers
deriving DecidableEq, Repr

/-- The rule in words. -/
def SignatureViolation.note : SignatureViolation → Text
  | .paramShape =>
    "a handler takes exactly two required parameters and no defaultable or rest parameters"
  | .contextParam => "the first parameter must be the runtime support Context type"
  | .payloadParam => "the second parameter must be of type json"
  | .returnNotUnion => "the return type must be a union"
  | .returnArity => "the return type union must have exactly two members"
  | .returnMembers => "the return type union may only contain json and error"

/-- Whether a type may be a member of the result type of a handler. -/
def Ty.isHandlerResult : Ty → Bool
  | .json | .error => true
  | _ => false

namespace Contract

/-- Whether a function carries the tag of handlers. -/
def isMarked (c : Contract) (f : FunctionDecl) : Bool :=
  f.markers.any (·.symbol.identity == c.markerIdentity)

/-- The first rule that the result type breaks. -/
def resultViolation? : Ty → Option SignatureViolation
  | .union members =>
    if members.length ≠ 2 then some .returnArity
    else if members.all Ty.isHandlerResult then none
    else some .returnMembers
  | _ => some .returnNotUnion

/-- The first rule that the signature breaks. -/
def violation? (c : Contract) (f : FunctionDecl) : Option SignatureViolation :=
  match f.required, f.defaultable, f.rest with
  | [context, payload], [], none =>
    if context.type ≠ c.contextType then some .contextParam
    else if payload.type ≠ .json then some .payloadParam
    else resultViolation? f.returnType
  | _, _, _ => some .paramShape

end Contract

end Registrar
