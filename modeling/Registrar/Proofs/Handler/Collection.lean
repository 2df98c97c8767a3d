import Registrar.Handler.Collection
import Registrar.Proofs.Rows

/-!
# How the functions of a unit are sorted

The rules that the signature of a handler must keep, each for itself and in the order in which they are checked. A
function is unmarked, a handler, or marked and in breach of a rule, of which the first one counts (`Contract.standing`).
`collect_handlers_standing` and `collect_diagnostics_standing` say that the collection of handlers goes by that: each
handler is kept and each function in breach is reported once, both in the order of the unit.
-/

namespace Registrar

/-! ## The rules -/

/-- The rules in the order in which they are checked. -/
def SignatureViolation.inOrder : List SignatureViolation :=
  [.paramShape, .contextParam, .payloadParam, .returnNotUnion, .returnArity, .returnMembers]

/-- Whether a type is a union. -/
def Ty.isUnion : Ty → Bool
  | .union _ => true
  | _ => false

namespace Contract

/-- Whether the signature of a function breaks a rule, whatever the other rules say. -/
def breaks (c : Contract) (f : FunctionDecl) : SignatureViolation → Bool
  | .paramShape => f.required.length != 2 || !f.defaultable.isEmpty || f.rest.isSome
  | .contextParam => f.required[0]?.map Param.type != some c.contextType
  | .payloadParam => f.required[1]?.map Param.type != some .json
  | .returnNotUnion => !f.returnType.isUnion
  | .returnArity => f.returnType.members.length != 2
  | .returnMembers => f.returnType.members.any fun t => t != .json && t != .error

end Contract

/-! ## Standings -/

/-- What a function of a unit is to the handler pass. -/
inductive Standing where
  | unmarked
  | handler
  /-- A marked function, with the first rule that it breaks. -/
  | broken (rule : SignatureViolation)
deriving DecidableEq, Repr

/-- Whether this is a marked function in breach of a rule. -/
def Standing.isBroken : Standing → Bool
  | .broken _ => true
  | _ => false

namespace Contract

/-- What a function is to the handler pass. -/
def standing (c : Contract) (f : FunctionDecl) : Standing :=
  if c.isMarked f then
    match SignatureViolation.inOrder.find? (c.breaks f) with
    | none => .handler
    | some rule => .broken rule
  else .unmarked

/-- What is reported of a marked function in breach of a rule: an error at its place, with the message of the contract
and the first rule that is broken. -/
structure Reports (c : Contract) (f : FunctionDecl) (d : Diagnostic) : Prop where
  isError : d.isError = true
  span : d.span = f.span
  message : d.message = c.invalidSignatureMessage f.name
  notes : ∃ rule, c.standing f = .broken rule ∧ d.notes = [rule.note]

end Contract

/-! ## The rules as they are checked -/

theorem Ty.isHandlerResult_eq (t : Ty) : t.isHandlerResult = !(t != .json && t != .error) := by
  cases t <;> simp [isHandlerResult]

namespace Contract

variable {c : Contract} {unit : CompilationUnit} {f : FunctionDecl}

/-- The rules for the result are checked in their order. -/
theorem resultViolation?_eq_find? (c : Contract) (f : FunctionDecl) :
    resultViolation? f.returnType = [.returnNotUnion, .returnArity, .returnMembers].find? (c.breaks f) := by
  unfold resultViolation?
  split
  · next members hret =>
    have hunion : c.breaks f .returnNotUnion = false := by simp [breaks, hret, Ty.isUnion]
    have harity : c.breaks f .returnArity = (members.length != 2) := by simp [breaks, hret, Ty.members]
    have hmembers : c.breaks f .returnMembers = !members.all Ty.isHandlerResult := by
      simp [breaks, hret, Ty.members, Ty.isHandlerResult_eq, List.all_eq_not_any_not]
    by_cases hlen : members.length = 2
    · by_cases hall : members.all Ty.isHandlerResult = true
      · simp [hunion, harity, hmembers, hlen, hall]
      · simp [hunion, harity, hmembers, hlen, hall]
    · simp [hunion, harity, hlen]
  · next hret =>
    have hunion : c.breaks f .returnNotUnion = true := by
      cases ht : f.returnType with
      | union members => exact absurd ht (hret members)
      | _ => simp [breaks, ht, Ty.isUnion]
    simp [hunion]

/-- The rule that is reported is the first in order that is broken. -/
theorem violation?_eq_find? (c : Contract) (f : FunctionDecl) :
    c.violation? f = SignatureViolation.inOrder.find? (c.breaks f) := by
  unfold violation? SignatureViolation.inOrder
  split
  · next context payload hreq hdef hrest =>
    have hshape : c.breaks f .paramShape = false := by simp [breaks, hreq, hdef, hrest]
    have hcontext : c.breaks f .contextParam = true ↔ context.type ≠ c.contextType := by simp [breaks, hreq]
    have hpayload : c.breaks f .payloadParam = true ↔ payload.type ≠ .json := by simp [breaks, hreq]
    rw [List.find?_cons_of_neg (by simp [hshape])]
    by_cases hctx : context.type ≠ c.contextType
    · rw [if_pos hctx, List.find?_cons_of_pos (hcontext.mpr hctx)]
    · rw [if_neg hctx, List.find?_cons_of_neg (fun h => hctx (hcontext.mp h))]
      by_cases hpay : payload.type ≠ .json
      · rw [if_pos hpay, List.find?_cons_of_pos (hpayload.mpr hpay)]
      · rw [if_neg hpay, List.find?_cons_of_neg (fun h => hpay (hpayload.mp h))]
        exact resultViolation?_eq_find? c f
  · next hno =>
    -- whatever has not just two required parameters breaks the first rule already
    have hshape : c.breaks f .paramShape = true := by
      by_contra hkept
      simp only [breaks, Bool.or_eq_true, bne_iff_ne, Bool.not_eq_true', List.isEmpty_eq_false_iff, not_or, not_not,
        Option.isSome_iff_ne_none, ne_eq] at hkept
      obtain ⟨⟨hlen, hdef⟩, hrest⟩ := hkept
      obtain ⟨context, payload, hreq⟩ := List.length_eq_two.mp hlen
      exact hno context payload hreq hdef hrest
    rw [List.find?_cons_of_pos hshape]

/-- No rule is broken exactly if the signature has the shape that the contract asks for. -/
theorem find?_breaks_eq_none :
    SignatureViolation.inOrder.find? (c.breaks f) = none ↔
      ∃ context payload, f.required = [context, payload] ∧ f.defaultable = [] ∧ f.rest = none ∧
        context.type = c.contextType ∧ payload.type = .json ∧
        ∃ members, f.returnType = .union members ∧ members.length = 2 ∧ members.all Ty.isHandlerResult = true := by
  have hkept : SignatureViolation.inOrder.find? (c.breaks f) = none ↔
      c.breaks f .paramShape = false ∧ c.breaks f .contextParam = false ∧ c.breaks f .payloadParam = false ∧
        c.breaks f .returnNotUnion = false ∧ c.breaks f .returnArity = false ∧ c.breaks f .returnMembers = false := by
    simp [SignatureViolation.inOrder]
  rw [hkept]
  constructor
  · rintro ⟨hshape, hcontext, hpayload, hunion, harity, hmembers⟩
    simp only [breaks, Bool.or_eq_false_iff, bne_eq_false_iff_eq, Bool.not_eq_false', List.isEmpty_iff,
      Option.isSome_eq_false_iff, Option.isNone_iff_eq_none] at hshape
    obtain ⟨⟨hlen, hdefaultable⟩, hrest⟩ := hshape
    obtain ⟨context, payload, hrequired⟩ := List.length_eq_two.mp hlen
    refine ⟨context, payload, hrequired, hdefaultable, hrest, ?_, ?_, ?_⟩
    · simpa [breaks, hrequired] using hcontext
    · simpa [breaks, hrequired] using hpayload
    · cases hresult : f.returnType with
      | union members =>
        refine ⟨members, rfl, by simpa [breaks, hresult, Ty.members] using harity, ?_⟩
        simpa [breaks, hresult, Ty.members, Ty.isHandlerResult_eq, List.all_eq_not_any_not] using hmembers
      | _ => simp [breaks, hresult, Ty.isUnion] at hunion
  · rintro ⟨context, payload, hrequired, hdefaultable, hrest, hcontext, hpayload, members, hresult, hlen, hall⟩
    simp only [Ty.isHandlerResult_eq, List.all_eq_not_any_not, Bool.not_not, Bool.not_eq_true'] at hall
    simp [breaks, hrequired, hdefaultable, hrest, hcontext, hpayload, hresult, Ty.isUnion, Ty.members, hlen, hall]

/-! ## What is collected -/

theorem standing_eq (c : Contract) (f : FunctionDecl) :
    c.standing f = if c.isMarked f then (c.violation? f).elim .handler .broken else .unmarked := by
  rw [standing, ← violation?_eq_find?]
  cases c.violation? f <;> rfl

theorem standing_eq_handler : c.standing f = .handler ↔ c.isMarked f = true ∧ c.violation? f = none := by
  rw [standing_eq]
  cases c.isMarked f <;> cases c.violation? f <;> simp

/-- The handlers are kept in the order of the unit. -/
theorem collect_handlers_standing (c : Contract) (unit : CompilationUnit) :
    (c.collect unit).handlers = unit.functions.filter fun f => c.standing f = .handler := by
  simp only [collect, marked, List.filter_filter]
  refine List.filter_congr fun f _ => ?_
  rw [Bool.eq_iff_iff, decide_eq_true_iff, standing_eq_handler, Bool.and_eq_true, Option.isNone_iff_eq_none, and_comm]

/-- Each function in breach of a rule is reported once, in the order of the unit. -/
theorem collect_diagnostics_standing (c : Contract) (unit : CompilationUnit) :
    List.Forall₂ c.Reports (unit.functions.filter fun f => (c.standing f).isBroken) (c.collect unit).diagnostics := by
  simp only [collect, marked]
  -- both sides follow the functions, so a function at the front adds a report to both or to neither
  induction unit.functions with
  | nil => exact .nil
  | cons f functions ih =>
    have hst := standing_eq c f
    cases hmarked : c.isMarked f with
    | false =>
      rw [hmarked, if_neg Bool.false_ne_true] at hst
      simpa [hst, Standing.isBroken, hmarked] using ih
    | true =>
      rw [hmarked, if_pos rfl] at hst
      cases hrule : c.violation? f with
      | none =>
        rw [hrule] at hst
        simpa [hst, Standing.isBroken, hmarked, hrule] using ih
      | some rule =>
        rw [hrule] at hst
        have hreport : c.Reports f (c.signatureDiagnostic f rule) := ⟨rfl, rfl, rfl, rule, hst, rfl⟩
        simpa [hst, Standing.isBroken, hmarked, hrule] using ⟨hreport, ih⟩

end Contract

end Registrar
