import Registrar.Diagnostic
import Registrar.Unit.Tree

/-!
# Resolving: results and environment

Resolving a part of a program gives the part with its meaning, or diagnostics that say why it has none. Parts
that stand side by side are all resolved, so that every problem is reported.
-/

namespace Registrar

/-! ## Results -/

/-- What a part of a program means, if it means something, and what there is to say about it. -/
structure Resolved (α : Type) where
  value : Option α
  diagnostics : List Diagnostic := []

namespace Resolved

/-- A meaning, and nothing to say. -/
def ok {α : Type} (a : α) : Resolved α := { value := some a }

/-- No meaning, for one reason. -/
def fail {α : Type} (d : Diagnostic) : Resolved α := { value := none, diagnostics := [d] }

/-- A function of the meaning. -/
def map {α β : Type} (f : α → β) (r : Resolved α) : Resolved β :=
  { value := r.value.map f, diagnostics := r.diagnostics }

/-- A part that can be resolved only when another one has a meaning. -/
def bind {α β : Type} (r : Resolved α) (f : α → Resolved β) : Resolved β :=
  match r.value with
  | none => { value := none, diagnostics := r.diagnostics }
  | some a => { value := (f a).value, diagnostics := r.diagnostics ++ (f a).diagnostics }

/-- Two parts that stand side by side. -/
def both {α β : Type} (r : Resolved α) (s : Resolved β) : Resolved (α × β) where
  value := match r.value, s.value with
    | some a, some b => some (a, b)
    | _, _ => none
  diagnostics := r.diagnostics ++ s.diagnostics

/-- Parts that stand in a row: all must have a meaning. -/
def all {α β : Type} (f : α → Resolved β) : List α → Resolved (List β)
  | [] => ok []
  | a :: as => ((f a).both (all f as)).map fun (b, bs) => b :: bs

end Resolved

/-! ## Environment -/

/-- What is known while names are resolved: the file, the module, its imports and its scope so far. -/
structure Env where
  file : Option Text
  id : ModuleId
  imports : List ImportDecl
  scope : Scope

namespace Env

/-- The phase that reports problems with names and types. -/
def phase : Text := "resolve"

/-- The span of a position. -/
def span (env : Env) (p : Position) : Span := .ofPosition env.file p

/-- A problem at a position. -/
def problem (env : Env) (p : Position) (message : Text) : Diagnostic :=
  { message, phase := some phase, span := env.span p }

/-- What a prefix gives access to. -/
def exports (env : Env) (qualifier : Text) (p : Position) : Resolved Scope :=
  match env.imports.find? (·.qualifier == qualifier) with
  | none => .fail (env.problem p ("undefined module prefix '" ++ qualifier ++ "'"))
  | some i => .ok i.module.exports

end Env

end Registrar
