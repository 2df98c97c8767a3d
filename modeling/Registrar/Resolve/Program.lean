import Registrar.Resolve.Functions

/-!
# Resolving: programs

The imports come first, then the records, then the signatures of all functions, then their bodies. What has
no meaning is left out of the unit and reported.
-/

namespace Registrar

/-! ## Imports -/

/-- An import, after those that were accepted before it. -/
def resolveImport (registry : Registry) (env : Env) (i : Surface.Import) : Resolved ImportDecl :=
  let id : ModuleId := ⟨i.space, i.name⟩
  match registry.find? id with
  | none => .fail (env.problem i.position ("cannot resolve module '" ++ id.render ++ "'"))
  | some module =>
    let decl : ImportDecl := { id, module, asName := i.asName, span := env.span i.position }
    if env.imports.any (·.qualifier == decl.qualifier) then
      .fail (env.problem i.position ("redeclared import prefix '" ++ decl.qualifier ++ "'"))
    else .ok decl

/-- All imports. -/
def resolveImports (registry : Registry) (env : Env) : List Surface.Import → Env × List Diagnostic
  | [] => (env, [])
  | i :: is =>
    let r := resolveImport registry env i
    let (env, ds) := resolveImports registry { env with imports := env.imports ++ r.value.toList } is
    (env, r.diagnostics ++ ds)

/-! ## Records -/

/-- A record type, with the scope in which its name denotes it. A built-in name is taken. -/
def resolveRecord (env : Env) (r : Surface.Record) : Resolved (TypeDecl × Scope) :=
  let type : Ty := .user r.name (some env.id)
  let symbol : Symbol := .type { name := r.name, owner := env.id, stamp := .declared, type }
  match Ty.builtin? r.name, env.scope.define? symbol with
  | none, some scope => .ok ({ name := r.name, type, span := env.span r.position }, scope)
  | _, _ => .fail (env.problem r.position ("redeclared symbol '" ++ r.name ++ "'"))

/-- All record types. -/
def resolveRecords (env : Env) : List Surface.Record → Env × List TypeDecl × List Diagnostic
  | [] => (env, [], [])
  | r :: rs =>
    let first := resolveRecord env r
    match first.value with
    | none =>
      let (env, types, ds) := resolveRecords env rs
      (env, types, first.diagnostics ++ ds)
    | some (decl, scope) =>
      let (env, types, ds) := resolveRecords { env with scope } rs
      (env, decl :: types, first.diagnostics ++ ds)

/-! ## Functions -/

/-- The declaration of a function, with the scope in which its name denotes it. -/
def declareFunction (env : Env) (f : Surface.Function Value) : Resolved (FunctionDecl × Scope) :=
  (env.signature f).bind fun decl =>
    match env.scope.define? (.function decl.symbol) with
    | some scope => .ok (decl, scope)
    | none => .fail (env.problem f.position ("redeclared symbol '" ++ f.name ++ "'"))

/-- The declarations of all functions, each with the function that it was made from. -/
def declareFunctions (env : Env) :
    List (Surface.Function Value) → Env × List (Surface.Function Value × FunctionDecl) × List Diagnostic
  | [] => (env, [], [])
  | f :: fs =>
    let first := declareFunction env f
    match first.value with
    | none =>
      let (env, decls, ds) := declareFunctions env fs
      (env, decls, first.diagnostics ++ ds)
    | some (decl, scope) =>
      let (env, decls, ds) := declareFunctions { env with scope } fs
      (env, (f, decl) :: decls, first.diagnostics ++ ds)

/-! ## Programs -/

/-- The unit of a program, and all problems in the order in which they were met. -/
def resolveProgram (registry : Registry) (id : ModuleId) (file : Option Text)
    (program : Surface.Program Value) : CompilationUnit × List Diagnostic :=
  let env : Env := { file, id, imports := [], scope := { owner := id } }
  let (env, importProblems) := resolveImports registry env program.imports
  let (env, types, recordProblems) := resolveRecords env program.records
  let (env, decls, signatureProblems) := declareFunctions env program.functions
  let bodies := decls.map fun (f, decl) => env.body f decl
  ({ id, scope := env.scope, imports := env.imports, types, functions := bodies.map Prod.fst
     span := .ofPosition file .start },
    importProblems ++ recordProblems ++ signatureProblems ++ bodies.flatMap Prod.snd)

end Registrar
