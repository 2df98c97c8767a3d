import Registrar.Proofs.Resolve.Defaults
import Registrar.Proofs.Resolve.Layout

/-!
# Bodies do not interfere

What a program says of a function to the rest of the program is its *header*: all but its body and its default values.
The signature of a function is that of its header (`Env.signature_header`), and the stages before the bodies see
signatures only. So another body of one function changes the body and the defaults of that function and what is said
about these, and nothing else (`resolveProgram_noninterference`).

To say so, what is resolved is cut at the function: `Cut` keeps apart what is reported before the bodies, the functions in
front, the function itself and those behind it, each with what is said about its body.
-/

namespace Registrar

open Resolved

/-! ## Headers -/

namespace Surface

/-- The kind with one and the same default, whichever is written. -/
def ParamKind.header : ParamKind Value → ParamKind Value
  | .required => .required
  | .defaultable _ => .defaultable (.literal .nil .start)
  | .rest => .rest

/-- The parameter without its default. -/
def Param.header (p : Param Value) : Param Value := { p with kind := p.kind.header }

/-- The function without its body and its defaults. -/
def Function.header (f : Function Value) : Function Value := { f with params := f.params.map Param.header, body := [] }

end Surface

/-- The function without its body and its defaults. -/
def FunctionDecl.header (d : FunctionDecl) : FunctionDecl :=
  { d with body := [], defaultable := d.defaultable.map fun p => { p with default := none } }

namespace Resolved

variable {α β γ : Type}

theorem all_map_left (g : γ → α) (f : α → Resolved β) (cs : List γ) : all f (cs.map g) = all (fun c => f (g c)) cs := by
  induction cs with
  | nil => rfl
  | cons c cs ih => simp only [List.map_cons, all, ih]

theorem all_map_right (h : β → γ) (f : α → Resolved β) (as : List α) :
    all (fun a => (f a).map h) as = (all f as).map (List.map h) := by
  induction as with
  | nil => rfl
  | cons a as ih =>
    simp only [all, ih]
    obtain ⟨_ | b, ds⟩ := f a
    · rfl
    · obtain ⟨_ | bs, es⟩ := all f as <;> rfl

/-- Two outcomes that are alike to a third one are alike. -/
theorem Alike.join {R : α → γ → Prop} {S : β → γ → Prop} {T : α → β → Prop} {r : Resolved α} {r' : Resolved β}
    {common : Resolved γ} (h : r.Alike R common) (h' : r'.Alike S common) (hT : ∀ {a b c}, R a c → S b c → T a b) :
    r.Alike T r' := by
  obtain ⟨hvalue, hds⟩ := h
  obtain ⟨hvalue', hds'⟩ := h'
  refine ⟨?_, hds.trans hds'.symm⟩
  generalize r.value = v at hvalue ⊢
  generalize r'.value = v' at hvalue' ⊢
  generalize common.value = w at hvalue hvalue'
  cases hvalue with
  | none =>
    cases hvalue'
    exact .none
  | some ha =>
    cases hvalue' with
    | some hb => exact .some (hT ha hb)

end Resolved

namespace Env

theorem kindedParam_header (env : Env) (p : Surface.Param Value) :
    env.kindedParam p.header = (env.kindedParam p).map fun k => (k.1.header, k.2) := by
  simp only [kindedParam, param, Surface.Param.header, Resolved.map, Option.map_map, Function.comp_def]

theorem declaration_header (env : Env) (f : Surface.Function Value) (markers : List Marker)
    (ks : List (Surface.ParamKind Value × Param)) (ret : Ty) :
    env.declaration f.header markers (ks.map fun k => (k.1.header, k.2)) ret = env.declaration f markers ks ret := by
  -- a parameter is chosen by its kind, whatever its default
  have hchosen : ∀ {choose : Surface.ParamKind Value × Param → Option Param},
      (∀ k, choose (k.1.header, k.2) = choose k) →
        (ks.map fun k => (k.1.header, k.2)).filterMap choose = ks.filterMap choose := by
    intro choose hchoose
    rw [List.filterMap_map]
    exact List.filterMap_congr fun k _ => hchoose k
  simp only [declaration]
  rw [hchosen, hchosen, hchosen]
  · rfl
  all_goals rintro ⟨_ | e | _, p⟩ <;> rfl

/-- The signature of a function does not depend on its body and its defaults. -/
theorem signature_header (env : Env) (f : Surface.Function Value) : env.signature f.header = env.signature f := by
  have hparams : all env.kindedParam f.header.params =
      (all env.kindedParam f.params).map (List.map fun k => (k.1.header, k.2)) := by
    rw [Surface.Function.header, all_map_left, ← all_map_right]
    exact congrArg (all · f.params) (funext env.kindedParam_header)
  rw [signature, signature, hparams]
  show ((all env.marker f.tags).both (((all env.kindedParam f.params).map _).both (env.result f.returns))).map _ = _
  generalize all env.marker f.tags = r
  generalize all env.kindedParam f.params = s
  generalize env.result f.returns = t
  obtain ⟨_ | markers, ds⟩ := r
  · rfl
  · obtain ⟨_ | ks, es⟩ := s
    · rfl
    · obtain ⟨_ | ret, hs⟩ := t
      · rfl
      · simp only [both, Resolved.map, Option.map_some, env.declaration_header]

/-- A body and defaults leave the header as it is. -/
theorem body_header (env : Env) (f : Surface.Function Value) (decl : FunctionDecl) :
    (env.body f decl).1.header = decl.header := by
  have hparam : ∀ p : Param, ({ (env.withDefault f p).1 with default := none } : Param) = { p with default := none } := by
    intro p
    unfold withDefault
    split <;> rfl
  simp only [body, FunctionDecl.header, List.map_map, Function.comp_def, hparam]

/-- A function with its declaration and what is said about its body. -/
def DeclaresWith (env : Env) (f : Surface.Function Value) (k : FunctionDecl × List Diagnostic) : Prop :=
  ∃ decl, (env.signature f).value = some decl ∧ k = env.body f decl

/-- The environment behind a declaration, which may have failed. -/
def behind (env : Env) (r : Resolved (FunctionDecl × Scope)) : Env :=
  { env with scope := (r.value.map Prod.snd).getD env.scope }

end Env

theorem FunctionDecl.header_unplaced (d : FunctionDecl) : d.header.unplaced = d.unplaced.header := by
  simp only [FunctionDecl.header, FunctionDecl.unplaced, List.map_map, List.map_nil, Function.comp_def, Param.unplaced,
    Option.map_none]

/-! ## Declarations one behind the other -/

section

variable {env env' : Env} {f f' : Surface.Function Value}

theorem declareFunction_header (env : Env) (f : Surface.Function Value) :
    declareFunction env f.header = declareFunction env f := by
  rw [declareFunction, env.signature_header]
  rfl

theorem declareFunctions_cons (env : Env) (f : Surface.Function Value) (fs : List (Surface.Function Value)) :
    let first := declareFunction env f
    let others := declareFunctions (env.behind first) fs
    declareFunctions env (f :: fs) =
      (others.1, first.value.toList.map (fun k => (f, k.1)) ++ others.2.1, first.diagnostics ++ others.2.2) := by
  intro first others
  rw [declareFunctions]
  cases hfirst : first.value with
  | none => simp [others, first, Env.behind, hfirst]
  | some k => simp [others, first, Env.behind, hfirst]

theorem declareFunctions_append (env : Env) (fs gs : List (Surface.Function Value)) :
    let front := declareFunctions env fs
    let rest := declareFunctions front.1 gs
    declareFunctions env (fs ++ gs) = (rest.1, front.2.1 ++ rest.2.1, front.2.2 ++ rest.2.2) := by
  induction fs generalizing env with
  | nil => rfl
  | cons f fs ih => simp only [List.cons_append, declareFunctions_cons, ih, List.append_assoc]

/-- Declarations that differ in places, with scopes that give names the same meaning. -/
def DeclaredAlike (k k' : FunctionDecl × Scope) : Prop := k.1.unplaced = k'.1.unplaced ∧ ∀ n, k.2.lookup n = k'.2.lookup n

/-- Two functions with one header are declared alike. -/
theorem declareFunction_of_header (h : env.Alike env') (hf : f.header.unplaced = f'.header.unplaced) :
    (declareFunction env f).Alike DeclaredAlike (declareFunction env' f') := by
  have hleft := declareFunction_alike h f.header
  have hright := declareFunction_alike (.refl env') f'.header
  rw [declareFunction_header, hf] at hleft
  rw [declareFunction_header] at hright
  exact hleft.join hright fun hk hk' => ⟨hk.1.trans hk'.1.symm, fun n => (hk.2 n).trans (hk'.2 n).symm⟩

theorem behind_alike (h : env.Alike env') {r r' : Resolved (FunctionDecl × Scope)} (hr : r.Alike DeclaredAlike r') :
    (env.behind r).Alike (env'.behind r') := by
  refine ⟨h.id, h.imports, fun n => ?_⟩
  have hvalue := hr.value
  unfold Env.behind
  generalize r.value = v at hvalue ⊢
  generalize r'.value = v' at hvalue ⊢
  cases hvalue with
  | none => exact h.scope n
  | some hk => exact hk.2 n

end

/-! ## What is resolved, cut at a function -/

/-- The environment of a unit is the one in which its bodies were resolved. -/
theorem resolveProgram_env (registry : Registry) (id : ModuleId) (file : Option Text) (program : Surface.Program Value) :
    (resolveProgram registry id file program).1.env =
      (declareFunctions (typedStage registry id file program).1 program.functions).1 := by
  obtain ⟨hfile, hid⟩ := typedStage_place registry id file program
  obtain ⟨-, henv, -⟩ := declareFunctions_kept (typedStage registry id file program).1 program.functions
  rw [resolveProgram_stages]
  generalize typedStage registry id file program = typed at hfile hid henv ⊢
  rw [henv]
  subst hfile hid
  rfl

/-- What a program resolves to, cut at one of its functions: what is reported before the bodies, the functions in front of
it, itself if it is kept, and the functions behind it, each with what is said about its body. -/
structure Cut where
  early : List Diagnostic
  front : List (FunctionDecl × List Diagnostic)
  own : Option (FunctionDecl × List Diagnostic)
  rest : List (FunctionDecl × List Diagnostic)

namespace Cut

/-- All functions that are kept. -/
def bodies (c : Cut) : List (FunctionDecl × List Diagnostic) := c.front ++ c.own.toList ++ c.rest

/-- A unit and all that is reported, cut at the function `f`. -/
structure Of (c : Cut) (f : Surface.Function Value) (resolved : CompilationUnit × List Diagnostic) : Prop where
  functions : resolved.1.functions = c.bodies.map Prod.fst
  diagnostics : resolved.2 = c.early ++ c.bodies.flatMap Prod.snd
  own : ∀ k ∈ c.own, resolved.1.env.DeclaresWith f k

/-- Two cuts that differ in places, in the body and the defaults of the function at which they are made, and in what is
said about these. -/
structure Alike (c c' : Cut) : Prop where
  early : c.early.map Diagnostic.unplaced = c'.early.map Diagnostic.unplaced
  front : List.Forall₂ Env.WholeAlike c.front c'.front
  own : Option.Rel (fun k k' => k.1.header.unplaced = k'.1.header.unplaced) c.own c'.own
  rest : List.Forall₂ Env.WholeAlike c.rest c'.rest

/-- The cut that the last two stages of the resolver make at `f`. -/
def make (env : Env) (early : List Diagnostic) (fs : List (Surface.Function Value)) (f : Surface.Function Value)
    (gs : List (Surface.Function Value)) : Cut :=
  let front := declareFunctions env fs
  let own := declareFunction front.1 f
  let rest := declareFunctions (front.1.behind own) gs
  { early := early ++ (front.2.2 ++ (own.diagnostics ++ rest.2.2))
    front := front.2.1.map fun k => rest.1.body k.1 k.2
    own := own.value.map fun k => rest.1.body f k.1
    rest := rest.2.1.map fun k => rest.1.body k.1 k.2 }

/-- Equal headers give alike cuts. -/
theorem make_alike {env env' : Env} (h : env.Alike env') {early early' : List Diagnostic}
    (hearly : early.map Diagnostic.unplaced = early'.map Diagnostic.unplaced)
    {fs fs' gs gs' : List (Surface.Function Value)} {f f' : Surface.Function Value}
    (hfs : fs.map Surface.Function.unplaced = fs'.map Surface.Function.unplaced)
    (hf : f.header.unplaced = f'.header.unplaced)
    (hgs : gs.map Surface.Function.unplaced = gs'.map Surface.Function.unplaced) :
    (make env early fs f gs).Alike (make env' early' fs' f' gs') := by
  obtain ⟨hfront, hfrontDecls, hfrontDs⟩ := declareFunctions_moved h hfs
  have hown := declareFunction_of_header hfront hf
  obtain ⟨hall, hrestDecls, hrestDs⟩ := declareFunctions_moved (behind_alike hfront hown) hgs
  refine ⟨?_, bodies_moved hall hfrontDecls, ?_, bodies_moved hall hrestDecls⟩
  · simp only [make, List.map_append, hearly, hfrontDs, hown.diagnostics, hrestDs]
  · refine (hown.map fun {k k'} hk => ?_).value
    rw [Env.body_header, Env.body_header, FunctionDecl.header_unplaced, hk.1, ← FunctionDecl.header_unplaced]

/-- The cut holds the bodies of all declared functions and what was said before them. -/
theorem make_eq (env : Env) (early : List Diagnostic) (fs : List (Surface.Function Value)) (f : Surface.Function Value)
    (gs : List (Surface.Function Value)) :
    let declared := declareFunctions env (fs ++ f :: gs)
    (make env early fs f gs).bodies = declared.2.1.map (fun k => declared.1.body k.1 k.2) ∧
      (make env early fs f gs).early = early ++ declared.2.2 ∧
      ∀ k ∈ (make env early fs f gs).own, ∃ d, (f, d) ∈ declared.2.1 ∧ k = declared.1.body f d := by
  simp only [declareFunctions_append, declareFunctions_cons, make, bodies]
  refine ⟨?_, trivial, ?_⟩
  · simp only [List.map_append, List.map_map, Option.toList_map, Function.comp_def, List.append_assoc]
  · intro k hk
    obtain ⟨d, hd, rfl⟩ := Option.map_eq_some_iff.mp hk
    refine ⟨d.1, List.mem_append_right _ (List.mem_append_left _ ?_), rfl⟩
    exact List.mem_map.mpr ⟨d, Option.mem_toList.mpr hd, rfl⟩

/-- Every program can be cut at each of its functions. -/
theorem make_of (registry : Registry) (id : ModuleId) (file : Option Text) {program : Surface.Program Value}
    {fs gs : List (Surface.Function Value)} {f : Surface.Function Value}
    (hfunctions : program.functions = fs ++ f :: gs) :
    let typed := typedStage registry id file program
    (make typed.1 typed.2.2 fs f gs).Of f (resolveProgram registry id file program) := by
  intro typed
  obtain ⟨hbodies, hearly, hown⟩ := make_eq typed.1 typed.2.2 fs f gs
  rw [← hfunctions] at hbodies hearly hown
  refine ⟨?_, ?_, fun k hk => ?_⟩
  · rw [hbodies, resolveProgram_stages]
  · rw [hbodies, hearly, resolveProgram_stages]
  · obtain ⟨d, hd, rfl⟩ := hown k hk
    obtain ⟨-, -, -, hsignature, -, -⟩ := declareFunctions_kept typed.1 program.functions
    rw [resolveProgram_env]
    exact ⟨d, hsignature (f, d) hd, rfl⟩

/-- Cuts that are alike hold functions with the same headers. -/
theorem Alike.headers {c c' : Cut} (h : c.Alike c') :
    c.bodies.map (fun k => k.1.header.unplaced) = c'.bodies.map fun k => k.1.header.unplaced := by
  have hwhole : ∀ {k k' : FunctionDecl × List Diagnostic}, Env.WholeAlike k k' →
      k.1.header.unplaced = k'.1.header.unplaced := by
    intro k k' hk
    rw [FunctionDecl.header_unplaced, hk.1, ← FunctionDecl.header_unplaced]
  have hown : c.own.map (fun k => k.1.header.unplaced) = c'.own.map fun k => k.1.header.unplaced :=
    map_eq_map_of_rel h.own fun hk => hk
  simp only [bodies, List.map_append, ← Option.toList_map, hown, map_eq_of_forall₂ h.front fun _ hk => hwhole hk,
    map_eq_of_forall₂ h.rest fun _ hk => hwhole hk]

end Cut

/-! ## Programs -/

/-- Two programs that differ in places and in the body and the defaults of one function, which is `f` in the one and `f'`
in the other. -/
structure Surface.Program.DifferIn (program program' : Surface.Program Value) (f f' : Surface.Function Value) : Prop where
  imports : program.imports.map Surface.Import.unplaced = program'.imports.map Surface.Import.unplaced
  records : program.records.map Surface.Record.unplaced = program'.records.map Surface.Record.unplaced
  functions : ∃ fs gs fs' gs', program.functions = fs ++ f :: gs ∧ program'.functions = fs' ++ f' :: gs' ∧
    fs.map Surface.Function.unplaced = fs'.map Surface.Function.unplaced ∧
    gs.map Surface.Function.unplaced = gs'.map Surface.Function.unplaced
  header : f.header.unplaced = f'.header.unplaced

/-- Where two programs differ in the body and the defaults of one function only, wherever their parts stand, they resolve
to the same imports, types and scope, to the same other functions with their bodies, and to the same header of that
function, and what is reported differs in nothing but what is said about its body and its defaults. -/
theorem resolveProgram_noninterference (registry : Registry) (id : ModuleId) (file file' : Option Text)
    {program program' : Surface.Program Value} {f f' : Surface.Function Value} (h : program.DifferIn program' f f') :
    let resolved := resolveProgram registry id file program
    let resolved' := resolveProgram registry id file' program'
    resolved.1.imports.map ImportDecl.unplaced = resolved'.1.imports.map ImportDecl.unplaced ∧
      resolved.1.types.map TypeDecl.unplaced = resolved'.1.types.map TypeDecl.unplaced ∧
      resolved.1.scope = resolved'.1.scope ∧
      ∃ cut cut' : Cut, cut.Of f resolved ∧ cut'.Of f' resolved' ∧ cut.Alike cut' := by
  intro resolved resolved'
  obtain ⟨fs, gs, fs', gs', hfunctions, hfunctions', hfs, hgs⟩ := h.functions
  -- the first two stages do not see the functions
  have hplain : Surface.Program.Reordered { program with functions := [] } { program' with functions := [] } :=
    ⟨h.imports, h.records, .nil⟩
  obtain ⟨htyped, htypes, hproblems⟩ := typedStage_reordered registry id file file' hplain
  change (typedStage registry id file program).1.Alike (typedStage registry id file' program').1 at htyped
  have hcut := Cut.make_of registry id file hfunctions
  have hcut' := Cut.make_of registry id file' hfunctions'
  have halike := Cut.make_alike htyped hproblems hfs h.header hgs
  have himports : ∀ file program, (resolveProgram registry id file program).1.imports =
      (typedStage registry id file program).1.imports := by
    intro file program
    obtain ⟨-, henv, -⟩ := declareFunctions_kept (typedStage registry id file program).1 program.functions
    rw [resolveProgram_stages]
    dsimp only
    rw [henv]
  refine ⟨?_, htypes, ?_, _, _, hcut, hcut', halike⟩
  · rw [himports, himports, htyped.imports]
  · obtain ⟨kept, -, -, -, hto, -⟩ := resolveProgram_kept registry id file program
    obtain ⟨kept', -, -, -, hto', -⟩ := resolveProgram_kept registry id file' program'
    refine hto.scope_eq_of_symbols hto' rfl htypes ?_
    rw [hcut.functions, hcut'.functions, List.map_map, List.map_map]
    exact map_eq_of_forall₂ (map_eq_map_iff_forall₂.mp halike.headers) fun _ hd => (congrArg FunctionDecl.symbol hd :)

/-- A function with an unknown default and an unknown call, between a caller and a function that is lost, on other lines:
two more problems, and the same scope and headers. -/
theorem resolveProgram_noninterference_careless :
    let int (line : Nat) : Surface.TypeExpr := ⟨⟨none, "int", ⟨line, 9⟩⟩, []⟩
    let call (callee : Text) (line : Nat) : Surface.Stmt Value := .expr (.call ⟨none, callee, ⟨line, 5⟩⟩ []) ⟨line, 5⟩
    let function (name : Text) (line : Nat) (params : List (Surface.Param Value)) (returns : Option Text)
        (body : List (Surface.Stmt Value)) : Surface.Function Value :=
      { name, position := ⟨line, 1⟩, tags := [], isPublic := false, params
        returns := returns.map fun t => ⟨⟨none, t, ⟨line, 9⟩⟩, []⟩, body }
    let f := function "f" 4 [⟨"a", ⟨4, 12⟩, int 4, .defaultable (.literal (.int 1) ⟨4, 16⟩)⟩] none []
    let f' := function "f" 7 [⟨"a", ⟨7, 12⟩, int 7, .defaultable (.name ⟨none, "nowhere", ⟨7, 16⟩⟩)⟩] none
      [call "nobody" 8, call "caller" 9]
    let program : Surface.Program Value :=
      { imports := [], records := [⟨"R", ⟨1, 1⟩⟩]
        functions := [function "caller" 2 [] none [call "f" 3], f, function "lost" 5 [] (some "S") []] }
    let program' : Surface.Program Value :=
      { imports := [], records := [⟨"R", ⟨12, 1⟩⟩]
        functions := [function "caller" 1 [] none [call "f" 5], f', function "lost" 10 [] (some "S") []] }
    let resolved := resolveProgram {} ⟨"demo", "app"⟩ none program
    let resolved' := resolveProgram {} ⟨"demo", "app"⟩ (some "app.bal") program'
    program.DifferIn program' f f' ∧ resolved.2.length = 1 ∧ resolved'.2.length = 3 ∧
      resolved.1.scope = resolved'.1.scope ∧
      resolved.1.functions.map (·.header.unplaced) = resolved'.1.functions.map (·.header.unplaced) := by
  intro int call function f f' program program' resolved resolved'
  have hdiffer : program.DifferIn program' f f' := ⟨rfl, rfl, ⟨[_], [_], [_], [_], rfl, rfl, rfl, rfl⟩, rfl⟩
  obtain ⟨-, -, hscope, cut, cut', hcut, hcut', halike⟩ :=
    resolveProgram_noninterference {} ⟨"demo", "app"⟩ none (some "app.bal") hdiffer
  refine ⟨hdiffer, by decide +kernel, by decide +kernel, hscope, ?_⟩
  rw [hcut.functions, hcut'.functions, List.map_map, List.map_map]
  exact halike.headers

end Registrar
