import Mathlib.Algebra.GroupWithZero.Nat
import Registrar.Proofs.Handler.Repetition
import Registrar.Unit.Printer

/-!
# Drafts of entry points side by side

Any number of drafts of one unit, each with its own contract and runtime support module, and any order of the steps by
which they are started, added to and committed. `Desk.effect_step` says what one step can do. What carries the induction
over a run is `Desk.Orderly`: the unit is the one at the start with one function more for each draft that was
committed, and a committed draft stands for its function there.

So a draft is not apart from the unit for good: what is added to it after its commit is added to the unit. That, and the
commit itself, are the only steps by which the unit is seen to change (`commit_discipline`).
-/

namespace Registrar

/-! ## Steps -/

/-- What can be done with a draft. -/
inductive DraftAction where
  | register (handler : FunctionDecl)
  | process
  | commit

/-- The work on the unit. -/
def DraftAction.build : DraftAction → Draft → Build Draft
  | .register handler, draft => draft.addRegister handler
  | .process, draft => draft.addProcess
  | .commit, draft => draft.commit

/-- A step of the work on several drafts: a new one is started, or something is done with one that is there. -/
inductive DraftStep where
  | start (c : Contract) (runtime : Runtime)
  | act (k : Nat) (action : DraftAction)

/-- A unit and the drafts that were started for it. -/
structure Desk where
  unit : CompilationUnit
  drafts : List Draft := []

namespace Desk

/-- Takes a step. After a failure the draft is as it was. `none`: there is no such draft. -/
def step (desk : Desk) : DraftStep → Option (Except EntryPointError Unit) × Desk
  | .start c runtime => (some (.ok ()), { desk with drafts := desk.drafts ++ [Draft.new c runtime desk.unit] })
  | .act k action =>
    match desk.drafts[k]? with
    | none => (none, desk)
    | some draft =>
      match (action.build draft).exec desk.unit with
      | (.ok draft, unit) => (some (.ok ()), ⟨unit, desk.drafts.set k draft⟩)
      | (.error e, unit) => (some (.error e), { desk with unit })

/-- Takes steps one after the other. -/
def run (desk : Desk) (steps : List DraftStep) : Desk := steps.foldl (fun desk step => (desk.step step).2) desk

/-- The name of the entry point that is drafted. -/
def entryPointName? (desk : Desk) (k : Nat) : Option Text := desk.drafts[k]?.map (·.contract.entryPointName)

/-- Whether a draft was committed. -/
def isCommitted (desk : Desk) (k : Nat) : Bool :=
  desk.drafts[k]?.any fun draft => draft.place matches .committed _

end Desk

/-! ## What a step does -/

namespace Draft

open Build

variable {draft : Draft} {f : FunctionDecl} {callee : FunctionSymbol} {i : Nat} {unit : CompilationUnit}

/-- A call that is added to a committed draft is added to its function in the unit. -/
theorem exec_addCall_committed (hplace : draft.place = .committed i) {operation : Text}
    (hop : draft.runtime.operation operation = .ok callee) (args : List Expr) (unit : CompilationUnit) :
    exec (draft.addCall operation args) unit =
      (.ok draft, { unit with
        functions := unit.functions.modify i (·.addStmt (draft.runtime.call operation callee args draft.span)) }) := by
  rw [addCall, hop, exec_bind_ok (exec_ofExcept _ _), addStmt, hplace]
  rfl

/-- The name of the entry point must be free. -/
theorem exec_commit_taken (hplace : draft.place = .apart f) (htaken : unit.scope.contains f.symbol.name = true) :
    exec draft.commit unit = (.error (.nameTaken f.name), unit) := by
  have hdef : unit.scope.define? (.function f.symbol) = none := if_pos htaken
  rw [commit, hplace]
  dsimp only
  rw [exec_bind_ok (exec_get _)]
  simp only [hdef]
  rfl

/-- A draft is committed once. -/
theorem exec_commit_again (hplace : draft.place = .committed i) (unit : CompilationUnit) :
    exec draft.commit unit = (.error .alreadyCommitted, unit) := by
  rw [commit, hplace]
  rfl

/-- What becomes of a draft and of the unit when a call is added: nothing, if the operation is missing; or one more
statement in the function of the draft, wherever that is. -/
theorem exec_addCall_cases (draft : Draft) (operation : Text) (args : List Expr) (unit : CompilationUnit) :
    (∃ e, exec (draft.addCall operation args) unit = (.error e, unit)) ∨
      (∃ f s, draft.place = .apart f ∧
        exec (draft.addCall operation args) unit = (.ok { draft with place := .apart (f.addStmt s) }, unit)) ∨
      ∃ i s, draft.place = .committed i ∧ exec (draft.addCall operation args) unit =
        (.ok draft, { unit with functions := unit.functions.modify i (·.addStmt s) }) := by
  cases hop : draft.runtime.operation operation with
  | error e => exact .inl ⟨e, exec_addCall_error hop args unit⟩
  | ok callee =>
    cases hplace : draft.place with
    | apart f => exact .inr (.inl ⟨f, _, rfl, exec_addCall hplace hop args unit⟩)
    | committed i => exact .inr (.inr ⟨i, _, rfl, exec_addCall_committed hplace hop args unit⟩)

end Draft

namespace Desk

open Build

variable {desk : Desk} {k : Nat} {draft : Draft}

/-- The effects that a step can have. -/
inductive Effect (desk : Desk) : DraftStep → Option (Except EntryPointError Unit) × Desk → Prop
  /-- A new draft lies on the desk. -/
  | started (c : Contract) (runtime : Runtime) :
    Effect desk (.start c runtime) (some (.ok ()), { desk with drafts := desk.drafts ++ [Draft.new c runtime desk.unit] })
  /-- The step fails, or there is no such draft: the desk is left as it is. -/
  | refused {step : DraftStep} {result : Option (Except EntryPointError Unit)} (h : result ≠ some (.ok ())) :
    Effect desk step (result, desk)
  /-- A draft that is apart from the unit has a statement more. -/
  | drafted {k : Nat} {action : DraftAction} {draft : Draft} {f : FunctionDecl} (s : Stmt)
      (hk : desk.drafts[k]? = some draft) (hplace : draft.place = .apart f) (haction : action ≠ .commit) :
    Effect desk (.act k action)
      (some (.ok ()), { desk with drafts := desk.drafts.set k { draft with place := .apart (f.addStmt s) } })
  /-- A draft that was committed has a statement more in the unit. -/
  | addedLate {k : Nat} {action : DraftAction} {draft : Draft} {i : Nat} (s : Stmt)
      (hk : desk.drafts[k]? = some draft) (hplace : draft.place = .committed i) (haction : action ≠ .commit) :
    Effect desk (.act k action) (some (.ok ()),
      { desk with unit := { desk.unit with functions := desk.unit.functions.modify i (·.addStmt s) } })
  /-- A draft is committed. -/
  | committed {k : Nat} {draft : Draft} {f : FunctionDecl} (hk : desk.drafts[k]? = some draft)
      (hplace : draft.place = .apart f) (hfree : desk.unit.scope.contains f.symbol.name = false) :
    Effect desk (.act k .commit) (some (.ok ()), ⟨desk.unit.install f,
      desk.drafts.set k { draft with place := .committed desk.unit.functions.length }⟩)

theorem step_act {action : DraftAction} (hk : desk.drafts[k]? = some draft) :
    desk.step (.act k action) =
      match (action.build draft).exec desk.unit with
      | (.ok draft, unit) => (some (.ok ()), ⟨unit, desk.drafts.set k draft⟩)
      | (.error e, unit) => (some (.error e), { desk with unit }) := by
  simp [step, hk]

/-- Adding a call to a draft has one of the effects. -/
theorem effect_of_addCall {action : DraftAction} {operation : Text} {args : List Expr}
    (hk : desk.drafts[k]? = some draft) (haction : action ≠ .commit)
    (hbuild : action.build draft = draft.addCall operation args) :
    desk.Effect (.act k action) (desk.step (.act k action)) := by
  rw [step_act hk, hbuild]
  rcases draft.exec_addCall_cases operation args desk.unit with ⟨e, h⟩ | ⟨f, s, hplace, h⟩ | ⟨i, s, hplace, h⟩
  · rw [h]
    exact .refused (by simp)
  · rw [h]
    exact .drafted s hk hplace haction
  · have hset : desk.drafts.set k draft = desk.drafts := by
      obtain ⟨hlt, rfl⟩ := List.getElem?_eq_some_iff.mp hk
      exact List.set_getElem_self hlt
    simp only [h, hset]
    exact .addedLate s hk hplace haction

/-- Every step has one of the effects. -/
theorem effect_step (desk : Desk) (step : DraftStep) : desk.Effect step (desk.step step) := by
  cases step with
  | start c runtime => exact .started c runtime
  | act k action =>
    cases hk : desk.drafts[k]? with
    | none =>
      have hnone : desk.step (.act k action) = (none, desk) := by simp [Desk.step, hk]
      rw [hnone]
      exact .refused (by simp)
    | some draft =>
      cases action with
      | register handler => exact effect_of_addCall hk (by simp) rfl
      | process => exact effect_of_addCall hk (by simp) rfl
      | commit =>
        rw [step_act hk, DraftAction.build]
        cases hplace : draft.place with
        | committed i =>
          rw [Draft.exec_commit_again hplace]
          exact .refused (by simp)
        | apart f =>
          cases hfree : desk.unit.scope.contains f.symbol.name with
          | true =>
            rw [Draft.exec_commit_taken hplace hfree]
            exact .refused (by simp)
          | false =>
            rw [Draft.exec_commit hplace hfree]
            exact .committed hk hplace hfree

end Desk

/-! ## What a run keeps -/

/-- A statement more in one of the functions that were added. -/
theorem CompilationUnit.ExtendedBy.addStmt {start unit : CompilationUnit} {added : List FunctionDecl}
    (h : start.ExtendedBy added unit) {j : Nat} (hj : j < added.length) (s : Stmt) :
    start.ExtendedBy (added.modify j (·.addStmt s))
      { unit with functions := unit.functions.modify (start.functions.length + j) (·.addStmt s) } := by
  have hlater : start.functions.length + j < unit.functions.length := by
    rw [h.functions, List.length_append]
    omega
  obtain ⟨before, f, after, rfl, rfl, hmodify⟩ := List.exists_of_modify (·.addStmt s) hj
  obtain ⟨front, g, back, hfunctions, hfront, hmodify'⟩ := List.exists_of_modify (·.addStmt s) hlater
  -- both rows are split at one place, which is that of the function
  have hsplit : start.functions ++ before ++ f :: after = front ++ g :: back := by
    rw [← hfunctions, h.functions, List.append_assoc]
  obtain ⟨rfl, hrest⟩ := List.append_inj hsplit (by rw [List.length_append, hfront])
  obtain ⟨rfl, rfl⟩ := List.cons.inj hrest
  rw [hmodify, hmodify']
  have hf : f ∈ before ++ f :: after := by simp
  have hall : ∀ {P : FunctionDecl → Prop}, (∀ g ∈ before ++ f :: after, P g) → P (f.addStmt s) →
      ∀ g ∈ before ++ f.addStmt s :: after, P g := by
    intro P hP hnew
    rw [List.forall_mem_append, List.forall_mem_cons] at hP ⊢
    exact ⟨hP.1, hnew, hP.2.2⟩
  exact
    { id := h.id, span := h.span, imports := h.imports, types := h.types
      functions := List.append_assoc _ _ _
      scope := by simpa [FunctionDecl.addStmt] using h.scope
      named := hall h.named (h.named f hf)
      unmarked := hall h.unmarked (h.unmarked f hf)
      fresh := hall h.fresh (h.fresh f hf)
      distinct := by simpa [FunctionDecl.addStmt] using h.distinct }

namespace Desk

/-- The unit of the desk is the one at the start with some functions more. A draft that is apart from it, and a function
that was added for a draft, has the name that the contract of the draft gives to entry points. -/
structure Orderly (start : CompilationUnit) (added : List FunctionDecl) (desk : Desk) : Prop where
  extended : start.ExtendedBy added desk.unit
  apart : ∀ {draft f}, draft ∈ desk.drafts → draft.place = .apart f →
    f.name = draft.contract.entryPointName ∧ f.symbol.name = f.name ∧ f.markers = []
  committed : ∀ {draft i}, draft ∈ desk.drafts → draft.place = .committed i →
    ∃ j f, i = start.functions.length + j ∧ added[j]? = some f ∧ f.name = draft.contract.entryPointName

variable {start : CompilationUnit} {added : List FunctionDecl} {desk : Desk}

theorem orderly_nil (start : CompilationUnit) : Orderly start [] ⟨start, []⟩ :=
  ⟨.refl start, by simp, by simp⟩

/-- What one step keeps. -/
theorem Orderly.effect (h : Orderly start added desk) {step : DraftStep}
    {result : Option (Except EntryPointError Unit) × Desk} (heffect : desk.Effect step result) :
    ∃ added', Orderly start added' result.2 := by
  cases heffect with
  | started c runtime =>
    refine ⟨added, h.extended, ?_, ?_⟩
    · intro draft f hdraft hplace
      rcases List.mem_append.mp hdraft with hdraft | hnew
      · exact h.apart hdraft hplace
      · obtain rfl := List.mem_singleton.mp hnew
        cases hplace
        exact ⟨rfl, rfl, rfl⟩
    · intro draft i hdraft hplace
      rcases List.mem_append.mp hdraft with hdraft | hnew
      · exact h.committed hdraft hplace
      · obtain rfl := List.mem_singleton.mp hnew
        cases hplace
  | refused _ => exact ⟨added, h⟩
  | @drafted k action draft f s hk hplace _ =>
    refine ⟨added, h.extended, ?_, ?_⟩
    · intro draft' g hdraft' hplace'
      rcases List.mem_or_eq_of_mem_set hdraft' with hold | rfl
      · exact h.apart hold hplace'
      · cases hplace'
        obtain ⟨hname, hsymbol, hmarkers⟩ := h.apart (List.mem_of_getElem? hk) hplace
        exact ⟨hname, hsymbol, hmarkers⟩
    · intro draft' i hdraft' hplace'
      rcases List.mem_or_eq_of_mem_set hdraft' with hold | rfl
      · exact h.committed hold hplace'
      · cases hplace'
  | @addedLate k action draft i s hk hplace _ =>
    obtain ⟨j, f, rfl, hf, -⟩ := h.committed (List.mem_of_getElem? hk) hplace
    obtain ⟨hj, -⟩ := List.getElem?_eq_some_iff.mp hf
    refine ⟨added.modify j (·.addStmt s), h.extended.addStmt hj s, h.apart, ?_⟩
    intro draft' i hdraft' hplace'
    obtain ⟨j', f', hi, hf', hname⟩ := h.committed hdraft' hplace'
    refine ⟨j', if j = j' then f'.addStmt s else f', hi, ?_, ?_⟩
    · simp [List.getElem?_modify, hf']
    · split <;> exact hname
  | @committed k draft f hk hplace hfree =>
    obtain ⟨hname, hsymbol, hmarkers⟩ := h.apart (List.mem_of_getElem? hk) hplace
    rw [hsymbol] at hfree
    refine ⟨added ++ [f], h.extended.trans (.install hsymbol hmarkers hfree), ?_, ?_⟩
    · intro draft' g hdraft' hplace'
      rcases List.mem_or_eq_of_mem_set hdraft' with hold | rfl
      · exact h.apart hold hplace'
      · cases hplace'
    · intro draft' i hdraft' hplace'
      rcases List.mem_or_eq_of_mem_set hdraft' with hold | rfl
      · obtain ⟨j, g, hi, hg, hname⟩ := h.committed hold hplace'
        obtain ⟨hj, -⟩ := List.getElem?_eq_some_iff.mp hg
        exact ⟨j, g, hi, (List.getElem?_append_left hj).trans hg, hname⟩
      · cases hplace'
        exact ⟨added.length, f, by simp [h.extended.functions], by simp, hname⟩

/-- What a run keeps. -/
theorem Orderly.run (h : Orderly start added desk) (steps : List DraftStep) :
    ∃ added', Orderly start added' (desk.run steps) := by
  induction steps generalizing desk added with
  | nil => exact ⟨added, h⟩
  | cons step steps ih =>
    obtain ⟨added', h'⟩ := h.effect (desk.effect_step step)
    exact ih h'

/-- What does not succeed changes nothing. -/
theorem Effect.eq_of_failed {step : DraftStep} {result : Option (Except EntryPointError Unit) × Desk}
    (heffect : desk.Effect step result) (hfailed : result.1 ≠ some (.ok ())) : result.2 = desk := by
  cases heffect with
  | refused _ => rfl
  | started | drafted | addedLate | committed => exact absurd rfl hfailed

/-- A draft that was committed is not touched any more. -/
theorem Effect.committed_stays {step : DraftStep} {result : Option (Except EntryPointError Unit) × Desk}
    (heffect : desk.Effect step result) {k i : Nat} {draft : Draft} (hk : desk.drafts[k]? = some draft)
    (hplace : draft.place = .committed i) : result.2.drafts[k]? = some draft := by
  -- a draft that is replaced was apart, and so was not this one
  have hother : ∀ {l : Nat} {draft' : Draft} {f : FunctionDecl}, desk.drafts[l]? = some draft' →
      draft'.place = .apart f → l ≠ k := by
    rintro l draft' f hl hapart rfl
    obtain rfl := Option.some.inj (hl.symm.trans hk)
    rw [hplace] at hapart
    cases hapart
  cases heffect with
  | started c runtime =>
    obtain ⟨hlt, -⟩ := List.getElem?_eq_some_iff.mp hk
    exact (List.getElem?_append_left hlt).trans hk
  | refused _ => exact hk
  | drafted s hl hapart _ => exact (List.getElem?_set_ne (hother hl hapart)).trans hk
  | addedLate s _ _ _ => exact hk
  | committed hl hapart _ => exact (List.getElem?_set_ne (hother hl hapart)).trans hk

theorem committed_of_ok {k : Nat} (hok : (desk.step (.act k .commit)).1 = some (.ok ())) :
    ∃ draft i, (desk.step (.act k .commit)).2.drafts[k]? = some draft ∧ draft.place = .committed i := by
  have heffect := desk.effect_step (.act k .commit)
  generalize desk.step (.act k .commit) = result at *
  cases heffect with
  | refused hresult => exact absurd hok hresult
  | drafted _ _ _ haction => exact absurd rfl haction
  | addedLate _ _ _ haction => exact absurd rfl haction
  | committed hk _ _ =>
    obtain ⟨hlt, -⟩ := List.getElem?_eq_some_iff.mp hk
    exact ⟨_, _, List.getElem?_set_self hlt, rfl⟩

theorem run_committed_stays {k i : Nat} {draft : Draft} (hk : desk.drafts[k]? = some draft)
    (hplace : draft.place = .committed i) (steps : List DraftStep) : (desk.run steps).drafts[k]? = some draft := by
  induction steps generalizing desk with
  | nil => exact hk
  | cons step steps ih => exact ih ((desk.effect_step step).committed_stays hk hplace)

end Desk

/-! ## What is seen of a unit -/

/-- The length of a text that is made of parts. -/
theorem length_intercalate (sep : Text) (parts : List Text) :
    (List.intercalate sep parts).length = (parts.map List.length).sum + sep.length * (parts.length - 1) := by
  induction parts with
  | nil => rfl
  | cons part parts ih =>
    cases parts with
    | nil => simp [List.intercalate]
    | cons next parts =>
      rw [List.intercalate_cons_cons, List.length_append, List.length_append, ih]
      simp [Nat.mul_add]
      omega

/-- More in the parts, and no fewer of them, make a longer text. -/
theorem length_intercalate_lt {sep : Text} {parts parts' : List Text} (hlength : parts.length ≤ parts'.length)
    (hsum : (parts.map List.length).sum < (parts'.map List.length).sum) :
    (List.intercalate sep parts).length < (List.intercalate sep parts').length := by
  rw [length_intercalate, length_intercalate]
  have hseps : sep.length * (parts.length - 1) ≤ sep.length * (parts'.length - 1) :=
    Nat.mul_le_mul_left _ (by omega)
  omega

theorem FunctionDecl.length_render_addStmt (qs : Qualifiers) (f : FunctionDecl) (s : Stmt) :
    (f.render qs).length < ((f.addStmt s).render qs).length := by
  refine length_intercalate_lt ?_ ?_
  · simp [addStmt]
  · have hhead : (f.addStmt s).renderHead qs = f.renderHead qs := rfl
    have hmarkers : (f.addStmt s).markers = f.markers := rfl
    have hbody : (f.addStmt s).body = f.body ++ [s] := rfl
    have hindent : ("    " : Text).length = 4 := rfl
    simp only [hhead, hmarkers, hbody, List.map_append, List.sum_append, List.map_cons, List.map_nil, List.sum_cons,
      List.length_append]
    omega

/-- A statement more in a function of the unit is seen. -/
theorem CompilationUnit.length_render_addStmt {unit : CompilationUnit} {i : Nat} (hi : i < unit.functions.length)
    (s : Stmt) :
    unit.render.length <
      (CompilationUnit.render { unit with functions := unit.functions.modify i (·.addStmt s) }).length := by
  obtain ⟨front, f, back, hfunctions, -, hmodify⟩ := List.exists_of_modify (·.addStmt s) hi
  rw [hmodify]
  unfold render
  rw [List.length_append, List.length_append, hfunctions]
  refine Nat.add_lt_add_right (length_intercalate_lt (by simp) ?_) _
  have hqs : CompilationUnit.qualifiers { unit with functions := front ++ f.addStmt s :: back } = unit.qualifiers := rfl
  have hf := f.length_render_addStmt unit.qualifiers s
  simp only [hqs, List.map_append, List.map_cons, List.sum_append, List.sum_cons]
  omega

namespace Desk

variable {start : CompilationUnit} {added : List FunctionDecl} {desk : Desk}

/-- What is seen of the unit changes with a commit and with what is added after one. -/
theorem Orderly.seen_ne_iff (h : Orderly start added desk) {step : DraftStep}
    {result : Option (Except EntryPointError Unit) × Desk} (heffect : desk.Effect step result) :
    (result.2.unit.render, result.2.unit.scope) ≠ (desk.unit.render, desk.unit.scope) ↔
      result.1 = some (.ok ()) ∧
        ∃ k action, step = .act k action ∧ (action = .commit ∨ desk.isCommitted k = true) := by
  cases heffect with
  | started c runtime => simp
  | refused hresult => simp [hresult]
  | drafted s hk hplace haction => simp [isCommitted, hk, hplace, haction]
  | @addedLate k action draft i s hk hplace haction =>
    refine iff_of_true (fun hseen => ?_) ⟨rfl, k, action, rfl, .inr (by simp [isCommitted, hk, hplace])⟩
    obtain ⟨j, f, rfl, hf, -⟩ := h.committed (List.mem_of_getElem? hk) hplace
    obtain ⟨hj, -⟩ := List.getElem?_eq_some_iff.mp hf
    have hlt : start.functions.length + j < desk.unit.functions.length := by
      rw [h.extended.functions, List.length_append]
      omega
    have hlonger := CompilationUnit.length_render_addStmt hlt s
    rw [(Prod.mk.inj hseen).1] at hlonger
    exact Nat.lt_irrefl _ hlonger
  | @committed k draft f hk hplace hfree =>
    refine iff_of_true (fun hseen => ?_) ⟨rfl, k, .commit, rfl, .inl rfl⟩
    have hsymbols := congrArg (fun scope => scope.symbols.length) (Prod.mk.inj hseen).2
    simp [CompilationUnit.install] at hsymbols

/-- A commit succeeds if the draft was not committed before and the name of its entry point is free. -/
theorem Orderly.commit_ok_iff (h : Orderly start added desk) {k : Nat} {name : Text}
    (hname : desk.entryPointName? k = some name) :
    (desk.step (.act k .commit)).1 = some (.ok ()) ↔
      desk.isCommitted k = false ∧ desk.unit.scope.contains name = false := by
  obtain ⟨draft, hk, rfl⟩ := Option.map_eq_some_iff.mp hname
  rw [step_act hk, DraftAction.build]
  cases hplace : draft.place with
  | committed i => simp [Draft.exec_commit_again hplace, isCommitted, hk, hplace]
  | apart f =>
    obtain ⟨hentry, hsymbol, -⟩ := h.apart (List.mem_of_getElem? hk) hplace
    rw [hentry] at hsymbol
    cases hfree : desk.unit.scope.contains f.symbol.name with
    | true =>
      rw [Draft.exec_commit_taken hplace hfree]
      simp [← hsymbol, hfree]
    | false =>
      rw [Draft.exec_commit hplace hfree]
      simp [← hsymbol, hfree, isCommitted, hk, hplace]

/-- What a commit does that succeeds: the unit has one function more, whose name was free and denotes it now. -/
theorem Orderly.commit_ok (h : Orderly start added desk) {k : Nat}
    (hok : (desk.step (.act k .commit)).1 = some (.ok ())) :
    ∃ f, desk.entryPointName? k = some f.name ∧ desk.unit.scope.contains f.name = false ∧
      (desk.step (.act k .commit)).2.unit = desk.unit.install f := by
  have heffect := desk.effect_step (.act k .commit)
  generalize desk.step (.act k .commit) = result at *
  cases heffect with
  | refused hresult => exact absurd hok hresult
  | drafted _ _ _ haction => exact absurd rfl haction
  | addedLate _ _ _ haction => exact absurd rfl haction
  | @committed k draft f hk hplace hfree =>
    obtain ⟨hname, hsymbol, -⟩ := h.apart (List.mem_of_getElem? hk) hplace
    exact ⟨f, by simp [entryPointName?, hk, hname], hsymbol ▸ hfree, rfl⟩

/-- What is added after a commit: one statement, at the end of the function that was added for the draft. -/
theorem Orderly.addedLate (h : Orderly start added desk) {k : Nat} {action : DraftAction} (haction : action ≠ .commit)
    (hcommitted : desk.isCommitted k = true) (hok : (desk.step (.act k action)).1 = some (.ok ())) :
    ∃ i s, start.functions.length ≤ i ∧
      desk.unit.functions[i]?.map FunctionDecl.name = desk.entryPointName? k ∧
      (desk.step (.act k action)).2.unit =
        { desk.unit with functions := desk.unit.functions.modify i (·.addStmt s) } := by
  have heffect := desk.effect_step (.act k action)
  generalize desk.step (.act k action) = result at *
  cases heffect with
  | refused hresult => exact absurd hok hresult
  | drafted _ hk hplace _ => simp [isCommitted, hk, hplace] at hcommitted
  | @addedLate k action draft i s hk hplace _ =>
    obtain ⟨j, f, rfl, hf, hname⟩ := h.committed (List.mem_of_getElem? hk) hplace
    refine ⟨_, s, Nat.le_add_right _ j, ?_, rfl⟩
    rw [h.extended.functions, List.getElem?_append_right (Nat.le_add_right _ j), Nat.add_sub_cancel_left, hf]
    simp [entryPointName?, hk, hname]
  | committed => exact absurd rfl haction

/-- A step fails if it does not succeed, where there is a draft. -/
theorem step_error {k : Nat} {draft : Draft} {action : DraftAction} (hk : desk.drafts[k]? = some draft)
    (hfailed : (desk.step (.act k action)).1 ≠ some (.ok ())) :
    ∃ e, (desk.step (.act k action)).1 = some (.error e) := by
  rw [step_act hk] at hfailed ⊢
  generalize (action.build draft).exec desk.unit = outcome at *
  rcases outcome with ⟨e | draft', unit⟩
  · exact ⟨e, rfl⟩
  · exact absurd rfl hfailed

/-- Once a draft was committed, the name of its entry point is taken. -/
theorem Orderly.contains_of_committed (h : Orderly start added desk) {k i : Nat} {draft : Draft}
    (hk : desk.drafts[k]? = some draft) (hplace : draft.place = .committed i) :
    desk.unit.scope.contains draft.contract.entryPointName = true := by
  obtain ⟨j, f, -, hf, hname⟩ := h.committed (List.mem_of_getElem? hk) hplace
  exact h.extended.contains_iff.mpr (.inr ⟨f, List.mem_of_getElem? hf, hname⟩)

end Desk

/-- However the steps on several drafts of a unit follow each other, what is seen of the unit, as text and as its scope,
changes in two ways only. A commit that succeeds adds one function and binds its name, which was free. And what is added
to a draft after its commit is one statement at the end of its function in the unit: a draft that was committed is not
apart from the unit any more. A step that fails changes nothing at all. A commit succeeds exactly if the draft was not
committed before and the name is free; so of all drafts with one name of the entry point, at most one is ever
committed, and that one once. -/
theorem commit_discipline (unit : CompilationUnit) (steps : List DraftStep) (step : DraftStep) :
    let desk := Desk.run ⟨unit, []⟩ steps
    let result := desk.step step
    (∃ added, unit.ExtendedBy added desk.unit) ∧
      ((result.2.unit.render, result.2.unit.scope) ≠ (desk.unit.render, desk.unit.scope) ↔
        result.1 = some (.ok ()) ∧
          ∃ k action, step = .act k action ∧ (action = .commit ∨ desk.isCommitted k = true)) ∧
      (∀ k, step = .act k .commit → result.1 = some (.ok ()) → ∃ f, desk.entryPointName? k = some f.name ∧
        desk.unit.scope.contains f.name = false ∧ result.2.unit = desk.unit.install f) ∧
      (∀ k action, step = .act k action → action ≠ .commit → desk.isCommitted k = true →
        result.1 = some (.ok ()) → ∃ i s, unit.functions.length ≤ i ∧
          desk.unit.functions[i]?.map FunctionDecl.name = desk.entryPointName? k ∧
          result.2.unit = { desk.unit with functions := desk.unit.functions.modify i (·.addStmt s) }) ∧
      (result.1 ≠ some (.ok ()) → result.2 = desk) ∧
      (∀ k name, step = .act k .commit → desk.entryPointName? k = some name →
        (result.1 = some (.ok ()) ↔ desk.isCommitted k = false ∧ desk.unit.scope.contains name = false)) ∧
      ∀ before more k l, steps = before ++ .act k .commit :: more →
        ((Desk.run ⟨unit, []⟩ before).step (.act k .commit)).1 = some (.ok ()) → step = .act l .commit →
        desk.entryPointName? l = desk.entryPointName? k → ∃ e, result.1 = some (.error e) := by
  intro desk result
  obtain ⟨added, h⟩ := (Desk.orderly_nil unit).run steps
  have heffect : desk.Effect step result := desk.effect_step step
  refine ⟨⟨added, h.extended⟩, h.seen_ne_iff heffect, ?_, ?_, ?_, ?_, ?_⟩
  · rintro k rfl hok
    exact h.commit_ok hok
  · rintro k action rfl haction hcommitted hok
    exact h.addedLate haction hcommitted hok
  · intro hfailed
    exact heffect.eq_of_failed hfailed
  · rintro k name rfl hname
    exact h.commit_ok_iff hname
  · rintro before more k l rfl hok rfl hnames
    -- the draft that was committed first is committed still, so that its name is taken
    obtain ⟨draft, i, hdraft, hplace⟩ := Desk.committed_of_ok hok
    have hk : desk.drafts[k]? = some draft := by
      have hrun := Desk.run_committed_stays hdraft hplace more
      simpa [desk, Desk.run] using hrun
    have hname : desk.entryPointName? l = some draft.contract.entryPointName := by
      rw [hnames, Desk.entryPointName?, hk, Option.map_some]
    obtain ⟨draft', hl, -⟩ := Option.map_eq_some_iff.mp hname
    refine Desk.step_error hl fun hagain => ?_
    have hfree := ((h.commit_ok_iff hname).mp hagain).2
    rw [h.contains_of_committed hk hplace] at hfree
    cases hfree

/-- An empty entry point is committed and then told to process events: the step is no commit, and the unit is seen to
change. -/
theorem commit_discipline_lateProcess :
    let unit : CompilationUnit := { id := ⟨"local", "main"⟩, scope := { owner := ⟨"local", "main"⟩ } }
    let runtime : Runtime := ⟨({} : Contract).runtimeSupport none, "awslambda"⟩
    let desk := Desk.run ⟨unit, []⟩ [.start {} runtime, .act 0 .commit]
    let late := desk.step (.act 0 .process)
    late.1 = some (.ok ()) ∧ desk.isCommitted 0 = true ∧
      (late.2.unit.render, late.2.unit.scope) ≠ (desk.unit.render, desk.unit.scope) := by
  intro unit runtime desk late
  have hok : late.1 = some (.ok ()) := by decide +kernel
  have hcommitted : desk.isCommitted 0 = true := by decide +kernel
  exact ⟨hok, hcommitted, (commit_discipline unit _ _).2.1.mpr ⟨hok, 0, .process, rfl, .inr hcommitted⟩⟩

end Registrar
