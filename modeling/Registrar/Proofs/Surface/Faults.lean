import Registrar.Proofs.Surface.Stuck
import Registrar.Proofs.Unit.Source

/-!
# Which fault is reported

A text that is scanned and parsed without a fault goes through *checks*: one for each literal and one for the order of
the parameters of each function. `Item.checks` lists them in the order in which they are made, and reading ends with the
error of the first that fails (`readProgram_eq_error`).

Every check looks at tokens of the text, so a fault that is found by one stands where a token stands, as do the faults
of the scanner and the parser (`isPlaceOf_of_fault`). A check that finds no fault but ends the work is that of an integer
with too many digits. `readSource_outcome` draws the conclusions for whole sources.
-/

namespace Registrar.Surface

/-! ## Checks -/

/-- What is looked at when a parsed text is read. -/
inductive Check where
  /-- A literal that stands at a place. -/
  | literal (raw : Raw) (position : Position)
  /-- The order of the parameters of a function. -/
  | order (params : List (Param Raw))

/-- Why a check fails, if it does. -/
def Check.error? : Check → Option ReadError
  | .literal (.int digits) _ =>
    if integerLimit < digits.length then some (.integerTooLong digits.length) else none
  | .literal (.str spelling) p =>
    match Literal.decode (spelling.drop 1).dropLast with
    | .ok _ => none
    | .error c => some (.fault (.badEscape c p))
  | .literal _ _ => none
  | .order params => (orderFault? false params).map .fault

mutual
/-- The checks of an expression. -/
def Expr.checks : Expr Raw → List Check
  | .literal raw p => [.literal raw p]
  | .name _ => []
  | .call _ args => Expr.checksAll args

/-- The checks of expressions in a row. -/
def Expr.checksAll : List (Expr Raw) → List Check
  | [] => []
  | e :: es => Expr.checks e ++ Expr.checksAll es
end

/-- The checks of a statement. -/
def Stmt.checks : Stmt Raw → List Check
  | .ret none _ => []
  | .ret (some e) _ => e.checks
  | .expr e _ => e.checks

/-- The checks of a parameter: those of its default. -/
def Param.checks (p : Param Raw) : List Check :=
  match p.kind with
  | .defaultable e => e.checks
  | _ => []

/-- The checks of a function: those of its parameters, those of its body, and last the order of its parameters. -/
def Function.checks (f : Function Raw) : List Check :=
  f.params.flatMap Param.checks ++ (f.body.flatMap Stmt.checks ++ [.order f.params])

/-- The checks of an item. -/
def Item.checks : Item Raw → List Check
  | .function f => f.checks
  | _ => []

/-! ## Reading ends as the checks say -/

/-- Work that ends with the error of the first of some checks that fails, and without one if none does. -/
def EndsAs {α : Type} (r : Except ReadError α) (checks : List Check) : Prop :=
  ∀ e, r = .error e ↔ checks.findSome? Check.error? = some e

namespace EndsAs

variable {α β : Type} {r : Except ReadError α} {checks more : List Check}

theorem ok (a : α) : EndsAs (.ok a) [] := fun e => by simp

theorem bind {g : α → Except ReadError β} (h : EndsAs r checks) (hg : ∀ a, r = .ok a → EndsAs (g a) more) :
    EndsAs (r >>= g) (checks ++ more) := by
  intro e
  rw [List.findSome?_append, bind_eq_error, Option.or_eq_some_iff]
  cases hr : r with
  | error e' =>
    have hfirst := (h e').mp hr
    simp [hfirst]
  | ok a =>
    have hnone : checks.findSome? Check.error? = none := by
      refine Option.eq_none_iff_forall_ne_some.mpr fun e' he' => ?_
      have hfail := (h e').mpr he'
      rw [hr] at hfail
      cases hfail
    simp [hnone, hg a hr e]

/-- Work whose result is put into something larger. -/
theorem andThen (h : EndsAs r checks) (f : α → β) : EndsAs (r >>= fun a => .ok (f a)) checks := by
  have hbind := h.bind fun a _ => ok (f a)
  rwa [List.append_nil] at hbind

theorem mapM {f : α → Except ReadError β} {checks : α → List Check} {as : List α}
    (h : ∀ a ∈ as, EndsAs (f a) (checks a)) : EndsAs (as.mapM f) (as.flatMap checks) := by
  induction as with
  | nil => exact ok []
  | cons a as ih =>
    rw [List.mapM_cons, List.flatMap_cons]
    refine (h a List.mem_cons_self).bind fun b _ => ?_
    exact (ih fun a' ha' => h a' (List.mem_cons_of_mem a ha')).andThen (b :: ·)

end EndsAs

theorem Raw.value_endsAs (raw : Raw) (p : Position) : EndsAs (raw.value p) [.literal raw p] := by
  intro e
  rw [List.findSome?_singleton]
  cases raw with
  | nil => simp [Raw.value, Check.error?]
  | bool b => simp [Raw.value, Check.error?]
  | int digits =>
    rw [Raw.value, Check.error?]
    by_cases hlong : integerLimit < digits.length
    · simp [hlong]
    · simp [hlong]
  | str spelling =>
    rw [Raw.value, Check.error?]
    cases Literal.decode (spelling.drop 1).dropLast <;> simp

mutual
theorem Expr.read_endsAs : (e : Expr Raw) → EndsAs e.read e.checks
  | .literal raw p => by
    rw [Expr.read, Expr.checks]
    exact (raw.value_endsAs p).andThen (Expr.literal · p)
  | .name n => by
    rw [Expr.read, Expr.checks]
    exact .ok _
  | .call n args => by
    rw [Expr.read, Expr.checks]
    exact (Expr.readAll_endsAs args).andThen (Expr.call n)

theorem Expr.readAll_endsAs : (es : List (Expr Raw)) → EndsAs (Expr.readAll es) (Expr.checksAll es)
  | [] => by
    rw [Expr.readAll, Expr.checksAll]
    exact .ok _
  | e :: es => by
    rw [Expr.readAll, Expr.checksAll]
    exact (Expr.read_endsAs e).bind fun v _ => (Expr.readAll_endsAs es).andThen (v :: ·)
end

theorem Stmt.read_endsAs (s : Stmt Raw) : EndsAs s.read s.checks := by
  rcases s with ⟨_ | e, p⟩ | ⟨e, p⟩
  · exact .ok _
  · exact e.read_endsAs.andThen fun v => Stmt.ret (some v) p
  · exact e.read_endsAs.andThen fun v => Stmt.expr v p

theorem Param.read_endsAs (q : Param Raw) : EndsAs q.read q.checks := by
  obtain ⟨name, p, type, kind⟩ := q
  cases kind with
  | required => exact .ok _
  | rest => exact .ok _
  | defaultable e => exact e.read_endsAs.andThen fun v => Param.mk name p type (.defaultable v)

/-- What is read of a parameter is in order if the parameter is: only its default changes. -/
theorem orderFault?_read {qs : List (Param Raw)} {ps : List (Param Value)}
    (h : List.Forall₂ (fun q p => q.read = .ok p) qs ps) (seen : Bool) : orderFault? seen ps = orderFault? seen qs := by
  induction h generalizing seen with
  | nil => rfl
  | @cons q p qs ps hread hs ih =>
    obtain ⟨name, position, type, kind⟩ := q
    have hempty : ps.isEmpty = qs.isEmpty := by
      cases hs <;> rfl
    cases kind with
    | required =>
      obtain rfl := Except.ok.inj hread
      simp only [orderFault?, ih]
    | rest =>
      obtain rfl := Except.ok.inj hread
      simp only [orderFault?, hempty]
    | defaultable e =>
      obtain ⟨v, -, hread⟩ := bind_eq_ok.mp hread
      obtain rfl := Except.ok.inj hread
      simp only [orderFault?, ih]

theorem Function.read_endsAs (f : Function Raw) : EndsAs f.read f.checks := by
  refine (EndsAs.mapM fun q _ => q.read_endsAs).bind fun params hparams => ?_
  refine (EndsAs.mapM fun s _ => s.read_endsAs).bind fun body _ => ?_
  intro e
  rw [orderFault?_read (mapM_eq_ok.mp hparams), List.findSome?_singleton, Check.error?]
  cases orderFault? false f.params with
  | none => simp [pure, Except.pure]
  | some fault => simp

theorem Item.read_endsAs (item : Item Raw) : EndsAs item.read item.checks := by
  cases item with
  | use i => exact .ok _
  | record r => exact .ok _
  | function f => exact f.read_endsAs.andThen Item.function

/-- The error of the first check of some items that fails. -/
def firstError? (items : List (Item Raw)) : Option ReadError :=
  (items.flatMap Item.checks).findSome? Check.error?

/-- A text is refused with the fault of the scanner or the parser, and otherwise with the error of the first check that
fails. -/
theorem readProgram_eq_error {source : Text} {e : ReadError} :
    readProgram source = .error e ↔
      (∃ fault, parse source = .error fault ∧ e = .fault fault) ∨
        ∃ items, parse source = .ok items ∧ firstError? items = some e := by
  unfold readProgram firstError?
  cases parse source with
  | error fault => simp [eq_comm]
  | ok items =>
    have hends : EndsAs (items.mapM Item.read) (items.flatMap Item.checks) := .mapM fun item _ => item.read_endsAs
    simp [map_eq_error, hends e]

/-- A text gives a program exactly if it is parsed and no check fails. -/
theorem exists_readProgram_iff {source : Text} :
    (∃ program, readProgram source = .ok program) ↔ ∃ items, parse source = .ok items ∧ firstError? items = none := by
  constructor
  · rintro ⟨program, hread⟩
    obtain ⟨items, -, hparse, -, -⟩ := readProgram_eq_ok.mp hread
    refine ⟨items, hparse, Option.eq_none_iff_forall_ne_some.mpr fun e hfirst => ?_⟩
    have herror := readProgram_eq_error.mpr (.inr ⟨items, hparse, hfirst⟩)
    rw [hread] at herror
    cases herror
  · rintro ⟨items, hparse, hnone⟩
    cases hread : readProgram source with
    | ok program => exact ⟨program, rfl⟩
    | error e =>
      rcases readProgram_eq_error.mp hread with ⟨fault, hfault, -⟩ | ⟨items', hparse', hfirst⟩
      · rw [hparse] at hfault
        cases hfault
      · obtain rfl := Except.ok.inj (hparse.symm.trans hparse')
        rw [hnone] at hfirst
        cases hfirst

/-! ## Checks look at tokens -/

/-- The tokens that a check looks at are among some. -/
def Check.On (ts : List Token) : Check → Prop
  | .literal (.int digits) p => ⟨.int, digits, p⟩ ∈ ts
  | .literal (.str spelling) p => ⟨.string, spelling, p⟩ ∈ ts
  | .literal _ _ => True
  | .order params => ∀ q ∈ params, ⟨.name, q.name, q.position⟩ ∈ ts

theorem Check.On.mono {ts us : List Token} (hsub : us ⊆ ts) {c : Check} (h : c.On us) : c.On ts := by
  match c, h with
  | .literal (.int _) _, h => exact hsub h
  | .literal (.str _) _, h => exact hsub h
  | .literal .nil _, _ => trivial
  | .literal (.bool _) _, _ => trivial
  | .order _, h => exact fun q hq => hsub (h q hq)

mutual
theorem ExprTokens.checks_on : {ts : List Token} → {e : Expr Raw} → ExprTokens ts e → ∀ c ∈ e.checks, c.On ts
  | _, _, .string => by
    rw [Expr.checks, List.forall_mem_singleton]
    exact List.mem_singleton_self _
  | _, _, .int => by
    rw [Expr.checks, List.forall_mem_singleton]
    exact List.mem_singleton_self _
  | _, _, .yes => by
    rw [Expr.checks, List.forall_mem_singleton]
    trivial
  | _, _, .no => by
    rw [Expr.checks, List.forall_mem_singleton]
    trivial
  | _, _, .nil => by
    rw [Expr.checks, List.forall_mem_singleton]
    trivial
  | _, _, .name _ => by simp [Expr.checks]
  | _, _, .callNone _ => by simp [Expr.checks, Expr.checksAll]
  | _, _, @ExprTokens.call ts us n es s s₁ p p₁ _ hs => by
    intro c hc
    rw [Expr.checks] at hc
    refine (ArgsTokens.checks_on hs c hc).mono fun t ht => ?_
    exact List.mem_append_right ts (List.mem_cons_of_mem _ (List.mem_append_left _ ht))

theorem ArgsTokens.checks_on : {ts : List Token} → {es : List (Expr Raw)} → ArgsTokens ts es →
    ∀ c ∈ Expr.checksAll es, c.On ts
  | _, _, .one h => by
    rw [Expr.checksAll, Expr.checksAll, List.append_nil]
    exact ExprTokens.checks_on h
  | _, _, @ArgsTokens.more ts us e es s p h hs => by
    rw [Expr.checksAll, List.forall_mem_append]
    refine ⟨fun c hc => ?_, fun c hc => ?_⟩
    · exact (ExprTokens.checks_on h c hc).mono (List.subset_append_left ts _)
    · exact (ArgsTokens.checks_on hs c hc).mono
        (List.subset_append_of_subset_right ts (List.subset_cons_self _ us))
end

theorem StmtTokens.checks_on {ts : List Token} {s : Stmt Raw} (h : StmtTokens ts s) : ∀ c ∈ s.checks, c.On ts := by
  intro c hc
  cases h with
  | retNone => simp [Stmt.checks] at hc
  | ret h => exact (h.checks_on c hc).mono fun t ht => List.mem_cons_of_mem _ (List.mem_append_left _ ht)
  | @expr t ts e s p h => exact (h.checks_on c hc).mono (List.subset_append_left (t :: ts) _)

theorem ParamTokens.checks_on {ts : List Token} {q : Param Raw} (h : ParamTokens ts q) :
    ⟨.name, q.name, q.position⟩ ∈ ts ∧ ∀ c ∈ q.checks, c.On ts := by
  cases h with
  | required h => simp [Param.checks]
  | rest h => simp [Param.checks]
  | @defaultable ts us t e n s p p₁ _ he =>
    refine ⟨by simp, fun c hc => (he.checks_on c hc).mono fun t ht => ?_⟩
    exact List.mem_append_right ts (List.mem_cons_of_mem _ (List.mem_cons_of_mem _ ht))

theorem FunctionTokens.checks_on {ts : List Token} {f : Function Raw} (h : FunctionTokens ts f) :
    ∀ c ∈ f.checks, c.On ts := by
  cases h with
  | @mk tags visibility us as isPublic bare _ _ hf =>
    have hus : us ⊆ tags ++ (visibility ++ us) := fun t ht =>
      List.mem_append_right tags (List.mem_append_right visibility ht)
    cases hf with
    | @mk params returns block ps r body s n s₁ s₂ p p₁ p₂ p₃ hp hr hb =>
      cases hb with
      | @mk stmts _ s₃ s₄ p₄ p₅ hs =>
        have hparam : ∀ q ∈ ps, ∃ vs, vs ⊆ params ∧ ParamTokens vs q := by
          intro q hq
          cases hp with
          | none => simp at hq
          | some hlist => exact hlist.exists_of_mem hq
        intro c hc
        refine Check.On.mono hus ?_
        simp only [Function.checks, List.mem_append, List.mem_flatMap, List.mem_singleton] at hc
        rcases hc with ⟨q, hq, hc⟩ | ⟨t, ht, hc⟩ | rfl
        · obtain ⟨vs, hvs, htokens⟩ := hparam q hq
          exact (htokens.checks_on.2 c hc).mono fun t ht => by simp [hvs ht]
        · obtain ⟨vs, hvs, htokens⟩ := hs.exists_of_mem ht
          exact (htokens.checks_on c hc).mono fun t ht => by simp [hvs ht]
        · intro q hq
          obtain ⟨vs, hvs, htokens⟩ := hparam q hq
          simp [hvs htokens.checks_on.1]

theorem ItemTokens.checks_on {ts : List Token} {item : Item Raw} (h : ItemTokens ts item) :
    ∀ c ∈ item.checks, c.On ts := by
  cases h with
  | use h => simp [Item.checks]
  | record h => simp [Item.checks]
  | function h => exact h.checks_on

/-- The check that decides is one that fails, and it looks at tokens of the text. -/
theorem exists_check {source : Text} {items : List (Item Raw)} {e : ReadError} (hparse : parse source = .ok items)
    (h : firstError? items = some e) :
    ∃ c : Check, c.On (scan source).tokens ∧ c.error? = some e := by
  obtain ⟨c, hc, herror⟩ := List.exists_of_findSome?_eq_some h
  obtain ⟨item, hitem, hc⟩ := List.mem_flatMap.mp hc
  obtain ⟨us, hus, htokens⟩ := (parse_sound hparse).exists_of_mem hitem
  exact ⟨c, (htokens.checks_on c hc).mono hus, herror⟩

/-- A parameter that is out of order is named where it stands. -/
theorem position_of_orderFault? {L : Type} {seen : Bool} {ps : List (Param L)} {fault : SourceFault}
    (h : orderFault? seen ps = some fault) : ∃ q ∈ ps, fault.position = q.position := by
  induction ps generalizing seen with
  | nil => simp [orderFault?] at h
  | cons q ps ih =>
    have hlater : ∀ {seen}, orderFault? seen ps = some fault → ∃ q' ∈ q :: ps, fault.position = q'.position := by
      intro seen h
      obtain ⟨q', hq', hposition⟩ := ih h
      exact ⟨q', List.mem_cons_of_mem q hq', hposition⟩
    rw [orderFault?] at h
    cases hk : q.kind with
    | required =>
      simp only [hk] at h
      split at h
      · obtain rfl := Option.some.inj h
        exact ⟨q, List.mem_cons_self, rfl⟩
      · exact hlater h
    | defaultable e =>
      simp only [hk] at h
      exact hlater h
    | rest =>
      simp only [hk] at h
      split at h
      · simp at h
      · obtain rfl := Option.some.inj h
        exact ⟨q, List.mem_cons_self, rfl⟩

/-- A fault that a check finds stands where a token stands. -/
theorem Check.position_of_fault {ts : List Token} {c : Check} (hc : c.On ts) {fault : SourceFault}
    (h : c.error? = some (.fault fault)) : ∃ t ∈ ts, fault.position = t.position := by
  match c, hc, h with
  | .literal (.int digits) p, _, h =>
    rw [Check.error?] at h
    split at h <;> simp at h
  | .literal (.str spelling) p, hc, h =>
    rw [Check.error?] at h
    split at h
    · simp at h
    · obtain rfl := ReadError.fault.inj (Option.some.inj h)
      exact ⟨_, hc, rfl⟩
  | .literal .nil _, _, h => simp [Check.error?] at h
  | .literal (.bool _) _, _, h => simp [Check.error?] at h
  | .order params, hc, h =>
    obtain ⟨fault', horder, hfault⟩ := Option.map_eq_some_iff.mp h
    obtain rfl := ReadError.fault.inj hfault
    obtain ⟨q, hq, hposition⟩ := position_of_orderFault? horder
    exact ⟨_, hc q hq, hposition⟩

/-- A check that ends the work looks at an integer with too many digits. -/
theorem Check.integer_of_tooLong {ts : List Token} {c : Check} (hc : c.On ts) {digits : Nat}
    (h : c.error? = some (.integerTooLong digits)) :
    integerLimit < digits ∧ ∃ t ∈ ts, t.terminal = .int ∧ t.text.length = digits := by
  match c, hc, h with
  | .literal (.int spelled) p, hc, h =>
    rw [Check.error?] at h
    split at h
    · next hlong =>
      obtain rfl := ReadError.integerTooLong.inj (Option.some.inj h)
      exact ⟨hlong, _, hc, rfl, rfl⟩
    · simp at h
  | .literal (.str spelling) p, _, h =>
    rw [Check.error?] at h
    split at h <;> simp at h
  | .literal .nil _, _, h => simp [Check.error?] at h
  | .literal (.bool _) _, _, h => simp [Check.error?] at h
  | .order params, _, h => simp [Check.error?] at h

/-! ## Places of faults -/

/-- A position is a place of a text. -/
def IsPlaceOf (source : Text) (p : Position) : Prop := ∃ rest, source.ReadsAt .start p rest

theorem isPlaceOf_token {source : Text} {t : Token} (h : t ∈ (scan source).tokens) : IsPlaceOf source t.position := by
  obtain ⟨after, hreads⟩ := (readsAt_scanFrom .start source).1 t h
  exact ⟨_, hreads⟩

/-- The token at which a parser is stuck stands at a place of the text. The end of the text counts as one more token
where the last one stands. -/
theorem isPlaceOf_found {source : Text} {stuck : Stuck} (h : items (scan source).tokens = .error stuck) :
    IsPlaceOf source (stuck.found (scan source).tokens).position := by
  have hsuffix := items_stuck h
  unfold Stuck.found
  cases hrest : stuck.rest with
  | cons t rest =>
    rw [hrest] at hsuffix
    exact isPlaceOf_token (hsuffix.subset List.mem_cons_self)
  | nil =>
    cases hlast : (scan source).tokens.getLast? with
    | none => exact ⟨source, [], rfl, rfl⟩
    | some t =>
      show IsPlaceOf source t.position
      exact isPlaceOf_token (List.mem_of_getLast? hlast)

theorem isPlaceOf_parse {source : Text} {fault : SourceFault} (h : parse source = .error fault) :
    IsPlaceOf source fault.position := by
  have hlexical : ∀ lexical, (scan source).fault = some lexical → IsPlaceOf source lexical.position :=
    fun lexical hlexical => ⟨_, (readsAt_scanFrom .start source).2 lexical hlexical⟩
  unfold parse at h
  dsimp only at h
  split at h
  · simp at h
  · next hfault =>
    obtain rfl := Except.error.inj h
    exact hlexical _ hfault
  · next hitems hfault =>
    split at h
    · obtain rfl := Except.error.inj h
      exact hlexical _ hfault
    · obtain rfl := Except.error.inj h
      exact isPlaceOf_found hitems
  · next hitems _ =>
    obtain rfl := Except.error.inj h
    exact isPlaceOf_found hitems

/-- Every fault of a text stands at a place of it. -/
theorem isPlaceOf_of_fault {source : Text} {fault : SourceFault} (h : readProgram source = .error (.fault fault)) :
    IsPlaceOf source fault.position := by
  rcases readProgram_eq_error.mp h with ⟨fault', hparse, hfault⟩ | ⟨items, hparse, hfirst⟩
  · obtain rfl := ReadError.fault.inj hfault
    exact isPlaceOf_parse hparse
  · obtain ⟨c, hc, herror⟩ := exists_check hparse hfirst
    obtain ⟨t, ht, hposition⟩ := Check.position_of_fault hc herror
    rw [hposition]
    exact isPlaceOf_token ht

/-! ## Integers that can be read -/

/-- Whether reading did not stop at an integer. -/
def Stopless {α : Type} (r : Except ReadError α) : Prop := ∀ digits, r ≠ .error (.integerTooLong digits)

/-- Whether no integer among the tokens has too many digits. -/
def IntegersFit (ts : List Token) : Prop := ∀ t ∈ ts, t.terminal = .int → t.text.length ≤ integerLimit

/-- Where reading stops, an integer among the tokens has too many digits. -/
theorem integer_of_tooLong {source : Text} {digits : Nat} (h : readProgram source = .error (.integerTooLong digits)) :
    integerLimit < digits ∧ ∃ t ∈ (scan source).tokens, t.terminal = .int ∧ t.text.length = digits := by
  rcases readProgram_eq_error.mp h with ⟨fault, -, hfault⟩ | ⟨items, hparse, hfirst⟩
  · cases hfault
  · obtain ⟨c, hc, herror⟩ := exists_check hparse hfirst
    exact Check.integer_of_tooLong hc herror

/-- A text without integers that are too long is read to its end or has a fault. -/
theorem readProgram_stopless {source : Text} (hfit : IntegersFit (scan source).tokens) :
    Stopless (readProgram source) := by
  intro digits h
  obtain ⟨hlong, t, ht, hint, hlen⟩ := integer_of_tooLong h
  have hle := hfit t ht hint
  omega

/-! ## Sources -/

/-- A diagnostic of the parser: an error at a place of the text of a file. -/
structure PointsInto (file : Option Text) (source : Text) (d : Diagnostic) : Prop where
  phase : d.phase = some "parser"
  isError : d.isError = true
  file : d.span.file = file
  place : ∃ p, IsPlaceOf source p ∧ d.span.line = some (p.line : Int) ∧ d.span.column = some (p.column : Int)

/-- A source gives a program and nothing to report exactly if it is parsed and no check fails. Reading stops exactly
where the first check that fails is that of an integer with too many digits, which takes such an integer among the
tokens. In all other cases there is no program and one error of the parser, at a place of the text. Nothing depends on
how deep expressions are nested: the recursion has no limit. -/
theorem readSource_outcome (file : Option Text) (source : Text) :
    ((∃ program, readSource file source = .ok (some program, [])) ↔
      ∃ items, parse source = .ok items ∧ firstError? items = none) ∧
    (∀ digits, readSource file source = .error digits ↔
      ∃ items, parse source = .ok items ∧ firstError? items = some (.integerTooLong digits)) ∧
    (∀ digits, readSource file source = .error digits →
      integerLimit < digits ∧ ∃ t ∈ (scan source).tokens, t.terminal = .int ∧ t.text.length = digits) ∧
    ∀ said, readSource file source = .ok said →
      (∃ program, said = (some program, [])) ∨ ∃ d, said = (none, [d]) ∧ PointsInto file source d := by
  have hgives : ∀ program, readSource file source = .ok (some program, []) ↔ readProgram source = .ok program := by
    intro program
    unfold readSource
    split <;> simp_all
  have hstop : ∀ digits, readSource file source = .error digits ↔
      readProgram source = .error (.integerTooLong digits) := by
    intro digits
    unfold readSource
    split <;> simp_all
  refine ⟨?_, fun digits => ?_, fun digits h => integer_of_tooLong ((hstop digits).mp h), fun said hsaid => ?_⟩
  · simp only [hgives, exists_readProgram_iff]
  · rw [hstop, readProgram_eq_error]
    simp
  · unfold readSource at hsaid
    split at hsaid
    · next program _ => exact .inl ⟨program, (Except.ok.inj hsaid).symm⟩
    · next fault hfault =>
      refine .inr ⟨fault.diagnostic file, (Except.ok.inj hsaid).symm, rfl, rfl, rfl, fault.position, ?_, rfl, rfl⟩
      exact isPlaceOf_of_fault hfault
    · cases hsaid

/-- A function that returns an integer is parsed, whatever the number of digits is. -/
theorem parse_returning {digits : Text} (h : digits.isNumeral = true) :
    ∃ p p₁ p₂, parse ("function " ++ ("f(" ++ ((")" ++ "\x7breturn ") ++ (digits ++ ";\x7d")))) =
      .ok [.function ⟨"f", p, [], false, [], none, [.ret (some (.literal (.int digits) p₁)) p₂]⟩] := by
  have hfunction : Lexes Anything "function " (OneToken .kwFunction "function") :=
    (Lexes.word (by decide) : Lexes Breaks "function" (OneToken .kwFunction "function")).thenSpace
  have hname : Lexes Anything "f(" (Then (OneToken .name "f") (OneToken .lparen "(")) :=
    (Lexes.name (by decide) : Lexes Breaks "f" (OneToken .name "f")).broken Lexes.lparen rfl rfl
  have hreturn : Lexes Anything "return " (OneToken .kwReturn "return") :=
    (Lexes.word (by decide) : Lexes Breaks "return" (OneToken .kwReturn "return")).thenSpace
  have hopen : Lexes Anything "\x7breturn " (Then (OneToken .lbrace "\x7b") (OneToken .kwReturn "return")) :=
    (Lexes.sign rfl (by decide) : Lexes Anything "\x7b" (OneToken .lbrace "\x7b")).followed hreturn
  have hclose : Lexes Anything ";\x7d" (Then (OneToken .semicolon ";") (OneToken .rbrace "\x7d")) :=
    Lexes.semicolon.followed (Lexes.sign rfl (by decide))
  obtain ⟨tokens, htokens, hscan⟩ := (hfunction.followed (hname.followed ((Lexes.rparen.followed hopen).followed
    ((Lexes.numeral h).broken hclose rfl rfl)))).scan_eq trivial
  obtain ⟨_, _, ⟨p₀, rfl⟩, ⟨_, _, ⟨_, _, ⟨p, rfl⟩, ⟨p₃, rfl⟩, rfl⟩, ⟨_, _, ⟨_, _, ⟨p₄, rfl⟩, ⟨_, _, ⟨p₅, rfl⟩, ⟨p₂, rfl⟩,
    rfl⟩, rfl⟩, ⟨_, _, ⟨p₁, rfl⟩, ⟨_, _, ⟨p₆, rfl⟩, ⟨p₇, rfl⟩, rfl⟩, rfl⟩, rfl⟩, rfl⟩, rfl⟩ := htokens
  have hbody : BareTokens false (⟨.kwFunction, "function", p₀⟩ :: ⟨.name, "f", p⟩ :: ⟨.lparen, "(", p₃⟩ :: ([] ++
      ⟨.rparen, ")", p₄⟩ :: ([] ++ ⟨.lbrace, "\x7b", p₅⟩ :: ((⟨.kwReturn, "return", p₂⟩ :: ([⟨.int, digits, p₁⟩] ++
        [⟨.semicolon, ";", p₆⟩])) ++ [] ++ [⟨.rbrace, "\x7d", p₇⟩]))))
      ⟨"f", p, [], false, [], none, [.ret (some (.literal (.int digits) p₁)) p₂]⟩ :=
    .mk .none .none (.mk (.cons (.ret .int) .nil))
  have hitems := RowTokens.cons (ItemTokens.function (.mk .nil .no hbody)) .nil
  exact ⟨p, p₁, p₂, parse_complete hscan hitems⟩

/-- Reading stops at an integer with one digit too many. -/
theorem readSource_outcome_longInteger :
    readSource none ("function " ++ ("f(" ++ ((")" ++ "\x7breturn ") ++
      ((List.replicate (integerLimit + 1) (.scalar '7') : Text) ++ ";\x7d")))) = .error (integerLimit + 1) := by
  have hnumeral : Text.isNumeral (List.replicate (integerLimit + 1) (.scalar '7')) = true := by
    rw [Text.isNumeral_iff]
    refine ⟨List.cons_ne_nil _ _, fun c hc => ?_⟩
    rw [List.eq_of_mem_replicate hc]
    rfl
  obtain ⟨p, p₁, p₂, hparse⟩ := parse_returning hnumeral
  refine ((readSource_outcome none _).2.1 _).mpr ⟨_, hparse, ?_⟩
  simp [firstError?, Item.checks, Function.checks, Stmt.checks, Expr.checks, Check.error?]

end Registrar.Surface
