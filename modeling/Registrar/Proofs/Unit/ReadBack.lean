import Registrar.Proofs.Token.Lexer
import Registrar.Proofs.Unit.Writes

/-!
# Reading what was written

The literals of a written tree are read back exactly if no text among them has a code point that is written by a refused
escape. What is read is then the tree by which the printer writes the values themselves.
-/

namespace Registrar

open Surface (TypeExpr Raw SourceFault)

/-! ## Values -/

namespace Value

/-- An integer is written by digits that are not too many. -/
def spelled : Value → Bool
  | .int (.ofNat k) => decide ((Text.ofNat k).length ≤ Surface.integerLimit)
  | .int (.negSucc _) => false
  | _ => true

/-- A text has neither of the code points that are written by refused escapes. -/
def readable : Value → Bool
  | .str t => !t.contains (.scalar '\x08') && !t.contains (.scalar '\x0c')
  | _ => true

theorem spelled_int {n : Int} :
    (Value.int n).spelled = true ↔ ∃ k : Nat, n = k ∧ (Text.ofNat k).length ≤ Surface.integerLimit := by
  cases n with
  | ofNat k =>
    constructor
    · exact fun h => ⟨k, rfl, of_decide_eq_true h⟩
    · rintro ⟨m, hm, hlen⟩
      obtain rfl := Int.ofNat.inj hm
      exact decide_eq_true hlen
  | negSucc k =>
    simp only [spelled, Bool.false_eq_true, false_iff]
    rintro ⟨m, hm, -⟩
    omega

/-- The spelling of a value is read as the value, or not at all. -/
theorem raw_value_eq_ok {v w : Value} (h : v.spelled = true) {p : Position} :
    v.raw.value p = .ok w ↔ w = v ∧ v.readable = true := by
  cases v with
  | nil => simp [raw, Raw.value, readable, eq_comm]
  | bool b => simp [raw, Raw.value, readable, eq_comm]
  | int n =>
    obtain ⟨k, rfl, hk⟩ := spelled_int.mp h
    have hvalue : Raw.value p (.int (Text.ofNat k)) = .ok (.int (Text.decimalValue (Text.ofNat k))) :=
      if_neg (Nat.not_lt.mpr hk)
    rw [Text.decimalValue_ofNat] at hvalue
    show Raw.value p (.int (Text.ofNat k)) = .ok w ↔ _
    simp [hvalue, readable, eq_comm]
  | str t =>
    simp only [raw, Raw.value, Literal.inside_encode]
    have hdecode := fun u => @Literal.decode_encode_eq_ok t u
    cases hd : Literal.decode (t.flatMap Literal.encodePoint) with
    | ok u =>
      obtain ⟨rfl, hb, hf⟩ := (hdecode u).mp hd
      simp [readable, hb, hf, eq_comm]
    | error c =>
      simp only [reduceCtorEq, false_iff, not_and]
      rintro rfl hread
      have hok := (hdecode t).mpr ⟨rfl, by simpa [readable] using hread⟩
      rw [hd] at hok
      simp at hok

/-- A string, surrogates and all, is printed as one token. The token reads as the string exactly if the string has
neither a backspace nor a form feed. Otherwise the fault names the escape that is printed for the first of them. -/
theorem read_printed_string (s : Text) (type : Ty) (span : Span) (p : Position) :
    ∃ printed, (Expr.literal (.str s) type span).render = printed ∧
      scan printed = ⟨[⟨.string, printed, .start⟩], none⟩ ∧
      (∀ v, Raw.value p (.str printed) = .ok v ↔ v = .str s ∧ .scalar '\x08' ∉ s ∧ .scalar '\x0c' ∉ s) ∧
      ∀ e, Raw.value p (.str printed) = .error e ↔
        ∃ before c after letter, s = before ++ c :: after ∧ (.scalar '\x08' ∉ before ∧ .scalar '\x0c' ∉ before) ∧
          (c = .scalar '\x08' ∨ c = .scalar '\x0c') ∧ Literal.encodePoint c = [.scalar '\\', letter] ∧
          e = .fault (.badEscape letter p) ∧
          (SourceFault.badEscape letter p).message =
            "invalid escape sequence '" ++ Literal.encodePoint c ++ "' in string literal" := by
  refine ⟨Literal.encode s, rfl, ?_, fun v => ?_, fun e => ?_⟩
  · have hread := Lexeme.read?_string s []
    rw [List.append_nil] at hread
    rw [scan, scanFrom_of_read? hread, scanFrom, if_pos rfl]
    rfl
  · have hok : Raw.value p (.str (Literal.encode s)) = .ok v ↔ _ := raw_value_eq_ok (v := .str s) rfl
    simpa [readable] using hok
  · have herror : Raw.value p (.str (Literal.encode s)) = .error e ↔
        ∃ letter, Literal.decode (s.flatMap Literal.encodePoint) = .error letter ∧ e = .fault (.badEscape letter p) := by
      simp only [Raw.value, Literal.inside_encode]
      cases Literal.decode (s.flatMap Literal.encodePoint) <;> simp [eq_comm]
    rw [herror]
    constructor
    · rintro ⟨letter, hdecode, rfl⟩
      obtain ⟨before, c, after, hs, hbefore, hrefused⟩ := Literal.decode_encode_eq_error.mp hdecode
      obtain ⟨hc, hprinted⟩ := Literal.refusedEscape?_eq_some.mp hrefused
      refine ⟨before, c, after, letter, hs, hbefore, hc, hprinted, rfl, ?_⟩
      have hslash : ("invalid escape sequence '\\" : Text) = ("invalid escape sequence '" : Text) ++ [.scalar '\\'] :=
        rfl
      rw [SourceFault.message, hslash, hprinted, List.append_assoc _ [_] [_]]
      rfl
    · rintro ⟨before, c, after, letter, hs, hbefore, hc, hprinted, rfl, -⟩
      have hrefused := Literal.refusedEscape?_eq_some.mpr ⟨hc, hprinted⟩
      exact ⟨letter, Literal.decode_encode_eq_error.mpr ⟨before, c, after, hs, hbefore, hrefused⟩, rfl⟩

end Value

/-! ## Expressions and statements -/

namespace Expr

/-- Whether the printer writes tokens of the right spelling here, the parts of the expression aside. -/
def spelled : Expr → Bool
  | .literal v _ _ => v.spelled
  | .ref n _ _ _ => n.isName
  | .call n _ _ _ q _ => n.isName && q.all Text.isName

/-- Whether the literal that stands here, if there is one, is read back. -/
def readable : Expr → Bool
  | .literal v _ _ => v.readable
  | _ => true

end Expr

/-- The expressions that are written in a function, with all their parts: those of its body and of the defaults of its
parameters. A rest parameter has none. -/
def FunctionDecl.written (f : FunctionDecl) : List Expr :=
  Expr.partsAll (f.body.filterMap Stmt.expr? ++ (f.required ++ f.defaultable).filterMap Param.default)

theorem FunctionDecl.forall_mem_written {f : FunctionDecl} {P : Expr → Prop} :
    (∀ y ∈ f.written, P y) ↔
      (∀ s ∈ f.body, ∀ x, s.expr? = some x → ∀ y ∈ x.parts, P y) ∧
        ∀ p ∈ f.required ++ f.defaultable, ∀ x, p.default = some x → ∀ y ∈ x.parts, P y := by
  rw [written, Expr.partsAll_eq_flatMap, List.flatMap_append, List.forall_mem_append]
  simp only [List.mem_flatMap, List.mem_filterMap]
  constructor
  · rintro ⟨hbody, hdefaults⟩
    exact ⟨fun s hs x hx y hy => hbody y ⟨x, ⟨s, hs, hx⟩, hy⟩,
      fun p hp x hx y hy => hdefaults y ⟨x, ⟨p, hp, hx⟩, hy⟩⟩
  · rintro ⟨hbody, hdefaults⟩
    constructor
    · rintro y ⟨x, ⟨s, hs, hx⟩, hy⟩
      exact hbody s hs x hx y hy
    · rintro y ⟨x, ⟨p, hp, hx⟩, hy⟩
      exact hdefaults p hp x hx y hy

section

mutual
/-- A written expression that is read is read as what the printer writes, and its literals are readable. -/
theorem Writes.read_sound : {e : Surface.Expr Raw} → {x : Expr} → Writes Value.raw e x →
    (∀ y ∈ x.parts, y.spelled = true) → {v : Surface.Expr Value} → e.read = .ok v →
    Writes id v x ∧ ∀ y ∈ x.parts, y.readable = true
  | _, _, .literal, hs, v, h => by
    rw [Surface.Expr.read, bind_eq_ok] at h
    obtain ⟨w, hw, h⟩ := h
    obtain rfl := Except.ok.inj h
    rw [Expr.parts, List.forall_mem_singleton] at hs ⊢
    obtain ⟨rfl, hread⟩ := (Value.raw_value_eq_ok hs).mp hw
    exact ⟨.literal, hread⟩
  | _, _, .ref, hs, v, h => by
    rw [Surface.Expr.read] at h
    obtain rfl := Except.ok.inj h
    rw [Expr.parts, List.forall_mem_singleton]
    exact ⟨.ref, rfl⟩
  | _, _, .call hall, hs, v, h => by
    rw [Surface.Expr.read, bind_eq_ok] at h
    obtain ⟨vs, hvs, h⟩ := h
    obtain rfl := Except.ok.inj h
    rw [Expr.parts, List.forall_mem_cons] at hs ⊢
    obtain ⟨hwrites, hread⟩ := WritesAll.read_sound hall hs.2 hvs
    exact ⟨.call hwrites, rfl, hread⟩

theorem WritesAll.read_sound : {es : List (Surface.Expr Raw)} → {xs : List Expr} → WritesAll Value.raw es xs →
    (∀ y ∈ Expr.partsAll xs, y.spelled = true) → {vs : List (Surface.Expr Value)} → Surface.Expr.readAll es = .ok vs →
    WritesAll id vs xs ∧ ∀ y ∈ Expr.partsAll xs, y.readable = true
  | _, _, .nil, hs, vs, h => by
    rw [Surface.Expr.readAll] at h
    obtain rfl := Except.ok.inj h
    exact ⟨.nil, by simp [Expr.partsAll]⟩
  | _, _, .cons hfirst hothers, hs, vs, h => by
    rw [Surface.Expr.readAll, bind_eq_ok] at h
    obtain ⟨w, hw, h⟩ := h
    obtain ⟨ws, hws, h⟩ := bind_eq_ok.mp h
    obtain rfl := Except.ok.inj h
    rw [Expr.partsAll, List.forall_mem_append] at hs ⊢
    obtain ⟨hwrites, hread⟩ := Writes.read_sound hfirst hs.1 hw
    obtain ⟨hwritesAll, hreadAll⟩ := WritesAll.read_sound hothers hs.2 hws
    exact ⟨.cons hwrites hwritesAll, hread, hreadAll⟩
end

mutual
/-- A written expression is read if its literals are readable. -/
theorem Writes.read_complete : {e : Surface.Expr Raw} → {x : Expr} → Writes Value.raw e x →
    (∀ y ∈ x.parts, y.spelled = true) → (∀ y ∈ x.parts, y.readable = true) → ∃ v, e.read = .ok v
  | _, _, @Writes.literal _ _ v _ _ _, hs, hr => by
    rw [Expr.parts, List.forall_mem_singleton] at hs hr
    rw [Surface.Expr.read]
    exact ⟨_, bind_eq_ok.mpr ⟨v, (Value.raw_value_eq_ok hs).mpr ⟨rfl, hr⟩, rfl⟩⟩
  | _, _, .ref, hs, hr => ⟨_, by rw [Surface.Expr.read]⟩
  | _, _, .call hall, hs, hr => by
    rw [Expr.parts, List.forall_mem_cons] at hs hr
    obtain ⟨vs, hvs⟩ := WritesAll.read_complete hall hs.2 hr.2
    rw [Surface.Expr.read]
    exact ⟨_, bind_eq_ok.mpr ⟨vs, hvs, rfl⟩⟩

theorem WritesAll.read_complete : {es : List (Surface.Expr Raw)} → {xs : List Expr} → WritesAll Value.raw es xs →
    (∀ y ∈ Expr.partsAll xs, y.spelled = true) → (∀ y ∈ Expr.partsAll xs, y.readable = true) →
    ∃ vs, Surface.Expr.readAll es = .ok vs
  | _, _, .nil, hs, hr => ⟨[], by rw [Surface.Expr.readAll]⟩
  | _, _, .cons hfirst hothers, hs, hr => by
    rw [Expr.partsAll, List.forall_mem_append] at hs hr
    obtain ⟨w, hw⟩ := Writes.read_complete hfirst hs.1 hr.1
    obtain ⟨ws, hws⟩ := WritesAll.read_complete hothers hs.2 hr.2
    rw [Surface.Expr.readAll]
    exact ⟨_, bind_eq_ok.mpr ⟨w, hw, bind_eq_ok.mpr ⟨ws, hws, rfl⟩⟩⟩
end

theorem StmtWrites.read_sound {s : Surface.Stmt Raw} {t : Stmt} (h : StmtWrites Value.raw s t)
    (hs : ∀ x, t.expr? = some x → ∀ y ∈ x.parts, y.spelled = true) {v : Surface.Stmt Value} (hv : s.read = .ok v) :
    StmtWrites id v t ∧ ∀ x, t.expr? = some x → ∀ y ∈ x.parts, y.readable = true := by
  cases h with
  | retNone =>
    obtain rfl := Except.ok.inj hv
    exact ⟨.retNone, by simp [Stmt.expr?]⟩
  | ret h =>
    obtain ⟨w, hw, hv⟩ := bind_eq_ok.mp hv
    obtain rfl := Except.ok.inj hv
    obtain ⟨hwrites, hread⟩ := h.read_sound (hs _ rfl) hw
    refine ⟨.ret hwrites, fun x hx => ?_⟩
    obtain rfl := Option.some.inj hx
    exact hread
  | expr h =>
    obtain ⟨w, hw, hv⟩ := bind_eq_ok.mp hv
    obtain rfl := Except.ok.inj hv
    obtain ⟨hwrites, hread⟩ := h.read_sound (hs _ rfl) hw
    refine ⟨.expr hwrites, fun x hx => ?_⟩
    obtain rfl := Option.some.inj hx
    exact hread

theorem StmtWrites.read_complete {s : Surface.Stmt Raw} {t : Stmt} (h : StmtWrites Value.raw s t)
    (hs : ∀ x, t.expr? = some x → ∀ y ∈ x.parts, y.spelled = true)
    (hr : ∀ x, t.expr? = some x → ∀ y ∈ x.parts, y.readable = true) : ∃ v, s.read = .ok v := by
  cases h with
  | retNone => exact ⟨_, rfl⟩
  | ret h =>
    obtain ⟨w, hw⟩ := h.read_complete (hs _ rfl) (hr _ rfl)
    exact ⟨_, bind_eq_ok.mpr ⟨w, hw, rfl⟩⟩
  | expr h =>
    obtain ⟨w, hw⟩ := h.read_complete (hs _ rfl) (hr _ rfl)
    exact ⟨_, bind_eq_ok.mpr ⟨w, hw, rfl⟩⟩

/-! ## Parameters -/

variable {den : TypeExpr → Ty → Prop}

theorem ParamWrites.read_sound {q : Surface.Param Raw} {p : Param} (h : ParamWrites Value.raw den q p)
    (hs : ∀ x, p.default = some x → ∀ y ∈ x.parts, y.spelled = true) {v : Surface.Param Value} (hv : q.read = .ok v) :
    ParamWrites id den v p ∧ ∀ x, p.default = some x → ∀ y ∈ x.parts, y.readable = true := by
  cases h with
  | required ht =>
    obtain rfl := Except.ok.inj hv
    exact ⟨.required ht, by simp⟩
  | defaultable ht he =>
    obtain ⟨w, hw, hv⟩ := bind_eq_ok.mp hv
    obtain rfl := Except.ok.inj hv
    obtain ⟨hwrites, hread⟩ := he.read_sound (hs _ rfl) hw
    refine ⟨.defaultable ht hwrites, fun x hx => ?_⟩
    obtain rfl := Option.some.inj hx
    exact hread

theorem ParamWrites.read_complete {q : Surface.Param Raw} {p : Param} (h : ParamWrites Value.raw den q p)
    (hs : ∀ x, p.default = some x → ∀ y ∈ x.parts, y.spelled = true)
    (hr : ∀ x, p.default = some x → ∀ y ∈ x.parts, y.readable = true) : ∃ v, q.read = .ok v := by
  cases h with
  | required ht => exact ⟨_, rfl⟩
  | defaultable ht he =>
    obtain ⟨w, hw⟩ := he.read_complete (hs _ rfl) (hr _ rfl)
    exact ⟨_, bind_eq_ok.mpr ⟨w, hw, rfl⟩⟩

theorem RestWrites.read_sound {q : Surface.Param Raw} {p : Param} (h : RestWrites den q p) {v : Surface.Param Value}
    (hv : q.read = .ok v) : RestWrites den v p := by
  cases h with
  | mk ht =>
    obtain rfl := Except.ok.inj hv
    exact .mk ht

theorem RestWrites.read_complete {q : Surface.Param Raw} {p : Param} (h : RestWrites den q p) :
    ∃ v, q.read = .ok v := by
  cases h
  exact ⟨_, rfl⟩

/-! ## The order of parameters -/

namespace Surface

variable {L : Type} {required defaultable rest : List (Surface.Param L)}

theorem orderFault?_required (h : ∀ p ∈ required, p.kind = .required) (others : List (Surface.Param L)) :
    orderFault? false (required ++ others) = orderFault? false others := by
  induction required with
  | nil => rfl
  | cons p ps ih =>
    rw [List.cons_append, orderFault?, h p List.mem_cons_self]
    exact ih fun q hq => h q (List.mem_cons_of_mem p hq)

theorem orderFault?_rest (h : ∀ p ∈ rest, p.kind = .rest) (hlen : rest.length ≤ 1) (seen : Bool) :
    orderFault? seen rest = none := by
  match rest, h, hlen with
  | [], _, _ => rfl
  | [p], h, _ => rw [orderFault?, h p List.mem_cons_self]; rfl

theorem orderFault?_defaultable (h : ∀ p ∈ defaultable, ∃ e, p.kind = .defaultable e)
    (hrest : ∀ seen, orderFault? seen rest = none) (seen : Bool) : orderFault? seen (defaultable ++ rest) = none := by
  induction defaultable generalizing seen with
  | nil => exact hrest seen
  | cons p ps ih =>
    obtain ⟨e, he⟩ := h p List.mem_cons_self
    rw [List.cons_append, orderFault?, he]
    exact ih (fun q hq => h q (List.mem_cons_of_mem p hq)) true

/-- Required parameters, then defaultable ones, then at most one rest parameter are in order. -/
theorem orderFault?_eq_none (hr : ∀ p ∈ required, p.kind = .required)
    (hd : ∀ p ∈ defaultable, ∃ e, p.kind = .defaultable e) (hrest : ∀ p ∈ rest, p.kind = .rest)
    (hlen : rest.length ≤ 1) : orderFault? false (required ++ (defaultable ++ rest)) = none := by
  rw [orderFault?_required hr]
  exact orderFault?_defaultable hd (orderFault?_rest hrest hlen) false

/-- Behind a defaultable parameter all are, a rest parameter aside. -/
theorem defaultable_of_orderFault? {fixed : List (Surface.Param L)} (hfixed : ∀ p ∈ fixed, p.kind ≠ .rest)
    (h : orderFault? true (fixed ++ rest) = none) : ∀ p ∈ fixed, ∃ e, p.kind = .defaultable e := by
  induction fixed with
  | nil => simp
  | cons p ps ih =>
    rw [List.forall_mem_cons] at hfixed ⊢
    rw [List.cons_append, orderFault?] at h
    cases hk : p.kind with
    | required => simp [hk] at h
    | rest => exact absurd hk hfixed.1
    | defaultable e => exact ⟨⟨e, rfl⟩, ih hfixed.2 (by simpa [hk] using h)⟩

/-- Parameters that are in order are first required and then defaultable, a rest parameter aside. -/
theorem exists_of_orderFault? {fixed : List (Surface.Param L)} (hfixed : ∀ p ∈ fixed, p.kind ≠ .rest)
    (h : orderFault? false (fixed ++ rest) = none) :
    ∃ required defaultable, fixed = required ++ defaultable ∧ (∀ p ∈ required, p.kind = .required) ∧
      ∀ p ∈ defaultable, ∃ e, p.kind = .defaultable e := by
  induction fixed with
  | nil => exact ⟨[], [], rfl, by simp, by simp⟩
  | cons p ps ih =>
    rw [List.forall_mem_cons] at hfixed
    rw [List.cons_append, orderFault?] at h
    cases hk : p.kind with
    | required =>
      obtain ⟨required, defaultable, rfl, hr, hd⟩ := ih hfixed.2 (by simpa [hk] using h)
      exact ⟨p :: required, defaultable, rfl, List.forall_mem_cons.mpr ⟨hk, hr⟩, hd⟩
    | rest => exact absurd hk hfixed.1
    | defaultable e =>
      have hd := defaultable_of_orderFault? hfixed.2 (by simpa [hk] using h)
      exact ⟨[], p :: ps, rfl, by simp, List.forall_mem_cons.mpr ⟨⟨e, hk⟩, hd⟩⟩

end Surface

theorem ParamWrites.kind_required {L : Type} {lit : Value → L} {q : Surface.Param L} {p : Param}
    (h : ParamWrites lit den q p) (hp : p.default = none) : q.kind = .required := by
  cases h with
  | required ht => rfl
  | defaultable ht he => simp at hp

theorem ParamWrites.kind_defaultable {L : Type} {lit : Value → L} {q : Surface.Param L} {p : Param} {x : Expr}
    (h : ParamWrites lit den q p) (hp : p.default = some x) : ∃ e, q.kind = .defaultable e ∧ Writes lit e x := by
  cases h with
  | required ht => simp at hp
  | defaultable ht he =>
    obtain rfl := Option.some.inj hp
    exact ⟨_, rfl, he⟩

/-- A function whose required parameters have no defaults and whose defaultable ones have. -/
structure FunctionDecl.Kinded (d : FunctionDecl) : Prop where
  required : ∀ p ∈ d.required, p.default = none
  defaultable : ∀ p ∈ d.defaultable, ∃ x, p.default = some x

/-- Written parameters are in order. -/
theorem orderFault?_of_writes {L : Type} {lit : Value → L} {d : FunctionDecl} (hd : d.Kinded)
    {fixed rest : List (Surface.Param L)}
    (hfixed : List.Forall₂ (ParamWrites lit den) fixed (d.required ++ d.defaultable))
    (hrest : List.Forall₂ (RestWrites den) rest d.rest.toList) : Surface.orderFault? false (fixed ++ rest) = none := by
  obtain ⟨rs, ds, rfl, hrs, hds⟩ := exists_of_forall₂_append hfixed.flip
  rw [List.append_assoc]
  refine Surface.orderFault?_eq_none (fun q hq => ?_) (fun q hq => ?_) (fun q hq => ?_) ?_
  · obtain ⟨p, hp, hw⟩ := exists_of_mem_right hrs hq
    exact hw.kind_required (hd.required p hp)
  · obtain ⟨p, hp, hw⟩ := exists_of_mem_right hds hq
    obtain ⟨x, hx⟩ := hd.defaultable p hp
    obtain ⟨e, he, -⟩ := hw.kind_defaultable hx
    exact ⟨e, he⟩
  · obtain ⟨p, hp, hw⟩ := exists_of_mem_left hrest hq
    cases hw
    rfl
  · rw [hrest.length_eq]
    cases d.rest <;> simp

/-! ## Functions -/

/-- A written function that is read is read as what the printer writes, and its literals are readable. -/
theorem FunctionWrites.read_sound {f : Surface.Function Raw} {d : FunctionDecl} (h : FunctionWrites Value.raw den f d)
    (hs : ∀ y ∈ d.written, y.spelled = true) {v : Surface.Function Value} (hv : f.read = .ok v) :
    FunctionWrites id den v d ∧ ∀ y ∈ d.written, y.readable = true := by
  rw [FunctionDecl.forall_mem_written] at hs ⊢
  obtain ⟨params, hparams, hv⟩ := bind_eq_ok.mp hv
  obtain ⟨body, hbody, hv⟩ := bind_eq_ok.mp hv
  rw [mapM_eq_ok] at hparams hbody
  obtain ⟨fixed, rest, hf, hfixed, hrest⟩ := h.params
  rw [hf] at hparams
  obtain ⟨vs, vs', rfl, hvs, hvs'⟩ := exists_of_forall₂_append hparams
  split at hv
  · simp at hv
  · obtain rfl := Except.ok.inj hv
    refine ⟨⟨h.name, h.isPublic, h.tags, ⟨vs, vs', rfl, ?_, ?_⟩, h.returns, ?_⟩, ?_, ?_⟩
    · exact forall₂_join hvs hfixed fun _ hp hread hw => (hw.read_sound (hs.2 _ hp) hread).1
    · exact forall₂_join hvs' hrest fun _ _ hread hw => hw.read_sound hread
    · exact forall₂_join hbody h.body fun _ ht hread hw => (hw.read_sound (hs.1 _ ht) hread).1
    · intro t ht
      obtain ⟨s, hmem, hw⟩ := exists_of_mem_right h.body ht
      obtain ⟨v, -, hread⟩ := exists_of_mem_left hbody hmem
      exact (hw.read_sound (hs.1 t ht) hread).2
    · intro p hp
      obtain ⟨q, hmem, hw⟩ := exists_of_mem_right hfixed hp
      obtain ⟨v, -, hread⟩ := exists_of_mem_left hvs hmem
      exact (hw.read_sound (hs.2 p hp) hread).2

/-- A written function is read if its literals are readable. -/
theorem FunctionWrites.read_complete {f : Surface.Function Raw} {d : FunctionDecl}
    (h : FunctionWrites Value.raw den f d) (hd : d.Kinded) (hs : ∀ y ∈ d.written, y.spelled = true)
    (hr : ∀ y ∈ d.written, y.readable = true) : ∃ v, f.read = .ok v := by
  rw [FunctionDecl.forall_mem_written] at hs hr
  obtain ⟨fixed, rest, hf, hfixed, hrest⟩ := h.params
  obtain ⟨vs, hvs⟩ : ∃ vs, List.Forall₂ (fun q v => q.read = .ok v) fixed vs := by
    refine exists_forall₂ fun q hq => ?_
    obtain ⟨p, hp, hw⟩ := exists_of_mem_left hfixed hq
    exact hw.read_complete (hs.2 p hp) (hr.2 p hp)
  obtain ⟨vs', hvs'⟩ : ∃ vs, List.Forall₂ (fun q v => q.read = .ok v) rest vs := by
    refine exists_forall₂ fun q hq => ?_
    obtain ⟨p, hp, hw⟩ := exists_of_mem_left hrest hq
    exact hw.read_complete
  obtain ⟨body, hbody⟩ : ∃ body, List.Forall₂ (fun s v => s.read = .ok v) f.body body := by
    refine exists_forall₂ fun s hs' => ?_
    obtain ⟨t, ht, hw⟩ := exists_of_mem_left h.body hs'
    exact hw.read_complete (hs.1 t ht) (hr.1 t ht)
  have hparams : f.params.mapM Surface.Param.read = .ok (vs ++ vs') := by
    rw [hf, mapM_eq_ok]
    exact List.rel_append hvs hvs'
  have horder : Surface.orderFault? false (vs ++ vs') = none := by
    have hw : List.Forall₂ (ParamWrites id den) vs (d.required ++ d.defaultable) :=
      forall₂_join hvs hfixed fun _ hp hread hw => (hw.read_sound (hs.2 _ hp) hread).1
    have hw' : List.Forall₂ (RestWrites den) vs' d.rest.toList :=
      forall₂_join hvs' hrest fun _ _ hread hw => hw.read_sound hread
    exact orderFault?_of_writes hd hw hw'
  refine ⟨⟨f.name, f.position, f.tags, f.isPublic, vs ++ vs', f.returns, body⟩,
    bind_eq_ok.mpr ⟨vs ++ vs', hparams, bind_eq_ok.mpr ⟨body, mapM_eq_ok.mpr hbody, ?_⟩⟩⟩
  rw [horder]
  rfl

/-! ## Units -/

theorem CompilationUnit.function_mem_parts {unit : CompilationUnit} {d : FunctionDecl} :
    UnitPart.function d ∈ unit.parts ↔ d ∈ unit.functions := by
  simp [parts]

theorem PartWrites.read_sound {i : Surface.Item Raw} {part : UnitPart} (h : PartWrites Value.raw den i part)
    (hs : ∀ d, part = .function d → ∀ y ∈ d.written, y.spelled = true) {v : Surface.Item Value} (hv : i.read = .ok v) :
    PartWrites id den v part ∧ ∀ d, part = .function d → ∀ y ∈ d.written, y.readable = true := by
  cases h with
  | use h =>
    obtain rfl := Except.ok.inj hv
    exact ⟨.use h, by simp⟩
  | record h =>
    obtain rfl := Except.ok.inj hv
    exact ⟨.record h, by simp⟩
  | function h =>
    obtain ⟨f, hf, hv⟩ := bind_eq_ok.mp hv
    obtain rfl := Except.ok.inj hv
    obtain ⟨hwrites, hread⟩ := h.read_sound (hs _ rfl) hf
    refine ⟨.function hwrites, fun d hd => ?_⟩
    obtain rfl := UnitPart.function.inj hd
    exact hread

/-- The written parts of a unit that are read are read as what the printer writes, and their literals are readable. -/
theorem read_parts_sound {items : List (Surface.Item Raw)} {unit : CompilationUnit}
    (h : List.Forall₂ (PartWrites Value.raw den) items unit.parts)
    (hs : ∀ d ∈ unit.functions, ∀ y ∈ d.written, y.spelled = true) {vs : List (Surface.Item Value)}
    (hvs : items.mapM Surface.Item.read = .ok vs) :
    List.Forall₂ (PartWrites id den) vs unit.parts ∧
      ∀ d ∈ unit.functions, ∀ y ∈ d.written, y.readable = true := by
  rw [mapM_eq_ok] at hvs
  have hspelled : ∀ part ∈ unit.parts, ∀ d, part = .function d → ∀ y ∈ d.written, y.spelled = true := by
    rintro part hpart d rfl
    exact hs d (CompilationUnit.function_mem_parts.mp hpart)
  constructor
  · exact forall₂_join hvs h fun _ hpart hread hw => (hw.read_sound (hspelled _ hpart) hread).1
  · intro d hd
    have hpart := CompilationUnit.function_mem_parts.mpr hd
    obtain ⟨i, hi, hw⟩ := exists_of_mem_right h hpart
    obtain ⟨v, -, hread⟩ := exists_of_mem_left hvs hi
    exact (hw.read_sound (hspelled _ hpart) hread).2 d rfl

/-- The written parts of a unit are read if the literals are readable. -/
theorem read_parts_complete {items : List (Surface.Item Raw)} {unit : CompilationUnit}
    (h : List.Forall₂ (PartWrites Value.raw den) items unit.parts) (hd : ∀ d ∈ unit.functions, d.Kinded)
    (hs : ∀ d ∈ unit.functions, ∀ y ∈ d.written, y.spelled = true)
    (hr : ∀ d ∈ unit.functions, ∀ y ∈ d.written, y.readable = true) :
    ∃ vs, items.mapM Surface.Item.read = .ok vs := by
  obtain ⟨vs, hvs⟩ : ∃ vs, List.Forall₂ (fun i v => i.read = .ok v) items vs := by
    refine exists_forall₂ fun i hi => ?_
    obtain ⟨part, hpart, hw⟩ := exists_of_mem_left h hi
    cases hw with
    | use h => exact ⟨_, rfl⟩
    | record h => exact ⟨_, rfl⟩
    | @function f d h =>
      have hmem := CompilationUnit.function_mem_parts.mp hpart
      obtain ⟨v, hv⟩ := h.read_complete (hd d hmem) (hs d hmem) (hr d hmem)
      exact ⟨_, bind_eq_ok.mpr ⟨v, hv, rfl⟩⟩
  exact ⟨vs, mapM_eq_ok.mpr hvs⟩

end

end Registrar
