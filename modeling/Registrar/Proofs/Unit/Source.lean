import Registrar.Proofs.Token.Words
import Registrar.Proofs.Unit.Types

/-!
# Units from source text

The names of a program that was read from text are spelled as names, and its integers are no longer than what was read.
A unit takes all its names and literals from its program, so it is printed by tokens of the right spelling
(`ResolvesTo.spelled_prints`).
-/

namespace Registrar

namespace Surface

/-! ## Parts of rows -/

theorem RowTokens.exists_of_mem {α : Type} {part : List Token → α → Prop} {ts : List Token} {as : List α}
    (h : RowTokens part ts as) {a : α} (ha : a ∈ as) : ∃ us, us ⊆ ts ∧ part us a := by
  induction h with
  | nil => simp at ha
  | @cons ts us b bs hpart _ ih =>
    rcases List.mem_cons.mp ha with rfl | ha
    · exact ⟨ts, List.subset_append_left ts us, hpart⟩
    · obtain ⟨vs, hvs, hpart⟩ := ih ha
      exact ⟨vs, List.subset_append_of_subset_right ts hvs, hpart⟩

theorem ListTokens.exists_of_mem {α : Type} {part : List Token → α → Prop} {ts : List Token} {as : List α}
    (h : ListTokens part ts as) {a : α} (ha : a ∈ as) : ∃ us, us ⊆ ts ∧ part us a := by
  induction h with
  | @one ts b hpart =>
    obtain rfl := List.mem_singleton.mp ha
    exact ⟨ts, List.Subset.refl ts, hpart⟩
  | @more ts us b bs s p hpart _ ih =>
    rcases List.mem_cons.mp ha with rfl | ha
    · exact ⟨ts, List.subset_append_left ts _, hpart⟩
    · obtain ⟨vs, hvs, hpart⟩ := ih ha
      exact ⟨vs, List.subset_append_of_subset_right ts (List.subset_cons_of_subset _ hvs), hpart⟩

/-! ## Names and types -/

/-- Tokens that are spelled as their terminals say. -/
def Spelled (ts : List Token) : Prop := ∀ t ∈ ts, t.Spelled

theorem Spelled.mono {ts us : List Token} (h : Spelled ts) (hsub : us ⊆ ts) : Spelled us := fun t ht => h t (hsub ht)

theorem Spelled.name {ts : List Token} (h : Spelled ts) {n : Text} {p : Position} (hmem : ⟨.name, n, p⟩ ∈ ts) :
    n.isName = true := (h _ hmem).name rfl

theorem NameTokens.spelled {ts : List Token} {n : Name} (h : NameTokens ts n) (hts : Spelled ts) :
    n.ident.isName = true ∧ ∀ q ∈ n.qualifier, q.isName = true := by
  cases h with
  | @plain n p => exact ⟨hts.name (p := p) (by simp), by simp⟩
  | @qualified q s n p p₁ p₂ =>
    refine ⟨hts.name (p := p₂) (by simp), fun q' hq' => ?_⟩
    obtain rfl := Option.some.inj hq'
    exact hts.name (p := p) (by simp)

theorem TagTokens.spelled {ts : List Token} {t : Tag} (h : TagTokens ts t) (hts : Spelled ts) :
    t.name.isName = true ∧ ∀ q ∈ t.qualifier, q.isName = true := by
  cases h with
  | @plain s n p p₁ => exact ⟨hts.name (p := p₁) (by simp), by simp⟩
  | @qualified s q s₁ n p p₁ p₂ p₃ =>
    refine ⟨hts.name (p := p₃) (by simp), fun q' hq' => ?_⟩
    obtain rfl := Option.some.inj hq'
    exact hts.name (p := p₁) (by simp)

theorem MemberTokens.isMember {ts : List Token} {n : Name} (h : MemberTokens ts n) (hts : Spelled ts) : n.IsMember := by
  cases h with
  | name h => exact .inr (h.spelled hts)
  | nil => exact .inl ⟨rfl, rfl⟩

theorem TypeTokens.isMember {ts : List Token} {te : TypeExpr} (h : TypeTokens ts te) (hts : Spelled ts) :
    ∀ n ∈ te.members, n.IsMember := by
  induction h with
  | one h =>
    intro n hn
    obtain rfl := List.mem_singleton.mp hn
    exact h.isMember hts
  | @more ts us m te s p h _ ih =>
    intro n hn
    rcases List.mem_cons.mp hn with rfl | hn
    · exact h.isMember (hts.mono (List.subset_append_left ts _))
    · exact ih (hts.mono (List.subset_append_of_subset_right ts (List.subset_cons_self _ _))) n hn

/-! ## Expressions -/

/-- An expression that was read from tokens. -/
def Expr.Written (e : Expr Value) : Prop := ∃ ts raw, Spelled ts ∧ ExprTokens ts raw ∧ raw.read = .ok e

/-- An integer that was read is written by no more digits than before. -/
theorem Raw.value_spelled {raw : Raw} {p : Position} {v : Value} (h : raw.value p = .ok v)
    (hraw : ∀ digits, raw = .int digits → digits.isNumeral = true) : v.spelled = true := by
  cases raw with
  | nil => obtain rfl := Except.ok.inj h; rfl
  | bool b => obtain rfl := Except.ok.inj h; rfl
  | int digits =>
    rw [Raw.value] at h
    split at h
    · simp at h
    · next hlimit =>
      obtain rfl := Except.ok.inj h
      obtain ⟨hne, hdigits⟩ := Text.isNumeral_iff.mp (hraw digits rfl)
      have hlen := Text.length_ofNat_decimalValue hne hdigits
      exact Value.spelled_int.mpr ⟨_, rfl, hlen.trans (Nat.not_lt.mp hlimit)⟩
  | str s =>
    rw [Raw.value] at h
    split at h
    · obtain rfl := Except.ok.inj h; rfl
    · simp at h

section

variable {env : Env} {fits : FunctionSymbol → List Registrar.Expr → Prop} {params : List Registrar.Param}

/-- A literal that was read means a literal of the right spelling. -/
theorem Raw.parts_spelled {raw : Raw} {p : Position} {e : Expr Value} (hread : (Expr.literal raw p).read = .ok e)
    (hraw : ∀ digits, raw = .int digits → digits.isNumeral = true)
    {x : Registrar.Expr} (hx : Means env fits params e x) :
    ∀ y ∈ x.parts, y.spelled = true := by
  rw [Expr.read, bind_eq_ok] at hread
  obtain ⟨v, hv, hread⟩ := hread
  obtain rfl := Except.ok.inj hread
  cases hx
  rw [Registrar.Expr.parts, List.forall_mem_singleton]
  exact Raw.value_spelled hv hraw

mutual
/-- What was read from tokens means an expression of the right spelling. -/
theorem ExprTokens.parts_spelled : {ts : List Token} → {raw : Expr Raw} → ExprTokens ts raw → Spelled ts →
    {e : Expr Value} → raw.read = .ok e → {x : Registrar.Expr} → Means env fits params e x →
    ∀ y ∈ x.parts, y.spelled = true
  | _, _, .string, _, _, hread, _, hx => Raw.parts_spelled hread (by simp) hx
  | _, _, @ExprTokens.int s p, hts, _, hread, _, hx => by
    refine Raw.parts_spelled hread (fun digits hdigits => ?_) hx
    obtain rfl := Raw.int.inj hdigits
    exact (hts _ List.mem_cons_self).int rfl
  | _, _, .yes, _, _, hread, _, hx => Raw.parts_spelled hread (by simp) hx
  | _, _, .no, _, _, hread, _, hx => Raw.parts_spelled hread (by simp) hx
  | _, _, .nil, _, _, hread, _, hx => Raw.parts_spelled hread (by simp) hx
  | _, _, .name h, hts, _, hread, _, hx => by
    rw [Expr.read] at hread
    obtain rfl := Except.ok.inj hread
    cases hx
    rw [Registrar.Expr.parts, List.forall_mem_singleton]
    exact (h.spelled hts).1
  | _, _, @ExprTokens.callNone ts n s s₁ p p₁ h, hts, _, hread, _, hx => by
    rw [Expr.read, Expr.readAll] at hread
    obtain rfl := Except.ok.inj hread
    cases hx with
    | call _ hargs _ =>
      cases hargs
      obtain ⟨hident, hqualifier⟩ := h.spelled (hts.mono (List.subset_append_left ts _))
      rw [Registrar.Expr.parts, Registrar.Expr.partsAll, List.forall_mem_singleton, Registrar.Expr.spelled,
        Bool.and_eq_true, Option.all_eq_true]
      exact ⟨hident, hqualifier⟩
  | _, _, @ExprTokens.call ts us n es s s₁ p p₁ h hs, hts, _, hread, _, hx => by
    rw [Expr.read, bind_eq_ok] at hread
    obtain ⟨vs, hvs, hread⟩ := hread
    obtain rfl := Except.ok.inj hread
    cases hx with
    | call _ hargs _ =>
      obtain ⟨hident, hqualifier⟩ := h.spelled (hts.mono (List.subset_append_left ts _))
      have hus : Spelled us := hts.mono fun t ht =>
        List.mem_append_right ts (List.mem_cons_of_mem _ (List.mem_append_left _ ht))
      rw [Registrar.Expr.parts, List.forall_mem_cons, Registrar.Expr.spelled, Bool.and_eq_true, Option.all_eq_true]
      exact ⟨⟨hident, hqualifier⟩, ArgsTokens.parts_spelled hs hus hvs hargs⟩

theorem ArgsTokens.parts_spelled : {ts : List Token} → {raws : List (Expr Raw)} → ArgsTokens ts raws → Spelled ts →
    {es : List (Expr Value)} → Expr.readAll raws = .ok es →
    {xs : List Registrar.Expr} → MeansAll env fits params es xs →
    ∀ y ∈ Expr.partsAll xs, y.spelled = true
  | _, _, .one h, hts, _, hread, _, hxs => by
    rw [Expr.readAll, bind_eq_ok] at hread
    obtain ⟨v, hv, hread⟩ := hread
    rw [Expr.readAll] at hread
    obtain rfl := Except.ok.inj hread
    cases hxs with
    | cons hx hxs =>
      cases hxs
      rw [Registrar.Expr.partsAll, Registrar.Expr.partsAll, List.append_nil]
      exact ExprTokens.parts_spelled h hts hv hx
  | _, _, @ArgsTokens.more ts us _ _ _ _ h hs, hts, _, hread, _, hxs => by
    rw [Expr.readAll, bind_eq_ok] at hread
    obtain ⟨v, hv, hread⟩ := hread
    obtain ⟨vs, hvs, hread⟩ := bind_eq_ok.mp hread
    obtain rfl := Except.ok.inj hread
    cases hxs with
    | cons hx hxs =>
      have hus : Spelled us := hts.mono (List.subset_append_of_subset_right ts (List.subset_cons_self _ _))
      rw [Registrar.Expr.partsAll, List.forall_mem_append]
      exact ⟨ExprTokens.parts_spelled h (hts.mono (List.subset_append_left ts _)) hv hx,
        ArgsTokens.parts_spelled hs hus hvs hxs⟩
end

theorem Expr.Written.parts_spelled {e : Expr Value} (h : e.Written) {x : Registrar.Expr}
    (hx : Means env fits params e x) : ∀ y ∈ x.parts, y.spelled = true := by
  obtain ⟨ts, raw, hts, htokens, hread⟩ := h
  exact htokens.parts_spelled hts hread hx

end

/-! ## Functions -/

/-- A parameter that was read from tokens. -/
structure Param.Written (p : Param Value) : Prop where
  name : p.name.isName = true
  type : ∀ n ∈ p.type.members, n.IsMember
  default : ∀ e, p.kind = .defaultable e → e.Written

/-- A function that was read from tokens. -/
structure Function.Written (f : Function Value) : Prop where
  name : f.name.isName = true
  tags : ∀ t ∈ f.tags, t.name.isName = true ∧ ∀ q ∈ t.qualifier, q.isName = true
  params : ∀ p ∈ f.params, p.Written
  returns : ∀ te ∈ f.returns, ∀ n ∈ te.members, n.IsMember
  body : ∀ s ∈ f.body, ∀ e, s.expr? = some e → e.Written
  order : orderFault? false f.params = none

theorem ParamTokens.written {ts : List Token} {raw : Param Raw} (h : ParamTokens ts raw) (hts : Spelled ts)
    {p : Param Value} (hread : raw.read = .ok p) : p.Written := by
  cases h with
  | @required ts t n p h =>
    obtain rfl := Except.ok.inj hread
    exact ⟨hts.name (p := p) (by simp), h.isMember (hts.mono (List.subset_append_left ts _)), by simp⟩
  | @rest ts t n s p p₁ h =>
    obtain rfl := Except.ok.inj hread
    exact ⟨hts.name (p := p) (by simp), h.isMember (hts.mono (List.subset_append_left ts _)), by simp⟩
  | @defaultable ts us t e n s p p₁ h he =>
    obtain ⟨v, hv, hread⟩ := bind_eq_ok.mp hread
    obtain rfl := Except.ok.inj hread
    refine ⟨hts.name (p := p) (by simp), h.isMember (hts.mono (List.subset_append_left ts _)), fun e' he' => ?_⟩
    obtain rfl := ParamKind.defaultable.inj he'
    have hus : Spelled us := hts.mono fun t ht =>
      List.mem_append_right ts (List.mem_cons_of_mem _ (List.mem_cons_of_mem _ ht))
    exact ⟨us, e, hus, he, hv⟩

theorem StmtTokens.written {ts : List Token} {raw : Stmt Raw} (h : StmtTokens ts raw) (hts : Spelled ts)
    {s : Stmt Value} (hread : raw.read = .ok s) : ∀ e, s.expr? = some e → e.Written := by
  intro e he
  cases h with
  | retNone =>
    obtain rfl := Except.ok.inj hread
    simp [Stmt.expr?] at he
  | @ret ts raw s s₁ p p₁ h =>
    obtain ⟨v, hv, hread⟩ := bind_eq_ok.mp hread
    obtain rfl := Except.ok.inj hread
    obtain rfl := Option.some.inj he
    exact ⟨ts, raw, hts.mono fun t ht => List.mem_cons_of_mem _ (List.mem_append_left _ ht), h, hv⟩
  | @expr t ts raw s p h =>
    obtain ⟨v, hv, hread⟩ := bind_eq_ok.mp hread
    obtain rfl := Except.ok.inj hread
    obtain rfl := Option.some.inj he
    exact ⟨t :: ts, raw, hts.mono (List.subset_append_left (t :: ts) _), h, hv⟩

/-- What is read of a function. -/
theorem Function.read_parts {raw : Function Raw} {f : Function Value} (h : raw.read = .ok f) :
    f.name = raw.name ∧ f.position = raw.position ∧ f.tags = raw.tags ∧ f.returns = raw.returns ∧
      List.Forall₂ (fun q p => q.read = .ok p) raw.params f.params ∧
      List.Forall₂ (fun q s => q.read = .ok s) raw.body f.body ∧ orderFault? false f.params = none := by
  obtain ⟨params, hparams, h⟩ := bind_eq_ok.mp h
  obtain ⟨body, hbody, h⟩ := bind_eq_ok.mp h
  split at h
  · simp at h
  · next horder =>
    obtain rfl := Except.ok.inj h
    exact ⟨rfl, rfl, rfl, rfl, mapM_eq_ok.mp hparams, mapM_eq_ok.mp hbody, horder⟩

/-- Among the tokens of a function are its name, and those of each of its parts. -/
theorem FunctionTokens.parts {ts : List Token} {raw : Function Raw} (h : FunctionTokens ts raw) :
    ⟨.name, raw.name, raw.position⟩ ∈ ts ∧ (∀ t ∈ raw.tags, ∃ us, us ⊆ ts ∧ TagTokens us t) ∧
      (∀ q ∈ raw.params, ∃ us, us ⊆ ts ∧ ParamTokens us q) ∧
      (∀ te ∈ raw.returns, ∃ us, us ⊆ ts ∧ TypeTokens us te) ∧
      ∀ s ∈ raw.body, ∃ us, us ⊆ ts ∧ StmtTokens us s := by
  cases h with
  | @mk tags visibility us as isPublic bare ht hv hf =>
    cases hf with
    | @mk params returns block ps r body s n s₁ s₂ p p₁ p₂ p₃ hp hr hb =>
      cases hb with
      | @mk stmts _ s₃ s₄ p₄ p₅ hs =>
        refine ⟨by simp, fun t ht' => ?_, fun q hq => ?_, fun te hte => ?_, fun t ht' => ?_⟩
        · obtain ⟨vs, hvs, htag⟩ := ht.exists_of_mem ht'
          exact ⟨vs, List.subset_append_of_subset_left _ hvs, htag⟩
        · cases hp with
          | none => simp at hq
          | some hlist =>
            obtain ⟨vs, hvs, hparam⟩ := hlist.exists_of_mem hq
            exact ⟨vs, fun t ht => by simp [hvs ht], hparam⟩
        · cases hr with
          | none => simp at hte
          | @some vs _ _ _ htype =>
            obtain rfl := Option.some.inj hte
            exact ⟨vs, fun t ht => by simp [ht], htype⟩
        · obtain ⟨vs, hvs, hstmt⟩ := hs.exists_of_mem ht'
          exact ⟨vs, fun t ht => by simp [hvs ht], hstmt⟩

theorem FunctionTokens.written {ts : List Token} {raw : Function Raw} (h : FunctionTokens ts raw) (hts : Spelled ts)
    {f : Function Value} (hread : raw.read = .ok f) : f.Written := by
  obtain ⟨hname, -, htags, hreturns, hparams, hbody, horder⟩ := Function.read_parts hread
  obtain ⟨hmem, htag, hparam, htype, hstmt⟩ := h.parts
  refine ⟨hname ▸ hts.name hmem, fun t ht => ?_, fun p hp => ?_, fun te hte => ?_, fun s hs => ?_, horder⟩
  · obtain ⟨us, hus, htokens⟩ := htag t (htags ▸ ht)
    exact htokens.spelled (hts.mono hus)
  · obtain ⟨q, hq, hqread⟩ := exists_of_mem_right hparams hp
    obtain ⟨us, hus, htokens⟩ := hparam q hq
    exact htokens.written (hts.mono hus) hqread
  · obtain ⟨us, hus, htokens⟩ := htype te (hreturns ▸ hte)
    exact htokens.isMember (hts.mono hus)
  · obtain ⟨q, hq, hqread⟩ := exists_of_mem_right hbody hs
    obtain ⟨us, hus, htokens⟩ := hstmt q hq
    exact htokens.written (hts.mono hus) hqread

/-! ## Programs -/

/-- An import that was read from tokens. -/
structure Import.Written (i : Import) : Prop where
  space : i.space.isName = true
  name : i.name.isName = true
  asName : ∀ a ∈ i.asName, a.isName = true

/-- An item that was read from tokens. -/
def Item.Written : Item Value → Prop
  | .use i => i.Written
  | .record r => r.name.isName = true
  | .function f => f.Written

/-- A program that was read from tokens. -/
structure Program.Written (program : Program Value) : Prop where
  imports : ∀ i ∈ program.imports, i.Written
  records : ∀ r ∈ program.records, r.name.isName = true
  functions : ∀ f ∈ program.functions, f.Written

theorem Program.Written.of_sublists {program kept : Program Value} (h : program.Written)
    (himports : kept.imports.Sublist program.imports) (hrecords : kept.records.Sublist program.records)
    (hfunctions : kept.functions.Sublist program.functions) : kept.Written :=
  ⟨fun i hi => h.imports i (himports.subset hi), fun r hr => h.records r (hrecords.subset hr),
    fun f hf => h.functions f (hfunctions.subset hf)⟩

theorem ImportTokens.written {ts : List Token} {i : Import} (h : ImportTokens ts i) (hts : Spelled ts) : i.Written := by
  cases h with
  | @plain s space s₁ name s₂ p p₁ p₂ p₃ p₄ =>
    exact ⟨hts.name (p := p₁) (by simp), hts.name (p := p₃) (by simp), by simp⟩
  | @asName s space s₁ name s₂ asName s₃ p p₁ p₂ p₃ p₄ p₅ p₆ =>
    refine ⟨hts.name (p := p₁) (by simp), hts.name (p := p₃) (by simp), fun a ha => ?_⟩
    obtain rfl := Option.some.inj ha
    exact hts.name (p := p₅) (by simp)

theorem ItemTokens.written {ts : List Token} {raw : Item Raw} (h : ItemTokens ts raw) (hts : Spelled ts)
    {item : Item Value} (hread : raw.read = .ok item) : item.Written := by
  cases h with
  | use h =>
    obtain rfl := Except.ok.inj hread
    exact h.written hts
  | record h =>
    obtain rfl := Except.ok.inj hread
    cases h with
    | @mk semicolon s n s₁ s₂ s₃ p p₁ p₂ p₃ p₄ h => exact hts.name (p := p₁) (by simp)
  | function h =>
    obtain ⟨f, hf, hread⟩ := bind_eq_ok.mp hread
    obtain rfl := Except.ok.inj hread
    exact h.written hts hf

theorem written_ofItems {items : List (Item Value)} (h : ∀ item ∈ items, item.Written) :
    (Program.ofItems items).Written := by
  refine ⟨fun i hi => ?_, fun r hr => ?_, fun f hf => ?_⟩
  · obtain ⟨item, hitem, hi⟩ := List.mem_filterMap.mp hi
    cases item with
    | use j => exact Option.some.inj hi ▸ h _ hitem
    | _ => simp at hi
  · obtain ⟨item, hitem, hr⟩ := List.mem_filterMap.mp hr
    cases item with
    | record q => exact Option.some.inj hr ▸ h _ hitem
    | _ => simp at hr
  · obtain ⟨item, hitem, hf⟩ := List.mem_filterMap.mp hf
    cases item with
    | function g => exact Option.some.inj hf ▸ h _ hitem
    | _ => simp at hf

/-- The items of a text are made up of its tokens. -/
theorem parse_sound {source : Text} {items : List (Item Raw)} (h : parse source = .ok items) :
    RowTokens ItemTokens (scan source).tokens items := by
  unfold parse at h
  dsimp only at h
  split at h
  · next hitems _ => exact Except.ok.inj h ▸ items_iff.mp hitems
  · simp at h
  · split at h <;> simp at h
  · simp at h

theorem readProgram_eq_ok {source : Text} {program : Program Value} :
    readProgram source = .ok program ↔
      ∃ raws items, parse source = .ok raws ∧ raws.mapM Item.read = .ok items ∧ .ofItems items = program := by
  unfold readProgram
  cases parse source with
  | error fault => simp
  | ok raws => simp [map_eq_ok]

/-- A program that a text says was read from tokens. -/
theorem readProgram_written {source : Text} {program : Program Value} (h : readProgram source = .ok program) :
    program.Written := by
  obtain ⟨raws, items, hparse, hread, rfl⟩ := readProgram_eq_ok.mp h
  have hts : Spelled (scan source).tokens := fun t ht => spelled_of_mem_scanFrom ht
  refine written_ofItems fun item hitem => ?_
  obtain ⟨raw, hraw, hread⟩ := exists_of_mem_right (mapM_eq_ok.mp hread) hitem
  obtain ⟨us, hus, htokens⟩ := (parse_sound hparse).exists_of_mem hraw
  exact htokens.written (hts.mono hus) hread

end Surface

/-! ## Units -/

namespace ResolvesTo

variable {registry : Registry} {program : Surface.Program Value} {unit : CompilationUnit}

theorem import_spelled (h : ResolvesTo registry program unit) (hw : program.Written) {i : ImportDecl}
    (hi : i ∈ unit.imports) : i.Spelled := by
  obtain ⟨s, hs, m, -, rfl⟩ := exists_of_mem_right h.imports hi
  exact ⟨(hw.imports s hs).space, (hw.imports s hs).name, (hw.imports s hs).asName⟩

/-- The expressions of a function are of the right spelling. -/
theorem written_spelled (h : ResolvesTo registry program unit) {f : Surface.Function Value} (hf : f.Written)
    {d : FunctionDecl} (hd : unit.env.Declares f d) : ∀ y ∈ d.written, y.spelled = true := by
  obtain ⟨decl, hsig, rfl⟩ := hd
  rw [FunctionDecl.forall_mem_written]
  constructor
  · intro t ht x hx
    obtain ⟨kept, hsub, hmeans⟩ := Env.body_means h.topLevel f decl
    obtain ⟨s, hs, hst⟩ := exists_of_mem_right hmeans ht
    obtain ⟨e, he, hex⟩ := hst.expr_right hx
    exact (hf.body s (hsub.subset hs) e he).parts_spelled hex
  · intro p hp x hx
    obtain ⟨e, he, hmeans⟩ := Env.body_defaults h.topLevel hsig p (List.mem_append_left _ hp) x hx
    obtain ⟨q, hq, hkind, -⟩ := Env.writtenDefault?_mem he
    exact ((hf.params q hq).default e hkind).parts_spelled hmeans

/-- A function of a unit is printed by tokens of the right spelling, if types are. -/
theorem function_spelled (h : ResolvesTo registry program unit) {den : Surface.TypeExpr → Ty → Prop}
    (hspells : ∀ te t, (∀ n ∈ te.members, n.IsMember) → (unit.env.typeExpr te).value = some t →
      t.Spells unit.qualifiers den) {f : Surface.Function Value} (hf : f.Written) {d : FunctionDecl}
    (hd : unit.env.Declares f d) : d.Spelled unit.qualifiers den := by
  have hwritten := h.written_spelled hf hd
  obtain ⟨decl, hsig, rfl⟩ := hd
  obtain ⟨markers, params, ret, hmarkers, -, hret, hdecl⟩ := Env.signature_value.mp hsig
  refine ⟨?_, fun m hm => ?_, fun p hp => ?_, ?_, hwritten⟩
  · show decl.name.isName = true
    rw [(Env.signature_name hsig).1]
    exact hf.name
  · have hm : m ∈ decl.markers := hm
    rw [hdecl] at hm
    obtain ⟨t, ht, hvalue⟩ := exists_of_mem_right hmarkers hm
    obtain ⟨q, i, s, hq, -, -, rfl⟩ := Env.marker_value.mp hvalue
    obtain ⟨hname, hqualifier⟩ := hf.tags t ht
    exact ⟨hname, fun q' hq' => hqualifier q' (hq.trans hq')⟩
  · have hmem := List.mem_map_of_mem (f := fun p : Param => (p.name, p.type)) hp
    rw [Env.body_bindings] at hmem
    obtain ⟨p', hp', hsame⟩ := List.mem_map.mp hmem
    obtain ⟨hname, htype⟩ := Prod.mk.inj hsame
    obtain ⟨q, hq, t, ht, rfl⟩ := Env.signature_param hsig hp'
    rw [← hname, ← htype]
    exact ⟨(hf.params q hq).name, hspells q.type t (hf.params q hq).type ht⟩
  · show decl.returnType ≠ .nil → decl.returnType.Spells _ _
    rw [hdecl]
    intro hnil
    cases hr : f.returns with
    | none =>
      rw [hr] at hret
      exact absurd (Option.some.inj hret).symm hnil
    | some te =>
      rw [hr] at hret
      exact hspells te ret (hf.returns te hr) hret

/-- A unit that was resolved from source text is printed by tokens of the right spelling. Types are written by printed
names, which stand for the types if the unit does not import its own module. -/
theorem spelled_prints (h : ResolvesTo registry program unit) (howned : registry.Owned) (hw : program.Written) :
    unit.Spelled fun te t => unit.PrintsType te t ∧
      ((∀ i ∈ unit.imports, i.id ≠ unit.id) → (unit.env.typeExpr te).value = some t) := by
  refine ⟨fun i hi => h.import_spelled hw hi, fun t ht => ?_, fun d hd => ?_⟩
  · obtain ⟨r, hr, -, rfl⟩ := exists_of_mem_right h.types ht
    exact hw.records r hr
  · obtain ⟨f, hf, hdecl⟩ := exists_of_mem_right h.functions hd
    exact h.function_spelled (fun te t hte ht => h.spells_prints howned (fun i hi => h.import_spelled hw hi) hte ht)
      (hw.functions f hf) hdecl

/-- In a unit that does not import its own module, types are written by type expressions that stand for them. -/
theorem spelled (h : ResolvesTo registry program unit) (howned : registry.Owned)
    (hself : ∀ i ∈ unit.imports, i.id ≠ unit.id) (hw : program.Written) :
    unit.Spelled fun te t => (unit.env.typeExpr te).value = some t :=
  (h.spelled_prints howned hw).imp fun hden => hden.2 hself

end ResolvesTo

end Registrar
