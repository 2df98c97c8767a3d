import Registrar.Proofs.Surface.Completeness
import Registrar.Proofs.Surface.Unambiguous

/-!
# Derivations and parsing

The tokens of a derivation make up what it denotes (`Derivation.sound`), and what is made up of tokens is denoted by a
derivation that has them (`derives_program`). So parsing accepts exactly the tokens of derivations, each of which has
one, and gives what it denotes (`items_iff_derivation`).
-/

namespace Registrar.Surface

/-! ## What derivations denote -/

/-- Which tokens make up which value of a rule. -/
def Rule.Tokens : (r : Rule) → List Token → r.Value → Prop
  | .program => fun ts program => ∃ items, RowTokens ItemTokens ts items ∧ .ofItems items = program
  | .item => ItemTokens
  | .importDecl => ImportTokens
  | .importAlias => fun ts name => ∃ s p p₁, ts = [⟨.kwAs, s, p⟩, ⟨.name, name, p₁⟩]
  | .recordDef => RecordTokens
  | .functionDef => FunctionTokens
  | .tag => TagTokens
  | .params => ListTokens ParamTokens
  | .param => ParamTokens
  | .returns => fun ts t => ReturnsTokens ts (some t)
  | .typeExpr => TypeTokens
  | .typeAtom => MemberTokens
  | .block => BlockTokens
  | .stmt => StmtTokens
  | .expr => ExprTokens
  | .nameRef => NameTokens
  | .args => ArgsTokens

/-- A part that may be left out. -/
inductive OptionTokens {α : Type} (part : List Token → α → Prop) : List Token → Option α → Prop
  | none : OptionTokens part [] none
  | some {ts : List Token} {a : α} (h : part ts a) : OptionTokens part ts (some a)

/-- Which tokens make up which values of the parts of a phrase. -/
def Phrase.Tokens : (φ : Phrase) → List Token → φ.Values → Prop
  | .nothing, ts, _ => ts = []
  | .token k after, ts, (t, vs) => ∃ s p us, t = ⟨k, s, p⟩ ∧ ts = t :: us ∧ after.Tokens us vs
  | .rule r after, ts, (v, vs) => ∃ us us', ts = us ++ us' ∧ r.Tokens us v ∧ after.Tokens us' vs
  | .optional group after, ts, (v, vs) =>
    ∃ us us', ts = us ++ us' ∧ OptionTokens group.Tokens us v ∧ after.Tokens us' vs
  | .repeated group after, ts, (vs, ws) =>
    ∃ us us', ts = us ++ us' ∧ RowTokens group.Tokens us vs ∧ after.Tokens us' ws

/-- A rule at the end of a phrase. -/
theorem Phrase.tokens_rule {r : Rule} {ts : List Token} {v : r.Value} {u : Unit} :
    (Phrase.rule r .nothing).Tokens ts (v, u) ↔ r.Tokens ts v := by
  constructor
  · rintro ⟨us, _, rfl, h, rfl⟩
    rwa [List.append_nil]
  · exact fun h => ⟨ts, [], (List.append_nil ts).symm, h, rfl⟩

theorem RowTokens.of_rule {r : Rule} {ts : List Token} {vs : List (Phrase.rule r .nothing).Values}
    (h : RowTokens (Phrase.rule r .nothing).Tokens ts vs) : RowTokens r.Tokens ts (vs.map Prod.fst) := by
  induction h with
  | nil => exact .nil
  | cons h _ ih => exact .cons (Phrase.tokens_rule.mp h) ih

theorem ListTokens.of_row {r : Rule} {us : List Token} {vs : List (Phrase.token .comma (.rule r .nothing)).Values}
    (h : RowTokens (Phrase.token .comma (.rule r .nothing)).Tokens us vs) {ts : List Token} {v : r.Value}
    (hfirst : r.Tokens ts v) : ListTokens r.Tokens (ts ++ us) (v :: vs.map (·.2.1)) := by
  induction h generalizing ts v with
  | nil =>
    rw [List.append_nil]
    exact .one hfirst
  | cons h _ ih =>
    obtain ⟨s, p, _, hcomma, rfl, hv⟩ := h
    rw [hcomma, List.cons_append]
    exact .more hfirst (ih (Phrase.tokens_rule.mp hv))

theorem TypeTokens.of_row {us : List Token} {vs : List (Phrase.token .bar (.rule .typeAtom .nothing)).Values}
    (h : RowTokens (Phrase.token .bar (.rule .typeAtom .nothing)).Tokens us vs) {ts : List Token} {n : Name}
    (hfirst : MemberTokens ts n) : TypeTokens (ts ++ us) ⟨n, vs.map (·.2.1)⟩ := by
  induction h generalizing ts n with
  | nil =>
    rw [List.append_nil]
    exact .one hfirst
  | cons h _ ih =>
    obtain ⟨s, p, _, hbar, rfl, hv⟩ := h
    rw [hbar, List.cons_append]
    exact .more hfirst (ih (Phrase.tokens_rule.mp hv))

theorem NameTokens.head_position {ts : List Token} {n : Name} (h : NameTokens ts n) (rest : List Token) :
    (ts ++ rest).head?.map Token.position = some n.position := by
  cases h <;> rfl

/-- An expression stands where its first token stands. -/
theorem ExprTokens.head_position {ts : List Token} {e : Expr Raw} (h : ExprTokens ts e) :
    ts.head?.map Token.position = some e.position := by
  cases h with
  | name h => cases h <;> rfl
  | callNone h => exact h.head_position _
  | call h hs => exact h.head_position _
  | _ => rfl

namespace Production

variable {right : Phrase} {ts : List Token} {vs : right.Values}

theorem tokens_typeAtom (p : Production .typeAtom right) (h : right.Tokens ts vs) : MemberTokens ts (p.value vs) := by
  cases p with
  | simpleType =>
    obtain ⟨_, _⟩ := vs
    obtain ⟨s, p, _, rfl, rfl, rfl⟩ := h
    exact .name .plain
  | qualifiedType =>
    obtain ⟨_, _, _, _⟩ := vs
    obtain ⟨s, p, _, rfl, rfl, s₁, p₁, _, rfl, rfl, s₂, p₂, _, rfl, rfl, rfl⟩ := h
    exact .name .qualified
  | nilType =>
    obtain ⟨_, _, _⟩ := vs
    obtain ⟨s, p, _, rfl, rfl, s₁, p₁, _, rfl, rfl, rfl⟩ := h
    exact .nil

theorem tokens_expr (p : Production .expr right) (h : right.Tokens ts vs) : ExprTokens ts (p.value vs) := by
  cases p with
  | stringLit =>
    obtain ⟨_, _⟩ := vs
    obtain ⟨s, p, _, rfl, rfl, rfl⟩ := h
    exact .string
  | intLit =>
    obtain ⟨_, _⟩ := vs
    obtain ⟨s, p, _, rfl, rfl, rfl⟩ := h
    exact .int
  | trueLit =>
    obtain ⟨_, _⟩ := vs
    obtain ⟨s, p, _, rfl, rfl, rfl⟩ := h
    exact .yes
  | falseLit =>
    obtain ⟨_, _⟩ := vs
    obtain ⟨s, p, _, rfl, rfl, rfl⟩ := h
    exact .no
  | nilLit =>
    obtain ⟨_, _, _⟩ := vs
    obtain ⟨s, p, _, rfl, rfl, s₁, p₁, _, rfl, rfl, rfl⟩ := h
    exact .nil
  | varRef => exact .name (Phrase.tokens_rule.mp h)
  | call =>
    obtain ⟨n, _, es, _, _⟩ := vs
    obtain ⟨us, _, rfl, hn, s, p, _, rfl, rfl, us', _, rfl, hes, s₁, p₁, _, rfl, rfl, rfl⟩ := h
    cases hes with
    | none => exact .callNone hn
    | some hes => exact .call hn (Phrase.tokens_rule.mp hes)

theorem tokens_stmt (p : Production .stmt right) (h : right.Tokens ts vs) : StmtTokens ts (p.value vs) := by
  cases p with
  | returnStmt =>
    obtain ⟨_, e, _, _⟩ := vs
    obtain ⟨s, p, _, rfl, rfl, us, _, rfl, he, s₁, p₁, _, rfl, rfl, rfl⟩ := h
    cases he with
    | none => exact .retNone
    | some he => exact .ret (Phrase.tokens_rule.mp he)
  | exprStmt =>
    obtain ⟨e, _, _⟩ := vs
    obtain ⟨us, _, rfl, he, s, p, _, rfl, rfl, rfl⟩ := h
    obtain ⟨t, us, rfl⟩ := ExprTokens.exists_cons he
    show StmtTokens _ (.expr e e.position)
    rw [← Option.some.inj (ExprTokens.head_position he)]
    exact .expr he

theorem tokens_param (p : Production .param right) (h : right.Tokens ts vs) : ParamTokens ts (p.value vs) := by
  cases p with
  | requiredParam =>
    obtain ⟨t, _, _⟩ := vs
    obtain ⟨us, _, rfl, ht, s, p, _, rfl, rfl, rfl⟩ := h
    exact .required ht
  | defaultableParam =>
    obtain ⟨t, _, _, e, _⟩ := vs
    obtain ⟨us, _, rfl, ht, s, p, _, rfl, rfl, s₁, p₁, _, rfl, rfl, he⟩ := h
    exact .defaultable ht (Phrase.tokens_rule.mp he)
  | restParam =>
    obtain ⟨t, _, _, _⟩ := vs
    obtain ⟨us, _, rfl, ht, s, p, _, rfl, rfl, s₁, p₁, _, rfl, rfl, rfl⟩ := h
    exact .rest ht

theorem tokens_functionDef (p : Production .functionDef right) (h : right.Tokens ts vs) :
    FunctionTokens ts (p.value vs) := by
  cases p with
  | functionDef =>
    obtain ⟨tags, visibility, _, _, _, ps, _, r, body, _⟩ := vs
    obtain ⟨us, _, rfl, htags, us₁, _, rfl, hvisibility, s, p, _, rfl, rfl, s₁, p₁, _, rfl, rfl, s₂, p₂, _, rfl, rfl,
      us₂, _, rfl, hps, s₃, p₃, _, rfl, rfl, us₃, _, rfl, hr, hbody⟩ := h
    have hvisibility : PublicTokens us₁ visibility.isSome := by
      cases hvisibility with
      | none => exact .no
      | some h =>
        obtain ⟨s, p, _, hword, rfl, rfl⟩ := h
        rw [hword]
        exact .yes
    have hps : ParamsTokens us₂ ((ps.map Prod.fst).getD []) := by
      cases hps with
      | none => exact .none
      | some h => exact .some (Phrase.tokens_rule.mp h)
    have hr : ReturnsTokens us₃ (r.map Prod.fst) := by
      cases hr with
      | none => exact .none
      | some h => exact Phrase.tokens_rule.mp h
    exact .mk htags.of_rule hvisibility (.mk hps hr (Phrase.tokens_rule.mp hbody))

theorem tokens_importDecl (p : Production .importDecl right) (h : right.Tokens ts vs) :
    ImportTokens ts (p.value vs) := by
  cases p with
  | importDecl =>
    obtain ⟨_, _, _, _, a, _, _⟩ := vs
    obtain ⟨s, p, _, rfl, rfl, s₁, p₁, _, rfl, rfl, s₂, p₂, _, rfl, rfl, s₃, p₃, _, rfl, rfl, us, _, rfl, ha,
      s₄, p₄, _, rfl, rfl, rfl⟩ := h
    cases ha with
    | none => exact .plain
    | some ha =>
      obtain ⟨s₅, p₅, p₆, rfl⟩ := Phrase.tokens_rule.mp ha
      exact .asName

/-- What a production makes of the values of its parts is made up of their tokens. -/
theorem tokens {r : Rule} (p : Production r right) (h : right.Tokens ts vs) : r.Tokens ts (p.value vs) := by
  cases r with
  | program =>
    cases p with
    | program =>
      obtain ⟨items, _⟩ := vs
      obtain ⟨us, _, rfl, hitems, rfl⟩ := h
      rw [List.append_nil]
      exact ⟨_, hitems.of_rule, rfl⟩
  | item =>
    cases p with
    | importItem => exact .use (Phrase.tokens_rule.mp h)
    | recordItem => exact .record (Phrase.tokens_rule.mp h)
    | functionItem => exact .function (Phrase.tokens_rule.mp h)
  | importDecl => exact p.tokens_importDecl h
  | importAlias =>
    cases p with
    | importAlias =>
      obtain ⟨_, _, _⟩ := vs
      obtain ⟨s, p, _, rfl, rfl, s₁, p₁, _, rfl, rfl, rfl⟩ := h
      exact ⟨s, p, p₁, rfl⟩
  | recordDef =>
    cases p with
    | recordDef =>
      obtain ⟨_, _, _, _, _, semicolon, _⟩ := vs
      obtain ⟨s, p, _, rfl, rfl, s₁, p₁, _, rfl, rfl, s₂, p₂, _, rfl, rfl, s₃, p₃, _, rfl, rfl, s₄, p₄, _, rfl, rfl,
        us, _, rfl, hsemicolon, rfl⟩ := h
      rw [List.append_nil]
      refine .mk ?_
      cases hsemicolon with
      | none => exact .none
      | some h =>
        obtain ⟨s, p, _, hsign, rfl, rfl⟩ := h
        rw [hsign]
        exact .some
  | functionDef => exact p.tokens_functionDef h
  | tag =>
    cases p with
    | qualifiedTag =>
      obtain ⟨_, _, _, _, _⟩ := vs
      obtain ⟨s, p, _, rfl, rfl, s₁, p₁, _, rfl, rfl, s₂, p₂, _, rfl, rfl, s₃, p₃, _, rfl, rfl, rfl⟩ := h
      exact .qualified
    | localTag =>
      obtain ⟨_, _, _⟩ := vs
      obtain ⟨s, p, _, rfl, rfl, s₁, p₁, _, rfl, rfl, rfl⟩ := h
      exact .plain
  | params =>
    cases p with
    | params =>
      obtain ⟨v, others, _⟩ := vs
      obtain ⟨us, _, rfl, hv, us', _, rfl, hothers, rfl⟩ := h
      rw [List.append_nil]
      exact .of_row hothers hv
  | param => exact p.tokens_param h
  | returns =>
    cases p with
    | returns =>
      obtain ⟨_, t, _⟩ := vs
      obtain ⟨s, p, _, rfl, rfl, ht⟩ := h
      exact .some (Phrase.tokens_rule.mp ht)
  | typeExpr =>
    cases p with
    | typeExpr =>
      obtain ⟨v, others, _⟩ := vs
      obtain ⟨us, _, rfl, hv, us', _, rfl, hothers, rfl⟩ := h
      rw [List.append_nil]
      exact .of_row hothers hv
  | typeAtom => exact p.tokens_typeAtom h
  | block =>
    cases p with
    | block =>
      obtain ⟨_, stmts, _, _⟩ := vs
      obtain ⟨s, p, _, rfl, rfl, us, _, rfl, hstmts, s₁, p₁, _, rfl, rfl, rfl⟩ := h
      exact .mk hstmts.of_rule
  | stmt => exact p.tokens_stmt h
  | expr => exact p.tokens_expr h
  | nameRef =>
    cases p with
    | nameRef =>
      obtain ⟨_, q, _⟩ := vs
      obtain ⟨s, p, _, rfl, rfl, us, _, rfl, hq, rfl⟩ := h
      rw [List.append_nil]
      cases hq with
      | none => exact .plain
      | @some _ v h =>
        obtain ⟨_, _, _⟩ := v
        obtain ⟨s₁, p₁, _, rfl, rfl, s₂, p₂, _, rfl, rfl, rfl⟩ := h
        exact .qualified
  | args =>
    cases p with
    | args =>
      obtain ⟨v, others, _⟩ := vs
      obtain ⟨us, _, rfl, hv, us', _, rfl, hothers, rfl⟩ := h
      rw [List.append_nil]
      exact argsTokens_of_list (.of_row hothers hv)

end Production

/-- The tokens of a derivation make up what it denotes. -/
theorem Derivation.sound {φ : Phrase} (d : Derivation φ) : φ.Tokens d.tokens d.values := by
  induction d with
  | nothing => rfl
  | token t h rest ih => exact ⟨t.text, t.position, rest.tokens, by rw [← h], rfl, ih⟩
  | rule p parts rest ihp ih => exact ⟨parts.tokens, rest.tokens, rfl, p.tokens ihp, ih⟩
  | absent rest ih => exact ⟨[], rest.tokens, rfl, .none, ih⟩
  | present first rest ihf ih => exact ⟨first.tokens, rest.tokens, rfl, .some ihf, ih⟩
  | stop rest ih => exact ⟨[], rest.tokens, rfl, .nil, ih⟩
  | again first rest ihf ih =>
    obtain ⟨us, us', htokens, hrow, hafter⟩ := ih
    exact ⟨first.tokens ++ us, us', by rw [tokens, htokens, List.append_assoc], .cons ihf hrow, hafter⟩

/-! ## What is denoted by a derivation -/

/-- Values for which there is a derivation with some tokens. -/
def Phrase.Derives (φ : Phrase) (ts : List Token) (vs : φ.Values) : Prop :=
  ∃ d : Derivation φ, d.tokens = ts ∧ d.values = vs

/-- A value of a rule for which there is a derivation with some tokens. -/
def Rule.Derives (r : Rule) (ts : List Token) (v : r.Value) : Prop :=
  ∃ d : Derivation (.rule r .nothing), d.tokens = ts ∧ d.value = v

namespace Phrase.Derives

variable {group after : Phrase} {ts us : List Token} {vs : after.Values}

theorem nothing : Phrase.nothing.Derives [] () := ⟨.nothing, rfl, rfl⟩

theorem token {k : Terminal} {s : Text} {p : Position} (h : after.Derives ts vs) :
    (Phrase.token k after).Derives (⟨k, s, p⟩ :: ts) (⟨k, s, p⟩, vs) := by
  obtain ⟨d, rfl, rfl⟩ := h
  exact ⟨.token ⟨k, s, p⟩ rfl d, rfl, rfl⟩

theorem rule {r : Rule} {v : r.Value} (hr : r.Derives us v) (h : after.Derives ts vs) :
    (Phrase.rule r after).Derives (us ++ ts) (v, vs) := by
  obtain ⟨d, rfl, rfl⟩ := h
  obtain ⟨dr, rfl, rfl⟩ := hr
  cases dr with
  | rule p parts rest =>
    cases rest
    exact ⟨.rule p parts d, by simp [Derivation.tokens], rfl⟩

theorem absent (h : after.Derives ts vs) : (Phrase.optional group after).Derives ts (none, vs) := by
  obtain ⟨d, rfl, rfl⟩ := h
  exact ⟨.absent d, rfl, rfl⟩

theorem present {v : group.Values} (hg : group.Derives us v) (h : after.Derives ts vs) :
    (Phrase.optional group after).Derives (us ++ ts) (some v, vs) := by
  obtain ⟨d, rfl, rfl⟩ := h
  obtain ⟨dg, rfl, rfl⟩ := hg
  exact ⟨.present dg d, rfl, rfl⟩

theorem stop (h : after.Derives ts vs) : (Phrase.repeated group after).Derives ts ([], vs) := by
  obtain ⟨d, rfl, rfl⟩ := h
  exact ⟨.stop d, rfl, rfl⟩

theorem again {v : group.Values} {ws : List group.Values} (hg : group.Derives us v)
    (h : (Phrase.repeated group after).Derives ts (ws, vs)) :
    (Phrase.repeated group after).Derives (us ++ ts) (v :: ws, vs) := by
  obtain ⟨d, rfl, hd⟩ := h
  obtain ⟨dg, rfl, rfl⟩ := hg
  exact ⟨.again dg d, rfl, by rw [Derivation.values, hd]⟩

/-- A rule at the end of a phrase. -/
theorem last {r : Rule} {v : r.Value} (h : r.Derives ts v) : (Phrase.rule r .nothing).Derives ts (v, ()) := by
  obtain ⟨d, rfl, rfl⟩ := h
  exact ⟨d, rfl, rfl⟩

end Phrase.Derives

theorem Production.derives {r : Rule} {right : Phrase} (p : Production r right) {ts : List Token} {vs : right.Values}
    (h : right.Derives ts vs) : r.Derives ts (p.value vs) := by
  obtain ⟨d, rfl, rfl⟩ := h
  exact ⟨.rule p d .nothing, List.append_nil _, rfl⟩

/-- One value and others behind separators. -/
abbrev Phrase.separated (r : Rule) (k : Terminal) : Phrase :=
  .rule r <| .repeated (.token k <| .rule r .nothing) .nothing

section

variable {ts us : List Token}

theorem Phrase.Derives.one {r : Rule} {k : Terminal} {v : r.Value} (h : r.Derives ts v) :
    (Phrase.separated r k).Derives ts (v, [], ()) := by
  simpa using Phrase.Derives.rule h (.stop .nothing)

theorem Phrase.Derives.more {r : Rule} {k : Terminal} {s : Text} {p : Position} {v v' : r.Value}
    {ws : List (Phrase.token k (.rule r .nothing)).Values} (h : r.Derives ts v)
    (hs : (Phrase.separated r k).Derives us (v', ws, ())) :
    (Phrase.separated r k).Derives (ts ++ ⟨k, s, p⟩ :: us) (v, (⟨k, s, p⟩, v', ()) :: ws, ()) := by
  obtain ⟨d, rfl, hd⟩ := hs
  cases d with
  | rule q parts rest =>
    obtain ⟨rfl, hrest⟩ := Prod.mk.inj hd
    have hparts : r.Derives parts.tokens (q.value parts.values) := q.derives ⟨parts, rfl, rfl⟩
    exact .rule h (.again (.token (.last hparts)) ⟨rest, rfl, hrest⟩)

theorem NameTokens.derives {n : Name} (h : NameTokens ts n) : Rule.nameRef.Derives ts n := by
  cases h with
  | plain => exact Production.nameRef.derives (.token (.absent .nothing))
  | qualified => exact Production.nameRef.derives (.token (.present (.token (.token .nothing)) .nothing))

theorem MemberTokens.derives {n : Name} (h : MemberTokens ts n) : Rule.typeAtom.Derives ts n := by
  cases h with
  | name h =>
    cases h with
    | plain => exact Production.simpleType.derives (.token .nothing)
    | qualified => exact Production.qualifiedType.derives (.token (.token (.token .nothing)))
  | nil => exact Production.nilType.derives (.token (.token .nothing))

theorem TypeTokens.derives {t : TypeExpr} (h : TypeTokens ts t) : Rule.typeExpr.Derives ts t := by
  have hlist : ∃ vs, t.others = vs.map (·.2.1) ∧ (Phrase.separated .typeAtom .bar).Derives ts (t.first, vs, ()) := by
    induction h with
    | one h => exact ⟨[], rfl, .one h.derives⟩
    | more h _ ih =>
      obtain ⟨vs, hvs, hs⟩ := ih
      exact ⟨_, by rw [List.map_cons, ← hvs]; rfl, .more h.derives hs⟩
  obtain ⟨vs, hvs, hs⟩ := hlist
  obtain ⟨first, others⟩ := t
  obtain rfl : others = vs.map (·.2.1) := hvs
  exact Production.typeExpr.derives hs

mutual
theorem ExprTokens.derives : {ts : List Token} → {e : Expr Raw} → ExprTokens ts e → Rule.expr.Derives ts e
  | _, _, .string => Production.stringLit.derives (.token .nothing)
  | _, _, .int => Production.intLit.derives (.token .nothing)
  | _, _, .yes => Production.trueLit.derives (.token .nothing)
  | _, _, .no => Production.falseLit.derives (.token .nothing)
  | _, _, .nil => Production.nilLit.derives (.token (.token .nothing))
  | _, _, .name h => Production.varRef.derives (.last h.derives)
  | _, _, .callNone h => Production.call.derives (.rule h.derives (.token (.absent (.token .nothing))))
  | _, _, .call h hs => by
    obtain ⟨v, vs, rfl, hvs⟩ := ArgsTokens.derives hs
    exact Production.call.derives
      (.rule h.derives (.token (.present (.last (Production.args.derives hvs)) (.token .nothing))))

theorem ArgsTokens.derives : {ts : List Token} → {es : List (Expr Raw)} → ArgsTokens ts es →
    ∃ v vs, es = v :: vs.map (·.2.1) ∧ (Phrase.separated .expr .comma).Derives ts (v, vs, ())
  | _, _, .one h => ⟨_, [], rfl, .one (ExprTokens.derives h)⟩
  | _, _, .more h hs => by
    obtain ⟨v, vs, rfl, hvs⟩ := ArgsTokens.derives hs
    exact ⟨_, _, rfl, .more (ExprTokens.derives h) hvs⟩
end

theorem StmtTokens.derives {s : Stmt Raw} (h : StmtTokens ts s) : Rule.stmt.Derives ts s := by
  cases h with
  | retNone => exact Production.returnStmt.derives (.token (.absent (.token .nothing)))
  | ret h => exact Production.returnStmt.derives (.token (.present (.last h.derives) (.token .nothing)))
  | @expr t ts e s p h =>
    rw [Option.some.inj h.head_position]
    exact Production.exprStmt.derives (.rule h.derives (.token .nothing))

section

variable {r : Rule} {part : List Token → r.Value → Prop} (hpart : ∀ {ts v}, part ts v → r.Derives ts v)

include hpart

theorem RowTokens.derives {as : List r.Value} (h : RowTokens part ts as) {after : Phrase} {vs : after.Values}
    (hafter : after.Derives us vs) :
    ∃ ws, ws.map Prod.fst = as ∧ (Phrase.repeated (.rule r .nothing) after).Derives (ts ++ us) (ws, vs) := by
  induction h with
  | nil => exact ⟨[], rfl, .stop hafter⟩
  | cons h _ ih =>
    obtain ⟨ws, rfl, hws⟩ := ih
    rw [List.append_assoc]
    exact ⟨_, rfl, .again (.last (hpart h)) hws⟩

theorem ListTokens.derives {as : List r.Value} (h : ListTokens part ts as) :
    ∃ v vs, as = v :: vs.map (·.2.1) ∧ (Phrase.separated r .comma).Derives ts (v, vs, ()) := by
  induction h with
  | one h => exact ⟨_, [], rfl, .one (hpart h)⟩
  | more h _ ih =>
    obtain ⟨v, vs, rfl, hvs⟩ := ih
    exact ⟨_, _, rfl, .more (hpart h) hvs⟩

end

theorem BlockTokens.derives {body : List (Stmt Raw)} (h : BlockTokens ts body) : Rule.block.Derives ts body := by
  cases h with
  | mk h =>
    obtain ⟨ws, rfl, hws⟩ := h.derives StmtTokens.derives (.token .nothing)
    exact Production.block.derives (.token hws)

theorem ParamTokens.derives {q : Param Raw} (h : ParamTokens ts q) : Rule.param.Derives ts q := by
  cases h with
  | required h => exact Production.requiredParam.derives (.rule h.derives (.token .nothing))
  | defaultable h he =>
    exact Production.defaultableParam.derives (.rule h.derives (.token (.token (.last he.derives))))
  | rest h => exact Production.restParam.derives (.rule h.derives (.token (.token .nothing)))

theorem TagTokens.derives {t : Tag} (h : TagTokens ts t) : Rule.tag.Derives ts t := by
  cases h with
  | plain => exact Production.localTag.derives (.token (.token .nothing))
  | qualified => exact Production.qualifiedTag.derives (.token (.token (.token (.token .nothing))))

section

variable {after : Phrase} {vs : after.Values} (hafter : after.Derives us vs)

include hafter

theorem ParamsTokens.derives {ps : List (Param Raw)} (h : ParamsTokens ts ps) :
    ∃ v, (v.map Prod.fst).getD [] = ps ∧
      (Phrase.optional (.rule .params .nothing) after).Derives (ts ++ us) (v, vs) := by
  cases h with
  | none => exact ⟨.none, rfl, .absent hafter⟩
  | some h =>
    obtain ⟨v, vs, rfl, hvs⟩ := h.derives ParamTokens.derives
    exact ⟨.some _, rfl, .present (.last (Production.params.derives hvs)) hafter⟩

theorem ReturnsTokens.derives {t : Option TypeExpr} (h : ReturnsTokens ts t) :
    ∃ v, v.map Prod.fst = t ∧ (Phrase.optional (.rule .returns .nothing) after).Derives (ts ++ us) (v, vs) := by
  cases h with
  | none => exact ⟨.none, rfl, .absent hafter⟩
  | some h => exact ⟨.some _, rfl, .present (.last (Production.returns.derives (.token (.last h.derives)))) hafter⟩

theorem PublicTokens.derives {isPublic : Bool} (h : PublicTokens ts isPublic) :
    ∃ v, v.isSome = isPublic ∧ (Phrase.optional (.token .kwPublic .nothing) after).Derives (ts ++ us) (v, vs) := by
  cases h with
  | no => exact ⟨.none, rfl, .absent hafter⟩
  | yes => exact ⟨.some _, rfl, .present (.token .nothing) hafter⟩

end

theorem FunctionTokens.derives {f : Function Raw} (h : FunctionTokens ts f) : Rule.functionDef.Derives ts f := by
  cases h with
  | mk htags hvisibility hbare =>
    cases hbare with
    | @mk params returns block ps r body s n s₁ s₂ p p₁ p₂ p₃ hps hr hb =>
      -- from the last part to the first: what derives a part is given what derives all that follows
      obtain ⟨r, rfl, hreturns⟩ := hr.derives (.last hb.derives)
      obtain ⟨ps, rfl, hparams⟩ := hps.derives (.token (s := s₂) (p := p₃) hreturns)
      obtain ⟨visibility, rfl, hpublic⟩ := hvisibility.derives
        (.token (s := s) (p := p₁) (.token (s := n) (p := p) (.token (s := s₁) (p := p₂) hparams)))
      obtain ⟨tags, rfl, hall⟩ := htags.derives TagTokens.derives hpublic
      exact Production.functionDef.derives hall

theorem ImportTokens.derives {i : Import} (h : ImportTokens ts i) : Rule.importDecl.Derives ts i := by
  cases h with
  | plain => exact Production.importDecl.derives (.token (.token (.token (.token (.absent (.token .nothing))))))
  | asName =>
    exact Production.importDecl.derives (.token (.token (.token (.token
      (.present (.last (Production.importAlias.derives (.token (.token .nothing)))) (.token .nothing))))))

theorem RecordTokens.derives {r : Record} (h : RecordTokens ts r) : Rule.recordDef.Derives ts r := by
  cases h with
  | mk h =>
    cases h with
    | none => exact Production.recordDef.derives (.token (.token (.token (.token (.token (.absent .nothing))))))
    | some =>
      exact Production.recordDef.derives
        (.token (.token (.token (.token (.token (.present (.token .nothing) .nothing))))))

theorem ItemTokens.derives {i : Item Raw} (h : ItemTokens ts i) : Rule.item.Derives ts i := by
  cases h with
  | use h => exact Production.importItem.derives (.last h.derives)
  | record h => exact Production.recordItem.derives (.last h.derives)
  | function h => exact Production.functionItem.derives (.last h.derives)

end

/-! ## Parsing -/

/-- What a derivation of a program denotes is the program of the items that its tokens make up, and every such program
is denoted by one. -/
theorem derives_program {tokens : List Token} {program : Program Raw} :
    Rule.program.Derives tokens program ↔
      ∃ parsed, RowTokens ItemTokens tokens parsed ∧ .ofItems parsed = program := by
  constructor
  · rintro ⟨d, rfl, rfl⟩
    exact Phrase.tokens_rule.mp d.sound
  · rintro ⟨parsed, h, rfl⟩
    obtain ⟨ws, rfl, hws⟩ := h.derives ItemTokens.derives .nothing
    rw [List.append_nil] at hws
    exact Production.program.derives hws

/-- Tokens are parsed, and give a program, exactly if there is a derivation that has these tokens and denotes this
program; and tokens have one derivation at most. -/
theorem items_iff_derivation :
    (∀ (tokens : List Token) (program : Program Raw), (items tokens).map Program.ofItems = .ok program ↔
      ∃ d : Derivation (.rule .program .nothing), d.tokens = tokens ∧ d.value = program) ∧
    Function.Injective (Derivation.tokens : Derivation (.rule .program .nothing) → List Token) := by
  refine ⟨fun tokens program => ?_, Derivation.tokens_injective⟩
  rw [map_eq_ok]
  simp only [items_iff]
  exact derives_program.symm

end Registrar.Surface
