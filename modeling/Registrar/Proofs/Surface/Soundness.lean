import Registrar.Proofs.Rows
import Registrar.Proofs.Surface.Grammar
import Registrar.Surface.Parse.Items

/-!
# What is read is in the grammar

Every parser takes tokens off the front of a list that make up the tree that it gives. The parsers call themselves on
fewer tokens, and so do the proofs. A type and an expression are moreover followed by a token that can follow one.
-/

namespace Registrar.Surface

theorem expect_eq_ok {k : Terminal} {tokens rest : List Token} {t : Token} {hlt : rest.length < tokens.length} :
    expect k tokens = .ok ⟨t, rest, hlt⟩ ↔ tokens = t :: rest ∧ t.terminal = k := by
  cases tokens with
  | nil => simp [expect]
  | cons t' rest' =>
    rw [expect]
    by_cases hk : t'.terminal = k
    · simp only [hk, if_true, Except.ok.injEq, Parsed.mk.injEq, List.cons.injEq]
      constructor
      · rintro ⟨rfl, rfl⟩
        exact ⟨⟨rfl, rfl⟩, hk⟩
      · exact fun h => h.1
    · simp only [hk, if_false, reduceCtorEq, List.cons.injEq, false_iff, not_and]
      rintro ⟨rfl, -⟩
      exact hk

/-- A result that is handed on keeps what is left. -/
theorem map_within_eq_ok {α β : Type} {tokens all rest : List Token} {r : Except Stuck (Parsed α tokens)} {f : α → β}
    {hle : tokens.length ≤ all.length} {b : β} {hlt : rest.length < all.length} :
    (r.map fun p => (p.map f).within hle) = .ok ⟨b, rest, hlt⟩ ↔ ∃ a hlt', r = .ok ⟨a, rest, hlt'⟩ ∧ f a = b := by
  rw [map_eq_ok]
  constructor
  · rintro ⟨⟨a, rest', hlt'⟩, hr, heq⟩
    obtain ⟨hb, rfl⟩ := Parsed.mk.inj heq
    exact ⟨a, hlt', hr, hb⟩
  · rintro ⟨a, hlt', hr, rfl⟩
    exact ⟨⟨a, rest, hlt'⟩, hr, rfl⟩

/-! ## Types -/

mutual
/-- What is read as a type is one. -/
theorem typeExpr_sound {follow extra : List Terminal} {tokens rest : List Token} {t : TypeExpr}
    {hlt : rest.length < tokens.length} (h : typeExpr follow extra tokens = .ok ⟨t, rest, hlt⟩) :
    ∃ ts, tokens = ts ++ rest ∧ TypeTokens ts t ∧ terminalOf rest ∈ typeEnds := by
  unfold typeExpr at h
  split at h
  · obtain ⟨us, rfl, hall, hends⟩ := typeTail_sound h
    exact ⟨_, rfl, hall .nil, hends⟩
  · simp at h
  · obtain ⟨us, rfl, hall, hends⟩ := typeTail_sound h
    exact ⟨_, rfl, hall (.name .qualified), hends⟩
  · simp at h
  · obtain ⟨us, rfl, hall, hends⟩ := typeTail_sound h
    exact ⟨_, rfl, hall (.name .plain), hends⟩
  · simp at h
termination_by tokens.length

theorem typeTail_sound {follow extra : List Terminal} {first : Name} {all tokens rest : List Token} {t : TypeExpr}
    {hall : tokens.length < all.length} {hlt : rest.length < all.length}
    (h : typeTail follow extra first tokens hall = .ok ⟨t, rest, hlt⟩) :
    ∃ us, tokens = us ++ rest ∧ (∀ {ts}, MemberTokens ts first → TypeTokens (ts ++ us) t) ∧
      terminalOf rest ∈ typeEnds := by
  unfold typeTail at h
  split at h
  · next s p _ _ =>
    obtain ⟨⟨t', rest', hlt'⟩, ht', heq⟩ := map_eq_ok.mp h
    obtain ⟨rfl, rfl⟩ := Parsed.mk.inj heq
    obtain ⟨us, rfl, htype, hends⟩ := typeExpr_sound ht'
    exact ⟨⟨.bar, s, p⟩ :: us, rfl, fun hm => .more hm htype, hends⟩
  · split at h
    · next hends =>
      obtain ⟨rfl, rfl⟩ := Parsed.mk.inj (Except.ok.inj h)
      exact ⟨[], rfl, fun hm => by rw [List.append_nil]; exact .one hm, hends⟩
    · simp at h
termination_by tokens.length
end

/-! ## Expressions -/

theorem ended_eq_ok {follow extra : List Terminal} {e e' : Expr Raw} {all rest rest' : List Token}
    {h : rest.length < all.length} {h' : rest'.length < all.length} :
    ended follow extra e rest h = .ok ⟨e', rest', h'⟩ ↔ e = e' ∧ rest = rest' ∧ terminalOf rest ∈ exprEnds := by
  unfold ended
  by_cases hends : terminalOf rest ∈ exprEnds
  · simp [hends]
  · simp [hends]

mutual
/-- What is read as an expression is one. -/
theorem expr_sound {follow extra : List Terminal} {tokens rest : List Token} {e : Expr Raw}
    {hlt : rest.length < tokens.length} (h : expr follow extra tokens = .ok ⟨e, rest, hlt⟩) :
    ∃ ts, tokens = ts ++ rest ∧ ExprTokens ts e ∧ terminalOf rest ∈ exprEnds := by
  unfold expr at h
  split at h
  · obtain ⟨rfl, rfl, hends⟩ := ended_eq_ok.mp h
    exact ⟨_, rfl, .string, hends⟩
  · obtain ⟨rfl, rfl, hends⟩ := ended_eq_ok.mp h
    exact ⟨_, rfl, .int, hends⟩
  · obtain ⟨rfl, rfl, hends⟩ := ended_eq_ok.mp h
    exact ⟨_, rfl, .yes, hends⟩
  · obtain ⟨rfl, rfl, hends⟩ := ended_eq_ok.mp h
    exact ⟨_, rfl, .no, hends⟩
  · obtain ⟨rfl, rfl, hends⟩ := ended_eq_ok.mp h
    exact ⟨_, rfl, .nil, hends⟩
  · simp at h
  · obtain ⟨us, rfl, hall, hends⟩ := named_sound h
    exact ⟨_, rfl, hall .qualified, hends⟩
  · simp at h
  · obtain ⟨us, rfl, hall, hends⟩ := named_sound h
    exact ⟨_, rfl, hall .plain, hends⟩
  · simp at h
termination_by (tokens.length, 0)

theorem named_sound {follow extra : List Terminal} {n : Name} {all tokens rest : List Token} {e : Expr Raw}
    {hall : tokens.length < all.length} {hlt : rest.length < all.length}
    (h : named follow extra n tokens hall = .ok ⟨e, rest, hlt⟩) :
    ∃ us, tokens = us ++ rest ∧ (∀ {ts}, NameTokens ts n → ExprTokens (ts ++ us) e) ∧
      terminalOf rest ∈ exprEnds := by
  unfold named at h
  split at h
  · obtain ⟨rfl, rfl, hends⟩ := ended_eq_ok.mp h
    exact ⟨_, rfl, .callNone, hends⟩
  · next s p _ _ _ =>
    split at h
    · simp at h
    · next as has =>
      obtain ⟨es, after, hafter⟩ := as
      obtain ⟨us, s₁, p₁, rfl, hargs⟩ := args_sound has
      obtain ⟨rfl, rfl, hends⟩ := ended_eq_ok.mp h
      exact ⟨⟨.lparen, s, p⟩ :: (us ++ [⟨.rparen, s₁, p₁⟩]), by simp, fun hn => .call hn hargs, hends⟩
  · obtain ⟨rfl, rfl, hends⟩ := ended_eq_ok.mp h
    exact ⟨[], rfl, fun hn => by rw [List.append_nil]; exact .name hn, hends⟩
termination_by (tokens.length, 0)

theorem args_sound {extra : List Terminal} {tokens rest : List Token} {es : List (Expr Raw)}
    {hlt : rest.length < tokens.length} (h : args extra tokens = .ok ⟨es, rest, hlt⟩) :
    ∃ us s p, tokens = us ++ ⟨.rparen, s, p⟩ :: rest ∧ ArgsTokens us es := by
  unfold args at h
  split at h
  · simp at h
  · next first hfirst =>
    obtain ⟨e, after, hafter⟩ := first
    obtain ⟨ts, rfl, hexpr, -⟩ := expr_sound hfirst
    split at h
    · next s p more hmore =>
      dsimp only at h hmore
      split at h
      · simp at h
      · next others hothers =>
        obtain ⟨es', rest', hrest'⟩ := others
        obtain ⟨us, s', p', rfl, hargs⟩ := args_sound hothers
        obtain ⟨rfl, rfl⟩ := Parsed.mk.inj (Except.ok.inj h)
        exact ⟨ts ++ ⟨.comma, s, p⟩ :: us, s', p', by simp [hmore], .more hexpr hargs⟩
    · next s p more hmore =>
      obtain ⟨rfl, rfl⟩ := Parsed.mk.inj (Except.ok.inj h)
      exact ⟨ts, s, p, by rw [← hmore], .one hexpr⟩
    · simp at h
termination_by (tokens.length, 1)
end

theorem ExprTokens.exists_cons {ts : List Token} {e : Expr Raw} (h : ExprTokens ts e) : ∃ t us, ts = t :: us := by
  refine List.exists_cons_of_ne_nil ?_
  have hname : ∀ {us n}, NameTokens us n → us ≠ [] := by
    intro us n hn
    cases hn <;> simp
  cases h with
  | name hn => exact hname hn
  | callNone hn => simp
  | call hn hs => simp
  | _ => simp

/-! ## Statements -/

theorem block_sound {tokens rest : List Token} {body : List (Stmt Raw)} {hlt : rest.length < tokens.length}
    (h : block tokens = .ok ⟨body, rest, hlt⟩) :
    ∃ ts s p, tokens = ts ++ ⟨.rbrace, s, p⟩ :: rest ∧ RowTokens StmtTokens ts body := by
  induction hlen : tokens.length using Nat.strongRecOn generalizing tokens rest body with
  | _ n ih =>
    subst hlen
    unfold block at h
    split at h
    · next s p _ =>
      obtain ⟨rfl, rfl⟩ := Parsed.mk.inj (Except.ok.inj h)
      exact ⟨[], s, p, rfl, .nil⟩
    · next s p s₁ p₁ after =>
      split at h
      · simp at h
      · next more hmore =>
        obtain ⟨body', rest', hlt'⟩ := more
        obtain ⟨ts, s₂, p₂, rfl, hrow⟩ := ih _ (length_lt_cons_cons _ _ _) hmore rfl
        obtain ⟨rfl, rfl⟩ := Parsed.mk.inj (Except.ok.inj h)
        exact ⟨_, s₂, p₂, rfl, .cons .retNone hrow⟩
    · next s p after _ =>
      split at h
      · simp at h
      · next first hfirst =>
        obtain ⟨e, after', hafter'⟩ := first
        obtain ⟨us, rfl, hexpr, -⟩ := expr_sound hfirst
        split at h
        · next s₁ p₁ after'' heq =>
          dsimp only at heq h
          subst heq
          split at h
          · simp at h
          · next more hmore =>
            obtain ⟨body', rest', hlt'⟩ := more
            obtain ⟨ts, s₂, p₂, rfl, hrow⟩ := ih _ (by simp; omega) hmore rfl
            obtain ⟨rfl, rfl⟩ := Parsed.mk.inj (Except.ok.inj h)
            exact ⟨⟨.kwReturn, s, p⟩ :: (us ++ [⟨.semicolon, s₁, p₁⟩]) ++ ts, s₂, p₂, by simp,
              .cons (.ret hexpr) hrow⟩
        · simp at h
    · split at h
      · simp at h
      · next first hfirst =>
        obtain ⟨e, after', hafter'⟩ := first
        obtain ⟨us, rfl, hexpr, -⟩ := expr_sound hfirst
        split at h
        · next s₁ p₁ after'' heq =>
          dsimp only at heq h
          subst heq
          split at h
          · simp at h
          · next more hmore =>
            obtain ⟨body', rest', hlt'⟩ := more
            obtain ⟨ts, s₂, p₂, rfl, hrow⟩ := ih _ (by simp; omega) hmore rfl
            obtain ⟨rfl, rfl⟩ := Parsed.mk.inj (Except.ok.inj h)
            obtain ⟨t, us, rfl⟩ := hexpr.exists_cons
            exact ⟨t :: (us ++ [⟨.semicolon, s₁, p₁⟩]) ++ ts, s₂, p₂, by simp, .cons (.expr hexpr) hrow⟩
        · simp at h

/-! ## Functions -/

theorem param_sound {extra : List Terminal} {tokens rest : List Token} {q : Param Raw}
    {hlt : rest.length < tokens.length} (h : param extra tokens = .ok ⟨q, rest, hlt⟩) :
    ∃ ts, tokens = ts ++ rest ∧ ParamTokens ts q := by
  unfold param at h
  split at h
  · simp at h
  · next type htype =>
    obtain ⟨t, after, hafter⟩ := type
    obtain ⟨ts, rfl, ht, -⟩ := typeExpr_sound htype
    split at h
    · next n p s p₁ after' heq =>
      dsimp only at heq h
      subst heq
      split at h
      · simp at h
      · next e he =>
        obtain ⟨e, after'', hafter''⟩ := e
        obtain ⟨us, rfl, hexpr, -⟩ := expr_sound he
        obtain ⟨rfl, rfl⟩ := Parsed.mk.inj (Except.ok.inj h)
        exact ⟨ts ++ ⟨.name, n, p⟩ :: ⟨.equals, s, p₁⟩ :: us, by simp, .defaultable ht hexpr⟩
    · next n p after' _ heq =>
      dsimp only at heq h
      subst heq
      split at h
      · obtain ⟨rfl, rfl⟩ := Parsed.mk.inj (Except.ok.inj h)
        exact ⟨ts ++ [⟨.name, n, p⟩], by simp, .required ht⟩
      · simp at h
    · next s p₁ n p after' heq =>
      dsimp only at heq h
      subst heq
      obtain ⟨rfl, rfl⟩ := Parsed.mk.inj (Except.ok.inj h)
      exact ⟨ts ++ [⟨.ellipsis, s, p₁⟩, ⟨.name, n, p⟩], by simp, .rest ht⟩
    · simp at h
    · simp at h

theorem params_sound {extra : List Terminal} {tokens rest : List Token} {qs : List (Param Raw)}
    {hlt : rest.length < tokens.length} (h : params extra tokens = .ok ⟨qs, rest, hlt⟩) :
    ∃ us s p, tokens = us ++ ⟨.rparen, s, p⟩ :: rest ∧ ListTokens ParamTokens us qs := by
  induction hlen : tokens.length using Nat.strongRecOn generalizing extra tokens rest qs with
  | _ n ih =>
    subst hlen
    unfold params at h
    split at h
    · simp at h
    · next first hfirst =>
      obtain ⟨q, after, hafter⟩ := first
      obtain ⟨ts, rfl, hparam⟩ := param_sound hfirst
      split at h
      · next s p more heq =>
        dsimp only at heq h
        subst heq
        split at h
        · simp at h
        · next others hothers =>
          obtain ⟨qs', rest', hrest'⟩ := others
          obtain ⟨us, s', p', rfl, hlist⟩ := ih _ (by simp; omega) hothers rfl
          obtain ⟨rfl, rfl⟩ := Parsed.mk.inj (Except.ok.inj h)
          exact ⟨ts ++ ⟨.comma, s, p⟩ :: us, s', p', by simp, .more hparam hlist⟩
      · next s p more heq =>
        dsimp only at heq h
        subst heq
        obtain ⟨rfl, rfl⟩ := Parsed.mk.inj (Except.ok.inj h)
        exact ⟨ts, s, p, rfl, .one hparam⟩
      · simp at h

theorem paramList_sound {tokens rest : List Token} {qs : List (Param Raw)} {hlt : rest.length < tokens.length}
    (h : paramList tokens = .ok ⟨qs, rest, hlt⟩) :
    ∃ us s p, tokens = us ++ ⟨.rparen, s, p⟩ :: rest ∧ ParamsTokens us qs := by
  unfold paramList at h
  split at h
  · next s p _ =>
    obtain ⟨rfl, rfl⟩ := Parsed.mk.inj (Except.ok.inj h)
    exact ⟨[], s, p, rfl, .none⟩
  · obtain ⟨us, s, p, heq, hlist⟩ := params_sound h
    exact ⟨us, s, p, heq, .some hlist⟩

theorem resultAndBlock_sound {tokens rest : List Token} {v : Option TypeExpr × List (Stmt Raw)}
    {hlt : rest.length < tokens.length} (h : resultAndBlock tokens = .ok ⟨v, rest, hlt⟩) :
    ∃ rs bs, tokens = rs ++ bs ++ rest ∧ ReturnsTokens rs v.1 ∧ BlockTokens bs v.2 := by
  unfold resultAndBlock at h
  split at h
  · next s p after =>
    obtain ⟨body, hlt', hbody, rfl⟩ := map_within_eq_ok.mp h
    obtain ⟨ts, s₁, p₁, rfl, hrow⟩ := block_sound hbody
    exact ⟨[], ⟨.lbrace, s, p⟩ :: (ts ++ [⟨.rbrace, s₁, p₁⟩]), by simp, .none, .mk hrow⟩
  · next s p after =>
    split at h
    · simp at h
    · next type htype =>
      obtain ⟨t, after', hafter'⟩ := type
      obtain ⟨us, rfl, ht, -⟩ := typeExpr_sound htype
      split at h
      · next s₁ p₁ more hmore =>
        dsimp only at hmore h
        subst hmore
        obtain ⟨body, hlt', hbody, rfl⟩ := map_within_eq_ok.mp h
        obtain ⟨ts, s₂, p₂, rfl, hrow⟩ := block_sound hbody
        exact ⟨⟨.kwReturns, s, p⟩ :: us, ⟨.lbrace, s₁, p₁⟩ :: (ts ++ [⟨.rbrace, s₂, p₂⟩]), by simp, .some ht,
          .mk hrow⟩
      · simp at h
  · simp at h

theorem functionRest_sound {isPublic : Bool} {tokens rest : List Token} {f : Function Raw}
    {hlt : rest.length < tokens.length} (h : functionRest isPublic tokens = .ok ⟨f, rest, hlt⟩) :
    ∃ ts, tokens = ts ++ rest ∧ ∀ {s p}, BareTokens isPublic (⟨.kwFunction, s, p⟩ :: ts) f := by
  simp only [functionRest, bind_eq_ok] at h
  obtain ⟨⟨⟨_, n, p⟩, after, _⟩, hname, ⟨⟨_, s₁, p₁⟩, after₁, _⟩, hopen, ⟨ps, after₂, _⟩, hparams,
    ⟨⟨r, body⟩, after₃, _⟩, htail, hf⟩ := h
  obtain ⟨rfl, rfl⟩ := expect_eq_ok.mp hname
  obtain ⟨rfl, rfl⟩ := expect_eq_ok.mp hopen
  obtain ⟨us, s₂, p₂, rfl, hps⟩ := paramList_sound hparams
  obtain ⟨rs, bs, rfl, hr, hb⟩ := resultAndBlock_sound htail
  obtain ⟨rfl, rfl⟩ := Parsed.mk.inj (Except.ok.inj hf)
  exact ⟨⟨.name, n, p⟩ :: ⟨.lparen, s₁, p₁⟩ :: (us ++ ⟨.rparen, s₂, p₂⟩ :: (rs ++ bs)), by simp, .mk hps hr hb⟩

theorem FunctionTokens.tagged {us ts : List Token} {t : Tag} {f : Function Raw} (ht : TagTokens us t)
    (hf : FunctionTokens ts f) : FunctionTokens (us ++ ts) (f.tagged t) := by
  cases hf with
  | @mk tags visibility ts as isPublic f htags hv hf =>
    rw [← List.append_assoc]
    show FunctionTokens _ { f with tags := t :: as }
    exact .mk (.cons ht htags) hv hf

theorem BareTokens.tags_eq {isPublic : Bool} {ts : List Token} {f : Function Raw} (h : BareTokens isPublic ts f) :
    { f with tags := [] } = f := by
  cases h
  rfl

/-- A function without annotations. -/
theorem BareTokens.untagged {isPublic : Bool} {visibility ts : List Token} {f : Function Raw}
    (hf : BareTokens isPublic ts f) (hv : PublicTokens visibility isPublic) : FunctionTokens (visibility ++ ts) f := by
  have hfun := FunctionTokens.mk .nil hv hf
  rwa [List.nil_append, hf.tags_eq] at hfun

theorem function_sound {extra : List Terminal} {tokens rest : List Token} {f : Function Raw}
    {hlt : rest.length < tokens.length} (h : function extra tokens = .ok ⟨f, rest, hlt⟩) :
    ∃ ts, tokens = ts ++ rest ∧ FunctionTokens ts f := by
  induction hlen : tokens.length using Nat.strongRecOn generalizing extra tokens rest f with
  | _ n ih =>
    subst hlen
    unfold function at h
    split at h
    · obtain ⟨f', hlt', hf', rfl⟩ := map_within_eq_ok.mp h
      obtain ⟨ts, rfl, hfun⟩ := ih _ (by simp only [List.length_cons]; omega) hf' rfl
      exact ⟨_, rfl, hfun.tagged .qualified⟩
    · simp at h
    · obtain ⟨f', hlt', hf', rfl⟩ := map_within_eq_ok.mp h
      obtain ⟨ts, rfl, hfun⟩ := ih _ (length_lt_cons_cons _ _ _) hf' rfl
      exact ⟨_, rfl, hfun.tagged .plain⟩
    · simp at h
    · obtain ⟨f', hlt', hf', rfl⟩ := (map_within_eq_ok (f := id)).mp h
      obtain ⟨ts, rfl, hbare⟩ := functionRest_sound hf'
      exact ⟨_, rfl, hbare.untagged .yes⟩
    · simp at h
    · obtain ⟨f', hlt', hf', rfl⟩ := (map_within_eq_ok (f := id)).mp h
      obtain ⟨ts, rfl, hbare⟩ := functionRest_sound hf'
      exact ⟨_, rfl, hbare.untagged .no⟩
    · simp at h

/-! ## Items -/

theorem importRest_sound {p : Position} {tokens rest : List Token} {i : Import} {hlt : rest.length < tokens.length}
    (h : importRest p tokens = .ok ⟨i, rest, hlt⟩) :
    ∃ ts, tokens = ts ++ rest ∧ ∀ {s}, ImportTokens (⟨.kwImport, s, p⟩ :: ts) i := by
  simp only [importRest, bind_eq_ok] at h
  obtain ⟨⟨⟨_, space, p₁⟩, after₁, _⟩, hspace, ⟨⟨_, s₁, p₂⟩, after₂, _⟩, hslash,
    ⟨⟨_, name, p₃⟩, after₃, _⟩, hname, h⟩ := h
  obtain ⟨rfl, rfl⟩ := expect_eq_ok.mp hspace
  obtain ⟨rfl, rfl⟩ := expect_eq_ok.mp hslash
  obtain ⟨rfl, rfl⟩ := expect_eq_ok.mp hname
  dsimp only at h
  split at h
  · obtain ⟨rfl, rfl⟩ := Parsed.mk.inj (Except.ok.inj h)
    exact ⟨_, rfl, .plain⟩
  · simp only [bind_eq_ok] at h
    obtain ⟨⟨⟨_, asName, p₅⟩, after₅, _⟩, hasName, ⟨⟨_, s₃, p₆⟩, after₆, _⟩, hsemi, h⟩ := h
    obtain ⟨rfl, rfl⟩ := expect_eq_ok.mp hasName
    obtain ⟨rfl, rfl⟩ := expect_eq_ok.mp hsemi
    obtain ⟨rfl, rfl⟩ := Parsed.mk.inj (Except.ok.inj h)
    exact ⟨_, rfl, .asName⟩
  · simp at h

theorem recordRest_sound {p : Position} {tokens rest : List Token} {r : Record} {hlt : rest.length < tokens.length}
    (h : recordRest p tokens = .ok ⟨r, rest, hlt⟩) :
    ∃ ts, tokens = ts ++ rest ∧ ∀ {s}, RecordTokens (⟨.kwType, s, p⟩ :: ts) r := by
  simp only [recordRest, bind_eq_ok] at h
  obtain ⟨⟨⟨_, n, p₁⟩, after₁, _⟩, hname, ⟨⟨_, s₁, p₂⟩, after₂, _⟩, hword, ⟨⟨_, s₂, p₃⟩, after₃, _⟩, hopen,
    ⟨⟨_, s₃, p₄⟩, after₄, _⟩, hclose, h⟩ := h
  obtain ⟨rfl, rfl⟩ := expect_eq_ok.mp hname
  obtain ⟨rfl, rfl⟩ := expect_eq_ok.mp hword
  obtain ⟨rfl, rfl⟩ := expect_eq_ok.mp hopen
  obtain ⟨rfl, rfl⟩ := expect_eq_ok.mp hclose
  dsimp only at h
  split at h
  · obtain ⟨rfl, rfl⟩ := Parsed.mk.inj (Except.ok.inj h)
    exact ⟨_, rfl, .mk .some⟩
  · split at h
    · obtain ⟨rfl, rfl⟩ := Parsed.mk.inj (Except.ok.inj h)
      exact ⟨_, rfl, .mk .none⟩
    · simp at h

theorem item_sound {tokens rest : List Token} {i : Item Raw} {hlt : rest.length < tokens.length}
    (h : item tokens = .ok ⟨i, rest, hlt⟩) : ∃ ts, tokens = ts ++ rest ∧ ItemTokens ts i := by
  unfold item at h
  split at h
  · obtain ⟨i', hlt', hi, rfl⟩ := map_within_eq_ok.mp h
    obtain ⟨ts, rfl, himport⟩ := importRest_sound hi
    exact ⟨_, rfl, .use himport⟩
  · obtain ⟨r, hlt', hr, rfl⟩ := map_within_eq_ok.mp h
    obtain ⟨ts, rfl, hrecord⟩ := recordRest_sound hr
    exact ⟨_, rfl, .record hrecord⟩
  · split at h
    · obtain ⟨⟨f, rest', hlt'⟩, hf, heq⟩ := map_eq_ok.mp h
      dsimp only [Parsed.map] at heq
      obtain ⟨rfl, rfl⟩ := Parsed.mk.inj heq
      obtain ⟨ts, rfl, hfunction⟩ := function_sound hf
      exact ⟨ts, rfl, .function hfunction⟩
    · simp at h

theorem items_sound {tokens : List Token} {parsed : List (Item Raw)} (h : items tokens = .ok parsed) :
    RowTokens ItemTokens tokens parsed := by
  induction hlen : tokens.length using Nat.strongRecOn generalizing tokens parsed with
  | _ n ih =>
    subst hlen
    unfold items at h
    split at h
    · next hnil =>
      obtain rfl := Except.ok.inj h
      rw [hnil]
      exact .nil
    · split at h
      · simp at h
      · next first hfirst =>
        obtain ⟨i, rest, hlt⟩ := first
        obtain ⟨ts, rfl, hitem⟩ := item_sound hfirst
        dsimp only at h
        split at h
        · simp at h
        · next others hothers =>
          obtain rfl := Except.ok.inj h
          exact .cons hitem (ih _ hlt hothers rfl)

end Registrar.Surface
