import Registrar.Proofs.Surface.Soundness

/-!
# Where parsers are stuck

A parser that is stuck has taken some tokens off the front of its list and looks at the next one, so the tokens that are
left end the list that it began with. What it has taken before comes from parsers that went through, and these leave an
end of their list too.
-/

namespace Registrar.Surface

/-- An end of a list, behind one more token. -/
theorem suffix_cons_of_suffix {t : Token} {rest tokens : List Token} (h : rest <:+ tokens) : rest <:+ t :: tokens :=
  h.trans (List.suffix_cons t tokens)

theorem expect_stuck {k : Terminal} {tokens : List Token} {stuck : Stuck} (h : expect k tokens = .error stuck) :
    stuck.rest <:+ tokens := by
  unfold expect at h
  split at h
  · obtain rfl := Except.error.inj h
    exact List.suffix_rfl
  · split at h
    · simp at h
    · obtain rfl := Except.error.inj h
      exact List.suffix_rfl

theorem expect_rest {k : Terminal} {tokens : List Token} {p : Parsed Token tokens} (h : expect k tokens = .ok p) :
    p.rest <:+ tokens := by
  obtain ⟨t, rest, hlt⟩ := p
  obtain ⟨rfl, -⟩ := expect_eq_ok.mp h
  exact List.suffix_cons t rest

/-! ## Types -/

mutual
theorem typeExpr_stuck {follow extra : List Terminal} {tokens : List Token} {stuck : Stuck}
    (h : typeExpr follow extra tokens = .error stuck) : stuck.rest <:+ tokens := by
  unfold typeExpr at h
  split at h
  · exact suffix_cons_of_suffix (suffix_cons_of_suffix (typeTail_stuck h))
  · obtain rfl := Except.error.inj h
    exact List.suffix_cons _ _
  · exact suffix_cons_of_suffix (suffix_cons_of_suffix (suffix_cons_of_suffix (typeTail_stuck h)))
  · obtain rfl := Except.error.inj h
    exact suffix_cons_of_suffix (List.suffix_cons _ _)
  · exact suffix_cons_of_suffix (typeTail_stuck h)
  · obtain rfl := Except.error.inj h
    exact List.suffix_rfl
termination_by tokens.length

theorem typeTail_stuck {follow extra : List Terminal} {first : Name} {all tokens : List Token}
    {hall : tokens.length < all.length} {stuck : Stuck}
    (h : typeTail follow extra first tokens hall = .error stuck) : stuck.rest <:+ tokens := by
  unfold typeTail at h
  split at h
  · exact suffix_cons_of_suffix (typeExpr_stuck (map_eq_error.mp h))
  · split at h
    · simp at h
    · obtain rfl := Except.error.inj h
      exact List.suffix_rfl
termination_by tokens.length
end

theorem typeExpr_rest {follow extra : List Terminal} {tokens : List Token} {p : Parsed TypeExpr tokens}
    (h : typeExpr follow extra tokens = .ok p) : p.rest <:+ tokens := by
  obtain ⟨t, rest, hlt⟩ := p
  obtain ⟨ts, rfl, -, -⟩ := typeExpr_sound h
  exact List.suffix_append ts rest

/-! ## Expressions -/

theorem ended_stuck {follow extra : List Terminal} {e : Expr Raw} {all rest : List Token}
    {hlt : rest.length < all.length} {stuck : Stuck} (h : ended follow extra e rest hlt = .error stuck) :
    stuck.rest = rest := by
  unfold ended at h
  split at h
  · simp at h
  · obtain rfl := Except.error.inj h
    rfl

theorem expr_rest {follow extra : List Terminal} {tokens : List Token} {p : Parsed (Expr Raw) tokens}
    (h : expr follow extra tokens = .ok p) : p.rest <:+ tokens := by
  obtain ⟨e, rest, hlt⟩ := p
  obtain ⟨ts, rfl, -, -⟩ := expr_sound h
  exact List.suffix_append ts rest

theorem args_rest {extra : List Terminal} {tokens : List Token} {p : Parsed (List (Expr Raw)) tokens}
    (h : args extra tokens = .ok p) : p.rest <:+ tokens := by
  obtain ⟨es, rest, hlt⟩ := p
  obtain ⟨us, s, q, rfl, -⟩ := args_sound h
  exact (List.suffix_cons _ rest).trans (List.suffix_append us _)

mutual
theorem expr_stuck {follow extra : List Terminal} {tokens : List Token} {stuck : Stuck}
    (h : expr follow extra tokens = .error stuck) : stuck.rest <:+ tokens := by
  unfold expr at h
  split at h
  case h_1 | h_2 | h_3 | h_4 =>
    rw [ended_stuck h]
    exact List.suffix_cons _ _
  case h_5 =>
    rw [ended_stuck h]
    exact suffix_cons_of_suffix (List.suffix_cons _ _)
  case h_6 =>
    obtain rfl := Except.error.inj h
    exact List.suffix_cons _ _
  case h_7 => exact suffix_cons_of_suffix (suffix_cons_of_suffix (suffix_cons_of_suffix (named_stuck h)))
  case h_8 =>
    obtain rfl := Except.error.inj h
    exact suffix_cons_of_suffix (List.suffix_cons _ _)
  case h_9 => exact suffix_cons_of_suffix (named_stuck h)
  case h_10 =>
    obtain rfl := Except.error.inj h
    exact List.suffix_rfl
termination_by (tokens.length, 0)

theorem named_stuck {follow extra : List Terminal} {n : Name} {all tokens : List Token}
    {hall : tokens.length < all.length} {stuck : Stuck}
    (h : named follow extra n tokens hall = .error stuck) : stuck.rest <:+ tokens := by
  unfold named at h
  split at h
  · rw [ended_stuck h]
    exact suffix_cons_of_suffix (List.suffix_cons _ _)
  · split at h
    · next hargs =>
      obtain rfl := Except.error.inj h
      exact suffix_cons_of_suffix (args_stuck hargs)
    · next hargs =>
      rw [ended_stuck h]
      exact suffix_cons_of_suffix (args_rest hargs)
  · have hrest := ended_stuck h
    exact hrest ▸ List.suffix_rfl
termination_by (tokens.length, 0)

theorem args_stuck {extra : List Terminal} {tokens : List Token} {stuck : Stuck}
    (h : args extra tokens = .error stuck) : stuck.rest <:+ tokens := by
  unfold args at h
  split at h
  · next hfirst =>
    obtain rfl := Except.error.inj h
    exact expr_stuck hfirst
  · next first hfirst =>
    have hrest := expr_rest hfirst
    split at h
    · next hmore =>
      have hlt := first.lt_of_rest_eq hmore
      rw [hmore] at hrest
      split at h
      · next hothers =>
        obtain rfl := Except.error.inj h
        exact (suffix_cons_of_suffix (args_stuck hothers)).trans hrest
      · simp at h
    · simp at h
    · obtain rfl := Except.error.inj h
      exact hrest
termination_by (tokens.length, 1)
end

/-! ## Statements and parameters -/

theorem block_stuck {tokens : List Token} {stuck : Stuck} (h : block tokens = .error stuck) :
    stuck.rest <:+ tokens := by
  induction hlen : tokens.length using Nat.strongRecOn generalizing tokens with
  | _ n ih =>
    subst hlen
    unfold block at h
    split at h
    · simp at h
    · split at h
      · next hmore =>
        obtain rfl := Except.error.inj h
        exact suffix_cons_of_suffix (suffix_cons_of_suffix (ih _ (length_lt_cons_cons _ _ _) hmore rfl))
      · simp at h
    · split at h
      · next hfirst =>
        obtain rfl := Except.error.inj h
        exact suffix_cons_of_suffix (expr_stuck hfirst)
      · next first hfirst =>
        have hrest := expr_rest hfirst
        split at h
        · next hsemicolon =>
          have hlt := first.lt_of_rest_eq hsemicolon
          rw [hsemicolon] at hrest
          split at h
          · next hmore =>
            obtain rfl := Except.error.inj h
            exact suffix_cons_of_suffix
              ((suffix_cons_of_suffix (ih _ (by simp; omega) hmore rfl)).trans hrest)
          · simp at h
        · obtain rfl := Except.error.inj h
          exact suffix_cons_of_suffix hrest
    · split at h
      · next hfirst =>
        obtain rfl := Except.error.inj h
        exact expr_stuck hfirst
      · next first hfirst =>
        have hrest := expr_rest hfirst
        split at h
        · next hsemicolon =>
          have hlt := first.lt_of_rest_eq hsemicolon
          rw [hsemicolon] at hrest
          split at h
          · next hmore =>
            obtain rfl := Except.error.inj h
            exact (suffix_cons_of_suffix (ih _ hlt hmore rfl)).trans hrest
          · simp at h
        · obtain rfl := Except.error.inj h
          exact hrest

theorem param_stuck {extra : List Terminal} {tokens : List Token} {stuck : Stuck}
    (h : param extra tokens = .error stuck) : stuck.rest <:+ tokens := by
  unfold param at h
  split at h
  · next htype =>
    obtain rfl := Except.error.inj h
    exact typeExpr_stuck htype
  · next type htype =>
    have hrest := typeExpr_rest htype
    split at h
    · next heq =>
      rw [heq] at hrest
      split at h
      · next he =>
        obtain rfl := Except.error.inj h
        exact (suffix_cons_of_suffix (suffix_cons_of_suffix (expr_stuck he))).trans hrest
      · simp at h
    · next heq =>
      rw [heq] at hrest
      split at h
      · simp at h
      · obtain rfl := Except.error.inj h
        exact (List.suffix_cons _ _).trans hrest
    · simp at h
    · next heq =>
      rw [heq] at hrest
      obtain rfl := Except.error.inj h
      exact (List.suffix_cons _ _).trans hrest
    · obtain rfl := Except.error.inj h
      exact hrest

theorem param_rest {extra : List Terminal} {tokens : List Token} {p : Parsed (Param Raw) tokens}
    (h : param extra tokens = .ok p) : p.rest <:+ tokens := by
  obtain ⟨q, rest, hlt⟩ := p
  obtain ⟨ts, rfl, -⟩ := param_sound h
  exact List.suffix_append ts rest

theorem params_stuck {extra : List Terminal} {tokens : List Token} {stuck : Stuck}
    (h : params extra tokens = .error stuck) : stuck.rest <:+ tokens := by
  induction hlen : tokens.length using Nat.strongRecOn generalizing extra tokens with
  | _ n ih =>
    subst hlen
    unfold params at h
    split at h
    · next hfirst =>
      obtain rfl := Except.error.inj h
      exact param_stuck hfirst
    · next first hfirst =>
      have hrest := param_rest hfirst
      split at h
      · next hmore =>
        have hlt := first.lt_of_rest_eq hmore
        rw [hmore] at hrest
        split at h
        · next hothers =>
          obtain rfl := Except.error.inj h
          exact (suffix_cons_of_suffix (ih _ hlt hothers rfl)).trans hrest
        · simp at h
      · simp at h
      · obtain rfl := Except.error.inj h
        exact hrest

theorem paramList_stuck {tokens : List Token} {stuck : Stuck} (h : paramList tokens = .error stuck) :
    stuck.rest <:+ tokens := by
  unfold paramList at h
  split at h
  · simp at h
  · exact params_stuck h

theorem paramList_rest {tokens : List Token} {p : Parsed (List (Param Raw)) tokens} (h : paramList tokens = .ok p) :
    p.rest <:+ tokens := by
  obtain ⟨qs, rest, hlt⟩ := p
  obtain ⟨us, s, q, rfl, -⟩ := paramList_sound h
  exact (List.suffix_cons _ rest).trans (List.suffix_append us _)

/-! ## Functions -/

theorem resultAndBlock_stuck {tokens : List Token} {stuck : Stuck} (h : resultAndBlock tokens = .error stuck) :
    stuck.rest <:+ tokens := by
  unfold resultAndBlock at h
  split at h
  · exact suffix_cons_of_suffix (block_stuck (map_eq_error.mp h))
  · split at h
    · next htype =>
      obtain rfl := Except.error.inj h
      exact suffix_cons_of_suffix (typeExpr_stuck htype)
    · next type htype =>
      have hrest := typeExpr_rest htype
      split at h
      · next hmore =>
        rw [hmore] at hrest
        exact suffix_cons_of_suffix ((suffix_cons_of_suffix (block_stuck (map_eq_error.mp h))).trans hrest)
      · obtain rfl := Except.error.inj h
        exact suffix_cons_of_suffix hrest
  · obtain rfl := Except.error.inj h
    exact List.suffix_rfl

theorem functionRest_stuck {isPublic : Bool} {tokens : List Token} {stuck : Stuck}
    (h : functionRest isPublic tokens = .error stuck) : stuck.rest <:+ tokens := by
  simp only [functionRest, bind_eq_error] at h
  rcases h with h | ⟨name, hname, h | ⟨opening, hopening, h | ⟨params, hparams, h | ⟨tail, -, h⟩⟩⟩⟩
  · exact expect_stuck h
  · exact (expect_stuck h).trans (expect_rest hname)
  · exact (paramList_stuck h).trans ((expect_rest hopening).trans (expect_rest hname))
  · exact (resultAndBlock_stuck h).trans
      ((paramList_rest hparams).trans ((expect_rest hopening).trans (expect_rest hname)))
  · cases h

theorem function_stuck {extra : List Terminal} {tokens : List Token} {stuck : Stuck}
    (h : function extra tokens = .error stuck) : stuck.rest <:+ tokens := by
  induction hlen : tokens.length using Nat.strongRecOn generalizing extra tokens with
  | _ n ih =>
    subst hlen
    unfold function at h
    split at h
    · have hrest := ih _ (by simp only [List.length_cons]; omega) (map_eq_error.mp h) rfl
      exact suffix_cons_of_suffix (suffix_cons_of_suffix (suffix_cons_of_suffix (suffix_cons_of_suffix hrest)))
    · obtain rfl := Except.error.inj h
      exact suffix_cons_of_suffix (suffix_cons_of_suffix (List.suffix_cons _ _))
    · have hrest := ih _ (length_lt_cons_cons _ _ _) (map_eq_error.mp h) rfl
      exact suffix_cons_of_suffix (suffix_cons_of_suffix hrest)
    · obtain rfl := Except.error.inj h
      exact List.suffix_cons _ _
    · exact suffix_cons_of_suffix (suffix_cons_of_suffix (functionRest_stuck (map_eq_error.mp h)))
    · obtain rfl := Except.error.inj h
      exact List.suffix_cons _ _
    · exact suffix_cons_of_suffix (functionRest_stuck (map_eq_error.mp h))
    · obtain rfl := Except.error.inj h
      exact List.suffix_rfl

/-! ## Items -/

theorem importRest_stuck {p : Position} {tokens : List Token} {stuck : Stuck}
    (h : importRest p tokens = .error stuck) : stuck.rest <:+ tokens := by
  simp only [importRest, bind_eq_error] at h
  rcases h with h | ⟨space, hspace, h | ⟨slash, hslash, h | ⟨name, hname, h⟩⟩⟩
  · exact expect_stuck h
  · exact (expect_stuck h).trans (expect_rest hspace)
  · exact (expect_stuck h).trans ((expect_rest hslash).trans (expect_rest hspace))
  · have hrest := (expect_rest hname).trans ((expect_rest hslash).trans (expect_rest hspace))
    split at h
    · cases h
    · next heq =>
      rw [heq] at hrest
      rcases bind_eq_error.mp h with h | ⟨asName, hasName, h⟩
      · exact (suffix_cons_of_suffix (expect_stuck h)).trans hrest
      · rcases bind_eq_error.mp h with h | ⟨semicolon, -, h⟩
        · exact (suffix_cons_of_suffix ((expect_stuck h).trans (expect_rest hasName))).trans hrest
        · cases h
    · obtain rfl := Except.error.inj h
      exact hrest

theorem recordRest_stuck {p : Position} {tokens : List Token} {stuck : Stuck}
    (h : recordRest p tokens = .error stuck) : stuck.rest <:+ tokens := by
  simp only [recordRest, bind_eq_error] at h
  rcases h with h | ⟨name, hname, h | ⟨word, hword, h | ⟨opening, hopening, h | ⟨closing, hclosing, h⟩⟩⟩⟩
  · exact expect_stuck h
  · exact (expect_stuck h).trans (expect_rest hname)
  · exact (expect_stuck h).trans ((expect_rest hword).trans (expect_rest hname))
  · exact (expect_stuck h).trans ((expect_rest hopening).trans ((expect_rest hword).trans (expect_rest hname)))
  · have hrest := (expect_rest hclosing).trans
      ((expect_rest hopening).trans ((expect_rest hword).trans (expect_rest hname)))
    split at h
    · cases h
    · split at h
      · cases h
      · obtain rfl := Except.error.inj h
        exact hrest

theorem item_stuck {tokens : List Token} {stuck : Stuck} (h : item tokens = .error stuck) :
    stuck.rest <:+ tokens := by
  unfold item at h
  split at h
  · exact suffix_cons_of_suffix (importRest_stuck (map_eq_error.mp h))
  · exact suffix_cons_of_suffix (recordRest_stuck (map_eq_error.mp h))
  · split at h
    · exact function_stuck (map_eq_error.mp h)
    · obtain rfl := Except.error.inj h
      exact List.suffix_rfl

/-- The parser of a whole text is stuck at an end of its tokens. -/
theorem items_stuck {tokens : List Token} {stuck : Stuck} (h : items tokens = .error stuck) :
    stuck.rest <:+ tokens := by
  induction hlen : tokens.length using Nat.strongRecOn generalizing tokens with
  | _ n ih =>
    subst hlen
    unfold items at h
    split at h
    · simp at h
    · split at h
      · next hfirst =>
        obtain rfl := Except.error.inj h
        exact item_stuck hfirst
      · next first hfirst =>
        obtain ⟨i, rest, hlt⟩ := first
        obtain ⟨ts, rfl, -⟩ := item_sound hfirst
        dsimp only at h
        split at h
        · next hothers =>
          obtain rfl := Except.error.inj h
          exact (ih _ hlt hothers rfl).trans (List.suffix_append ts rest)
        · simp at h

end Registrar.Surface
