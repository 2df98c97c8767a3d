import Registrar.Proofs.Surface.Soundness

/-!
# What is in the grammar is read

Tokens that make up a tree are read as that tree, in front of any tokens that can follow it: by induction on how the
tokens make up the tree, with one lemma for each way in which a parser goes on. With what is known about the other
direction, `items_iff` says of whole texts that the parser follows the grammar.
-/

namespace Registrar.Surface

/-- A parser reads `a` and leaves `rest`. -/
def Gives {α : Type} {tokens : List Token} (r : Except Stuck (Parsed α tokens)) (a : α) (rest : List Token) : Prop :=
  ∃ h, r = .ok ⟨a, rest, h⟩

/-! ## First tokens -/

theorem terminalOf_append {ts : List Token} (h : terminalOf ts ≠ .endOfText) (rest : List Token) :
    terminalOf (ts ++ rest) = terminalOf ts := by
  cases ts with
  | nil => exact absurd rfl h
  | cons t ts => rfl

theorem NameTokens.head {ts : List Token} {n : Name} (h : NameTokens ts n) : terminalOf ts = .name := by
  cases h <;> rfl

theorem NameTokens.head_append {ts : List Token} {n : Name} (h : NameTokens ts n) (rest : List Token) :
    terminalOf (ts ++ rest) = .name := by
  rw [terminalOf_append (by simp [h.head]), h.head]

theorem ExprTokens.head {ts : List Token} {e : Expr Raw} (h : ExprTokens ts e) : terminalOf ts ∈ exprStarts := by
  cases h with
  | string => simp [terminalOf, exprStarts]
  | int => simp [terminalOf, exprStarts]
  | yes => simp [terminalOf, exprStarts]
  | no => simp [terminalOf, exprStarts]
  | nil => simp [terminalOf, exprStarts]
  | name hn => simp [hn.head, exprStarts]
  | callNone hn => simp [hn.head_append, exprStarts]
  | call hn hs => simp [hn.head_append, exprStarts]

theorem ExprTokens.head_append {ts : List Token} {e : Expr Raw} (h : ExprTokens ts e) (rest : List Token) :
    terminalOf (ts ++ rest) = terminalOf ts :=
  terminalOf_append (fun hend => by simpa [hend, exprStarts] using h.head) rest

theorem ArgsTokens.head {ts : List Token} {es : List (Expr Raw)} (h : ArgsTokens ts es) :
    terminalOf ts ∈ exprStarts := by
  cases h with
  | one h => exact h.head
  | more h hs =>
    rw [h.head_append]
    exact h.head

theorem ArgsTokens.head_append {ts : List Token} {es : List (Expr Raw)} (h : ArgsTokens ts es) (rest : List Token) :
    terminalOf (ts ++ rest) = terminalOf ts :=
  terminalOf_append (fun hend => by simpa [hend, exprStarts] using h.head) rest

/-! ## Types -/

theorem MemberTokens.head {ts : List Token} {n : Name} (h : MemberTokens ts n) :
    terminalOf ts = .name ∨ terminalOf ts = .lparen := by
  cases h with
  | name hn => exact .inl hn.head
  | nil => exact .inr rfl

theorem TypeTokens.head_append {ts : List Token} {t : TypeExpr} (h : TypeTokens ts t) (rest : List Token) :
    terminalOf (ts ++ rest) = .name ∨ terminalOf (ts ++ rest) = .lparen := by
  have happend : ∀ {us : List Token}, (terminalOf us = .name ∨ terminalOf us = .lparen) → ∀ vs,
      terminalOf (us ++ vs) = .name ∨ terminalOf (us ++ vs) = .lparen := by
    rintro us (hus | hus) vs
    · exact .inl (by rw [terminalOf_append (by simp [hus]), hus])
    · exact .inr (by rw [terminalOf_append (by simp [hus]), hus])
  cases h with
  | one h => exact happend h.head rest
  | more h hs =>
    rw [List.append_assoc]
    exact happend h.head _

theorem typeExpr_of_member {ts : List Token} {n : Name} (hn : MemberTokens ts n) {rest : List Token}
    (hrest : terminalOf rest ≠ .colon) (follow extra : List Terminal) :
    ∃ extra' h, typeExpr follow extra (ts ++ rest) = typeTail follow extra' n rest h := by
  rcases hn with hn | _
  · cases hn with
    | @plain n p =>
      refine ⟨[.colon], length_lt_cons _ _, ?_⟩
      show typeExpr follow extra (⟨.name, n, p⟩ :: rest) = _
      rw [typeExpr.eq_def]
      rcases rest with _ | ⟨⟨k, s, p⟩, rest⟩
      · rfl
      · cases k
        case colon => exact absurd rfl hrest
        all_goals rfl
    | @qualified q s n p p₁ p₂ =>
      refine ⟨[], length_lt_cons_cons_cons _ _ _ _, ?_⟩
      show typeExpr follow extra (⟨.name, q, p⟩ :: ⟨.colon, s, p₁⟩ :: ⟨.name, n, p₂⟩ :: rest) = _
      rw [typeExpr.eq_def]
  · next s s₁ p p₁ =>
    refine ⟨[], length_lt_cons_cons _ _ _, ?_⟩
    show typeExpr follow extra (⟨.lparen, s, p⟩ :: ⟨.rparen, s₁, p₁⟩ :: rest) = _
    rw [typeExpr.eq_def]

/-- A type in front of what ends it is read. -/
theorem TypeTokens.gives {ts : List Token} {t : TypeExpr} (h : TypeTokens ts t) (rest : List Token)
    (hends : terminalOf rest ∈ typeEnds) (follow extra : List Terminal) :
    Gives (typeExpr follow extra (ts ++ rest)) t rest := by
  induction h generalizing extra with
  | one hm =>
    have hrest : terminalOf rest ≠ .colon := fun hc => by simp [hc, typeEnds] at hends
    obtain ⟨extra', h, heq⟩ := typeExpr_of_member hm hrest follow extra
    rw [heq, typeTail.eq_def]
    rcases rest with _ | ⟨⟨k, s, p⟩, rest⟩
    · simp [terminalOf, typeEnds] at hends
    · cases k
      case bar => simp [terminalOf, typeEnds] at hends
      all_goals exact ⟨h, if_pos hends⟩
  | @more ts us n t s p hm hs ih =>
    have hrest : terminalOf (⟨.bar, s, p⟩ :: (us ++ rest)) ≠ .colon := by simp [terminalOf]
    obtain ⟨extra', h, heq⟩ := typeExpr_of_member hm hrest follow extra
    obtain ⟨hlt, hmore⟩ := ih []
    rw [List.append_assoc, List.cons_append, heq, typeTail.eq_def]
    simp only [hmore]
    exact ⟨_, rfl⟩

/-! ## Expressions -/

theorem ended_gives {follow extra : List Terminal} {e : Expr Raw} {all rest : List Token}
    {h : rest.length < all.length} (hends : terminalOf rest ∈ exprEnds) :
    Gives (ended follow extra e rest h) e rest := ⟨h, if_pos hends⟩

theorem expr_of_name {ts : List Token} {n : Name} (hn : NameTokens ts n) {rest : List Token}
    (hrest : terminalOf rest ≠ .colon) (follow extra : List Terminal) :
    ∃ extra' h, expr follow extra (ts ++ rest) = named follow extra' n rest h := by
  cases hn with
  | @plain n p =>
    refine ⟨[.colon], length_lt_cons _ _, ?_⟩
    show expr follow extra (⟨.name, n, p⟩ :: rest) = _
    rw [expr.eq_def]
    rcases rest with _ | ⟨⟨k, s, p⟩, rest⟩
    · rfl
    · cases k
      case colon => exact absurd rfl hrest
      all_goals rfl
  | @qualified q s n p p₁ p₂ =>
    refine ⟨[], length_lt_cons_cons_cons _ _ _ _, ?_⟩
    show expr follow extra (⟨.name, q, p⟩ :: ⟨.colon, s, p₁⟩ :: ⟨.name, n, p₂⟩ :: rest) = _
    rw [expr.eq_def]

theorem named_gives_name {follow extra : List Terminal} {n : Name} {all rest : List Token}
    {h : rest.length < all.length} (hends : terminalOf rest ∈ exprEnds) :
    Gives (named follow extra n rest h) (.name n) rest := by
  rw [named.eq_def]
  split
  · simp [terminalOf, exprEnds] at hends
  · simp [terminalOf, exprEnds] at hends
  · exact ended_gives hends

theorem named_gives_call {follow extra : List Terminal} {n : Name} {all us rest : List Token} {es : List (Expr Raw)}
    {s : Text} {p : Position} {h : (⟨.lparen, s, p⟩ :: us : List Token).length < all.length}
    (hus : terminalOf us ≠ .rparen) (hargs : Gives (args [.rparen] us) es rest) (hends : terminalOf rest ∈ exprEnds) :
    Gives (named follow extra n (⟨.lparen, s, p⟩ :: us) h) (.call n es) rest := by
  obtain ⟨hlt, hargs⟩ := hargs
  rw [named.eq_def]
  rcases us with _ | ⟨⟨k, s, p⟩, us⟩
  · simp at hlt
  · cases k
    case rparen => exact absurd rfl hus
    all_goals
      simp only [hargs]
      exact ended_gives hends

mutual
/-- An expression in front of what ends it is read. -/
theorem ExprTokens.gives : {ts : List Token} → {e : Expr Raw} → ExprTokens ts e → (rest : List Token) →
    terminalOf rest ∈ exprEnds → (follow extra : List Terminal) → Gives (expr follow extra (ts ++ rest)) e rest
  | _, _, .string, rest, hends, follow, extra => by
    rw [List.singleton_append, expr.eq_def]
    exact ended_gives hends
  | _, _, .int, rest, hends, follow, extra => by
    rw [List.singleton_append, expr.eq_def]
    exact ended_gives hends
  | _, _, .yes, rest, hends, follow, extra => by
    rw [List.singleton_append, expr.eq_def]
    exact ended_gives hends
  | _, _, .no, rest, hends, follow, extra => by
    rw [List.singleton_append, expr.eq_def]
    exact ended_gives hends
  | _, _, .nil, rest, hends, follow, extra => by
    rw [List.cons_append, List.singleton_append, expr.eq_def]
    exact ended_gives hends
  | _, _, .name hn, rest, hends, follow, extra => by
    have hrest : terminalOf rest ≠ .colon := fun hc => by simp [hc, exprEnds] at hends
    obtain ⟨extra', h, heq⟩ := expr_of_name hn hrest follow extra
    rw [heq]
    exact named_gives_name hends
  | _, _, @ExprTokens.callNone ts n s s₁ p p₁ hn, rest, hends, follow, extra => by
    have hrest : terminalOf ([⟨.lparen, s, p⟩, ⟨.rparen, s₁, p₁⟩] ++ rest) ≠ .colon := by simp [terminalOf]
    obtain ⟨extra', h, heq⟩ := expr_of_name hn hrest follow extra
    rw [List.append_assoc, heq]
    simp only [List.cons_append, List.nil_append]
    rw [named.eq_def]
    exact ended_gives hends
  | _, _, @ExprTokens.call ts us n es s s₁ p p₁ hn hs, rest, hends, follow, extra => by
    have hargs := ArgsTokens.gives hs s₁ p₁ rest [.rparen]
    have hrest : terminalOf (⟨.lparen, s, p⟩ :: (us ++ ⟨.rparen, s₁, p₁⟩ :: rest)) ≠ .colon := by simp [terminalOf]
    obtain ⟨extra', h, heq⟩ := expr_of_name hn hrest follow extra
    rw [List.append_assoc, List.cons_append, List.append_assoc, List.singleton_append, heq]
    refine named_gives_call ?_ hargs hends
    rw [hs.head_append]
    exact fun hc => by simpa [hc, exprStarts] using hs.head

theorem ArgsTokens.gives : {us : List Token} → {es : List (Expr Raw)} → ArgsTokens us es → (s : Text) →
    (p : Position) → (rest : List Token) → (extra : List Terminal) →
    Gives (args extra (us ++ ⟨.rparen, s, p⟩ :: rest)) es rest
  | _, _, .one h, s, p, rest, extra => by
    obtain ⟨hlt, heq⟩ := ExprTokens.gives h (⟨.rparen, s, p⟩ :: rest) (by simp [terminalOf, exprEnds])
      [.comma, .rparen] extra
    rw [args.eq_def]
    simp only [heq]
    exact ⟨_, rfl⟩
  | _, _, @ArgsTokens.more ts us e es s₁ p₁ h hs, s, p, rest, extra => by
    rw [List.append_assoc, List.cons_append]
    obtain ⟨hlt, heq⟩ := ExprTokens.gives h (⟨.comma, s₁, p₁⟩ :: (us ++ ⟨.rparen, s, p⟩ :: rest))
      (by simp [terminalOf, exprEnds]) [.comma, .rparen] extra
    obtain ⟨hlt', heq'⟩ := ArgsTokens.gives hs s p rest []
    rw [args.eq_def]
    simp only [heq, heq']
    exact ⟨_, rfl⟩
end

/-! ## Statements -/

theorem block_gives_return {us after rest : List Token} {e : Expr Raw} {body : List (Stmt Raw)} {s s₁ : Text}
    {p p₁ : Position} (hus : terminalOf us ∈ exprStarts)
    (he : Gives (expr [.semicolon] [.semicolon] us) e (⟨.semicolon, s₁, p₁⟩ :: after))
    (hbody : Gives (block after) body rest) :
    Gives (block (⟨.kwReturn, s, p⟩ :: us)) (.ret (some e) p :: body) rest := by
  obtain ⟨hlt, he⟩ := he
  obtain ⟨hlt', hbody⟩ := hbody
  rw [block.eq_def]
  rcases us with _ | ⟨⟨k, s₂, p₂⟩, us⟩
  · simp at hlt
  · cases k
    case semicolon => simp [terminalOf, exprStarts] at hus
    all_goals
      simp only [he, hbody]
      exact ⟨_, rfl⟩

theorem block_gives_expr {us after rest : List Token} {t : Token} {e : Expr Raw} {body : List (Stmt Raw)} {s₁ : Text}
    {p₁ : Position} (ht : terminalOf (t :: us) ∈ exprStarts)
    (he : Gives (expr [.semicolon] [.rbrace, .kwReturn] (t :: us)) e (⟨.semicolon, s₁, p₁⟩ :: after))
    (hbody : Gives (block after) body rest) :
    Gives (block (t :: us)) (.expr e t.position :: body) rest := by
  obtain ⟨hlt, he⟩ := he
  obtain ⟨hlt', hbody⟩ := hbody
  obtain ⟨k, s, p⟩ := t
  rw [block.eq_def]
  cases k
  case rbrace => simp [terminalOf, exprStarts] at ht
  case kwReturn => simp [terminalOf, exprStarts] at ht
  all_goals
    simp only [he, hbody]
    exact ⟨_, rfl⟩

theorem RowTokens.block_gives {ts : List Token} {body : List (Stmt Raw)} (h : RowTokens StmtTokens ts body) (s : Text)
    (p : Position) (rest : List Token) : Gives (block (ts ++ ⟨.rbrace, s, p⟩ :: rest)) body rest := by
  induction h with
  | nil =>
    rw [List.nil_append, block.eq_def]
    exact ⟨_, rfl⟩
  | @cons us vs stmt body hstmt hrow ih =>
    rw [List.append_assoc]
    cases hstmt with
    | retNone =>
      obtain ⟨hlt, hmore⟩ := ih
      rw [List.cons_append, List.singleton_append, block.eq_def]
      simp only [hmore]
      exact ⟨_, rfl⟩
    | @ret us e s₁ s₂ p₁ p₂ he =>
      have hexpr := he.gives (⟨.semicolon, s₂, p₂⟩ :: (vs ++ ⟨.rbrace, s, p⟩ :: rest))
        (by simp [terminalOf, exprEnds]) [.semicolon] [.semicolon]
      rw [List.cons_append, List.append_assoc, List.singleton_append]
      exact block_gives_return (by rw [he.head_append]; exact he.head) hexpr ih
    | @expr t us e s₁ p₁ he =>
      have hexpr := he.gives (⟨.semicolon, s₁, p₁⟩ :: (vs ++ ⟨.rbrace, s, p⟩ :: rest))
        (by simp [terminalOf, exprEnds]) [.semicolon] [.rbrace, .kwReturn]
      rw [List.cons_append, List.append_assoc, List.singleton_append]
      exact block_gives_expr he.head hexpr ih

/-! ## Functions -/

theorem ParamTokens.gives {ts : List Token} {q : Param Raw} (h : ParamTokens ts q) (rest : List Token)
    (hrest : terminalOf rest ∈ [Terminal.comma, .rparen]) (extra : List Terminal) :
    Gives (param extra (ts ++ rest)) q rest := by
  have hends : terminalOf rest ∈ exprEnds := by
    simp only [List.mem_cons, List.not_mem_nil, or_false] at hrest
    rcases hrest with h | h <;> simp [h, exprEnds]
  cases h with
  | @required ts t n p ht =>
    obtain ⟨hlt, htype⟩ := ht.gives (⟨.name, n, p⟩ :: rest) (by simp [terminalOf, typeEnds])
      [.ellipsis, .name] extra
    rw [List.append_assoc, List.singleton_append, param.eq_def]
    rcases rest with _ | ⟨⟨k, s, p₁⟩, rest⟩
    · simp [terminalOf] at hrest
    · cases k
      case equals => simp [terminalOf] at hrest
      all_goals
        simp only [htype]
        exact ⟨_, if_pos hrest⟩
  | @defaultable ts us t e n s p p₁ ht he =>
    obtain ⟨hlt, htype⟩ := ht.gives (⟨.name, n, p⟩ :: ⟨.equals, s, p₁⟩ :: (us ++ rest))
      (by simp [terminalOf, typeEnds]) [.ellipsis, .name] extra
    obtain ⟨hlt', hexpr⟩ := he.gives rest hends [.comma, .rparen] []
    rw [List.append_assoc, List.cons_append, List.cons_append, param.eq_def]
    simp only [htype, hexpr]
    exact ⟨_, rfl⟩
  | @rest ts t n s p p₁ ht =>
    obtain ⟨hlt, htype⟩ := ht.gives (⟨.ellipsis, s, p₁⟩ :: ⟨.name, n, p⟩ :: rest)
      (by simp [terminalOf, typeEnds]) [.ellipsis, .name] extra
    rw [List.append_assoc, List.cons_append, List.singleton_append, param.eq_def]
    simp only [htype]
    exact ⟨_, rfl⟩

theorem ParamTokens.head_append {ts : List Token} {q : Param Raw} (h : ParamTokens ts q) (rest : List Token) :
    terminalOf (ts ++ rest) = .name ∨ terminalOf (ts ++ rest) = .lparen := by
  cases h with
  | required ht => rw [List.append_assoc]; exact ht.head_append _
  | defaultable ht _ => rw [List.append_assoc]; exact ht.head_append _
  | rest ht => rw [List.append_assoc]; exact ht.head_append _

theorem ListTokens.params_gives {us : List Token} {qs : List (Param Raw)} (h : ListTokens ParamTokens us qs) (s : Text)
    (p : Position) (rest : List Token) (extra : List Terminal) :
    Gives (params extra (us ++ ⟨.rparen, s, p⟩ :: rest)) qs rest := by
  induction h generalizing extra with
  | one hq =>
    obtain ⟨hlt, heq⟩ := hq.gives (⟨.rparen, s, p⟩ :: rest) (by simp [terminalOf]) extra
    rw [params.eq_def]
    simp only [heq]
    exact ⟨_, rfl⟩
  | @more ts us q qs s₁ p₁ hq hs ih =>
    obtain ⟨hlt, heq⟩ := hq.gives (⟨.comma, s₁, p₁⟩ :: (us ++ ⟨.rparen, s, p⟩ :: rest)) (by simp [terminalOf]) extra
    obtain ⟨hlt', heq'⟩ := ih []
    rw [List.append_assoc, List.cons_append, params.eq_def]
    simp only [heq, heq']
    exact ⟨_, rfl⟩

theorem paramList_eq {tokens : List Token} (h : terminalOf tokens ≠ .rparen) :
    paramList tokens = params [.rparen] tokens := by
  rcases tokens with _ | ⟨⟨k, s, p⟩, tokens⟩
  · rfl
  · cases k
    case rparen => exact absurd rfl h
    all_goals rfl

theorem ParamsTokens.gives {us : List Token} {qs : List (Param Raw)} (h : ParamsTokens us qs) (s : Text) (p : Position)
    (rest : List Token) : Gives (paramList (us ++ ⟨.rparen, s, p⟩ :: rest)) qs rest := by
  cases h with
  | none => exact ⟨length_lt_cons _ _, rfl⟩
  | some hs =>
    have hhead : terminalOf (us ++ ⟨.rparen, s, p⟩ :: rest) ≠ .rparen := by
      have hfirst : ∀ vs, terminalOf (us ++ vs) = .name ∨ terminalOf (us ++ vs) = .lparen := by
        intro vs
        cases hs with
        | one hq => exact hq.head_append vs
        | more hq _ => rw [List.append_assoc]; exact hq.head_append _
      rcases hfirst (⟨.rparen, s, p⟩ :: rest) with h | h <;> simp [h]
    rw [paramList_eq hhead]
    exact hs.params_gives s p rest [.rparen]

theorem ReturnsTokens.gives {rs bs : List Token} {r : Option TypeExpr} {body : List (Stmt Raw)}
    (hr : ReturnsTokens rs r) (hb : BlockTokens bs body) (rest : List Token) :
    Gives (resultAndBlock (rs ++ (bs ++ rest))) (r, body) rest := by
  cases hb with
  | @mk ts _ s s₁ p p₁ hrow =>
    obtain ⟨hlt, hblock⟩ := hrow.block_gives s₁ p₁ rest
    rw [List.cons_append, List.append_assoc, List.singleton_append]
    cases hr with
    | none =>
      rw [List.nil_append, resultAndBlock.eq_def]
      simp only [hblock]
      exact ⟨_, rfl⟩
    | @some us t s₂ p₂ ht =>
      obtain ⟨hlt', htype⟩ := ht.gives (⟨.lbrace, s, p⟩ :: (ts ++ ⟨.rbrace, s₁, p₁⟩ :: rest))
        (by simp [terminalOf, typeEnds]) [.lbrace] []
      rw [List.cons_append, resultAndBlock.eq_def]
      simp only [htype, hblock]
      exact ⟨_, rfl⟩

theorem BareTokens.gives {isPublic : Bool} {ts : List Token} {f : Function Raw} {t : Token}
    (h : BareTokens isPublic (t :: ts) f) (rest : List Token) : Gives (functionRest isPublic (ts ++ rest)) f rest := by
  cases h with
  | @mk us rs bs ps r body s n s₁ s₂ p p₁ p₂ p₃ hp hr hb =>
    obtain ⟨hlt, hparams⟩ := hp.gives s₂ p₃ (rs ++ (bs ++ rest))
    obtain ⟨hlt', htail⟩ := hr.gives hb rest
    rw [List.cons_append, List.cons_append, List.append_assoc, List.cons_append, List.append_assoc, functionRest]
    simp only [expect, if_true, bind, Except.bind, hparams, htail]
    exact ⟨_, rfl⟩

theorem BareTokens.exists_cons {isPublic : Bool} {ts : List Token} {f : Function Raw} (h : BareTokens isPublic ts f) :
    ∃ s p us, ts = ⟨.kwFunction, s, p⟩ :: us := by
  cases h
  exact ⟨_, _, _, rfl⟩

theorem BareTokens.function_gives {isPublic : Bool} {visibility ts : List Token} {f : Function Raw}
    (hf : BareTokens isPublic ts f) (hv : PublicTokens visibility isPublic) (rest : List Token)
    (extra : List Terminal) : Gives (function extra (visibility ++ (ts ++ rest))) f rest := by
  obtain ⟨s, p, us, rfl⟩ := hf.exists_cons
  obtain ⟨hlt, heq⟩ := hf.gives rest
  cases hv with
  | no =>
    rw [List.nil_append, List.cons_append, function.eq_def]
    simp only [heq]
    exact ⟨_, rfl⟩
  | yes =>
    rw [List.singleton_append, List.cons_append, function.eq_def]
    simp only [heq]
    exact ⟨_, rfl⟩

theorem function_gives_tagged {us ts rest : List Token} {t : Tag} {f : Function Raw} (ht : TagTokens us t)
    (hts : terminalOf ts ≠ .colon) (hf : ∀ extra, Gives (function extra ts) f rest) (extra : List Terminal) :
    Gives (function extra (us ++ ts)) (f.tagged t) rest := by
  cases ht with
  | plain =>
    obtain ⟨hlt, heq⟩ := hf [.colon]
    rw [List.cons_append, List.singleton_append, function.eq_def]
    rcases ts with _ | ⟨⟨k, s, p⟩, ts⟩
    · simp at hlt
    · cases k
      case colon => exact absurd rfl hts
      all_goals
        simp only [heq]
        exact ⟨_, rfl⟩
  | qualified =>
    obtain ⟨hlt, heq⟩ := hf []
    rw [List.cons_append, List.cons_append, List.cons_append, List.singleton_append, function.eq_def]
    simp only [heq]
    exact ⟨_, rfl⟩

/-- A function begins with an annotation, the word `public` or the word `function`. -/
theorem FunctionTokens.head_append {ts : List Token} {f : Function Raw} (h : FunctionTokens ts f) (rest : List Token) :
    terminalOf (ts ++ rest) ∈ [Terminal.atSign, .kwFunction, .kwPublic] := by
  cases h with
  | mk htags hv hf =>
    cases htags with
    | nil =>
      obtain ⟨s, p, us, rfl⟩ := hf.exists_cons
      cases hv <;> simp [terminalOf]
    | cons ht _ => cases ht <;> simp [terminalOf]

theorem FunctionTokens.gives {ts : List Token} {f : Function Raw} (h : FunctionTokens ts f) (rest : List Token)
    (extra : List Terminal) : Gives (function extra (ts ++ rest)) f rest := by
  cases h with
  | @mk tags visibility ts as isPublic f htags hv hf =>
    induction htags generalizing extra with
    | nil =>
      rw [hf.tags_eq, List.nil_append, List.append_assoc]
      exact hf.function_gives hv rest extra
    | @cons us tags t as ht htags ih =>
      have hhead := (FunctionTokens.mk htags hv hf).head_append rest
      rw [List.append_assoc us, List.append_assoc us]
      refine function_gives_tagged ht (fun hc => ?_) ih extra
      rw [hc] at hhead
      simp at hhead

/-! ## Items -/

theorem ImportTokens.gives {ts : List Token} {i : Import} (h : ImportTokens ts i) (rest : List Token) :
    Gives (item (ts ++ rest)) (.use i) rest := by
  cases h with
  | plain =>
    simp only [Gives, List.cons_append, List.nil_append, item, importRest, expect, if_true, bind, Except.bind]
    exact ⟨by simp only [List.length_cons]; omega, rfl⟩
  | asName =>
    simp only [Gives, List.cons_append, List.nil_append, item, importRest, expect, if_true, bind, Except.bind]
    exact ⟨by simp only [List.length_cons]; omega, rfl⟩

theorem RecordTokens.gives {ts : List Token} {r : Record} (h : RecordTokens ts r) (rest : List Token)
    (hrest : terminalOf rest ∈ itemStarts) : Gives (item (ts ++ rest)) (.record r) rest := by
  cases h with
  | mk hsemicolon =>
    simp only [Gives, List.cons_append, item, recordRest, expect, if_true, bind, Except.bind]
    cases hsemicolon with
    | some => exact ⟨by simp only [List.length_cons, List.length_append]; omega, rfl⟩
    | none =>
      simp only [List.nil_append]
      rcases rest with _ | ⟨⟨k, s, p⟩, rest⟩
      · exact ⟨by simp, rfl⟩
      · cases k
        case semicolon => simp [terminalOf, itemStarts] at hrest
        all_goals
          simp only [if_pos hrest]
          exact ⟨by simp only [List.length_cons]; omega, rfl⟩

theorem ItemTokens.gives {ts : List Token} {i : Item Raw} (h : ItemTokens ts i) (rest : List Token)
    (hrest : terminalOf rest ∈ itemStarts) : Gives (item (ts ++ rest)) i rest := by
  cases h with
  | use h => exact h.gives rest
  | record h => exact h.gives rest hrest
  | function h =>
    obtain ⟨hlt, heq⟩ := h.gives rest []
    have hhead := h.head_append rest
    generalize ts ++ rest = tokens at *
    unfold item
    split
    · simp [terminalOf] at hhead
    · simp [terminalOf] at hhead
    · rw [if_pos hhead, heq]
      exact ⟨hlt, rfl⟩

theorem ItemTokens.head_append {ts : List Token} {i : Item Raw} (h : ItemTokens ts i) (rest : List Token) :
    terminalOf (ts ++ rest) ∈ itemStarts := by
  cases h with
  | use h => cases h <;> simp [terminalOf, itemStarts]
  | record h => cases h; simp [terminalOf, itemStarts]
  | function h =>
    have hhead := h.head_append rest
    simp only [List.mem_cons, List.not_mem_nil, or_false] at hhead
    rcases hhead with h | h | h <;> simp [h, itemStarts]

theorem RowTokens.items_eq {tokens : List Token} {parsed : List (Item Raw)} (h : RowTokens ItemTokens tokens parsed) :
    items tokens = .ok parsed := by
  induction h with
  | nil => rw [items.eq_def, if_pos rfl]
  | @cons ts us i is hi hs ih =>
    have hus : terminalOf us ∈ itemStarts := by
      cases hs with
      | nil => simp [terminalOf, itemStarts]
      | cons hj _ => exact hj.head_append _
    obtain ⟨hlt, heq⟩ := hi.gives us hus
    have hne : ts ++ us ≠ [] := fun hnil => by simp [hnil] at hlt
    rw [items.eq_def, if_neg hne]
    simp only [heq, ih]

/-- The parser gives some items exactly if the tokens make them up. -/
theorem items_iff {tokens : List Token} {parsed : List (Item Raw)} :
    items tokens = .ok parsed ↔ RowTokens ItemTokens tokens parsed :=
  ⟨items_sound, RowTokens.items_eq⟩

end Registrar.Surface
