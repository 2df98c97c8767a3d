import Registrar.Proofs.Surface.Completeness
import Registrar.Proofs.Token.Lexer
import Registrar.Proofs.Unit.ReadBack

/-!
# The tokens of printed text

What is printed is cut into tokens that make up, by the grammar, the tree by which it is written. Each lemma says so of
one kind of part in front of any text that does not go on with its last word; the parts are put together as the printer
puts them together.
-/

namespace Registrar

open Surface

/-! ## Signs and words -/

namespace Lexes

theorem weaken {before : Text → Prop} {t : Text} {P : List Token → Prop} (h : Lexes Anything t P) :
    Lexes before t P := fun p rest _ => h p rest trivial

theorem space : Lexes Anything " " (· = []) := blanks (by decide)

/-- Blanks in front of a piece add no token. -/
theorem indented {before : Text → Prop} {s t : Text} {P : List Token → Prop} (hs : ∀ c ∈ s, c.isBlank = true)
    (h : Lexes before t P) : Lexes before (s ++ t) P := by
  refine ((blanks hs).followed h).imp ?_
  rintro _ ⟨_, us, rfl, hus, rfl⟩
  exact hus

/-- A blank behind a piece that may end with a word. -/
theorem thenSpace {t : Text} {P : List Token → Prop} (h : Lexes Breaks t P) : Lexes Anything (t ++ " ") P := by
  refine (h.broken space rfl rfl).imp ?_
  rintro _ ⟨us, _, hus, rfl, rfl⟩
  rwa [List.append_nil]

theorem lparen : Lexes Anything "(" (OneToken .lparen "(") := sign rfl (by decide)

theorem rparen : Lexes Anything ")" (OneToken .rparen ")") := sign rfl (by decide)

theorem colon : Lexes Anything ":" (OneToken .colon ":") := sign rfl (by decide)

theorem semicolon : Lexes Anything ";" (OneToken .semicolon ";") := sign rfl (by decide)

theorem comma : Lexes Anything ", " (OneToken .comma ",") :=
  (sign (c := .scalar ',') rfl (by decide)).weaken.thenSpace

end Lexes

/-! ## Pieces in a row -/

namespace Lexes

/-- Nothing is no token. -/
theorem empty : Lexes Anything [] (· = []) := blanks (by simp)

/-- Pieces with blanks between them. -/
theorem row {gap : Text} (hblank : ∀ c ∈ gap, c.isBlank = true) {c : CodePoint} (hhead : gap.head? = some c)
    (hc : c.isNamePart = false) {texts : List Text} {Ps : List (List Token → Prop)}
    (h : List.Forall₂ (Lexes Breaks) texts Ps) :
    Lexes Breaks (gap.intercalate texts) fun ts =>
      ∃ tss, List.Forall₂ (fun ts P => P ts) tss Ps ∧ ts = tss.flatten := by
  induction h with
  | nil => exact (empty.imp fun ts hts => ⟨[], .nil, hts⟩).weaken
  | @cons t P texts Ps ht hs ih =>
    cases texts with
    | nil =>
      cases hs
      rw [List.intercalate_singleton]
      exact ht.imp fun ts hts => ⟨[ts], .cons hts .nil, by simp⟩
    | cons t' texts =>
      rw [List.intercalate_cons_cons]
      refine ((ht.broken (blanks hblank) hhead hc).followed ih).imp ?_
      rintro _ ⟨_, _, ⟨us, _, hus, rfl, rfl⟩, ⟨tss, htss, rfl⟩, rfl⟩
      exact ⟨us :: tss, .cons hus htss, by simp⟩

/-- Pieces with commas between them. -/
theorem list {α : Type} {part : List Token → α → Prop} {texts : List Text} {Rs : List (α → Prop)} (hne : texts ≠ [])
    (h : List.Forall₂ (fun t R => Lexes Breaks t fun ts => ∃ a, part ts a ∧ R a) texts Rs) :
    Lexes Breaks (List.intercalate (", " : Text) texts) fun ts =>
      ∃ as, ListTokens part ts as ∧ List.Forall₂ (fun a R => R a) as Rs := by
  induction h with
  | nil => exact absurd rfl hne
  | @cons t R texts Rs ht hs ih =>
    cases texts with
    | nil =>
      cases hs
      rw [List.intercalate_singleton]
      refine ht.imp ?_
      rintro ts ⟨a, hpart, ha⟩
      exact ⟨[a], .one hpart, .cons ha .nil⟩
    | cons t' texts =>
      rw [List.intercalate_cons_cons]
      refine ((ht.broken comma rfl rfl).followed (ih (List.cons_ne_nil t' texts))).imp ?_
      rintro _ ⟨_, _, ⟨us, _, ⟨a, hpart, ha⟩, ⟨p, rfl⟩, rfl⟩, ⟨as, hparts, has⟩, rfl⟩
      rw [List.append_assoc, List.singleton_append]
      exact ⟨a :: as, .more hpart hparts, .cons ha has⟩

end Lexes

/-- The tokens of parts that follow each other. -/
theorem rowTokens_of_forall₂ {α β : Type} {part : List Token → α → Prop} {R : α → β → Prop} {tss : List (List Token)}
    {bs : List β} (h : List.Forall₂ (fun ts b => ∃ a, part ts a ∧ R a b) tss bs) :
    ∃ as, RowTokens part tss.flatten as ∧ List.Forall₂ R as bs := by
  induction h with
  | nil => exact ⟨[], .nil, .nil⟩
  | cons hts _ ih =>
    obtain ⟨a, hpart, ha⟩ := hts
    obtain ⟨as, hparts, has⟩ := ih
    exact ⟨a :: as, .cons hpart hparts, .cons ha has⟩

theorem writesAll_of_forall₂ {es : List (Surface.Expr Raw)} {xs : List Expr}
    (h : List.Forall₂ (Writes Value.raw) es xs) : WritesAll Value.raw es xs := by
  induction h with
  | nil => exact .nil
  | cons h _ ih => exact .cons h ih

/-! ## Expressions -/

theorem Value.lexes {v : Value} (h : v.spelled = true) :
    Lexes Breaks v.render fun ts => ∃ p, ExprTokens ts (.literal v.raw p) := by
  cases v with
  | nil =>
    refine ((Lexes.lparen.followed Lexes.rparen).imp ?_).weaken
    rintro _ ⟨_, _, ⟨p, rfl⟩, ⟨p₁, rfl⟩, rfl⟩
    exact ⟨p, .nil⟩
  | bool b =>
    cases b with
    | false =>
      refine (Lexes.word (by decide)).imp ?_
      rintro ts ⟨p, rfl⟩
      exact ⟨p, .no⟩
    | true =>
      refine (Lexes.word (by decide)).imp ?_
      rintro ts ⟨p, rfl⟩
      exact ⟨p, .yes⟩
  | int n =>
    obtain ⟨k, rfl, -⟩ := Value.spelled_int.mp h
    refine (Lexes.numeral (Text.isNumeral_ofNat k)).imp ?_
    rintro ts ⟨p, rfl⟩
    exact ⟨p, .int⟩
  | str t =>
    refine ((Lexes.string t).imp ?_).weaken
    rintro ts ⟨p, rfl⟩
    exact ⟨p, .string⟩

theorem lexes_qualified {q : Option Text} {n : Text} (hq : ∀ t ∈ q, t.isName = true) (hn : n.isName = true) :
    Lexes Breaks (qualified q n) fun ts => ∃ p, NameTokens ts ⟨q, n, p⟩ := by
  cases q with
  | none =>
    refine (Lexes.name hn).imp ?_
    rintro ts ⟨p, rfl⟩
    exact ⟨p, .plain⟩
  | some q =>
    have hq := hq q rfl
    have heq : qualified (some q) n = q ++ ":" ++ n := by
      obtain ⟨c, t, rfl⟩ := List.exists_cons_of_ne_nil (Text.ne_nil_of_isName hq)
      rfl
    rw [heq]
    refine (((Lexes.name hq).broken Lexes.colon rfl rfl).followed (Lexes.name hn)).imp ?_
    rintro _ ⟨_, _, ⟨_, _, ⟨p, rfl⟩, ⟨p₁, rfl⟩, rfl⟩, ⟨p₂, rfl⟩, rfl⟩
    exact ⟨p, .qualified⟩

mutual
/-- A printed expression is cut into the tokens of what the printer writes. -/
theorem Expr.lexes : (x : Expr) → (∀ y ∈ x.parts, y.spelled = true) →
    Lexes Breaks x.render fun ts => ∃ e, ExprTokens ts e ∧ Writes Value.raw e x
  | .literal v _ _, h => by
    rw [Expr.parts, List.forall_mem_singleton] at h
    rw [Expr.render]
    refine (Value.lexes h).imp ?_
    rintro ts ⟨p, hts⟩
    exact ⟨_, hts, .literal⟩
  | .ref n _ _ _, h => by
    rw [Expr.parts, List.forall_mem_singleton] at h
    rw [Expr.render]
    refine (Lexes.name h).imp ?_
    rintro ts ⟨p, rfl⟩
    exact ⟨_, .name .plain, .ref⟩
  | .call n _ xs _ q _, h => by
    rw [Expr.parts, List.forall_mem_cons, Expr.spelled, Bool.and_eq_true, Option.all_eq_true] at h
    obtain ⟨⟨hn, hq⟩, hargs⟩ := h
    rw [Expr.render]
    have hname := (lexes_qualified hq hn).broken Lexes.lparen rfl rfl
    cases xs with
    | nil =>
      rw [Expr.renderAll, List.intercalate_nil, List.append_nil]
      refine (hname.followed Lexes.rparen).weaken.imp ?_
      rintro _ ⟨_, _, ⟨us, _, ⟨p, hus⟩, ⟨p₁, rfl⟩, rfl⟩, ⟨p₂, rfl⟩, rfl⟩
      rw [List.append_assoc]
      exact ⟨_, .callNone hus, .call .nil⟩
    | cons x xs =>
      have hlist := Lexes.list (by simp [Expr.renderAll]) (Expr.lexesAll (x :: xs) hargs)
      refine ((hname.followed hlist).broken Lexes.rparen rfl rfl).weaken.imp ?_
      rintro _ ⟨_, _, ⟨_, _, ⟨us, _, ⟨p, hus⟩, ⟨p₁, rfl⟩, rfl⟩, ⟨es, hes, hwrites⟩, rfl⟩, ⟨p₂, rfl⟩, rfl⟩
      rw [List.forall₂_map_right_iff] at hwrites
      rw [List.append_assoc, List.append_assoc, List.singleton_append]
      exact ⟨_, .call hus (argsTokens_of_list hes), .call (writesAll_of_forall₂ hwrites)⟩

theorem Expr.lexesAll : (xs : List Expr) → (∀ y ∈ Expr.partsAll xs, y.spelled = true) →
    List.Forall₂ (fun t R => Lexes Breaks t fun ts => ∃ e, ExprTokens ts e ∧ R e) (Expr.renderAll xs)
      (xs.map fun x e => Writes Value.raw e x)
  | [], _ => by
    rw [Expr.renderAll]
    exact .nil
  | x :: xs, h => by
    rw [Expr.partsAll, List.forall_mem_append] at h
    rw [Expr.renderAll]
    exact .cons (Expr.lexes x h.1) (Expr.lexesAll xs h.2)
end

/-! ## Statements and markers -/

theorem Stmt.lexes (s : Stmt) (h : ∀ x, s.expr? = some x → ∀ y ∈ x.parts, y.spelled = true) :
    Lexes Anything s.render fun ts => ∃ t, StmtTokens ts t ∧ StmtWrites Value.raw t s := by
  have hreturn : Lexes Breaks "return" (OneToken .kwReturn "return") := Lexes.word (by decide)
  rcases s with ⟨x, span⟩ | ⟨_ | x, span⟩
  · refine ((x.lexes (h x rfl)).broken Lexes.semicolon rfl rfl).imp ?_
    rintro _ ⟨us, _, ⟨e, he, hwrites⟩, ⟨p, rfl⟩, rfl⟩
    obtain ⟨t, us, rfl⟩ := he.exists_cons
    exact ⟨_, .expr he, .expr hwrites⟩
  · refine (hreturn.broken Lexes.semicolon rfl rfl).imp ?_
    rintro _ ⟨_, _, ⟨p, rfl⟩, ⟨p₁, rfl⟩, rfl⟩
    exact ⟨_, .retNone, .retNone⟩
  · refine ((hreturn.thenSpace.followed (x.lexes (h x rfl))).broken Lexes.semicolon rfl rfl).imp ?_
    rintro _ ⟨_, _, ⟨_, us, ⟨p, rfl⟩, ⟨e, he, hwrites⟩, rfl⟩, ⟨p₁, rfl⟩, rfl⟩
    exact ⟨_, .ret he, .ret hwrites⟩

/-- A marker that is printed by names. -/
structure Marker.Spelled (m : Marker) : Prop where
  tag : m.tag.isName = true
  qualifier : ∀ q ∈ m.qualifier, q.isName = true

theorem Marker.lexes {m : Marker} (h : m.Spelled) :
    Lexes Breaks m.render fun ts => ∃ t, TagTokens ts t ∧ TagWrites t m := by
  have hat : Lexes Anything "@" (OneToken .atSign "@") := Lexes.sign rfl (by decide)
  refine (hat.followed (lexes_qualified h.qualifier h.tag)).imp ?_
  rintro _ ⟨_, us, ⟨p, rfl⟩, ⟨p₁, hname⟩, rfl⟩
  generalize hq : m.qualifier = q, hn : m.tag = n at hname
  cases hname with
  | plain => exact ⟨_, .plain, hq.symm, hn.symm⟩
  | qualified => exact ⟨_, .qualified, hq.symm, hn.symm⟩

/-! ## Parameters -/

/-- A type that is printed by the tokens of a type expression by which it may be written. -/
def Ty.Spells (qs : Qualifiers) (den : TypeExpr → Ty → Prop) (t : Ty) : Prop :=
  Lexes Breaks (t.render qs) fun ts => ∃ te, TypeTokens ts te ∧ den te t

section

variable {qs : Qualifiers} {den : TypeExpr → Ty → Prop}

theorem Param.lexes {p : Param} (hname : p.name.isName = true) (htype : p.type.Spells qs den)
    (hdefault : ∀ x, p.default = some x → ∀ y ∈ x.parts, y.spelled = true) :
    Lexes Breaks (p.render qs) fun ts => ∃ q, ParamTokens ts q ∧ ParamWrites Value.raw den q p := by
  have hequals : Lexes Anything " = " (OneToken .equals "=") := by
    have hsign : Lexes Anything "=" (OneToken .equals "=") := Lexes.sign rfl (by decide)
    exact Lexes.indented (s := " ") (by decide) hsign.weaken.thenSpace
  have hhead := htype.thenSpace.followed (Lexes.name hname)
  obtain ⟨n, t, _ | x, span⟩ := p
  · show Lexes Breaks (t.render qs ++ (" " : Text) ++ n ++ ([] : Text)) _
    rw [List.append_nil]
    refine hhead.imp ?_
    rintro _ ⟨us, _, ⟨te, hte, hden⟩, ⟨p, rfl⟩, rfl⟩
    exact ⟨_, .required hte, .required hden⟩
  · refine (hhead.broken (hequals.followed (x.lexes (hdefault x rfl))) rfl rfl).imp ?_
    rintro _ ⟨_, _, ⟨us, _, ⟨te, hte, hden⟩, ⟨p, rfl⟩, rfl⟩, ⟨_, vs, ⟨p₁, rfl⟩, ⟨e, he, hwrites⟩, rfl⟩, rfl⟩
    rw [List.append_assoc, List.singleton_append, List.singleton_append]
    exact ⟨_, .defaultable hte he, .defaultable hden hwrites⟩

theorem Param.lexes_rest {p : Param} (hname : p.name.isName = true) (htype : p.type.Spells qs den) :
    Lexes Breaks (p.renderRest qs) fun ts => ∃ q, ParamTokens ts q ∧ RestWrites den q p := by
  have hdots : Lexes Anything "... " (OneToken .ellipsis "...") := Lexes.ellipsis.weaken.thenSpace
  refine ((htype.broken hdots rfl rfl).followed (Lexes.name hname)).imp ?_
  rintro _ ⟨_, _, ⟨us, _, ⟨te, hte, hden⟩, ⟨p, rfl⟩, rfl⟩, ⟨p₁, rfl⟩, rfl⟩
  rw [List.append_assoc]
  exact ⟨_, .rest hte, .mk hden⟩

/-! ## Functions -/

/-- A function that is printed by tokens of the right spelling. -/
structure FunctionDecl.Spelled (qs : Qualifiers) (den : TypeExpr → Ty → Prop) (d : FunctionDecl) : Prop where
  name : d.name.isName = true
  markers : ∀ m ∈ d.markers, m.Spelled
  params : ∀ p ∈ d.params, p.name.isName = true ∧ p.type.Spells qs den
  returns : d.returnType ≠ .nil → d.returnType.Spells qs den
  written : ∀ y ∈ d.written, y.spelled = true

namespace FunctionDecl

variable {d : FunctionDecl}

theorem lexes_params (h : d.Spelled qs den) :
    Lexes Breaks (List.intercalate (", " : Text) (d.renderParams qs)) fun ts =>
      ∃ ps, ParamsTokens ts ps ∧ ∃ fixed rest, ps = fixed ++ rest ∧
        List.Forall₂ (ParamWrites Value.raw den) fixed (d.required ++ d.defaultable) ∧
        List.Forall₂ (RestWrites den) rest d.rest.toList := by
  have hdefaults := (forall_mem_written.mp h.written).2
  have hfixed : List.Forall₂ (fun t R => Lexes Breaks t fun ts => ∃ q, ParamTokens ts q ∧ R q)
      ((d.required ++ d.defaultable).map (Param.render qs))
      ((d.required ++ d.defaultable).map fun p q => ParamWrites Value.raw den q p) := by
    rw [List.forall₂_map_left_iff, List.forall₂_map_right_iff, List.forall₂_same]
    intro p hp
    obtain ⟨hname, htype⟩ := h.params p (List.mem_append_left _ hp)
    exact Param.lexes hname htype (hdefaults p hp)
  have hrest : List.Forall₂ (fun t R => Lexes Breaks t fun ts => ∃ q, ParamTokens ts q ∧ R q)
      (d.rest.toList.map (Param.renderRest qs)) (d.rest.toList.map fun p q => RestWrites den q p) := by
    rw [List.forall₂_map_left_iff, List.forall₂_map_right_iff, List.forall₂_same]
    intro p hp
    obtain ⟨hname, htype⟩ := h.params p (List.mem_append_right _ hp)
    exact Param.lexes_rest hname htype
  have hall := List.rel_append hfixed hrest
  by_cases hnone : d.renderParams qs = []
  · rw [hnone, List.intercalate_nil]
    refine (Lexes.empty.imp ?_).weaken
    rintro _ rfl
    obtain ⟨hf, hr⟩ := List.append_eq_nil_iff.mp hnone
    rw [List.map_eq_nil_iff] at hf hr
    rw [hf, hr]
    exact ⟨[], .none, [], [], rfl, .nil, .nil⟩
  · refine (Lexes.list hnone hall).imp ?_
    rintro ts ⟨ps, hps, hwrites⟩
    obtain ⟨fixed, rest, rfl, hf, hr⟩ := exists_of_forall₂_append hwrites.flip
    rw [List.forall₂_map_left_iff] at hf hr
    exact ⟨_, .some hps, fixed, rest, rfl, hf.flip, hr.flip⟩

/-- The tokens of the first line of a function: with annotations in front and statements and a brace behind, they make
up what the printer writes. -/
def HeadTokens (den : TypeExpr → Ty → Prop) (d : FunctionDecl) (ts : List Token) : Prop :=
  ∃ p ps r, ReturnsWrites den r d.returnType ∧
    (∃ fixed rest, ps = fixed ++ rest ∧ List.Forall₂ (ParamWrites Value.raw den) fixed (d.required ++ d.defaultable) ∧
      List.Forall₂ (RestWrites den) rest d.rest.toList) ∧
    ∀ tags as stmts body s p₁, RowTokens TagTokens tags as → RowTokens StmtTokens stmts body →
      FunctionTokens (tags ++ ts ++ stmts ++ [⟨.rbrace, s, p₁⟩]) ⟨d.name, p, as, d.isPublic, ps, r, body⟩

theorem lexes_head (h : d.Spelled qs den) : Lexes Anything (d.renderHead qs) (HeadTokens den d) := by
  have hvisibility : Lexes Anything (if d.isPublic then "public " else []) (PublicTokens · d.isPublic) := by
    cases d.isPublic with
    | false => exact Lexes.empty.imp fun ts hts => hts ▸ .no
    | true =>
      have hword : Lexes Breaks "public" (OneToken .kwPublic "public") := Lexes.word (by decide)
      refine hword.thenSpace.imp ?_
      rintro ts ⟨p, rfl⟩
      exact .yes
  have hfunction : Lexes Anything "function " (OneToken .kwFunction "function") :=
    (Lexes.word (by decide) : Lexes Breaks "function" (OneToken .kwFunction "function")).thenSpace
  have hreturns : Lexes Breaks (if d.returnType = .nil then [] else " returns " ++ d.returnType.render qs)
      fun ts => ∃ r, ReturnsTokens ts r ∧ ReturnsWrites den r d.returnType := by
    by_cases hnil : d.returnType = .nil
    · rw [if_pos hnil]
      exact (Lexes.empty.imp fun ts hts => ⟨none, hts ▸ .none, hnil⟩).weaken
    · rw [if_neg hnil]
      have hword : Lexes Breaks "returns" (OneToken .kwReturns "returns") := Lexes.word (by decide)
      have hreturns := Lexes.indented (s := " ") (by decide) hword.thenSpace
      refine (hreturns.followed (h.returns hnil)).imp ?_
      rintro _ ⟨_, us, ⟨p, rfl⟩, ⟨te, hte, hden⟩, rfl⟩
      exact ⟨some te, .some hte, hden⟩
  have hbrace : Lexes Anything " \x7b" (OneToken .lbrace "\x7b") := by
    have hsign : Lexes Anything "\x7b" (OneToken .lbrace "\x7b") := Lexes.sign rfl (by decide)
    exact Lexes.indented (s := " ") (by decide) hsign
  refine (((((((hvisibility.followed hfunction).followed (Lexes.name h.name)).broken Lexes.lparen rfl rfl).followed
    (lexes_params h)).broken Lexes.rparen rfl rfl).followed hreturns).broken hbrace rfl rfl).imp ?_
  rintro _ ⟨_, _, ⟨_, returns, ⟨_, _, ⟨_, params, ⟨_, _, ⟨_, _, ⟨visibility, _, hv, ⟨p₁, rfl⟩, rfl⟩, ⟨p, rfl⟩, rfl⟩,
    ⟨p₂, rfl⟩, rfl⟩, ⟨ps, hps, hparams⟩, rfl⟩, ⟨p₃, rfl⟩, rfl⟩, ⟨r, hr, hwrites⟩, rfl⟩, ⟨p₄, rfl⟩, rfl⟩
  refine ⟨p, ps, r, hwrites, hparams, fun tags as stmts body s p₅ htags hstmts => ?_⟩
  have hbare : BareTokens d.isPublic (⟨.kwFunction, "function", p₁⟩ :: ⟨.name, d.name, p⟩ :: ⟨.lparen, "(", p₂⟩ ::
      (params ++ ⟨.rparen, ")", p₃⟩ :: (returns ++ ⟨.lbrace, "\x7b", p₄⟩ :: (stmts ++ [⟨.rbrace, s, p₅⟩]))))
      ⟨d.name, p, [], d.isPublic, ps, r, body⟩ := .mk hps hr (.mk hstmts)
  simpa using FunctionTokens.mk htags hv hbare

/-- A printed function is cut into the tokens of what the printer writes. -/
theorem lexes (h : d.Spelled qs den) :
    Lexes Breaks (d.render qs) fun ts => ∃ f, FunctionTokens ts f ∧ FunctionWrites Value.raw den f d := by
  have hmarkers : List.Forall₂ (Lexes Breaks) (d.markers.map Marker.render)
      (d.markers.map fun m ts => ∃ t, TagTokens ts t ∧ TagWrites t m) := by
    rw [List.forall₂_map_left_iff, List.forall₂_map_right_iff, List.forall₂_same]
    exact fun m hm => Marker.lexes (h.markers m hm)
  have hbody : List.Forall₂ (Lexes Breaks) (d.body.map fun s => ("    " ++ s.render : Text))
      (d.body.map fun s ts => ∃ t, StmtTokens ts t ∧ StmtWrites Value.raw t s) := by
    rw [List.forall₂_map_left_iff, List.forall₂_map_right_iff, List.forall₂_same]
    intro s hs
    have hstmt := s.lexes ((forall_mem_written.mp h.written).1 s hs)
    exact Lexes.indented (by decide) hstmt.weaken
  have hbrace : Lexes Anything "\x7d" (OneToken .rbrace "\x7d") := Lexes.sign rfl (by decide)
  -- the lines of the function, in the order in which they are printed
  have hlines := List.rel_append (List.rel_append (List.rel_append hmarkers (.cons (lexes_head h).weaken .nil)) hbody)
    (.cons hbrace.weaken .nil)
  refine (Lexes.row (by decide) rfl rfl hlines).imp ?_
  rintro _ ⟨tss, htss, rfl⟩
  obtain ⟨_, _, rfl, hothers, hlast⟩ := exists_of_forall₂_append htss.flip
  obtain ⟨_, stmts, rfl, hothers, hstmts⟩ := exists_of_forall₂_append hothers
  obtain ⟨tags, _, rfl, htags, hhead⟩ := exists_of_forall₂_append hothers
  rw [List.forall₂_map_left_iff] at htags hstmts
  obtain ⟨as, hrow, has⟩ := rowTokens_of_forall₂ htags.flip
  obtain ⟨ss, hblock, hss⟩ := rowTokens_of_forall₂ hstmts.flip
  rcases hhead with _ | ⟨⟨p, ps, r, hret, hparams, hhead⟩, ⟨⟩⟩
  rcases hlast with _ | ⟨⟨p₁, rfl⟩, ⟨⟩⟩
  refine ⟨⟨d.name, p, as, d.isPublic, ps, r, ss⟩, ?_, ⟨rfl, rfl, has, hparams, hret, hss⟩⟩
  simpa using hhead _ _ _ _ "\x7d" p₁ hrow hblock

end FunctionDecl

/-! ## Units -/

/-- An import that is printed by names. -/
structure ImportDecl.Spelled (i : ImportDecl) : Prop where
  space : i.id.space.isName = true
  name : i.id.name.isName = true
  asName : ∀ a ∈ i.asName, a.isName = true

theorem ImportDecl.Spelled.lexes {i : ImportDecl} (h : i.Spelled) :
    Lexes Anything i.render fun ts => ∃ u, ImportTokens ts u ∧ ImportWrites u i := by
  have himport : Lexes Anything "import " (OneToken .kwImport "import") :=
    (Lexes.word (by decide) : Lexes Breaks "import" (OneToken .kwImport "import")).thenSpace
  -- a name does not begin with the second slash of a comment
  have hslash : ∀ rest, Breaks rest → (i.id.name ++ rest).head? ≠ some (.scalar '/') := by
    intro rest _ hhead
    obtain ⟨⟨c, t, hc, hstart⟩, -⟩ := Text.isWord_iff.mp (Text.isName_iff.mp h.name).1
    rw [hc] at hhead
    obtain rfl := Option.some.inj hhead
    exact absurd hstart (by decide)
  have hid : Lexes Breaks i.id.render _ :=
    ((Lexes.name h.space).broken Lexes.slash rfl rfl).append (Lexes.name h.name) hslash
  obtain ⟨id, module, _ | a, span⟩ := i
  · show Lexes Anything (("import " : Text) ++ id.render ++ ([] : Text) ++ (";" : Text)) _
    rw [List.append_nil]
    refine ((himport.followed hid).broken Lexes.semicolon rfl rfl).imp ?_
    rintro _ ⟨_, _, ⟨_, _, ⟨p, rfl⟩, ⟨_, _, ⟨_, _, ⟨p₁, rfl⟩, ⟨p₂, rfl⟩, rfl⟩, ⟨p₃, rfl⟩, rfl⟩, rfl⟩, ⟨p₄, rfl⟩, rfl⟩
    exact ⟨_, .plain, rfl, rfl, rfl⟩
  · have ha : a.isName = true := h.asName a rfl
    have has : Lexes Anything " as " (OneToken .kwAs "as") := by
      have hword : Lexes Breaks "as" (OneToken .kwAs "as") := Lexes.word (by decide)
      exact Lexes.indented (s := " ") (by decide) hword.thenSpace
    have hrender : ImportDecl.render ⟨id, module, some a, span⟩ =
        ("import " : Text) ++ id.render ++ ((" as " : Text) ++ a) ++ (";" : Text) := by
      obtain ⟨c, t, rfl⟩ := List.exists_cons_of_ne_nil (Text.ne_nil_of_isName ha)
      rfl
    rw [hrender]
    have hlocal := has.followed (Lexes.name ha)
    refine (((himport.followed hid).broken hlocal rfl rfl).broken Lexes.semicolon rfl rfl).imp ?_
    rintro _ ⟨_, _, ⟨_, _, ⟨_, _, ⟨p, rfl⟩, ⟨_, _, ⟨_, _, ⟨p₁, rfl⟩, ⟨p₂, rfl⟩, rfl⟩, ⟨p₃, rfl⟩, rfl⟩, rfl⟩,
      ⟨_, _, ⟨p₄, rfl⟩, ⟨p₅, rfl⟩, rfl⟩, rfl⟩, ⟨p₆, rfl⟩, rfl⟩
    exact ⟨_, .asName, rfl, rfl, rfl⟩

theorem TypeDecl.lexes {t : TypeDecl} (h : t.name.isName = true) :
    Lexes Anything t.render fun ts => ∃ r, RecordTokens ts r ∧ RecordWrites r t := by
  have htype : Lexes Anything "type " (OneToken .kwType "type") :=
    (Lexes.word (by decide) : Lexes Breaks "type" (OneToken .kwType "type")).thenSpace
  have hrecord : Lexes Breaks "record" (OneToken .kwRecord "record") := Lexes.word (by decide)
  have hlbrace : Lexes Anything "\x7b" (OneToken .lbrace "\x7b") := Lexes.sign rfl (by decide)
  have hrbrace : Lexes Anything "\x7d" (OneToken .rbrace "\x7d") := Lexes.sign rfl (by decide)
  have hbody := Lexes.indented (s := " ") (by decide) (hrecord.thenSpace.followed (hlbrace.followed hrbrace))
  refine ((htype.followed (Lexes.name h)).broken hbody rfl rfl).imp ?_
  rintro _ ⟨_, _, ⟨_, _, ⟨p, rfl⟩, ⟨p₁, rfl⟩, rfl⟩, ⟨_, _, ⟨p₂, rfl⟩, ⟨_, _, ⟨p₃, rfl⟩, ⟨p₄, rfl⟩, rfl⟩, rfl⟩, rfl⟩
  exact ⟨⟨t.name, p⟩, .mk .none, rfl⟩

/-- A unit that is printed by tokens of the right spelling. -/
structure CompilationUnit.Spelled (den : TypeExpr → Ty → Prop) (unit : CompilationUnit) : Prop where
  imports : ∀ i ∈ unit.imports, i.Spelled
  types : ∀ t ∈ unit.types, t.name.isName = true
  functions : ∀ d ∈ unit.functions, d.Spelled unit.qualifiers den

theorem CompilationUnit.Spelled.imp {den' : TypeExpr → Ty → Prop} {unit : CompilationUnit} (h : unit.Spelled den)
    (hden : ∀ {te t}, den te t → den' te t) : unit.Spelled den' := by
  have htype : ∀ {t : Ty}, t.Spells unit.qualifiers den → t.Spells unit.qualifiers den' := by
    intro t ht
    refine Lexes.imp ht ?_
    rintro ts ⟨te, hte, hd⟩
    exact ⟨te, hte, hden hd⟩
  refine ⟨h.imports, h.types, fun d hd => ?_⟩
  have hf := h.functions d hd
  exact ⟨hf.name, hf.markers, fun p hp => ⟨(hf.params p hp).1, htype (hf.params p hp).2⟩,
    fun hnil => htype (hf.returns hnil), hf.written⟩

/-- A text is parsed as the items that its tokens make up. -/
theorem Surface.parse_complete {source : Text} {tokens : List Token} {its : List (Item Raw)}
    (hscan : scan source = ⟨tokens, none⟩) (h : RowTokens ItemTokens tokens its) : parse source = .ok its := by
  rw [parse, hscan]
  dsimp only
  rw [items_iff.mpr h]

/-- The text of a unit is parsed as what the printer writes. -/
theorem CompilationUnit.Spelled.parse_render {unit : CompilationUnit} (h : unit.Spelled den) :
    ∃ items, parse unit.render = .ok items ∧ List.Forall₂ (PartWrites Value.raw den) items unit.parts := by
  have hparts : List.Forall₂ (Lexes Breaks) (unit.parts.map (UnitPart.render unit.qualifiers))
      (unit.parts.map fun part ts => ∃ i, ItemTokens ts i ∧ PartWrites Value.raw den i part) := by
    rw [List.forall₂_map_left_iff, List.forall₂_map_right_iff, List.forall₂_same]
    intro part hpart
    simp only [parts, List.mem_append, List.mem_map] at hpart
    rcases hpart with (⟨i, hi, rfl⟩ | ⟨t, ht, rfl⟩) | ⟨d, hd, rfl⟩
    · refine ((h.imports i hi).lexes.imp ?_).weaken
      rintro ts ⟨u, hu, hwrites⟩
      exact ⟨_, .use hu, .use hwrites⟩
    · refine ((TypeDecl.lexes (h.types t ht)).imp ?_).weaken
      rintro ts ⟨r, hr, hwrites⟩
      exact ⟨_, .record hr, .record hwrites⟩
    · refine (FunctionDecl.lexes (h.functions d hd)).imp ?_
      rintro ts ⟨f, hf, hwrites⟩
      exact ⟨_, .function hf, .function hwrites⟩
  have hrow : Lexes Breaks (List.intercalate ("\n\n" : Text) (unit.parts.map (UnitPart.render unit.qualifiers))) _ :=
    Lexes.row (by decide) rfl rfl hparts
  have hend : Lexes Anything "\n" (· = []) := Lexes.blanks (by decide)
  obtain ⟨_, ⟨_, _, ⟨tss, htss, rfl⟩, rfl, rfl⟩, hscan⟩ := (hrow.broken hend rfl rfl).scan_eq trivial
  rw [List.append_nil] at hscan
  rw [List.forall₂_map_right_iff] at htss
  obtain ⟨items, htokens, hwrites⟩ := rowTokens_of_forall₂ htss
  refine ⟨items, ?_, hwrites⟩
  rw [unit.render_eq]
  exact parse_complete hscan htokens

end

end Registrar
