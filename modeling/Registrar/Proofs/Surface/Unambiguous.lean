import Registrar.Proofs.Surface.Productions
import Registrar.Surface.Parse.Items

/-!
# Tokens have at most one derivation

Wherever a derivation goes one of several ways, the first token in which the ways can differ says which one it is. For
two phrases this is a check (`Phrase.agree`): as far as they begin alike they are derived alike, and behind that they
begin with different terminals. It needs to be known with which terminals a rule begins (`Rule.starts`) and which can
stand behind it (`Rule.follow`), and is passed by any two productions of a rule (`Production.agree`). So the tokens of
a derivation determine it (`Derivation.determined`).
-/

namespace Registrar.Surface

/-! ## First terminals -/

/-- The terminals with which a rule can begin, in front of something that begins with one of `follow`. -/
def Rule.starts (r : Rule) (follow : List Terminal) : List Terminal :=
  match r with
  | .program => itemStarts ++ follow
  | .item => [.kwImport, .kwType, .atSign, .kwPublic, .kwFunction]
  | .importDecl => [.kwImport]
  | .importAlias => [.kwAs]
  | .recordDef => [.kwType]
  | .functionDef => [.atSign, .kwPublic, .kwFunction]
  | .tag => [.atSign]
  | .params | .param | .typeExpr | .typeAtom => [.name, .lparen]
  | .returns => [.kwReturns]
  | .block => [.lbrace]
  | .stmt => .kwReturn :: exprStarts
  | .expr | .args => exprStarts
  | .nameRef => [.name]

/-- The terminals with which a phrase can begin, in front of something that begins with one of `follow`. -/
def Phrase.starts (follow : List Terminal) : Phrase → List Terminal
  | .nothing => follow
  | .token k _ => [k]
  | .rule r after => r.starts (after.starts follow)
  | .optional group after => group.starts (after.starts follow) ++ after.starts follow
  | .repeated group after => group.starts (after.starts follow) ++ after.starts follow

/-- The terminals that can stand behind a rule. -/
def Rule.follow : Rule → List Terminal
  | .program => [.endOfText]
  | .item | .importDecl | .recordDef | .functionDef | .block => itemStarts
  | .importAlias => [.semicolon]
  | .tag => [.atSign, .kwPublic, .kwFunction]
  | .params | .args => [.rparen]
  | .param => [.comma, .rparen]
  | .returns => [.lbrace]
  | .typeExpr => [.name, .ellipsis, .lbrace]
  | .typeAtom => [.bar, .name, .ellipsis, .lbrace]
  | .stmt => .rbrace :: .kwReturn :: exprStarts
  | .expr => exprEnds
  | .nameRef => .lparen :: exprEnds

/-- A production begins as its rule does. -/
theorem Production.starts {r : Rule} {right : Phrase} (p : Production r right) (follow : List Terminal) :
    right.starts follow ⊆ r.starts follow := by
  cases p with
  | program =>
    refine List.append_subset.mpr ⟨List.subset_append_of_subset_left _ ?_, List.subset_append_right _ _⟩
    simp [Phrase.starts, Rule.starts, itemStarts]
  | _ => simp [Phrase.starts, Rule.starts, exprStarts]

/-- What a rule can begin with is its own or comes from behind it. -/
theorem Rule.mem_starts {r : Rule} {ks ks' others : List Terminal} (h : ∀ k ∈ ks, k ∈ ks' ∨ k ∈ others) :
    ∀ k ∈ r.starts ks, k ∈ r.starts ks' ∨ k ∈ others := by
  intro k hk
  cases r with
  | program =>
    simp only [starts, List.mem_append] at hk ⊢
    rcases hk with hk | hk
    · exact .inl (.inl hk)
    · exact (h k hk).imp_left .inr
  | _ => exact .inl hk

theorem Phrase.mem_starts {φ : Phrase} {ks ks' others : List Terminal} (h : ∀ k ∈ ks, k ∈ ks' ∨ k ∈ others) :
    ∀ k ∈ φ.starts ks, k ∈ φ.starts ks' ∨ k ∈ others := by
  induction φ generalizing ks ks' with
  | nothing => exact h
  | token k' after => exact fun k hk => .inl hk
  | rule r after ih => exact Rule.mem_starts (ih h)
  | optional group after ihg ih | repeated group after ihg ih =>
    intro k hk
    simp only [starts, List.mem_append] at hk ⊢
    rcases hk with hk | hk
    · exact (ihg (ih h) k hk).imp_left .inl
    · exact (ih h k hk).imp_left .inr

/-- A phrase that may be repeated begins with a terminal of its own or of what is behind it. -/
theorem Phrase.starts_repeated {group after : Phrase} {follow behind : List Terminal}
    (h : after.starts follow ⊆ behind) : (repeated group after).starts follow ⊆ group.starts behind ++ behind := by
  intro k hk
  rw [List.mem_append]
  rcases List.mem_append.mp hk with hk | hk
  · exact Phrase.mem_starts (fun k hk => .inl (h hk)) k hk
  · exact .inr (h hk)

namespace Derivation

/-- A derivation begins with one of the terminals of its phrase. -/
theorem terminalOf_mem {φ : Phrase} (d : Derivation φ) {follow : List Terminal} {rest : List Token}
    (hrest : terminalOf rest ∈ follow) : terminalOf (d.tokens ++ rest) ∈ φ.starts follow := by
  induction d generalizing follow rest with
  | nothing => exact hrest
  | token t h after ih => simp [tokens, terminalOf, Phrase.starts, h]
  | rule p parts after ihp ih =>
    rw [tokens, List.append_assoc]
    exact p.starts _ (ihp (ih hrest))
  | absent after ih => exact List.mem_append_right _ (ih hrest)
  | present first after ihf ih =>
    rw [tokens, List.append_assoc]
    exact List.mem_append_left _ (ihf (ih hrest))
  | stop after ih => exact List.mem_append_right _ (ih hrest)
  | again first after ihf ih =>
    -- behind the group is another one, or what comes after
    rw [tokens, List.append_assoc]
    rcases Phrase.mem_starts (fun k hk => (List.mem_append.mp hk).symm) _ (ihf (ih hrest)) with h | h
    · exact List.mem_append_left _ h
    · exact List.mem_append_left _ h

end Derivation

/-! ## Phrases that can be told apart -/

/-- Whether no terminal is in both lists. -/
def apart (ks ks' : List Terminal) : Bool := ks.all fun k => !ks'.contains k

/-- Whether all terminals of a list are in another one. -/
def within (ks ks' : List Terminal) : Bool := ks.all ks'.contains

theorem not_apart {ks ks' : List Terminal} {k : Terminal} (h : k ∈ ks) (h' : k ∈ ks') : apart ks ks' = false := by
  rw [apart, List.all_eq_false]
  exact ⟨k, h, by simpa using h'⟩

theorem mem_of_within {ks ks' : List Terminal} (h : within ks ks' = true) {k : Terminal} (hk : k ∈ ks) : k ∈ ks' := by
  simpa using List.all_eq_true.mp h k hk

/-- Whether two phrases begin with different terminals, in front of something that begins with one of `follow`, or else
pass a check. -/
def Phrase.apartOr (φ φ' : Phrase) (follow : List Terminal) (check : Bool) : Bool :=
  apart (φ.starts follow) (φ'.starts follow) || check

/-- Whether two phrases begin alike, and are then told apart by the next terminal or go on alike. A group can be told
from what comes after it. -/
def Phrase.alike : Phrase → Phrase → List Terminal → Bool
  | .nothing, .nothing, _ => true
  | .token k after, .token k' after', follow => k == k' && after.apartOr after' follow (after.alike after' follow)
  | .rule r after, .rule r' after', follow =>
    r == r' && within (after.starts follow) r.follow && within (after'.starts follow) r.follow &&
      after.apartOr after' follow (after.alike after' follow)
  | .optional group after, .optional group' after', follow =>
    let behind := after.starts follow ++ after'.starts follow
    group == group' && apart (group.starts behind) behind && group.alike group behind &&
      after.apartOr after' follow (after.alike after' follow)
  | .repeated group after, .repeated group' after', follow =>
    let behind := after.starts follow ++ after'.starts follow
    group == group' && apart (group.starts behind) behind && group.alike group (group.starts behind ++ behind) &&
      after.apartOr after' follow (after.alike after' follow)
  | _, _, _ => false

/-- Whether derivations from two phrases differ, if at all, where the next terminal shows it. -/
def Phrase.agree (φ φ' : Phrase) (follow : List Terminal) : Bool := φ.apartOr φ' follow (φ.alike φ' follow)

/-- Two phrases that begin alike, and what is known of the rest of them. -/
inductive Phrase.Alike (follow : List Terminal) : Phrase → Phrase → Prop
  | nothing : Alike follow .nothing .nothing
  | token {k : Terminal} {after after' : Phrase} (hagree : after.agree after' follow = true) :
    Alike follow (.token k after) (.token k after')
  | rule {r : Rule} {after after' : Phrase} (hbehind : within (after.starts follow) r.follow = true)
      (hbehind' : within (after'.starts follow) r.follow = true) (hagree : after.agree after' follow = true) :
    Alike follow (.rule r after) (.rule r after')
  | optional {group after after' : Phrase} {behind : List Terminal}
      (hbehind : after.starts follow ⊆ behind) (hbehind' : after'.starts follow ⊆ behind)
      (hapart : apart (group.starts behind) behind = true) (hgroup : group.alike group behind = true)
      (hagree : after.agree after' follow = true) : Alike follow (.optional group after) (.optional group after')
  | repeated {group after after' : Phrase} {behind : List Terminal}
      (hbehind : after.starts follow ⊆ behind) (hbehind' : after'.starts follow ⊆ behind)
      (hapart : apart (group.starts behind) behind = true)
      (hgroup : group.alike group (group.starts behind ++ behind) = true)
      (hagree : after.agree after' follow = true) : Alike follow (.repeated group after) (.repeated group after')

theorem Phrase.Alike.of_alike {φ φ' : Phrase} {follow : List Terminal} (h : φ.alike φ' follow = true) :
    Alike follow φ φ' := by
  unfold alike at h
  split at h
  · exact .nothing
  · simp only [Bool.and_eq_true, beq_iff_eq] at h
    obtain ⟨rfl, hagree⟩ := h
    exact .token hagree
  · simp only [Bool.and_eq_true, beq_iff_eq] at h
    obtain ⟨⟨⟨rfl, hbehind⟩, hbehind'⟩, hagree⟩ := h
    exact .rule hbehind hbehind' hagree
  · simp only [Bool.and_eq_true, beq_iff_eq] at h
    obtain ⟨⟨⟨rfl, hapart⟩, hgroup⟩, hagree⟩ := h
    exact .optional (List.subset_append_left _ _) (List.subset_append_right _ _) hapart hgroup hagree
  · simp only [Bool.and_eq_true, beq_iff_eq] at h
    obtain ⟨⟨⟨rfl, hapart⟩, hgroup⟩, hagree⟩ := h
    exact .repeated (List.subset_append_left _ _) (List.subset_append_right _ _) hapart hgroup hagree
  · exact absurd h Bool.false_ne_true

/-- Any two productions of a rule can be told apart. -/
theorem Production.agree {r : Rule} {right right' : Phrase} (p : Production r right) (p' : Production r right') :
    right.agree right' r.follow = true := by
  cases p <;> cases p' <;> decide

/-- A production is determined by its two sides. -/
theorem Production.eq {r : Rule} {right : Phrase} (p p' : Production r right) : p = p' := by
  cases p <;> cases p' <;> rfl

/-! ## Derivations with the same tokens -/

namespace Derivation

/-- A group that may be repeated begins with a terminal of its own. -/
theorem terminalOf_group {group : Phrase} (d : Derivation group) {behind : List Terminal} {rest : List Token}
    (hrest : terminalOf rest ∈ group.starts behind ++ behind) :
    terminalOf (d.tokens ++ rest) ∈ group.starts behind := by
  rcases Phrase.mem_starts (fun k hk => (List.mem_append.mp hk).symm) _ (d.terminalOf_mem hrest) with h | h
  · exact h
  · exact h

/-- A group is not what comes after it. -/
theorem ne_group {group : Phrase} (d : Derivation group) {behind : List Terminal}
    (hapart : apart (group.starts behind) behind = true) {rest tokens : List Token}
    (hrest : terminalOf rest ∈ group.starts behind ++ behind) (htokens : terminalOf tokens ∈ behind) :
    tokens ≠ d.tokens ++ rest := by
  rintro rfl
  rw [not_apart (d.terminalOf_group hrest) htokens] at hapart
  exact absurd hapart Bool.false_ne_true

/-- A derivation that is the only one with its tokens: another one, from a phrase that begins alike, that has the same
tokens up to what can stand behind it is the same and leaves the same. -/
def Determined {φ : Phrase} (d : Derivation φ) : Prop :=
  ∀ ⦃φ' : Phrase⦄ (d' : Derivation φ') ⦃follow : List Terminal⦄, φ.alike φ' follow = true → ∀ ⦃rest rest' : List Token⦄,
    terminalOf rest ∈ follow → terminalOf rest' ∈ follow → d.tokens ++ rest = d'.tokens ++ rest' →
    (⟨φ, d⟩ : Σ φ, Derivation φ) = ⟨φ', d'⟩ ∧ rest = rest'

section

variable {φ φ' group next : Phrase} {follow : List Terminal} {rest rest' : List Token}

/-- It is then the only one also among those from phrases that begin with other terminals. -/
theorem Determined.eq {d : Derivation φ} (hd : d.Determined) (d' : Derivation φ') (h : φ.agree φ' follow = true)
    (hrest : terminalOf rest ∈ follow) (hrest' : terminalOf rest' ∈ follow)
    (htokens : d.tokens ++ rest = d'.tokens ++ rest') : (⟨φ, d⟩ : Σ φ, Derivation φ) = ⟨φ', d'⟩ ∧ rest = rest' := by
  refine hd d' ?_ hrest hrest' htokens
  have hapart := not_apart (d.terminalOf_mem hrest) (htokens ▸ d'.terminalOf_mem hrest')
  rwa [Phrase.agree, Phrase.apartOr, hapart, Bool.false_or] at h

theorem determined_nothing : nothing.Determined := by
  intro φ' d' follow h rest rest' hrest hrest' htokens
  cases Phrase.Alike.of_alike h
  cases d'
  exact ⟨rfl, htokens⟩

theorem determined_token {k : Terminal} {t : Token} {ht : t.terminal = k} {after : Derivation next}
    (hafter : after.Determined) : (token t ht after).Determined := by
  intro φ' d' follow h rest rest' hrest hrest' htokens
  cases Phrase.Alike.of_alike h with
  | token hagree =>
    cases d' with
    | token t' ht' after' =>
      obtain ⟨rfl, hothers⟩ := List.cons.inj htokens
      obtain ⟨heq, hsame⟩ := hafter.eq after' hagree hrest hrest' hothers
      cases heq
      exact ⟨rfl, hsame⟩

theorem determined_rule {r : Rule} {right : Phrase} {p : Production r right} {parts : Derivation right}
    {after : Derivation next} (hparts : parts.Determined) (hafter : after.Determined) :
    (rule p parts after).Determined := by
  intro φ' d' follow h rest rest' hrest hrest' htokens
  cases Phrase.Alike.of_alike h with
  | rule hbehind hbehind' hagree =>
    cases d' with
    | rule p' parts' after' =>
      simp only [tokens, List.append_assoc] at htokens
      -- the productions may differ, but what stands behind them is known
      obtain ⟨heq, hothers⟩ := hparts.eq parts' (p.agree p') (mem_of_within hbehind (after.terminalOf_mem hrest))
        (mem_of_within hbehind' (after'.terminalOf_mem hrest')) htokens
      cases heq
      obtain rfl := p.eq p'
      obtain ⟨heq, hsame⟩ := hafter.eq after' hagree hrest hrest' hothers
      cases heq
      exact ⟨rfl, hsame⟩

theorem determined_absent {after : Derivation next} (hafter : after.Determined) :
    (absent after : Derivation (.optional group next)).Determined := by
  intro φ' d' follow h rest rest' hrest hrest' htokens
  cases Phrase.Alike.of_alike h with
  | optional hbehind hbehind' hapart hgroup hagree =>
    cases d' with
    | absent after' =>
      obtain ⟨heq, hsame⟩ := hafter.eq after' hagree hrest hrest' htokens
      cases heq
      exact ⟨rfl, hsame⟩
    | present first' after' =>
      simp only [tokens, List.append_assoc] at htokens
      have hin' := hbehind' (after'.terminalOf_mem hrest')
      exact absurd htokens (first'.ne_group hapart (List.mem_append_right _ hin') (hbehind (after.terminalOf_mem hrest)))

theorem determined_present {first : Derivation group} {after : Derivation next} (hfirst : first.Determined)
    (hafter : after.Determined) : (present first after).Determined := by
  intro φ' d' follow h rest rest' hrest hrest' htokens
  cases Phrase.Alike.of_alike h with
  | optional hbehind hbehind' hapart hgroup hagree =>
    have hin := hbehind (after.terminalOf_mem hrest)
    cases d' with
    | absent after' =>
      simp only [tokens, List.append_assoc] at htokens
      have hin' := hbehind' (after'.terminalOf_mem hrest')
      exact absurd htokens.symm (first.ne_group hapart (List.mem_append_right _ hin) hin')
    | present first' after' =>
      simp only [tokens, List.append_assoc] at htokens
      obtain ⟨heq, hothers⟩ := hfirst first' hgroup hin (hbehind' (after'.terminalOf_mem hrest')) htokens
      cases heq
      obtain ⟨heq, hsame⟩ := hafter.eq after' hagree hrest hrest' hothers
      cases heq
      exact ⟨rfl, hsame⟩

theorem determined_stop {after : Derivation next} (hafter : after.Determined) :
    (stop after : Derivation (.repeated group next)).Determined := by
  intro φ' d' follow h rest rest' hrest hrest' htokens
  cases Phrase.Alike.of_alike h with
  | repeated hbehind hbehind' hapart hgroup hagree =>
    cases d' with
    | stop after' =>
      obtain ⟨heq, hsame⟩ := hafter.eq after' hagree hrest hrest' htokens
      cases heq
      exact ⟨rfl, hsame⟩
    | again first' after' =>
      simp only [tokens, List.append_assoc] at htokens
      have hin' := Phrase.starts_repeated hbehind' (after'.terminalOf_mem hrest')
      exact absurd htokens (first'.ne_group hapart hin' (hbehind (after.terminalOf_mem hrest)))

theorem determined_again {first : Derivation group} {after : Derivation (.repeated group next)}
    (hfirst : first.Determined) (hafter : after.Determined) : (again first after).Determined := by
  intro φ' d' follow h rest rest' hrest hrest' htokens
  cases Phrase.Alike.of_alike h with
  | repeated hbehind hbehind' hapart hgroup hagree =>
    have hin := Phrase.starts_repeated hbehind (after.terminalOf_mem hrest)
    cases d' with
    | stop after' =>
      simp only [tokens, List.append_assoc] at htokens
      exact absurd htokens.symm (first.ne_group hapart hin (hbehind' (after'.terminalOf_mem hrest')))
    | again first' after' =>
      simp only [tokens, List.append_assoc] at htokens
      obtain ⟨heq, hothers⟩ := hfirst first' hgroup hin
        (Phrase.starts_repeated hbehind' (after'.terminalOf_mem hrest')) htokens
      cases heq
      obtain ⟨heq, hsame⟩ := hafter after' h hrest hrest' hothers
      cases heq
      exact ⟨rfl, hsame⟩

end

/-- Every derivation is determined by its tokens. -/
theorem determined {φ : Phrase} (d : Derivation φ) : d.Determined := by
  induction d with
  | nothing => exact determined_nothing
  | token _ _ _ ih => exact determined_token ih
  | rule _ _ _ ihp ih => exact determined_rule ihp ih
  | absent _ ih => exact determined_absent ih
  | present _ _ ihf ih => exact determined_present ihf ih
  | stop _ ih => exact determined_stop ih
  | again _ _ ihf ih => exact determined_again ihf ih

/-- No two derivations of a program have the same tokens. -/
theorem tokens_injective : Function.Injective (tokens : Derivation (.rule .program .nothing) → List Token) := by
  intro d d' h
  have hend : terminalOf [] ∈ [Terminal.endOfText] := List.mem_singleton_self _
  obtain ⟨heq, -⟩ := d.determined d' (by decide) hend hend (by rw [h])
  cases heq
  rfl

end Derivation

end Registrar.Surface
