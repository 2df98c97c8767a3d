import Mathlib.Data.List.Forall2

/-!
# Rows

Rows that are related member by member, and rows whose members are worked through one by one.
-/

namespace Registrar

/-! ## Rows side by side -/

variable {α β : Type} {R : α → β → Prop} {as : List α} {bs : List β}

theorem exists_of_mem_left (h : List.Forall₂ R as bs) {a : α} (ha : a ∈ as) : ∃ b ∈ bs, R a b := by
  induction h with
  | nil => simp at ha
  | @cons a' b' as bs hab _ ih =>
    rcases List.mem_cons.mp ha with rfl | ha
    · exact ⟨b', List.mem_cons_self, hab⟩
    · obtain ⟨b, hb, hab⟩ := ih ha
      exact ⟨b, List.mem_cons_of_mem b' hb, hab⟩

theorem exists_of_mem_right (h : List.Forall₂ R as bs) {b : β} (hb : b ∈ bs) : ∃ a ∈ as, R a b :=
  exists_of_mem_left h.flip hb

theorem forall_mem_of_forall₂ {P : α → Prop} (h : List.Forall₂ R as bs) (hP : ∀ {a b}, b ∈ bs → R a b → P a) :
    ∀ a ∈ as, P a := by
  intro a ha
  obtain ⟨b, hb, hab⟩ := exists_of_mem_left h ha
  exact hP hb hab

theorem all_eq_of_forall₂ (h : List.Forall₂ R as bs) {p : α → Bool} {q : β → Bool}
    (hpq : ∀ {a b}, R a b → q b = p a) : bs.all q = as.all p := by
  induction h with
  | nil => rfl
  | cons hab _ ih => rw [List.all_cons, List.all_cons, hpq hab, ih]

theorem any_eq_of_forall₂ (h : List.Forall₂ R as bs) {p : α → Bool} {q : β → Bool}
    (hpq : ∀ {a b}, R a b → q b = p a) : bs.any q = as.any p := by
  induction h with
  | nil => rfl
  | cons hab _ ih => rw [List.any_cons, List.any_cons, hpq hab, ih]

/-- What is chosen of the second row, when the choice can be made on the first. -/
theorem filter_eq_of_forall₂ (h : List.Forall₂ R as bs) {p : α → Bool} {q : β → Bool}
    (hpq : ∀ {a b}, R a b → q b = p a) : bs.filter q = ((as.zip bs).filter fun k => p k.1).map Prod.snd := by
  induction h with
  | nil => rfl
  | @cons a b as bs hab _ ih => cases hp : p a <;> simp [hpq hab, hp, ih]

theorem forall₂_imp_of_mem {S : α → β → Prop} (h : List.Forall₂ R as bs) (hRS : ∀ {a b}, b ∈ bs → R a b → S a b) :
    List.Forall₂ S as bs := by
  induction h with
  | nil => exact .nil
  | @cons a b as bs hab _ ih =>
    exact .cons (hRS List.mem_cons_self hab) (ih fun hb => hRS (List.mem_cons_of_mem b hb))

/-- Two rows that are related to one and the same row are related to each other. -/
theorem forall₂_join {γ : Type} {S : α → γ → Prop} {T : β → γ → Prop} {cs : List γ} (h : List.Forall₂ R as bs)
    (h' : List.Forall₂ S as cs) (hT : ∀ {a b c}, b ∈ bs → c ∈ cs → R a b → S a c → T b c) : List.Forall₂ T bs cs := by
  induction h generalizing cs with
  | nil => cases h'; exact .nil
  | @cons a b as bs hab _ ih =>
    cases h' with
    | @cons _ c _ cs hac h' =>
      refine .cons (hT List.mem_cons_self List.mem_cons_self hab hac) (ih h' fun hb hc => ?_)
      exact hT (List.mem_cons_of_mem b hb) (List.mem_cons_of_mem c hc)

/-- A row beside two rows in a row is itself two rows in a row. -/
theorem exists_of_forall₂_append {as' : List α} (h : List.Forall₂ R (as ++ as') bs) :
    ∃ cs cs', bs = cs ++ cs' ∧ List.Forall₂ R as cs ∧ List.Forall₂ R as' cs' := by
  induction as generalizing bs with
  | nil => exact ⟨[], bs, rfl, .nil, h⟩
  | cons a as ih =>
    cases h with
    | @cons _ b _ bs hab h =>
      obtain ⟨cs, cs', rfl, hcs, hcs'⟩ := ih h
      exact ⟨b :: cs, cs', rfl, .cons hab hcs, hcs'⟩

theorem exists_getElem?_of_forall₂ {a : α} {as' : List α} (h : List.Forall₂ R (as ++ a :: as') bs) :
    ∃ b, bs[as.length]? = some b ∧ R a b := by
  obtain ⟨cs, cs', rfl, hcs, hcs'⟩ := exists_of_forall₂_append h
  obtain ⟨b, rest, hab, -, rfl⟩ := List.forall₂_cons_left_iff.mp hcs'
  refine ⟨b, ?_, hab⟩
  rw [hcs.length_eq, List.getElem?_append_right (Nat.le_refl _), Nat.sub_self, List.getElem?_cons_zero]

/-- Where each member of a row is related to something, so is the row. -/
theorem exists_forall₂ (h : ∀ a ∈ as, ∃ b, R a b) : ∃ bs, List.Forall₂ R as bs := by
  induction as with
  | nil => exact ⟨[], .nil⟩
  | cons a as ih =>
    obtain ⟨b, hb⟩ := h a List.mem_cons_self
    obtain ⟨bs, hbs⟩ := ih fun a' ha' => h a' (List.mem_cons_of_mem a ha')
    exact ⟨b :: bs, .cons hb hbs⟩

theorem exists_eq_map {f : α → β} (h : ∀ b ∈ bs, ∃ a, b = f a) : ∃ as : List α, bs = as.map f := by
  obtain ⟨as, has⟩ := exists_forall₂ h
  refine ⟨as, ?_⟩
  rwa [← List.forall₂_eq_eq_eq, List.forall₂_map_right_iff]

/-- A row between two related rows. -/
theorem exists_forall₂_between {γ : Type} {S : α → γ → Prop} {T : γ → β → Prop} (h : List.Forall₂ R as bs)
    (hR : ∀ {a b}, b ∈ bs → R a b → ∃ c, S a c ∧ T c b) : ∃ cs, List.Forall₂ S as cs ∧ List.Forall₂ T cs bs := by
  induction h with
  | nil => exact ⟨[], .nil, .nil⟩
  | @cons a b as bs hab _ ih =>
    obtain ⟨c, hac, hcb⟩ := hR List.mem_cons_self hab
    obtain ⟨cs, has, hbs⟩ := ih fun hb => hR (List.mem_cons_of_mem b hb)
    exact ⟨c :: cs, .cons hac has, .cons hcb hbs⟩

theorem map_eq_of_forall₂ {γ : Type} {f : α → γ} {g : β → γ} (h : List.Forall₂ R as bs)
    (hfg : ∀ {a b}, b ∈ bs → R a b → f a = g b) : as.map f = bs.map g := by
  induction h with
  | nil => rfl
  | @cons a b as bs hab _ ih =>
    rw [List.map_cons, List.map_cons, hfg List.mem_cons_self hab, ih fun hb => hfg (List.mem_cons_of_mem b hb)]

theorem map_eq_map_iff_forall₂ {γ : Type} {f : α → γ} {g : β → γ} :
    as.map f = bs.map g ↔ List.Forall₂ (fun a b => f a = g b) as bs := by
  rw [← List.forall₂_eq_eq_eq, List.forall₂_map_left_iff, List.forall₂_map_right_iff]

theorem map_flatMap_eq_of_forall₂ {γ δ ε : Type} {f : α → List γ} {g : β → List δ} {u : γ → ε} {v : δ → ε}
    (h : List.Forall₂ R as bs) (hfg : ∀ {a b}, R a b → (f a).map u = (g b).map v) :
    (as.flatMap f).map u = (bs.flatMap g).map v := by
  induction h with
  | nil => rfl
  | cons hab _ ih => rw [List.flatMap_cons, List.flatMap_cons, List.map_append, List.map_append, hfg hab, ih]

/-- What is found first in two related rows is related, where it is looked for in the same way. -/
theorem rel_find?_of_forall₂ (h : List.Forall₂ R as bs) {p : α → Bool} {q : β → Bool}
    (hpq : ∀ {a b}, R a b → p a = q b) : Option.Rel R (as.find? p) (bs.find? q) := by
  induction h with
  | nil => exact .none
  | @cons a b as bs hab _ ih =>
    rw [List.find?_cons, List.find?_cons, hpq hab]
    cases q b with
    | true => exact .some hab
    | false => exact ih

theorem map_eq_map_of_rel {γ : Type} {f : α → γ} {g : β → γ} {o : Option α} {o' : Option β} (h : Option.Rel R o o')
    (hfg : ∀ {a b}, R a b → f a = g b) : o.map f = o'.map g := by
  cases h with
  | none => rfl
  | some hab => exact congrArg some (hfg hab)

/-- A row beside one row that is, seen through some functions, another one. -/
theorem exists_forall₂_map {γ δ : Type} {S : α → γ → Prop} {f : γ → δ} {g : β → δ} (h : List.Forall₂ R as bs)
    (hR : ∀ {a b}, b ∈ bs → R a b → ∃ c, S a c ∧ f c = g b) : ∃ cs, List.Forall₂ S as cs ∧ cs.map f = bs.map g := by
  obtain ⟨cs, hcs, hmap⟩ := exists_forall₂_between (T := fun c b => f c = g b) h hR
  exact ⟨cs, hcs, map_eq_of_forall₂ hmap fun _ hcb => hcb⟩

theorem filterMap_eq_of_forall₂ {f : α → Option β} (h : List.Forall₂ (fun a b => f a = some b) as bs) :
    as.filterMap f = bs := by
  induction h with
  | nil => rfl
  | cons hab _ ih => rw [List.filterMap_cons_some hab, ih]

/-- What is chosen of two related rows is related, where one member is chosen whenever the other is. -/
theorem forall₂_filterMap {γ δ : Type} {S : γ → δ → Prop} {f : α → Option γ} {g : β → Option δ}
    (h : List.Forall₂ R as bs) (hfg : ∀ {a b}, R a b → Option.Rel S (f a) (g b)) :
    List.Forall₂ S (as.filterMap f) (bs.filterMap g) := by
  induction h with
  | nil => exact .nil
  | @cons a b as bs hab _ ih =>
    have hrel := hfg hab
    rw [List.filterMap_cons, List.filterMap_cons]
    generalize f a = c at hrel ⊢
    generalize g b = d at hrel ⊢
    cases hrel with
    | none => exact ih
    | some hcd => exact .cons hcd ih

/-- What is chosen for a member of a row is found under its key, where keys are distinct and kept by the choice. -/
theorem find?_filterMap_of_nodup {κ : Type} [BEq κ] [LawfulBEq κ] {f : α → Option β} {key : α → κ} {key' : β → κ}
    (hkey : ∀ {a b}, f a = some b → key' b = key a) (hnodup : (as.map key).Nodup) {a : α} (ha : a ∈ as) :
    (as.filterMap f).find? (key' · == key a) = f a := by
  induction as with
  | nil => simp at ha
  | cons c as ih =>
    obtain ⟨hfresh, hnodup⟩ := List.nodup_cons.mp hnodup
    rcases List.mem_cons.mp ha with rfl | ha
    · cases hf : f a with
      | some b => simp [hf, hkey hf]
      | none =>
        rw [List.filterMap_cons_none hf, List.find?_eq_none]
        intro b hb
        obtain ⟨c, hc, hcb⟩ := List.mem_filterMap.mp hb
        have hne : key c ≠ key a := fun heq => hfresh (heq ▸ List.mem_map_of_mem hc)
        simpa [hkey hcb] using hne
    · have hne : key c ≠ key a := fun heq => hfresh (heq ▸ List.mem_map_of_mem ha)
      cases hf : f c with
      | none => rw [List.filterMap_cons_none hf, ih hnodup ha]
      | some b => rw [List.filterMap_cons_some hf, List.find?_cons_of_neg (by simpa [hkey hf] using hne), ih hnodup ha]

/-! ## Rows that can fail -/

theorem map_eq_ok {ε α β : Type} {f : α → β} {r : Except ε α} {b : β} :
    r.map f = .ok b ↔ ∃ a, r = .ok a ∧ f a = b := by
  cases r <;> simp [Except.map]

theorem bind_eq_ok {ε α β : Type} {r : Except ε α} {f : α → Except ε β} {b : β} :
    (r >>= f) = .ok b ↔ ∃ a, r = .ok a ∧ f a = .ok b := by
  cases r <;> simp [bind, Except.bind]

theorem toOption_eq_some {ε α : Type} {r : Except ε α} {a : α} : r.toOption = some a ↔ r = .ok a := by
  cases r <;> simp [Except.toOption]

theorem toOption_bind {ε α β : Type} (r : Except ε α) (f : α → Except ε β) :
    (r >>= f).toOption = r.toOption.bind fun a => (f a).toOption := by
  cases r <;> rfl

theorem map_eq_error {ε α β : Type} {f : α → β} {r : Except ε α} {e : ε} : r.map f = .error e ↔ r = .error e := by
  cases r <;> simp [Except.map]

theorem bind_eq_error {ε α β : Type} {r : Except ε α} {f : α → Except ε β} {e : ε} :
    (r >>= f) = .error e ↔ r = .error e ∨ ∃ a, r = .ok a ∧ f a = .error e := by
  cases r <;> simp [bind, Except.bind]

/-- A row is worked through without a fault exactly if each of its members is. -/
theorem mapM_eq_ok {ε : Type} {f : α → Except ε β} :
    as.mapM f = .ok bs ↔ List.Forall₂ (fun a b => f a = .ok b) as bs := by
  induction as generalizing bs with
  | nil => cases bs <;> simp [pure, Except.pure]
  | cons a as ih =>
    rw [List.mapM_cons, bind_eq_ok]
    constructor
    · rintro ⟨b, hb, h⟩
      obtain ⟨bs', hbs', h⟩ := bind_eq_ok.mp h
      obtain rfl := Except.ok.inj h
      exact .cons hb (ih.mp hbs')
    · intro h
      cases h with
      | cons hb hbs => exact ⟨_, hb, bind_eq_ok.mpr ⟨_, ih.mpr hbs, rfl⟩⟩

end Registrar
