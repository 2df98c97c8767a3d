import Mathlib.Data.List.Nodup
import Registrar.Scope

/-!
# What a scope knows

Look-ups against the list of symbols that a scope is. A scope is *distinct* if no two of its symbols have one name;
then each symbol is what its name denotes, and defining a new one leaves the others as they were.
-/

namespace Registrar.Scope

variable {scope scope' : Scope} {name : Text} {s : Symbol}

/-! ## Look-ups -/

theorem lookup_mem (h : scope.lookup name = some s) : s ∈ scope.symbols := List.mem_of_find?_eq_some h

theorem lookup_name (h : scope.lookup name = some s) : s.name = name := by
  simpa using List.find?_some h

theorem lookup_eq_none_iff : scope.lookup name = none ↔ ∀ s ∈ scope.symbols, s.name ≠ name := by
  simp [lookup]

theorem lookupFunction_eq_some {f : FunctionSymbol} :
    scope.lookupFunction name = some f ↔ scope.lookup name = some (.function f) := by
  unfold lookupFunction
  split <;> simp_all

theorem contains_eq_false_iff : scope.contains name = false ↔ scope.lookup name = none := by
  simp [contains]

theorem contains_iff : scope.contains name = true ↔ ∃ s ∈ scope.symbols, s.name = name := by
  simp [contains, lookup]

/-- What a name denotes behind more symbols: they count only for names that had no meaning. -/
theorem lookup_append (owner : ModuleId) (symbols more : List Symbol) (name : Text) :
    lookup ⟨owner, symbols ++ more⟩ name = (lookup ⟨owner, symbols⟩ name).or (lookup ⟨owner, more⟩ name) := by
  simp [lookup]

/-! ## Definitions -/

theorem define?_eq_some :
    scope.define? s = some scope' ↔
      scope.lookup s.name = none ∧ scope' = ⟨scope.owner, scope.symbols ++ [s]⟩ := by
  unfold define? contains
  cases scope.lookup s.name <;> simp [eq_comm]

/-- A definition gives the symbol's name its meaning. -/
theorem lookup_define?_self (h : scope.define? s = some scope') : scope'.lookup s.name = some s := by
  obtain ⟨hnone, rfl⟩ := define?_eq_some.mp h
  have hold : lookup ⟨scope.owner, scope.symbols⟩ s.name = none := hnone
  rw [lookup_append, hold]
  simp [lookup]

/-- A definition takes the symbol's name and leaves the other names as they were. -/
theorem contains_define? (h : scope.define? s = some scope') (name : Text) :
    scope'.contains name = (scope.contains name || decide (name = s.name)) := by
  obtain ⟨-, rfl⟩ := define?_eq_some.mp h
  rw [Bool.eq_iff_iff, Bool.or_eq_true, contains_iff, contains_iff, decide_eq_true_iff]
  simp [or_and_right, exists_or, eq_comm]

/-- A scope made of some symbols has no others. -/
theorem mem_of_mem_ofSymbols {owner : ModuleId} {symbols : List Symbol} (h : s ∈ (ofSymbols owner symbols).symbols) :
    s ∈ symbols := by
  have hstep : ∀ (start : Scope), s ∈ (symbols.foldl define start).symbols → s ∈ start.symbols ∨ s ∈ symbols := by
    clear h
    induction symbols with
    | nil => exact fun start h => .inl h
    | cons t ts ih =>
      intro start h
      rcases ih (start.define t) h with hdef | hts
      · unfold define define? at hdef
        split at hdef
        · exact .inl hdef
        · rcases List.mem_append.mp hdef with hold | hnew
          · exact .inl hold
          · exact .inr (List.mem_cons.mpr (.inl (List.mem_singleton.mp hnew)))
      · exact .inr (List.mem_cons_of_mem t hts)
  simpa using hstep { owner } h

/-! ## Distinct scopes -/

/-- No two symbols have one name. -/
def Distinct (scope : Scope) : Prop := (scope.symbols.map Symbol.name).Nodup

theorem Distinct.define? (hd : scope.Distinct) (h : scope.define? s = some scope') : scope'.Distinct := by
  obtain ⟨hnone, rfl⟩ := define?_eq_some.mp h
  have hnew := lookup_eq_none_iff.mp hnone
  simp only [Distinct, List.map_append, List.map_cons, List.map_nil]
  refine List.nodup_append.mpr ⟨hd, by simp, ?_⟩
  rintro n hn m hm rfl
  obtain ⟨t, ht, rfl⟩ := List.mem_map.mp hn
  exact hnew t ht (by simpa using hm)

/-- A symbol that is one of a distinct scope can be defined behind those before it. -/
theorem Distinct.define?_eq {owner : ModuleId} {symbols more : List Symbol}
    (hd : Distinct ⟨owner, symbols ++ s :: more⟩) :
    Scope.define? ⟨owner, symbols⟩ s = some ⟨owner, symbols ++ [s]⟩ := by
  refine define?_eq_some.mpr ⟨lookup_eq_none_iff.mpr fun t ht hname => ?_, rfl⟩
  rw [Distinct, List.map_append, List.map_cons, List.nodup_append] at hd
  exact hd.2.2 t.name (List.mem_map_of_mem ht) s.name List.mem_cons_self hname

/-- In a distinct scope every symbol is what its name denotes. -/
theorem Distinct.lookup_eq (hd : scope.Distinct) (hs : s ∈ scope.symbols) : scope.lookup s.name = some s := by
  cases hl : scope.lookup s.name with
  | none => exact absurd rfl (lookup_eq_none_iff.mp hl s hs)
  | some t => rw [List.inj_on_of_nodup_map hd (lookup_mem hl) hs (lookup_name hl)]

/-- The scope of symbols with distinct names keeps them all. -/
theorem lookup_ofSymbols {owner : ModuleId} {symbols : List Symbol} (hd : (symbols.map Symbol.name).Nodup)
    (hs : s ∈ symbols) : (ofSymbols owner symbols).lookup s.name = some s := by
  have hstep : ∀ before more, Distinct ⟨owner, before ++ more⟩ →
      more.foldl define ⟨owner, before⟩ = ⟨owner, before ++ more⟩ := by
    intro before more
    induction more generalizing before with
    | nil => simp
    | cons s more ih =>
      intro hd
      rw [List.foldl_cons, define, hd.define?_eq, Option.getD_some]
      simpa using ih (before ++ [s]) (by simpa using hd)
  have hall : ofSymbols owner symbols = ⟨owner, symbols⟩ := hstep [] symbols hd
  rw [hall]
  exact Distinct.lookup_eq hd hs

/-! ## Scopes in which names denote the same -/

/-- A definition keeps the agreement of two scopes on what names denote. -/
theorem rel_define? (h : ∀ n, scope.lookup n = scope'.lookup n) (s : Symbol) :
    Option.Rel (fun new new' => ∀ n, new.lookup n = new'.lookup n) (scope.define? s) (scope'.define? s) := by
  unfold define? contains
  rw [h]
  split
  · exact .none
  · refine .some fun n => ?_
    have hn : lookup ⟨scope.owner, scope.symbols⟩ n = lookup ⟨scope'.owner, scope'.symbols⟩ n := h n
    rw [lookup_append, lookup_append, hn]
    rfl

/-- What names denote does not depend on the order of symbols with distinct names. -/
theorem lookup_of_perm {owner owner' : ModuleId} {symbols symbols' : List Symbol} (h : symbols.Perm symbols')
    (hd : Distinct ⟨owner, symbols⟩) (n : Text) : lookup ⟨owner, symbols⟩ n = lookup ⟨owner', symbols'⟩ n := by
  have hd' : Distinct ⟨owner', symbols'⟩ := (h.map Symbol.name).nodup hd
  cases hl : lookup ⟨owner, symbols⟩ n with
  | none =>
    refine (lookup_eq_none_iff.mpr fun s hs => ?_).symm
    exact lookup_eq_none_iff.mp hl s (h.mem_iff.mpr hs)
  | some s =>
    obtain rfl := lookup_name hl
    exact (hd'.lookup_eq (h.mem_iff.mp (lookup_mem hl))).symm

/-! ## Scopes of units -/

/-- No symbol is a variable: what is declared at the top level are types and functions. -/
def TopLevel (scope : Scope) : Prop := ∀ v, Symbol.variable v ∉ scope.symbols

end Registrar.Scope
