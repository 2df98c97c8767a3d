import Mathlib.Algebra.Group.Nat.Defs
import Registrar.Surface.Program

/-!
# Literals as text

An integer is written by digits that read as it, no more of them than it was read from. A text is written as one
string literal. Reading what stands between the quotes gives the text back, unless it has a code point that is written
by an escape which reading refuses: then the first such code point is named (`decode_encode`).
-/

namespace Registrar

/-! ## Integers -/

namespace Text

theorem decimalValue_ofNat (n : Nat) : decimalValue (ofNat n) = n := by
  have hscalars : scalars (ofNat n) = Nat.toDigits 10 n := by
    rw [scalars, ofNat, List.filterMap_map]
    exact List.filterMap_some
  rw [decimalValue, hscalars, Nat.ofDigitChars_ten_toDigits]

theorem ofNat_ne_nil (n : Nat) : ofNat n ≠ [] := by
  simp [ofNat, Nat.toDigits_ne_nil]

theorem isDigit_of_mem_ofNat {n : Nat} {c : CodePoint} (h : c ∈ ofNat n) : c.isDigit = true := by
  obtain ⟨d, hd, rfl⟩ := List.mem_map.mp h
  exact Nat.isDigit_of_mem_toDigits (by decide) (by decide) hd

/-- Some digits stand for a number below the power of ten that they count. -/
theorem ofDigitChars_lt {ds : List Char} (h : ∀ d ∈ ds, d.isDigit = true) (init : Nat) :
    Nat.ofDigitChars 10 ds init < 10 ^ ds.length * (init + 1) := by
  induction ds generalizing init with
  | nil => simp [Nat.ofDigitChars_nil]
  | cons d ds ih =>
    have hd : d.toNat - '0'.toNat ≤ 9 := by
      have hdigit := h d List.mem_cons_self
      simp only [Char.isDigit, Bool.and_eq_true, decide_eq_true_eq] at hdigit
      have hle : d.toNat ≤ 57 := hdigit.2
      have hzero : '0'.toNat = 48 := rfl
      omega
    rw [Nat.ofDigitChars_cons, List.length_cons, Nat.pow_succ, Nat.mul_assoc]
    refine Nat.lt_of_lt_of_le (ih (fun d' hd' => h d' (List.mem_cons_of_mem d hd')) _) ?_
    exact Nat.mul_le_mul_left _ (by omega)

/-- The numeral of a number that was read is no longer than what it was read from. -/
theorem length_ofNat_decimalValue {ds : Text} (hne : ds ≠ []) (h : ∀ d ∈ ds, d.isDigit = true) :
    (ofNat (decimalValue ds)).length ≤ ds.length := by
  have hdigits : ∀ d ∈ ds.scalars, d.isDigit = true := by
    intro d hd
    obtain ⟨c, hc, hcd⟩ := List.mem_filterMap.mp hd
    have hdigit := h c hc
    cases c with
    | scalar c => rwa [Option.some.inj hcd] at hdigit
    | surrogate n => simp at hcd
  have hlen : ds.scalars.length ≤ ds.length := List.length_filterMap_le _ _
  have hlt : decimalValue ds < 10 ^ ds.length := by
    refine Nat.lt_of_lt_of_le (ofDigitChars_lt hdigits 0) ?_
    rw [Nat.zero_add, Nat.mul_one]
    exact Nat.pow_le_pow_right (by decide) hlen
  rw [ofNat, List.length_map]
  exact (Nat.length_toDigits_le_iff (by decide) (List.length_pos_iff.mpr hne)).mpr hlt

end Text

/-! ## Strings -/

namespace Literal

/-- The letter of the escape by which a code point is written, where reading refuses that escape. -/
def refusedEscape? (c : CodePoint) : Option CodePoint :=
  if c = .scalar '\x08' then some (.scalar 'b')
  else if c = .scalar '\x0c' then some (.scalar 'f')
  else none

theorem refusedEscape?_eq_none {c : CodePoint} :
    refusedEscape? c = none ↔ c ≠ .scalar '\x08' ∧ c ≠ .scalar '\x0c' := by
  unfold refusedEscape?
  by_cases hb : c = .scalar '\x08'
  · simp [hb]
  · by_cases hf : c = .scalar '\x0c' <;> simp [hb, hf]

/-- What is refused is the letter that follows the backslash. -/
theorem refusedEscape?_eq_some {c e : CodePoint} :
    refusedEscape? c = some e ↔
      (c = .scalar '\x08' ∨ c = .scalar '\x0c') ∧ encodePoint c = [.scalar '\\', e] := by
  unfold refusedEscape?
  by_cases hb : c = .scalar '\x08'
  · subst hb
    simp [encodePoint, Text.ofString]
  · by_cases hf : c = .scalar '\x0c'
    · subst hf
      simp [encodePoint, Text.ofString]
    · simp [hb, hf]

/-- A text has neither of the two code points. -/
theorem forall_refusedEscape?_eq_none {t : Text} :
    (∀ c ∈ t, refusedEscape? c = none) ↔ .scalar '\x08' ∉ t ∧ .scalar '\x0c' ∉ t := by
  constructor
  · intro h
    exact ⟨fun hb => (refusedEscape?_eq_none.mp (h _ hb)).1 rfl, fun hf => (refusedEscape?_eq_none.mp (h _ hf)).2 rfl⟩
  · rintro ⟨hb, hf⟩ c hc
    exact refusedEscape?_eq_none.mpr ⟨fun h => hb (h ▸ hc), fun h => hf (h ▸ hc)⟩

/-- What stands between the quotes of a written text. -/
theorem inside_encode (t : Text) : ((encode t).drop 1).dropLast = t.flatMap encodePoint := by
  simp [encode]

/-- How a code point is written: by an escape that reading knows, by one that it refuses, by its number, or by
itself. -/
inductive WrittenAs (c : CodePoint) : Text → Prop
  | escape {e : CodePoint} (hkept : refusedEscape? c = none)
      (he : e ≠ .scalar '\n' ∧ e ≠ .scalar 'x' ∧ e ≠ .scalar 'u') (hread : simpleEscape? e = some c) :
      WrittenAs c [.scalar '\\', e]
  | refused {e : CodePoint} (hrefused : refusedEscape? c = some e)
      (he : e ≠ .scalar '\n' ∧ e ≠ .scalar 'x' ∧ e ≠ .scalar 'u') (hread : simpleEscape? e = none) :
      WrittenAs c [.scalar '\\', e]
  | number (hkept : refusedEscape? c = none) (hlow : c.toNat < 0x20) :
      WrittenAs c (.scalar '\\' :: .scalar 'u' :: Text.hex 4 c.toNat)
  | itself (hkept : refusedEscape? c = none) (hquote : c ≠ .scalar '"') (hslash : c ≠ .scalar '\\') :
      WrittenAs c [c]

theorem writtenAs_encodePoint (c : CodePoint) : WrittenAs c (encodePoint c) := by
  unfold encodePoint
  split
  · next h => exact .escape (by rw [h]; rfl) (by decide) (by rw [h]; rfl)
  · next hquote =>
    split
    · next h => exact .escape (by rw [h]; rfl) (by decide) (by rw [h]; rfl)
    · next hslash =>
      split
      · next h => exact .escape (by rw [h]; rfl) (by decide) (by rw [h]; rfl)
      · split
        · next h => exact .escape (by rw [h]; rfl) (by decide) (by rw [h]; rfl)
        · split
          · next h => exact .escape (by rw [h]; rfl) (by decide) (by rw [h]; rfl)
          · split
            · next h => exact .refused (by rw [h]; rfl) (by decide) rfl
            · next hf =>
              split
              · next h => exact .refused (by rw [h]; rfl) (by decide) rfl
              · next hb =>
                have hkept := refusedEscape?_eq_none.mpr ⟨hb, hf⟩
                split
                · next hlow => exact .number hkept hlow
                · exact .itself hkept hquote hslash

theorem hexValue?_hex : ∀ n < 0x20, Text.hexValue? (Text.hex 4 n) = some n := by decide

theorem ofNat_toNat {c : CodePoint} (h : c.toNat < 0x20) : CodePoint.ofNat c.toNat = c := by
  cases c with
  | scalar c =>
    have hlow : ¬(c.toNat - 0xD800 < 0x800 ∧ 0xD800 ≤ c.toNat) := by
      simp only [CodePoint.toNat] at h
      omega
    rw [CodePoint.ofNat, CodePoint.toNat, dif_neg hlow, Char.ofNat_toNat]
  | surrogate n =>
    simp only [CodePoint.toNat] at h
    omega

theorem decode_plain {c : CodePoint} (h : c ≠ .scalar '\\') (rest : Text) :
    decode (c :: rest) = (decode rest).map (c :: ·) := by
  rw [decode.eq_def]
  simp only [if_neg h]

theorem decode_escape {e : CodePoint} (hx : e ≠ .scalar 'x') (hu : e ≠ .scalar 'u') (rest : Text) :
    decode (.scalar '\\' :: e :: rest) =
      match simpleEscape? e with
      | some c => (decode rest).map (c :: ·)
      | none => .error e := by
  rw [decode.eq_def]
  cases hs : simpleEscape? e <;> simp [hx, hu, hs]

/-- Reading a written code point. -/
theorem decode_encodePoint (c : CodePoint) (rest : Text) :
    decode (encodePoint c ++ rest) =
      match refusedEscape? c with
      | some e => .error e
      | none => (decode rest).map (c :: ·) := by
  have hw := writtenAs_encodePoint c
  generalize encodePoint c = t at hw ⊢
  cases hw with
  | escape hkept he hread =>
    rw [List.cons_append, List.cons_append, List.nil_append, decode_escape he.2.1 he.2.2, hread, hkept]
  | refused hrefused he hread =>
    rw [List.cons_append, List.cons_append, List.nil_append, decode_escape he.2.1 he.2.2, hread, hrefused]
  | number hkept hlow =>
    have hvalue := hexValue?_hex _ hlow
    simp only [Text.hex, List.nil_append, List.cons_append] at hvalue ⊢
    rw [decode.eq_def]
    simp [hvalue, hkept, ofNat_toNat hlow]
  | itself hkept hquote hslash => rw [List.cons_append, List.nil_append, decode_plain hslash, hkept]

/-- What is written between the quotes reads as the text, or else the first code point that is written by a refused
escape is named by the letter of that escape. -/
theorem decode_encode (t : Text) :
    decode (t.flatMap encodePoint) =
      match t.findSome? refusedEscape? with
      | some e => .error e
      | none => .ok t := by
  induction t with
  | nil => rfl
  | cons c t ih =>
    rw [List.flatMap_cons, decode_encodePoint, List.findSome?_cons]
    cases refusedEscape? c with
    | some e => rfl
    | none =>
      rw [ih]
      cases t.findSome? refusedEscape? <;> rfl

/-- A written text reads back exactly if it has neither of the two code points. -/
theorem decode_encode_eq_ok {t u : Text} :
    decode (t.flatMap encodePoint) = .ok u ↔ u = t ∧ .scalar '\x08' ∉ t ∧ .scalar '\x0c' ∉ t := by
  rw [decode_encode, ← forall_refusedEscape?_eq_none, ← List.findSome?_eq_none_iff]
  cases t.findSome? refusedEscape? <;> simp [eq_comm]

/-- A written text is refused at the first of the two code points. -/
theorem decode_encode_eq_error {t : Text} {e : CodePoint} :
    decode (t.flatMap encodePoint) = .error e ↔
      ∃ before c after, t = before ++ c :: after ∧ (.scalar '\x08' ∉ before ∧ .scalar '\x0c' ∉ before) ∧
        refusedEscape? c = some e := by
  have hfirst : decode (t.flatMap encodePoint) = .error e ↔ t.findSome? refusedEscape? = some e := by
    rw [decode_encode]
    cases t.findSome? refusedEscape? <;> simp
  rw [hfirst, List.findSome?_eq_some_iff]
  simp only [forall_refusedEscape?_eq_none, and_comm]

/-! ### A written text is one lexeme -/

theorem stringTail?_cons_plain {c : CodePoint} (hquote : c ≠ .scalar '"') (hslash : c ≠ .scalar '\\')
    (rest : Text) :
    Lexeme.stringTail? (c :: rest) = (Lexeme.stringTail? rest).map fun r => (c :: r.1, r.2) := by
  rw [Lexeme.stringTail?.eq_def]
  simp only [if_neg hquote, if_neg hslash]

theorem stringTail?_escape {e : CodePoint} (he : e ≠ .scalar '\n') (rest : Text) :
    Lexeme.stringTail? (.scalar '\\' :: e :: rest) =
      (Lexeme.stringTail? rest).map fun r => (.scalar '\\' :: e :: r.1, r.2) := by
  rw [Lexeme.stringTail?.eq_def]
  simp [he]

theorem hex_plain : ∀ n < 0x20, ∀ c ∈ Text.hex 4 n, c ≠ .scalar '"' ∧ c ≠ .scalar '\\' := by decide

/-- Between the quotes, what is neither a quote nor a backslash is taken as it is. -/
theorem stringTail?_plain {t : Text} (h : ∀ c ∈ t, c ≠ .scalar '"' ∧ c ≠ .scalar '\\') (rest : Text) :
    Lexeme.stringTail? (t ++ rest) = (Lexeme.stringTail? rest).map fun r => (t ++ r.1, r.2) := by
  induction t with
  | nil => simp
  | cons c t ih =>
    obtain ⟨hquote, hslash⟩ := h c List.mem_cons_self
    rw [List.cons_append, stringTail?_cons_plain hquote hslash,
      ih fun c' hc' => h c' (List.mem_cons_of_mem c hc'), Option.map_map]
    rfl

theorem stringTail?_encodePoint (c : CodePoint) (rest : Text) :
    Lexeme.stringTail? (encodePoint c ++ rest) =
      (Lexeme.stringTail? rest).map fun r => (encodePoint c ++ r.1, r.2) := by
  have hw := writtenAs_encodePoint c
  generalize encodePoint c = t at hw ⊢
  cases hw with
  | escape hkept he hread => exact stringTail?_escape he.1 rest
  | refused hrefused he hread => exact stringTail?_escape he.1 rest
  | number hkept hlow =>
    rw [List.cons_append, List.cons_append, stringTail?_escape (by decide), stringTail?_plain (hex_plain _ hlow),
      Option.map_map]
    rfl
  | itself hkept hquote hslash => exact stringTail?_plain (by simp [hquote, hslash]) rest

/-- A written text is taken up to its closing quote. -/
theorem stringTail?_encode (t rest : Text) :
    Lexeme.stringTail? (t.flatMap encodePoint ++ .scalar '"' :: rest) =
      some (t.flatMap encodePoint ++ [.scalar '"'], rest) := by
  induction t with
  | nil => simp [Lexeme.stringTail?.eq_def]
  | cons c t ih =>
    rw [List.flatMap_cons, List.append_assoc, stringTail?_encodePoint, ih, Option.map_some, List.append_assoc]

end Literal

end Registrar
