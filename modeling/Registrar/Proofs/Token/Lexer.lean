import Mathlib
import Registrar.Proofs.Text.Literal

/-!
# Pieces of text and their tokens

Which lexeme is read off the front of a text, for each class of lexemes. A word and a numeral are read whole only if
what follows does not go on with them (`Breaks`); a string, a blank and a sign are read whole in front of anything.

`Lexes before text P` puts such pieces together: in front of any text of which `before` holds, `text` is cut into tokens
of which `P` holds, and what follows is cut as it would be alone.

In the other direction, the text reads as a token of its scan where the token stands (`readsAt_scanFrom`).
-/

namespace Registrar

/-! ## How tokens are spelled -/

namespace Text

/-- A letter or `_`, and then letters, digits and `_`. -/
def isWord (w : Text) : Bool := w.head?.any CodePoint.isNameStart && w.all CodePoint.isNamePart

/-- A word that is no keyword. -/
def isName (w : Text) : Bool := w.isWord && decide (Terminal.ofWord w = .name)

/-- One digit at least, and nothing else. -/
def isNumeral (w : Text) : Bool := !w.isEmpty && w.all CodePoint.isDigit

theorem isWord_iff {w : Text} :
    w.isWord = true ↔ (∃ c rest, w = c :: rest ∧ c.isNameStart = true) ∧ ∀ c ∈ w, c.isNamePart = true := by
  cases w <;> simp [isWord]

theorem isName_iff {w : Text} : w.isName = true ↔ w.isWord = true ∧ Terminal.ofWord w = .name := by
  simp [isName]

theorem isNumeral_iff {w : Text} : w.isNumeral = true ↔ w ≠ [] ∧ ∀ c ∈ w, c.isDigit = true := by
  simp [isNumeral]

theorem ne_nil_of_isName {w : Text} (h : w.isName = true) : w ≠ [] := by
  obtain ⟨⟨c, rest, rfl, -⟩, -⟩ := isWord_iff.mp (isName_iff.mp h).1
  exact List.cons_ne_nil c rest

theorem isNumeral_ofNat (n : Nat) : (ofNat n).isNumeral = true :=
  isNumeral_iff.mpr ⟨ofNat_ne_nil n, fun _ hc => isDigit_of_mem_ofNat hc⟩

end Text

/-! ## The first lexeme -/

/-- The text does not go on with a word. -/
def Breaks (rest : Text) : Prop := ∀ c ∈ rest.head?, c.isNamePart = false

theorem breaks_append {t : Text} {c : CodePoint} (h : t.head? = some c) (hc : c.isNamePart = false) (rest : Text) :
    Breaks (t ++ rest) := by
  intro d hd
  rw [List.head?_append, h, Option.some_or] at hd
  rwa [← Option.some.inj hd]

namespace Lexeme

theorem isNamePart_of_isDigit {c : CodePoint} (h : c.isDigit = true) : c.isNamePart = true := by
  cases c with
  | scalar c =>
    simp only [CodePoint.isDigit, CodePoint.isNamePart, CodePoint.isIn, Bool.or_eq_true] at h ⊢
    exact .inl (by simp [Char.isAlphanum, h])
  | surrogate n => simp [CodePoint.isDigit, CodePoint.isIn] at h

/-- A digit begins no name and is no blank. -/
theorem class_of_isDigit {c : CodePoint} (h : c.isDigit = true) : c.isNameStart = false ∧ c.isBlank = false := by
  cases c with
  | scalar c =>
    have hrange : 48 ≤ c.toNat ∧ c.toNat ≤ 57 := by
      simpa [CodePoint.isDigit, CodePoint.isIn, Char.isDigit, UInt32.le_iff_toNat_le, ← Char.toNat_val] using h
    have hne : ∀ d : Char, d.toNat < 48 ∨ 57 < d.toNat → c ≠ d := by
      rintro d hd rfl
      omega
    constructor
    · have halpha : c.isAlpha = false := by
        refine Bool.eq_false_iff.mpr fun halpha => ?_
        simp [Char.isAlpha, Char.isUpper, Char.isLower, UInt32.le_iff_toNat_le, ← Char.toNat_val] at halpha hrange
        omega
      simp [CodePoint.isNameStart, CodePoint.isIn, halpha, hne '_' (by decide)]
    · simp [CodePoint.isBlank, CodePoint.isIn, hne]
  | surrogate n => simp [CodePoint.isDigit, CodePoint.isIn] at h

/-- A run of one class ends where something else follows. -/
theorem run_append (terminal : Option Terminal) {isPart : CodePoint → Bool} {w rest : Text}
    (hw : ∀ c ∈ w, isPart c = true) (hrest : ∀ c ∈ rest.head?, isPart c = false) :
    run terminal isPart (w ++ rest) = ⟨terminal, w, rest⟩ := by
  have htake : rest.takeWhile isPart = [] := by
    cases rest with
    | nil => rfl
    | cons c rest => simp [hrest c rfl]
  have hdrop : rest.dropWhile isPart = rest := by
    cases rest with
    | nil => rfl
    | cons c rest => simp [hrest c rfl]
  rw [run, List.takeWhile_append_of_pos hw, List.dropWhile_append_of_pos hw, htake, hdrop, List.append_nil]

theorem read?_word {w rest : Text} (hw : w.isWord = true) (hrest : Breaks rest) :
    read? (w ++ rest) = some ⟨some (.ofWord w), w, rest⟩ := by
  obtain ⟨⟨c, t, rfl, hc⟩, hparts⟩ := Text.isWord_iff.mp hw
  have hrun := fun k => run_append k hparts hrest
  have htake : (c :: t ++ rest).takeWhile CodePoint.isNamePart = c :: t := congrArg Lexeme.text (hrun none)
  rw [List.cons_append] at htake hrun ⊢
  rw [read?.eq_def]
  simp only [hc, if_true, htake, hrun]

theorem read?_numeral {w rest : Text} (hw : w.isNumeral = true) (hrest : Breaks rest) :
    read? (w ++ rest) = some ⟨some .int, w, rest⟩ := by
  obtain ⟨hne, hdigits⟩ := Text.isNumeral_iff.mp hw
  have hend : ∀ c ∈ rest.head?, c.isDigit = false := by
    intro c hc
    refine Bool.eq_false_iff.mpr fun hdigit => ?_
    have hpart := isNamePart_of_isDigit hdigit
    rw [hrest c hc] at hpart
    simp at hpart
  have hrun := run_append (some .int) hdigits hend
  obtain ⟨c, t, rfl⟩ := List.exists_cons_of_ne_nil hne
  have hc := hdigits c List.mem_cons_self
  rw [List.cons_append] at hrun ⊢
  rw [read?.eq_def]
  obtain ⟨hstart, hblank⟩ := class_of_isDigit hc
  have hquote : c ≠ .scalar '"' := by rintro rfl; simp [CodePoint.isDigit, CodePoint.isIn] at hc
  have hslash : c ≠ .scalar '/' := by rintro rfl; simp [CodePoint.isDigit, CodePoint.isIn] at hc
  simp [hstart, hquote, hblank, hslash, hc, hrun]

/-- A written text is one string token. -/
theorem read?_string (t rest : Text) :
    read? (Literal.encode t ++ rest) = some ⟨some .string, Literal.encode t, rest⟩ := by
  have htail := Literal.stringTail?_encode t rest
  rw [Literal.encode, List.append_assoc, List.cons_append, List.singleton_append, read?.eq_def]
  simp [htail, CodePoint.isNameStart, CodePoint.isIn]

theorem read?_blank {c : CodePoint} (h : c.isBlank = true) (rest : Text) :
    read? (c :: rest) = some ⟨none, [c], rest⟩ := by
  cases c with
  | scalar c =>
    simp only [CodePoint.isBlank, CodePoint.isIn, Bool.or_eq_true, beq_iff_eq] at h
    rcases h with (((rfl | rfl) | rfl) | rfl) | rfl <;> rfl
  | surrogate n => simp [CodePoint.isBlank, CodePoint.isIn] at h

theorem read?_sign {c : CodePoint} {k : Terminal} (h : Terminal.ofPunctuation? c = some k) (rest : Text)
    (hrest : c = .scalar '/' → rest.head? ≠ some (.scalar '/')) :
    read? (c :: rest) = some ⟨some k, [c], rest⟩ := by
  unfold Terminal.ofPunctuation? at h
  split at h
  case h_10 =>
    obtain rfl := Option.some.inj h
    rw [read?.eq_def]
    simp [hrest rfl, CodePoint.isNameStart, CodePoint.isBlank, CodePoint.isDigit, CodePoint.isIn,
      Terminal.ofPunctuation?]
  case h_12 => simp at h
  all_goals
    obtain rfl := Option.some.inj h
    rfl

theorem read?_ellipsis (rest : Text) :
    read? (("..." : Text) ++ rest) = some ⟨some .ellipsis, "...", rest⟩ := rfl

end Lexeme

/-! ## Places of a text -/

theorem Position.advance_append (p : Position) (s t : Text) : p.advance (s ++ t) = (p.advance s).advance t :=
  List.foldl_append

/-- A text that begins at `start` goes on with `rest` from the position `p` on. -/
def Text.ReadsAt (text : Text) (start p : Position) (rest : Text) : Prop :=
  ∃ before, text = before ++ rest ∧ p = start.advance before

/-- What is read behind the first piece of a text. -/
theorem Text.ReadsAt.behind {start p : Position} {piece text rest : Text}
    (h : text.ReadsAt (start.advance piece) p rest) : (piece ++ text).ReadsAt start p rest := by
  obtain ⟨before, rfl, rfl⟩ := h
  exact ⟨piece ++ before, (List.append_assoc piece before rest).symm,
    (Position.advance_append start piece before).symm⟩

/-- The text reads as a token where the token stands, and where a scan stops as what is left. -/
theorem readsAt_scanFrom (start : Position) (text : Text) :
    (∀ t ∈ (scanFrom start text).tokens, ∃ after, text.ReadsAt start t.position (t.text ++ after)) ∧
      ∀ fault, (scanFrom start text).fault = some fault → text.ReadsAt start fault.position fault.rest := by
  fun_induction scanFrom start text with
  | case1 => simp
  | case2 start text =>
    refine ⟨by simp, fun fault hfault => ?_⟩
    obtain rfl := Option.some.inj hfault
    exact ⟨[], rfl, rfl⟩
  | case3 start text _ l hl ih =>
    obtain ⟨htext, -⟩ := Lexeme.read?_eq hl
    have hbehind : ∀ t ∈ (scanFrom (start.advance l.text) l.rest).tokens,
        ∃ after, (l.text ++ l.rest).ReadsAt start t.position (t.text ++ after) := by
      intro t ht
      obtain ⟨after, hreads⟩ := ih.1 t ht
      exact ⟨after, hreads.behind⟩
    rw [htext]
    unfold Scan.push
    split
    · exact ⟨hbehind, fun fault hfault => (ih.2 fault hfault).behind⟩
    · refine ⟨fun t ht => ?_, fun fault hfault => (ih.2 fault hfault).behind⟩
      rcases List.mem_cons.mp ht with rfl | ht
      · exact ⟨l.rest, [], rfl, rfl⟩
      · exact hbehind t ht

/-! ## Pieces in front of a text -/

namespace Scan

/-- The scan with more tokens in front. -/
def prepend (tokens : List Token) (scan : Scan) : Scan := { scan with tokens := tokens ++ scan.tokens }

theorem prepend_prepend (us vs : List Token) (scan : Scan) :
    (scan.prepend vs).prepend us = scan.prepend (us ++ vs) := by
  simp [prepend]

end Scan

theorem scanFrom_of_read? {t : Text} {l : Lexeme} (h : Lexeme.read? t = some l) (p : Position) :
    scanFrom p t = (scanFrom (p.advance l.text) l.rest).push l p := by
  have hne : t ≠ [] := by
    rintro rfl
    simp [Lexeme.read?] at h
  rw [scanFrom.eq_def, if_neg hne]
  split
  · next hnone => rw [h] at hnone; simp at hnone
  · next l' hl' => rw [h] at hl'; rw [Option.some.inj hl']

/-- In front of any text of which `before` holds, `text` is cut into tokens of which `P` holds. -/
def Lexes (before : Text → Prop) (text : Text) (P : List Token → Prop) : Prop :=
  ∀ p rest, before rest →
    ∃ tokens, P tokens ∧ scanFrom p (text ++ rest) = (scanFrom (p.advance text) rest).prepend tokens

/-- No condition on what follows. -/
def Anything (_ : Text) : Prop := True

/-- One token, somewhere. -/
def OneToken (k : Terminal) (w : Text) (tokens : List Token) : Prop := ∃ p, tokens = [⟨k, w, p⟩]

/-- Tokens of one kind and then tokens of another. -/
def Then (P Q : List Token → Prop) (tokens : List Token) : Prop := ∃ us vs, P us ∧ Q vs ∧ tokens = us ++ vs

namespace Lexes

variable {before after : Text → Prop} {s t : Text} {P Q : List Token → Prop}

theorem imp (h : Lexes before t P) (hP : ∀ ts, P ts → Q ts) : Lexes before t Q := by
  intro p rest hrest
  obtain ⟨ts, hts, hscan⟩ := h p rest hrest
  exact ⟨ts, hP ts hts, hscan⟩

/-- Two pieces, where the first one allows what begins with the second. -/
theorem append (hs : Lexes before s P) (ht : Lexes after t Q) (hbefore : ∀ rest, after rest → before (t ++ rest)) :
    Lexes after (s ++ t) (Then P Q) := by
  intro p rest hrest
  obtain ⟨us, hus, hscan⟩ := hs p (t ++ rest) (hbefore rest hrest)
  obtain ⟨vs, hvs, hscan'⟩ := ht (p.advance s) rest hrest
  refine ⟨us ++ vs, ⟨us, vs, hus, hvs, rfl⟩, ?_⟩
  rw [List.append_assoc, hscan, hscan', Scan.prepend_prepend, Position.advance_append]

/-- A piece that needs nothing of what follows, and a piece behind it. -/
theorem followed (hs : Lexes Anything s P) (ht : Lexes after t Q) : Lexes after (s ++ t) (Then P Q) :=
  hs.append ht fun _ _ => trivial

/-- A piece that may end with a word, and a piece behind it that does not go on with the word. -/
theorem broken (hs : Lexes Breaks s P) (ht : Lexes after t Q) {c : CodePoint} (hhead : t.head? = some c)
    (hc : c.isNamePart = false) : Lexes after (s ++ t) (Then P Q) :=
  hs.append ht fun rest _ => breaks_append hhead hc rest

/-- A text that is cut into tokens in front of nothing is scanned without a fault. -/
theorem scan_eq (h : Lexes before t P) (hend : before []) : ∃ tokens, P tokens ∧ scan t = ⟨tokens, none⟩ := by
  obtain ⟨tokens, htokens, hscan⟩ := h .start [] hend
  refine ⟨tokens, htokens, ?_⟩
  rw [List.append_nil] at hscan
  rw [scan, hscan, scanFrom, if_pos rfl, Scan.prepend, List.append_nil]

theorem of_read? {k : Terminal} (h : ∀ rest, before rest → Lexeme.read? (t ++ rest) = some ⟨some k, t, rest⟩) :
    Lexes before t (OneToken k t) := by
  intro p rest hrest
  refine ⟨[⟨k, t, p⟩], ⟨p, rfl⟩, ?_⟩
  rw [scanFrom_of_read? (h rest hrest)]
  rfl

theorem word (h : t.isWord = true) : Lexes Breaks t (OneToken (.ofWord t) t) :=
  of_read? fun _ hrest => Lexeme.read?_word h hrest

theorem name (h : t.isName = true) : Lexes Breaks t (OneToken .name t) := by
  obtain ⟨hword, hname⟩ := Text.isName_iff.mp h
  rw [← hname]
  exact word hword

theorem numeral (h : t.isNumeral = true) : Lexes Breaks t (OneToken .int t) :=
  of_read? fun _ hrest => Lexeme.read?_numeral h hrest

theorem string (t : Text) : Lexes Anything (Literal.encode t) (OneToken .string (Literal.encode t)) :=
  of_read? fun rest _ => Lexeme.read?_string t rest

theorem sign {c : CodePoint} {k : Terminal} (h : Terminal.ofPunctuation? c = some k) (hc : c ≠ .scalar '/') :
    Lexes Anything [c] (OneToken k [c]) :=
  of_read? fun rest _ => Lexeme.read?_sign h rest fun h => absurd h hc

theorem slash : Lexes (fun rest => rest.head? ≠ some (.scalar '/')) "/" (OneToken .slash "/") :=
  of_read? fun rest hrest => Lexeme.read?_sign rfl rest fun _ => hrest

theorem ellipsis : Lexes Anything "..." (OneToken .ellipsis "...") :=
  of_read? fun rest _ => Lexeme.read?_ellipsis rest

theorem blanks (h : ∀ c ∈ t, c.isBlank = true) : Lexes Anything t (· = []) := by
  induction t with
  | nil => exact fun p rest _ => ⟨[], rfl, rfl⟩
  | cons c t ih =>
    intro p rest _
    obtain ⟨ts, rfl, hscan⟩ := ih (fun d hd => h d (List.mem_cons_of_mem c hd)) (p.step c) rest trivial
    refine ⟨[], rfl, ?_⟩
    rw [List.cons_append, scanFrom_of_read? (Lexeme.read?_blank (h c List.mem_cons_self) _)]
    exact hscan

end Lexes

end Registrar
