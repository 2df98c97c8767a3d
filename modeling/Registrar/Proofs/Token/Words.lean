import Registrar.Proofs.Token.Lexer

/-!
# Words with layout between them

A text is made of words, each behind a gap of blanks and comments. Where every gap but the first begins with a blank,
the text is cut into just these words, however it is laid out (`LaidOut.scan_eq`): a blank ends every word, so none runs
into the next one or into a comment. Each token stands where its word begins, and that place is counted in the text
before it (`Position.start_advance`).

Conversely, whatever a text is cut into are words of the language (`spelledBy_of_mem_scanFrom`).
-/

namespace Registrar

/-! ## Positions -/

/-- Behind a text the line is counted by its line ends, and the column by what follows the last of them. -/
theorem Position.start_advance (t : Text) :
    Position.start.advance t =
      ⟨1 + t.count (.scalar '\n'), 1 + (t.reverse.takeWhile (· ≠ .scalar '\n')).length⟩ := by
  -- the last code point decides whether a line goes on, so the induction is from the end
  induction t using List.reverseRecOn with
  | nil => rfl
  | append_singleton t c ih =>
    rw [advance_append, ih]
    by_cases hc : c = .scalar '\n'
    · simp [advance, step, hc]
      omega
    · simp [advance, step, hc]
      omega

/-! ## Words -/

/-- What may stand between the quotes of a string. A backslash takes the next code point with it, which may not be a
line end. -/
inductive Quoted : Text → Prop
  | nil : Quoted []
  | plain {c : CodePoint} {t : Text} (hquote : c ≠ .scalar '"') (hslash : c ≠ .scalar '\\') (h : Quoted t) :
      Quoted (c :: t)
  | escape {c : CodePoint} {t : Text} (hc : c ≠ .scalar '\n') (h : Quoted t) : Quoted (.scalar '\\' :: c :: t)

/-- The words of the language, by their terminals. -/
inductive Terminal.SpelledBy : Terminal → Text → Prop
  | keyword {w : Text} {k : Terminal} (h : (w, k) ∈ keywords) : SpelledBy k w
  | name {w : Text} (h : w.isName = true) : SpelledBy .name w
  | int {w : Text} (h : w.isNumeral = true) : SpelledBy .int w
  | string {t : Text} (h : Quoted t) : SpelledBy .string (.scalar '"' :: (t ++ [.scalar '"']))
  | sign {c : CodePoint} {k : Terminal} (h : ofPunctuation? c = some k) : SpelledBy k [c]
  | ellipsis : SpelledBy .ellipsis "..."

/-- The text is over, or goes on with a blank. -/
def Ends (rest : Text) : Prop := ∀ c ∈ rest.head?, c.isBlank = true

theorem isNamePart_of_isBlank {c : CodePoint} (h : c.isBlank = true) : c.isNamePart = false := by
  cases c with
  | scalar c =>
    simp only [CodePoint.isBlank, CodePoint.isIn, Bool.or_eq_true, beq_iff_eq] at h
    rcases h with (((rfl | rfl) | rfl) | rfl) | rfl <;> rfl
  | surrogate n => rfl

theorem Ends.breaks {rest : Text} (h : Ends rest) : Breaks rest := fun c hc => isNamePart_of_isBlank (h c hc)

theorem Quoted.stringTail? {t : Text} (h : Quoted t) (rest : Text) :
    Lexeme.stringTail? (t ++ .scalar '"' :: rest) = some (t ++ [.scalar '"'], rest) := by
  induction h with
  | nil => simp [Lexeme.stringTail?.eq_def]
  | plain hquote hslash _ ih => rw [List.cons_append, Literal.stringTail?_cons_plain hquote hslash, ih]; rfl
  | escape hc _ ih => rw [List.cons_append, List.cons_append, Literal.stringTail?_escape hc, ih]; rfl

/-- A word is read whole in front of a blank or the end. -/
theorem Terminal.SpelledBy.read? {k : Terminal} {w rest : Text} (h : k.SpelledBy w) (hrest : Ends rest) :
    Lexeme.read? (w ++ rest) = some ⟨some k, w, rest⟩ := by
  cases h with
  | keyword h =>
    have hall : ∀ e ∈ keywords, e.1.isWord = true ∧ ofWord e.1 = e.2 := by decide
    obtain ⟨hword, hk⟩ := hall _ h
    rw [Lexeme.read?_word hword hrest.breaks, hk]
  | name h =>
    obtain ⟨hword, hk⟩ := Text.isName_iff.mp h
    rw [Lexeme.read?_word hword hrest.breaks, hk]
  | int h => exact Lexeme.read?_numeral h hrest.breaks
  | string h =>
    rw [List.cons_append, List.append_assoc, List.singleton_append, Lexeme.read?.eq_def]
    simp [h.stringTail?, CodePoint.isNameStart, CodePoint.isIn]
  | sign h =>
    refine Lexeme.read?_sign h rest fun _ hhead => ?_
    have hblank := hrest _ hhead
    cases hblank
  | ellipsis => exact Lexeme.read?_ellipsis rest

/-! ## Words of a scan -/

/-- The signs, with their terminals. -/
def Terminal.signs : List (CodePoint × Terminal) :=
  [(.scalar '@', .atSign), (.scalar ':', .colon), (.scalar ',', .comma), (.scalar '=', .equals),
    (.scalar '\x7b', .lbrace), (.scalar '(', .lparen), (.scalar '\x7d', .rbrace), (.scalar ')', .rparen),
    (.scalar ';', .semicolon), (.scalar '/', .slash), (.scalar '|', .bar)]

theorem Terminal.mem_signs {c : CodePoint} {k : Terminal} (h : ofPunctuation? c = some k) : (c, k) ∈ signs := by
  unfold ofPunctuation? at h
  split at h
  case h_12 => simp at h
  all_goals
    obtain rfl := Option.some.inj h
    decide

/-- The words that stand for themselves, with their terminals. -/
def Terminal.fixedWords : List (Text × Terminal) :=
  keywords ++ signs.map fun e => ([e.1], e.2)

namespace Terminal.SpelledBy

variable {w : Text}

/-- A keyword or a sign is spelled in one way. -/
theorem eq_of_fixed {w' : Text} {k : Terminal} (hk : (w', k) ∈ fixedWords) (h : k.SpelledBy w) : w = w' := by
  have hone : ∀ e ∈ fixedWords, e.2 = k → e.1 = w' := by
    have hall : ∀ e ∈ fixedWords, ∀ e' ∈ fixedWords, e'.2 = e.2 → e'.1 = e.1 := by decide
    exact fun e he heq => hall _ hk e he heq
  have hkinds : ∀ e ∈ fixedWords, e.2 ≠ .name ∧ e.2 ≠ .int ∧ e.2 ≠ .string ∧ e.2 ≠ .ellipsis := by decide
  obtain ⟨hname, hint, hstring, hellipsis⟩ := hkinds _ hk
  cases h with
  | keyword h => exact hone _ (List.mem_append_left _ h) rfl
  | sign h =>
    exact hone _ (List.mem_append_right _ (List.mem_map_of_mem (mem_signs h))) rfl
  | name => exact absurd rfl hname
  | int => exact absurd rfl hint
  | string => exact absurd rfl hstring
  | ellipsis => exact absurd rfl hellipsis

theorem isName (h : Terminal.name.SpelledBy w) : w.isName = true := by
  cases h with
  | name h => exact h
  | keyword h => simp [keywords] at h
  | sign h => simpa [signs] using mem_signs h

theorem isNumeral (h : Terminal.int.SpelledBy w) : w.isNumeral = true := by
  cases h with
  | int h => exact h
  | keyword h => simp [keywords] at h
  | sign h => simpa [signs] using mem_signs h

theorem quoted (h : Terminal.string.SpelledBy w) :
    ∃ t, Quoted t ∧ w = .scalar '"' :: (t ++ [.scalar '"']) := by
  cases h with
  | string h => exact ⟨_, h, rfl⟩
  | keyword h => simp [keywords] at h
  | sign h => simpa [signs] using mem_signs h

end Terminal.SpelledBy

theorem Quoted.of_stringTail? {t : Text} {r : Text × Text} (h : Lexeme.stringTail? t = some r) :
    ∃ body, Quoted body ∧ r.1 = body ++ [.scalar '"'] := by
  fun_induction Lexeme.stringTail? t generalizing r with
  | case1 => simp at h
  | case2 =>
    obtain rfl := Option.some.inj h
    exact ⟨[], .nil, rfl⟩
  | case3 => simp at h
  | case4 => simp at h
  | case5 e more hend _ ih =>
    obtain ⟨s, hs, rfl⟩ := Option.map_eq_some_iff.mp h
    obtain ⟨body, hbody, heq⟩ := ih hs
    exact ⟨_, .escape hend hbody, by simp [heq]⟩
  | case6 c rest hquote hslash ih =>
    obtain ⟨s, hs, rfl⟩ := Option.map_eq_some_iff.mp h
    obtain ⟨body, hbody, heq⟩ := ih hs
    exact ⟨_, .plain hquote hslash hbody, by simp [heq]⟩

theorem Terminal.spelledBy_ofWord {w : Text} (h : w.isWord = true) : (ofWord w).SpelledBy w := by
  cases hl : keywords.lookup w with
  | none =>
    have hk : ofWord w = .name := by simp [ofWord, hl]
    rw [hk]
    exact .name (Text.isName_iff.mpr ⟨h, hk⟩)
  | some k =>
    obtain ⟨before, after, heq, -⟩ := List.lookup_eq_some_iff.mp hl
    have hk : ofWord w = k := by simp [ofWord, hl]
    rw [hk]
    exact .keyword (heq ▸ List.mem_append_right before List.mem_cons_self)

/-- What is read off a text is a word of its terminal. -/
theorem Lexeme.spelledBy_of_read? {t : Text} {l : Lexeme} {k : Terminal} (h : read? t = some l)
    (hk : l.terminal = some k) : k.SpelledBy l.text := by
  unfold read? at h
  split at h
  · simp at h
  · next c rest =>
    split at h
    · next hc =>
      obtain rfl := Option.some.inj h
      obtain rfl := Option.some.inj hk
      refine Terminal.spelledBy_ofWord (Text.isWord_iff.mpr ⟨⟨c, rest.takeWhile CodePoint.isNamePart, ?_, hc⟩, ?_⟩)
      · simp [isNamePart_of_isNameStart hc]
      · exact fun d hd => List.mem_takeWhile_imp hd
    split at h
    · next hc =>
      obtain ⟨s, hs, rfl⟩ := Option.map_eq_some_iff.mp h
      obtain rfl := Option.some.inj hk
      obtain ⟨body, hbody, heq⟩ := Quoted.of_stringTail? hs
      show Terminal.string.SpelledBy (c :: s.1)
      rw [hc, heq]
      exact .string hbody
    split at h
    · obtain rfl := Option.some.inj h
      simp at hk
    split at h
    · obtain rfl := Option.some.inj h
      simp [comment, run] at hk
    split at h
    · next hc =>
      obtain rfl := Option.some.inj h
      obtain rfl := Option.some.inj hk
      have hne : (run (some .int) CodePoint.isDigit (c :: rest)).text ≠ [] := run_text_ne_nil hc
      exact .int (Text.isNumeral_iff.mpr ⟨hne, fun d hd => List.mem_takeWhile_imp hd⟩)
    split at h
    · next hc =>
      split at h
      · split at h
        · next hdots =>
          obtain rfl := Option.some.inj h
          obtain rfl := Option.some.inj hk
          rw [hc, hdots.1, hdots.2]
          exact .ellipsis
        · simp at h
      · simp at h
    · obtain ⟨s, hs, rfl⟩ := Option.map_eq_some_iff.mp h
      obtain rfl := Option.some.inj hk
      exact .sign hs

/-- The tokens of a scan are words of their terminals. -/
theorem spelledBy_of_mem_scanFrom {p : Position} {t : Text} {k : Token} (h : k ∈ (scanFrom p t).tokens) :
    k.terminal.SpelledBy k.text := by
  fun_induction scanFrom p t with
  | case1 => simp at h
  | case2 => simp at h
  | case3 p t _ l hl ih =>
    unfold Scan.push at h
    split at h
    · exact ih h
    · next terminal hterminal =>
      rcases List.mem_cons.mp h with rfl | h
      · exact Lexeme.spelledBy_of_read? hl hterminal
      · exact ih h

/-- A token spelled as its terminal says: a name is a word that is no keyword, an integer a numeral. -/
structure Token.Spelled (t : Token) : Prop where
  name : t.terminal = .name → t.text.isName = true
  int : t.terminal = .int → t.text.isNumeral = true

/-- The tokens of a scan are spelled right. -/
theorem spelled_of_mem_scanFrom {p : Position} {t : Text} {k : Token} (h : k ∈ (scanFrom p t).tokens) : k.Spelled := by
  have hspelled := spelledBy_of_mem_scanFrom h
  exact ⟨fun hname => (hname ▸ hspelled).isName, fun hint => (hint ▸ hspelled).isNumeral⟩

/-! ## Layout -/

/-- Blanks and comments, of which each ends with its line. -/
inductive Layout : Text → Prop
  | nil : Layout []
  | blank {c : CodePoint} {t : Text} (hc : c.isBlank = true) (h : Layout t) : Layout (c :: t)
  | comment {body t : Text} (hbody : .scalar '\n' ∉ body) (h : Layout t) :
      Layout (.scalar '/' :: .scalar '/' :: (body ++ .scalar '\n' :: t))

/-- Layout that keeps two words apart: it begins with a blank. -/
def Separates (t : Text) : Prop := ∃ c rest, t = c :: rest ∧ c.isBlank = true ∧ Layout rest

theorem Separates.layout {t : Text} (h : Separates t) : Layout t := by
  obtain ⟨c, rest, rfl, hc, hrest⟩ := h
  exact .blank hc hrest

theorem Separates.ends_append {t : Text} (h : Separates t) (rest : Text) : Ends (t ++ rest) := by
  obtain ⟨c, t, rfl, hc, -⟩ := h
  intro d hd
  obtain rfl := Option.some.inj hd
  exact hc

theorem scanFrom_blank {c : CodePoint} (hc : c.isBlank = true) (p : Position) (rest : Text) :
    scanFrom p (c :: rest) = scanFrom (p.advance [c]) rest := by
  rw [scanFrom_of_read? (Lexeme.read?_blank hc rest)]
  rfl

theorem scanFrom_comment {body : Text} (hbody : .scalar '\n' ∉ body) (p : Position) (rest : Text) :
    scanFrom p (.scalar '/' :: .scalar '/' :: (body ++ .scalar '\n' :: rest)) =
      scanFrom (p.advance (.scalar '/' :: .scalar '/' :: body)) (.scalar '\n' :: rest) := by
  have hrun : Lexeme.comment (.scalar '/' :: .scalar '/' :: body ++ .scalar '\n' :: rest) =
      ⟨none, .scalar '/' :: .scalar '/' :: body, .scalar '\n' :: rest⟩ := by
    refine Lexeme.run_append none (fun c hc => ?_) (by simp)
    rw [decide_eq_true_eq]
    rintro rfl
    exact hbody (by simpa using hc)
  have hread : Lexeme.read? (.scalar '/' :: .scalar '/' :: (body ++ .scalar '\n' :: rest)) =
      some ⟨none, .scalar '/' :: .scalar '/' :: body, .scalar '\n' :: rest⟩ := congrArg some hrun
  rw [scanFrom_of_read? hread]
  rfl

/-- Layout gives no tokens. -/
theorem Layout.scanFrom_append {t : Text} (h : Layout t) (p : Position) (rest : Text) :
    scanFrom p (t ++ rest) = scanFrom (p.advance t) rest := by
  induction h generalizing p with
  | nil => rfl
  | blank hc _ ih => exact (scanFrom_blank hc p _).trans (ih _)
  | @comment body t hbody _ ih =>
    have hend : CodePoint.isBlank (.scalar '\n') = true := rfl
    rw [List.cons_append, List.cons_append, List.append_assoc, List.cons_append, scanFrom_comment hbody,
      scanFrom_blank hend, ih, ← Position.advance_append, ← Position.advance_append]
    simp

/-! ## Texts -/

/-- A word of a text, with the gap before it. -/
structure Word where
  gap : Text
  terminal : Terminal
  text : Text

namespace Word

/-- The text of words with their gaps. -/
def source (ws : List Word) : Text := ws.flatMap fun w => w.gap ++ w.text

@[simp] theorem source_nil : source [] = [] := rfl

@[simp] theorem source_cons (w : Word) (ws : List Word) : source (w :: ws) = w.gap ++ (w.text ++ source ws) := by
  simp [source]

/-- The tokens of words whose text begins at a position. -/
def tokens (p : Position) : List Word → List Token
  | [] => []
  | w :: ws => ⟨w.terminal, w.text, p.advance w.gap⟩ :: tokens (p.advance (w.gap ++ w.text)) ws

theorem length_tokens (ws : List Word) (p : Position) : (tokens p ws).length = ws.length := by
  induction ws generalizing p with
  | nil => rfl
  | cons w ws ih => rw [tokens, List.length_cons, ih, List.length_cons]

/-- A token stands behind the words before it and behind its own gap. -/
theorem getElem?_tokens (before : List Word) (w : Word) (after : List Word) (p : Position) :
    (tokens p (before ++ w :: after))[before.length]? =
      some ⟨w.terminal, w.text, p.advance (source before ++ w.gap)⟩ := by
  induction before generalizing p with
  | nil => rfl
  | cons v before ih =>
    rw [List.cons_append, tokens, List.length_cons, List.getElem?_cons_succ, ih, ← Position.advance_append]
    simp

/-- Words of the language, with gaps that keep them apart, and with layout behind the last one. -/
structure LaidOut (ws : List Word) (tail : Text) : Prop where
  spelled : ∀ w ∈ ws, w.terminal.SpelledBy w.text
  first : ∀ w ∈ ws.head?, Layout w.gap
  others : ∀ w ∈ ws.tail, Separates w.gap
  tail : tail = [] ∨ Separates tail

namespace LaidOut

variable {w : Word} {ws : List Word} {tail : Text}

theorem behind (h : LaidOut (w :: ws) tail) : LaidOut ws tail where
  spelled := fun v hv => h.spelled v (List.mem_cons_of_mem w hv)
  first := fun v hv => (h.others v (List.mem_of_mem_head? hv)).layout
  others := fun v hv => h.others v (List.mem_of_mem_tail hv)
  tail := h.tail

/-- What follows a word begins with a blank, if anything follows. -/
theorem ends (h : LaidOut (w :: ws) tail) : Ends (source ws ++ tail) := by
  cases ws with
  | nil =>
    rcases h.tail with rfl | htail
    · simp [Ends]
    · simpa using htail.ends_append []
  | cons v ws =>
    rw [source_cons, List.append_assoc]
    exact (h.others v List.mem_cons_self).ends_append _

theorem scanFrom_eq (h : LaidOut ws tail) (p : Position) : scanFrom p (source ws ++ tail) = ⟨tokens p ws, none⟩ := by
  induction ws generalizing p with
  | nil =>
    have htail : Layout tail := by
      rcases h.tail with rfl | htail
      · exact .nil
      · exact htail.layout
    have hscan := htail.scanFrom_append p []
    rw [List.append_nil] at hscan
    rw [source_nil, List.nil_append, hscan, scanFrom, if_pos rfl, tokens]
  | cons w ws ih =>
    have hread := (h.spelled w List.mem_cons_self).read? h.ends
    rw [source_cons, List.append_assoc, List.append_assoc, (h.first w rfl).scanFrom_append, scanFrom_of_read? hread,
      ← Position.advance_append, ih h.behind]
    rfl

/-- A text of words is cut into these words, wherever its gaps are and whatever they hold. -/
theorem scan_eq (h : LaidOut ws tail) : scan (source ws ++ tail) = ⟨tokens .start ws, none⟩ := h.scanFrom_eq .start

end LaidOut

end Word

end Registrar
