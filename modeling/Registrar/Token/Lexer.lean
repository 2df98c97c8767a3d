import Registrar.Text.Decimal
import Registrar.Token

/-!
# From text to tokens

The text is cut into lexemes, each the longest that its first character allows. Blanks and comments are cut
off as lexemes that give no token. At a place where no lexeme begins the cutting stops with a fault, and the
tokens before it stand.

`scan` ends because a lexeme is never empty: `Lexeme.read?_eq` says that what was read and what is left make
up the text.
-/

namespace Registrar

/-! ## Classes of characters -/

namespace CodePoint

/-- A letter or `_`: what a name begins with. Names are ASCII. -/
def isNameStart : CodePoint → Bool := isIn fun c => c.isAlpha || c == '_'

/-- What a name goes on with. -/
def isNamePart : CodePoint → Bool := isIn fun c => c.isAlphanum || c == '_'

/-- What may stand between tokens. -/
def isBlank : CodePoint → Bool :=
  isIn fun c => c == ' ' || c == '\t' || c == '\x0c' || c == '\r' || c == '\n'

end CodePoint

/-! ## Lexemes -/

/-- A piece cut off a text, the terminal that it makes unless it is layout, and what is left. -/
structure Lexeme where
  terminal : Option Terminal
  text : Text
  rest : Text
deriving DecidableEq, Repr

namespace Lexeme

/-- What belongs to a string after its opening quote, up to the closing one, and what is left. A backslash
takes the next character with it, which may not be a line end; otherwise line ends are allowed. -/
def stringTail? : Text → Option (Text × Text)
  | [] => none
  | c :: rest =>
    if c = .scalar '"' then some ([c], rest)
    else if c = .scalar '\\' then
      match rest with
      | [] => none
      | e :: more =>
        if e = .scalar '\n' then none
        else (stringTail? more).map fun (tail, after) => (c :: e :: tail, after)
    else (stringTail? rest).map fun (tail, after) => (c :: tail, after)

/-- The longest piece of one class. -/
def run (terminal : Option Terminal) (isPart : CodePoint → Bool) (t : Text) : Lexeme :=
  ⟨terminal, t.takeWhile isPart, t.dropWhile isPart⟩

/-- A comment: all that stands before the end of the line. -/
def comment (t : Text) : Lexeme := run none (· ≠ .scalar '\n') t

/-- Cuts the first lexeme off a text. -/
def read? : Text → Option Lexeme
  | [] => none
  | c :: rest =>
    if c.isNameStart then
      some (run (some (.ofWord ((c :: rest).takeWhile CodePoint.isNamePart))) CodePoint.isNamePart (c :: rest))
    else if c = .scalar '"' then
      (stringTail? rest).map fun (tail, after) => ⟨some .string, c :: tail, after⟩
    else if c.isBlank then some ⟨none, [c], rest⟩
    else if c = .scalar '/' ∧ rest.head? = some (.scalar '/') then some (comment (c :: rest))
    else if c.isDigit then some (run (some .int) CodePoint.isDigit (c :: rest))
    else if c = .scalar '.' then
      match rest with
      | d :: e :: after =>
        if d = .scalar '.' ∧ e = .scalar '.' then some ⟨some .ellipsis, [c, d, e], after⟩ else none
      | _ => none
    else (Terminal.ofPunctuation? c).map fun terminal => ⟨some terminal, [c], rest⟩

/-! ### What is read and what is left make up the text -/

theorem stringTail?_eq {t : Text} {r : Text × Text} (h : stringTail? t = some r) : t = r.1 ++ r.2 := by
  fun_induction stringTail? t generalizing r with
  | case1 => simp at h
  | case2 => obtain rfl := Option.some.inj h; rfl
  | case3 => simp at h
  | case4 => simp at h
  | case5 _ _ _ _ ih =>
    obtain ⟨s, hs, rfl⟩ := Option.map_eq_some_iff.mp h
    simp [← ih hs]
  | case6 _ _ _ _ ih =>
    obtain ⟨s, hs, rfl⟩ := Option.map_eq_some_iff.mp h
    simp [← ih hs]

theorem run_eq (terminal : Option Terminal) (isPart : CodePoint → Bool) (t : Text) :
    t = (run terminal isPart t).text ++ (run terminal isPart t).rest :=
  (List.takeWhile_append_dropWhile).symm

theorem run_text_ne_nil {terminal : Option Terminal} {isPart : CodePoint → Bool} {c : CodePoint}
    {t : Text} (h : isPart c = true) : (run terminal isPart (c :: t)).text ≠ [] := by
  simp [run, h]

/-- A character that begins a name can also go on with one. -/
theorem isNamePart_of_isNameStart {c : CodePoint} (h : c.isNameStart = true) : c.isNamePart = true := by
  cases c with
  | scalar c =>
    simp only [CodePoint.isNameStart, CodePoint.isNamePart, CodePoint.isIn, Bool.or_eq_true] at h ⊢
    rcases h with h | h
    · exact .inl (by simp [Char.isAlphanum, h])
    · exact .inr h
  | surrogate n => simp [CodePoint.isNameStart, CodePoint.isIn] at h

/-- A lexeme is not empty, and with what is left it makes up the text. -/
theorem read?_eq {t : Text} {l : Lexeme} (h : read? t = some l) : t = l.text ++ l.rest ∧ l.text ≠ [] := by
  unfold read? at h
  split at h
  · simp at h
  · next c rest =>
    split at h
    · next hc =>
      obtain rfl := Option.some.inj h
      exact ⟨run_eq _ _ _, run_text_ne_nil (isNamePart_of_isNameStart hc)⟩
    split at h
    · obtain ⟨s, hs, rfl⟩ := Option.map_eq_some_iff.mp h
      exact ⟨by simp [stringTail?_eq hs], by simp⟩
    split at h
    · obtain rfl := Option.some.inj h
      exact ⟨rfl, by simp⟩
    split at h
    · next hc =>
      obtain rfl := Option.some.inj h
      exact ⟨run_eq _ _ _, run_text_ne_nil (by simp [hc.1])⟩
    split at h
    · next hc =>
      obtain rfl := Option.some.inj h
      exact ⟨run_eq _ _ _, run_text_ne_nil hc⟩
    split at h
    · split at h
      · split at h
        · obtain rfl := Option.some.inj h
          exact ⟨rfl, by simp⟩
        · simp at h
      · simp at h
    · obtain ⟨s, _, rfl⟩ := Option.map_eq_some_iff.mp h
      exact ⟨rfl, by simp⟩

/-- What is left is shorter than the text. -/
theorem read?_length {t : Text} {l : Lexeme} (h : read? t = some l) : l.rest.length < t.length := by
  obtain ⟨heq, hne⟩ := read?_eq h
  have hpos := List.length_pos_iff.mpr hne
  rw [heq, List.length_append]
  omega

end Lexeme

/-! ## Scanning -/

/-- A place at which no lexeme begins, with the text from there on. -/
structure LexicalFault where
  position : Position
  rest : Text
deriving DecidableEq, Repr

/-- The tokens of a text, and the place at which the scan stopped if that is not its end. -/
structure Scan where
  tokens : List Token
  fault : Option LexicalFault
deriving DecidableEq, Repr

namespace Scan

/-- The scan with one more token in front; layout gives none. -/
def push (lexeme : Lexeme) (position : Position) (scan : Scan) : Scan :=
  match lexeme.terminal with
  | none => scan
  | some terminal => { scan with tokens := ⟨terminal, lexeme.text, position⟩ :: scan.tokens }

end Scan

/-- The tokens of a text that begins at `position`. -/
def scanFrom (position : Position) (t : Text) : Scan :=
  if t = [] then ⟨[], none⟩
  else
    match _h : Lexeme.read? t with
    | none => ⟨[], some ⟨position, t⟩⟩
    | some lexeme => (scanFrom (position.advance lexeme.text) lexeme.rest).push lexeme position
termination_by t.length
decreasing_by exact Lexeme.read?_length _h

/-- The tokens of a text. -/
def scan (t : Text) : Scan := scanFrom .start t

/-! ## Messages -/

/-- How many columns a text takes: a tab goes on to the next multiple of eight, and `\r` starts the count of
columns anew without taking back what was counted. -/
def columns (t : Text) : Nat :=
  (t.foldl (fun (column, total) c =>
    if c = .scalar '\t' then
      let width := 8 - column % 8
      (column + width, total + width)
    else if c = .scalar '\r' then (0, total + 1)
    else (column + 1, total + 1)) (0, 0)).2

namespace LexicalFault

/-- How many characters on each side of a fault a message shows. -/
def reach : Nat := 40

/-- The terminals that a scan can find. -/
def expected : List Terminal :=
  [.atSign, .colon, .comma, .ellipsis, .equals, .int, .lbrace, .lparen, .name, .rbrace, .rparen, .semicolon,
    .slash, .string, .bar]

/-- What stands before the fault on its line, within reach. -/
def before (source : Text) (f : LexicalFault) : Text :=
  let scanned := source.take (source.length - f.rest.length)
  ((scanned.reverse.take reach).takeWhile (· ≠ .scalar '\n')).reverse

/-- What stands on the line of the fault from there on, within reach. -/
def after (f : LexicalFault) : Text := (f.rest.take reach).takeWhile (· ≠ .scalar '\n')

/-- The fault in words: the character, its place in the line, and the last token before it. -/
def message (source : Text) (previous : Option Token) (f : LexicalFault) : Text :=
  "No terminal matches '" ++ f.rest.take 1 ++ "' in the current parser context, at line " ++
    Text.ofNat f.position.line ++ " col " ++ Text.ofNat f.position.column ++ "\n\n" ++
    f.before source ++ f.after ++ "\n" ++
    List.replicate (columns (f.before source)) (CodePoint.scalar ' ') ++ "^\n" ++
    Terminal.expectation expected ++
    match previous with
    | none => []
    | some token => "\n\nPrevious tokens: " ++ token.render

end LexicalFault

end Registrar
