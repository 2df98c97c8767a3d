import Registrar.Text.Decimal

/-!
# String literals

How a text is written as a string literal, and how the text between the quotes of a literal is read.

The two alphabets of escapes are not the same. Writing uses `\b` and `\f`, which reading refuses; reading
also takes `\0`, `\'` and `\xHH`, which writing never uses. So a written literal reads back exactly if its
text has neither U+0008 nor U+000C.
-/

namespace Registrar.Literal

/-! ## Writing -/

/-- A code point inside a literal: the quote, the backslash and the controls below U+0020 are escaped. -/
def encodePoint (c : CodePoint) : Text :=
  if c = .scalar '"' then "\\\""
  else if c = .scalar '\\' then "\\\\"
  else if c = .scalar '\n' then "\\n"
  else if c = .scalar '\r' then "\\r"
  else if c = .scalar '\t' then "\\t"
  else if c = .scalar '\x0c' then "\\f"
  else if c = .scalar '\x08' then "\\b"
  else if c.toNat < 0x20 then "\\u" ++ Text.hex 4 c.toNat
  else [c]

/-- A text as a string literal, quotes included. -/
def encode (t : Text) : Text :=
  .scalar '"' :: t.flatMap encodePoint ++ [.scalar '"']

/-! ## Reading -/

/-- What an escape of one letter stands for. -/
def simpleEscape? : CodePoint → Option CodePoint
  | .scalar 'n' => some (.scalar '\n')
  | .scalar 't' => some (.scalar '\t')
  | .scalar 'r' => some (.scalar '\r')
  | .scalar '0' => some (.scalar '\x00')
  | .scalar '\\' => some (.scalar '\\')
  | .scalar '"' => some (.scalar '"')
  | .scalar '\'' => some (.scalar '\'')
  | _ => none

/-- The text that the inside of a literal stands for; otherwise the code point after a backslash that is no
escape. A hexadecimal escape with too few digits is the fault of its letter, and a backslash at the very end
stands for itself. -/
def decode : Text → Except CodePoint Text
  | [] => .ok []
  | c :: rest =>
    if c = .scalar '\\' then
      match rest with
      | [] => .ok [c]
      | letter :: more =>
        if letter = .scalar 'x' then
          match more with
          | d₁ :: d₀ :: after =>
            match Text.hexValue? [d₁, d₀] with
            | some n => (decode after).map (CodePoint.ofNat n :: ·)
            | none => .error letter
          | _ => .error letter
        else if letter = .scalar 'u' then
          match more with
          | d₃ :: d₂ :: d₁ :: d₀ :: after =>
            match Text.hexValue? [d₃, d₂, d₁, d₀] with
            | some n => (decode after).map (CodePoint.ofNat n :: ·)
            | none => .error letter
          | _ => .error letter
        else
          match simpleEscape? letter with
          | some value => (decode more).map (value :: ·)
          | none => .error letter
    else (decode rest).map (c :: ·)

end Registrar.Literal
