import Registrar.Text.CodePoint

/-!
# Numbers as text

Decimal numerals without leading zeros, lower-case hexadecimal of a fixed width, and the readers of both.
Only the ASCII digits count.
-/

namespace Registrar

/-! ## Digits -/

namespace CodePoint

/-- One of `0`-`9`. -/
def isDigit : CodePoint → Bool := isIn Char.isDigit

/-- The value of a hexadecimal digit of either case. -/
def hexValue? : CodePoint → Option Nat
  | .scalar c =>
    let n := c.toNat
    if 0x30 ≤ n && n ≤ 0x39 then some (n - 0x30)
    else if 0x61 ≤ n && n ≤ 0x66 then some (n - 0x61 + 10)
    else if 0x41 ≤ n && n ≤ 0x46 then some (n - 0x41 + 10)
    else none
  | .surrogate _ => none

end CodePoint

namespace Text

/-! ## Writing -/

/-- The decimal numeral of a natural number. -/
def ofNat (n : Nat) : Text := (Nat.toDigits 10 n).map .scalar

/-- The decimal numeral of an integer, with `-` in front of a negative one. -/
def ofInt : Int → Text
  | .ofNat n => ofNat n
  | .negSucc n => .scalar '-' :: ofNat (n + 1)

/-- The last `width` hexadecimal digits of a number, in lower case. -/
def hex : (width : Nat) → Nat → Text
  | 0, _ => []
  | width + 1, n => hex width (n / 16) ++ [.scalar (Nat.digitChar (n % 16))]

/-! ## Reading -/

/-- The value of a row of decimal digits. -/
def decimalValue (digits : Text) : Nat := Nat.ofDigitChars 10 digits.scalars 0

/-- The value of a row of hexadecimal digits; `none` if one of them is no such digit. -/
def hexValue? (digits : Text) : Option Nat :=
  digits.foldlM (fun acc c => c.hexValue?.map (16 * acc + ·)) 0

end Text

end Registrar
