import Registrar.Text.Utf8

/-!
# File names

To a system the name of a file is a row of bytes, which need not be UTF-8. So that a text can say every name, a byte that
belongs to no character is said by a surrogate, one of U+DC80 to U+DCFF. The other surrogates say nothing, and a text that
holds one of them names no file.

`decode` ends because every character takes at least its first byte off the name.
-/

namespace Registrar

/-- The name of a file, as the system has it. -/
abbrev FileName := Utf8.Bytes

namespace FileName

/-- The byte that a surrogate says. -/
def escaped? : CodePoint → Option UInt8
  | .scalar _ => none
  | .surrogate n => if 0x480 ≤ n.val ∧ n.val < 0x500 then some (UInt8.ofNat (n.val - 0x400)) else none

/-- The surrogate that says a byte. -/
def escape (b : UInt8) : CodePoint := .ofNat (0xDC00 + b.toNat)

/-- Whether the code point is a surrogate that says nothing. -/
def isUnsaid (c : CodePoint) : Bool := c.isSurrogate && (escaped? c).isNone

/-- The bytes that a code point says. -/
def encodePoint (c : CodePoint) : Utf8.Bytes := ((escaped? c).map ([·])).getD (Utf8.encodePoint c)

/-- The name that a text says, with what says nothing left out. -/
def ofText (t : Text) : FileName := t.flatMap encodePoint

/-- The name that a text says. -/
def encode (t : Text) : Except Utf8.EncodeFault FileName :=
  match Utf8.surrogates? isUnsaid 0 t with
  | some fault => .error fault
  | none => .ok (ofText t)

/-- The text that says a name. -/
def decode : FileName → Text
  | [] => []
  | b :: rest =>
    match Utf8.readChar b rest with
    | .error _ => escape b :: decode rest
    | .ok (c, more) => .scalar c :: decode (rest.drop more)
termination_by name => name.length
decreasing_by
  · simp
  · simp only [List.length_drop, List.length_cons]; omega

end FileName

end Registrar
