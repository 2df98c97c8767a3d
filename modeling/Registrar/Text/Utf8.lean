import Registrar.Text.Decimal

/-!
# UTF-8

Reading bytes as text and writing text as bytes. Both refuse what is not UTF-8 and say where and why: a
reader names the bytes that begin no character, a writer the surrogates, which have no encoding.

`decodeFrom` ends because every character takes at least its first byte off the input.
-/

namespace Registrar.Utf8

/-- A sequence of bytes. -/
abbrev Bytes := List UInt8

/-! ## Reading -/

/-- Why bytes cannot be read. -/
inductive Reason where
  | startByte
  | continuationByte
  | endOfData
deriving DecidableEq, Repr

/-- Bytes that cannot be read: where they begin, the first of them, how many they are, and why. -/
structure DecodeFault where
  start : Nat
  byte : UInt8
  count : Nat
  reason : Reason
deriving DecidableEq, Repr

/-- What the first byte of a character of several bytes says: its part of the number, how many bytes follow,
and the bounds of the next one. -/
structure Lead where
  bits : Nat
  tails : Nat
  low : Nat
  high : Nat

/-- The meaning of a first byte; `none` if no character of several bytes starts with it. -/
def lead? (b : Nat) : Option Lead :=
  if 0xC2 ≤ b ∧ b ≤ 0xDF then some ⟨b - 0xC0, 1, 0x80, 0xBF⟩
  else if b = 0xE0 then some ⟨0, 2, 0xA0, 0xBF⟩
  else if b = 0xED then some ⟨0xD, 2, 0x80, 0x9F⟩
  else if 0xE1 ≤ b ∧ b ≤ 0xEF then some ⟨b - 0xE0, 2, 0x80, 0xBF⟩
  else if b = 0xF0 then some ⟨0, 3, 0x90, 0xBF⟩
  else if b = 0xF4 then some ⟨4, 3, 0x80, 0x8F⟩
  else if 0xF1 ≤ b ∧ b ≤ 0xF3 then some ⟨b - 0xF0, 3, 0x80, 0xBF⟩
  else none

/-- Reads the remaining bytes of a character, of which some bytes have been read: the number, or how many bytes were good
and why the next one was not. -/
def tails (low high acc read : Nat) : (count : Nat) → Bytes → Except (Nat × Reason) Nat
  | 0, _ => .ok acc
  | _ + 1, [] => .error (read, .endOfData)
  | count + 1, b :: rest =>
    if low ≤ b.toNat ∧ b.toNat ≤ high then
      tails 0x80 0xBF (64 * acc + (b.toNat - 0x80)) (read + 1) count rest
    else .error (read, .continuationByte)

/-- Reads the character that starts with a byte: the character and how many more bytes it takes, or how many bytes were
good and why the next one was not. -/
def readChar (b : UInt8) (rest : Bytes) : Except (Nat × Reason) (Char × Nat) :=
  if b.toNat < 0x80 then .ok (Char.ofNat b.toNat, 0)
  else
    match lead? b.toNat with
    | none => .error (1, .startByte)
    | some lead => (tails lead.low lead.high lead.bits 1 lead.tails rest).map fun n => (Char.ofNat n, lead.tails)

/-- The text of the bytes, of which the first stands at `position`. -/
def decodeFrom (position : Nat) : Bytes → Except DecodeFault Text
  | [] => .ok []
  | b :: rest =>
    match readChar b rest with
    | .error (count, reason) => .error ⟨position, b, count, reason⟩
    | .ok (c, more) => (decodeFrom (position + 1 + more) (rest.drop more)).map (.scalar c :: ·)
termination_by bytes => bytes.length
decreasing_by
  simp only [List.length_drop, List.length_cons]; omega

/-- The text of a sequence of bytes. -/
def decode (bytes : Bytes) : Except DecodeFault Text := decodeFrom 0 bytes

/-! ## Writing -/

/-- Surrogates that cannot be written: where they begin, the first of them, and how many stand together. -/
structure EncodeFault where
  start : Nat
  point : CodePoint
  count : Nat
deriving DecidableEq, Repr

/-- The bytes of a code point; a surrogate has none. -/
def encodePoint : CodePoint → Bytes
  | .scalar c => String.utf8EncodeChar c
  | .surrogate _ => []

/-- The first of the surrogates that have no encoding, with those behind it, in a text of which the first code point
stands at `position`. -/
def surrogates? (unwritten : CodePoint → Bool) (position : Nat) : Text → Option EncodeFault
  | [] => none
  | c :: rest =>
    if unwritten c then some ⟨position, c, 1 + (rest.takeWhile CodePoint.isSurrogate).length⟩
    else surrogates? unwritten (position + 1) rest

/-- The bytes of a text. -/
def encode (t : Text) : Except EncodeFault Bytes :=
  match surrogates? CodePoint.isSurrogate 0 t with
  | some fault => .error fault
  | none => .ok (t.flatMap encodePoint)

/-! ## Messages -/

/-- The reason in words. -/
def Reason.message : Reason → Text
  | .startByte => "invalid start byte"
  | .continuationByte => "invalid continuation byte"
  | .endOfData => "unexpected end of data"

/-- A position, or the first and the last of several. -/
def positions (start count : Nat) : Text :=
  if count = 1 then Text.ofNat start else Text.ofNat start ++ "-" ++ Text.ofNat (start + count - 1)

/-- The fault in words. -/
def DecodeFault.message (f : DecodeFault) : Text :=
  let what : Text := if f.count = 1 then "byte 0x" ++ Text.hex 2 f.byte.toNat else "bytes"
  "'utf-8' codec can't decode " ++ what ++ " in position " ++ positions f.start f.count ++ ": " ++
    f.reason.message

/-- The fault in words. -/
def EncodeFault.message (f : EncodeFault) : Text :=
  let what : Text :=
    if f.count = 1 then "character '\\u" ++ Text.hex 4 f.point.toNat ++ "'" else "characters"
  "'utf-8' codec can't encode " ++ what ++ " in position " ++ positions f.start f.count ++
    ": surrogates not allowed"

/-! ## Line ends -/

/-- The text with every `\r\n` and every other `\r` as one `\n`. -/
def unifyLineEnds : Text → Text
  | .scalar '\r' :: .scalar '\n' :: rest => .scalar '\n' :: unifyLineEnds rest
  | .scalar '\r' :: rest => .scalar '\n' :: unifyLineEnds rest
  | c :: rest => c :: unifyLineEnds rest
  | [] => []

end Registrar.Utf8
