import Registrar.Text.Decimal

/-!
# JSON

Values of JSON and their text on one line: `, ` stands between elements and `: ` behind keys, and all that is
not printable ASCII is written as an escape. A code point beyond U+FFFF takes the escapes of its two surrogates,
a lone surrogate its own.
-/

namespace Registrar

/-- A value of JSON. The fields of an object have an order. -/
inductive JsonValue where
  | null
  | int (n : Int)
  | str (t : Text)
  | arr (items : List JsonValue)
  | obj (fields : List (Text × JsonValue))
deriving Repr, Inhabited

namespace JsonValue

/-- The escape of a number below `0x10000`. -/
def unitEscape (n : Nat) : Text := "\\u" ++ Text.hex 4 n

/-- A code point inside a string. -/
def escape (c : CodePoint) : Text :=
  let n := c.toNat
  if c = .scalar '"' then "\\\""
  else if c = .scalar '\\' then "\\\\"
  else if c = .scalar '\n' then "\\n"
  else if c = .scalar '\r' then "\\r"
  else if c = .scalar '\t' then "\\t"
  else if n = 0x0C then "\\f"
  else if n = 0x08 then "\\b"
  else if 0x20 ≤ n ∧ n ≤ 0x7E then [c]
  else if n ≤ 0xFFFF then unitEscape n
  else unitEscape (0xD800 + (n - 0x10000) / 0x400) ++ unitEscape (0xDC00 + (n - 0x10000) % 0x400)

/-- A string in its quotes. -/
def renderString (t : Text) : Text := "\"" ++ t.flatMap escape ++ "\""

mutual
/-- The text of a value. -/
def render : JsonValue → Text
  | .null => "null"
  | .int n => Text.ofInt n
  | .str t => renderString t
  | .arr items => "[" ++ List.intercalate (", " : Text) (renderAll items) ++ "]"
  | .obj fields => "\x7b" ++ List.intercalate (", " : Text) (renderFields fields) ++ "\x7d"

/-- The texts of some values. -/
def renderAll : List JsonValue → List Text
  | [] => []
  | v :: vs => render v :: renderAll vs

/-- The texts of some fields. -/
def renderFields : List (Text × JsonValue) → List Text
  | [] => []
  | (key, v) :: fields => (renderString key ++ ": " ++ render v) :: renderFields fields
end

/-- A value that may be missing. -/
def ofOption {α : Type} (f : α → JsonValue) : Option α → JsonValue
  | none => .null
  | some a => f a

end JsonValue

end Registrar
