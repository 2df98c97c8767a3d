import Registrar.Text.Decimal
import Registrar.Text.Printable

/-!
# Text as messages show it

A message that cites a piece of text puts it in quotes and writes what cannot be seen as escapes, so that
the citation is one line and can be told apart from the words around it.
-/

namespace Registrar

namespace CodePoint

/-- The escape of a code point by its number: as short as the number allows. -/
def numericEscape (c : CodePoint) : Text :=
  let n := c.toNat
  if n ≤ 0xFF then "\\x" ++ Text.hex 2 n
  else if n ≤ 0xFFFF then "\\u" ++ Text.hex 4 n
  else "\\U" ++ Text.hex 8 n

/-- A code point between quotes of the kind `quote`. -/
def cited (quote : Char) (c : CodePoint) : Text :=
  if c = .scalar '\\' ∨ c = .scalar quote then [.scalar '\\', c]
  else if c = .scalar '\n' then "\\n"
  else if c = .scalar '\r' then "\\r"
  else if c = .scalar '\t' then "\\t"
  else if c.isPrintable then [c]
  else c.numericEscape

end CodePoint

namespace Text

/-- The quotes around a citation: double ones only if the text has a single one and no double one. -/
def quoteFor (t : Text) : Char :=
  if .scalar '\'' ∈ t ∧ .scalar '"' ∉ t then '"' else '\''

/-- The text in quotes, on one line, with escapes for what cannot be seen. -/
def cited (t : Text) : Text :=
  let quote := t.quoteFor
  .scalar quote :: t.flatMap (CodePoint.cited quote) ++ [.scalar quote]

end Text

end Registrar
