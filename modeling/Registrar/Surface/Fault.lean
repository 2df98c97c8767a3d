import Registrar.Diagnostic
import Registrar.Token.Lexer

/-!
# What can be wrong with the text of a module

Everything but one is a fault of the source, with a place and a message. The exception is an integer literal
beyond `integerLimit` digits: that is not reported but ends the work.
-/

namespace Registrar.Surface

/-- A fault of the source. -/
inductive SourceFault where
  /-- No token begins here. The token before is the last that was read. -/
  | lexical (source : Text) (previous : Option Token) (fault : LexicalFault)
  /-- A token, or the end of the text, that cannot stand here. -/
  | unexpected (found : Token) (expected : List Terminal)
  /-- A backslash before something that is no escape. -/
  | badEscape (c : CodePoint) (position : Position)
  | restNotLast (name : Text) (position : Position)
  | requiredAfterDefaultable (name : Text) (position : Position)
deriving DecidableEq, Repr

namespace SourceFault

/-- Where the fault is. -/
def position : SourceFault → Position
  | .lexical _ _ fault => fault.position
  | .unexpected found _ => found.position
  | .badEscape _ p => p
  | .restNotLast _ p => p
  | .requiredAfterDefaultable _ p => p

/-- The fault in words. -/
def message : SourceFault → Text
  | .lexical source previous fault => fault.message source previous
  | .unexpected found expected =>
    "Unexpected token " ++ found.render ++ " at line " ++ Text.ofNat found.position.line ++ ", column " ++
      Text.ofNat found.position.column ++ ".\n" ++ Terminal.expectation expected
  | .badEscape c _ => "invalid escape sequence '\\" ++ [c] ++ "' in string literal"
  | .restNotLast name _ => "rest parameter '" ++ name ++ "' must be the last parameter"
  | .requiredAfterDefaultable name _ =>
    "required parameter '" ++ name ++ "' cannot follow a defaultable parameter"

/-- The phase that reports these faults. -/
def phase : Text := "parser"

/-- The fault as a diagnostic for a file. -/
def diagnostic (file : Option Text) (f : SourceFault) : Diagnostic :=
  { message := f.message, phase := some phase, span := .ofPosition file f.position }

end SourceFault

/-- How many digits an integer literal may have, leading zeros included. -/
def integerLimit : Nat := 4300

/-- Why a text is no module. -/
inductive ReadError where
  | fault (f : SourceFault)
  /-- An integer literal with this many digits. -/
  | integerTooLong (digits : Nat)
deriving DecidableEq, Repr

/-- The words for an integer literal that is too long. -/
def integerTooLongMessage (digits : Nat) : Text :=
  "Exceeds the limit (" ++ Text.ofNat integerLimit ++
    " digits) for integer string conversion: value has " ++ Text.ofNat digits ++
    " digits; use sys.set_int_max_str_digits() to increase the limit"

end Registrar.Surface
