/-!
# Code points and text

A text is a list of Unicode code points. Lone surrogates are allowed: an escape in a string literal can
name one, and it then travels through values, printed units and, when a printed unit is read again, source
text. Hence `Char`, which has no surrogates, is not enough.

## Contents

* `CodePoint` — a scalar value (a `Char`) or one of the 2048 surrogates
* `Text` — a list of code points, with a coercion from `String`
* `Text.splitOn`, `Text.startsWith` — the few list functions that core does not have
-/

namespace Registrar

/-- A Unicode code point: a scalar value or a surrogate. -/
inductive CodePoint where
  | scalar (c : Char)
  /-- The surrogate `U+D800 + n`. -/
  | surrogate (n : Fin 0x800)
deriving DecidableEq, Repr, Inhabited

namespace CodePoint

instance : Coe Char CodePoint := ⟨.scalar⟩

/-- The number of a code point, below `0x110000`. -/
def toNat : CodePoint → Nat
  | .scalar c => c.toNat
  | .surrogate n => 0xD800 + n.val

/-- The code point of a number; beyond `0x10FFFF` there is none, and the result is U+0000. -/
def ofNat (n : Nat) : CodePoint :=
  if h : n - 0xD800 < 0x800 ∧ 0xD800 ≤ n then .surrogate ⟨n - 0xD800, h.1⟩ else .scalar (Char.ofNat n)

/-- Whether this is no scalar value. -/
def isSurrogate : CodePoint → Bool
  | .scalar _ => false
  | .surrogate _ => true

/-- Whether the code point is a character of a class. -/
def isIn (p : Char → Bool) : CodePoint → Bool
  | .scalar c => p c
  | .surrogate _ => false

end CodePoint

/-- A sequence of code points. -/
abbrev Text := List CodePoint

namespace Text

/-- The code points of a string. -/
def ofString (s : String) : Text := s.toList.map .scalar

instance : Coe String Text := ⟨ofString⟩

/-- The characters of a text, if it has no surrogates. -/
def chars? : Text → Option (List Char)
  | [] => some []
  | .scalar c :: rest => (chars? rest).map (c :: ·)
  | .surrogate _ :: _ => none

/-- The text as a string, if it has no surrogates. -/
def toString? (t : Text) : Option String := t.chars?.map String.ofList

/-- The characters of a text, surrogates left out. -/
def scalars : Text → List Char :=
  List.filterMap fun
    | .scalar c => some c
    | .surrogate _ => none

/-- The pieces between the occurrences of `sep`: always one more than there are occurrences. -/
def splitOn (sep : CodePoint) : Text → List Text
  | [] => [[]]
  | c :: rest =>
    if c = sep then [] :: splitOn sep rest
    else match splitOn sep rest with
      | [] => [[c]]
      | piece :: pieces => (c :: piece) :: pieces

/-- What follows `start` in the text, if the text starts with it. -/
def dropStart? : Text → Text → Option Text
  | t, [] => some t
  | [], _ :: _ => none
  | c :: t, d :: start => if c = d then dropStart? t start else none

/-- Whether the text starts with `start`. -/
def startsWith (t start : Text) : Bool := (t.dropStart? start).isSome

/-- The text up to the first `sep`, and what follows that one; `none` without a `sep`. -/
def cut? (sep : CodePoint) : Text → Option (Text × Text)
  | [] => none
  | c :: rest =>
    if c = sep then some ([], rest) else (cut? sep rest).map fun (before, after) => (c :: before, after)

/-- `n` copies of a code point. -/
def replicate (n : Nat) (c : CodePoint) : Text := List.replicate n c

end Text

end Registrar
