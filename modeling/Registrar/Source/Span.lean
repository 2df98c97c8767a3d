import Registrar.Text.Decimal

/-!
# Positions and spans

A position counts lines and columns from one; only `\n` ends a line. A span says where in which file
something stands, as far as that is known.
-/

namespace Registrar

/-! ## Positions -/

/-- A line and a column of a text, both counted from one. -/
structure Position where
  line : Nat
  column : Nat
deriving DecidableEq, Repr, Inhabited

namespace Position

/-- Where every text begins. -/
def start : Position := ⟨1, 1⟩

/-- The position behind a code point that stands here. -/
def step (p : Position) (c : CodePoint) : Position :=
  if c = .scalar '\n' then ⟨p.line + 1, 1⟩ else ⟨p.line, p.column + 1⟩

/-- The position behind a text that starts here. -/
def advance (p : Position) (t : Text) : Position := t.foldl step p

end Position

/-! ## Spans -/

/-- Where something stands, as far as it is known. -/
structure Span where
  file : Option Text := none
  line : Option Int := none
  column : Option Int := none
  endLine : Option Int := none
  endColumn : Option Int := none
deriving DecidableEq, Repr, Inhabited

namespace Span

/-- The span about which nothing is known. -/
def unknown : Span := {}

/-- A position of a file. -/
def ofPosition (file : Option Text) (p : Position) : Span :=
  { file, line := some p.line, column := some p.column }

/-- A location as other tools give it: the file may come under either of two names, and an empty name is
none. -/
structure Location where
  file : Option Text := none
  filename : Option Text := none
  line : Option Int := none
  column : Option Int := none
  endLine : Option Int := none
  endColumn : Option Int := none
deriving DecidableEq, Repr, Inhabited

/-- The span of a foreign location. -/
def ofLocation (loc : Location) : Span :=
  { file := (loc.file.filter (· ≠ [])).or (loc.filename.filter (· ≠ []))
    line := loc.line, column := loc.column, endLine := loc.endLine, endColumn := loc.endColumn }

/-- The span with `file` as its file, unless it has one. -/
def inFile (span : Span) (file : Option Text) : Span :=
  { span with file := span.file.or file }

/-- Whether the line is known. -/
def isKnown (span : Span) : Bool := span.line.isSome

/-- A part of a span that may be unknown. -/
def renderPart : Option Int → Text
  | none => "?"
  | some n => Text.ofInt n

/-- `file:line:column`, with `?` for what is not known. -/
def render (span : Span) : Text :=
  let file : Text := match span.file with
    | none | some [] => "<unknown>"
    | some name => name
  file ++ ":" ++ renderPart span.line ++ ":" ++ renderPart span.column

end Span

end Registrar
