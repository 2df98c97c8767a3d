import Registrar.Text.Quoted

/-!
# Paths

A path is a way of starting and a row of names. Empty names and `.` say nothing and are left out when a path is
read; `..` stays, since what it means depends on the files. A path that starts with exactly two slashes keeps
both; any other number of them counts as one.
-/

namespace Registrar

/-- Where a path starts. -/
inductive Anchor where
  /-- At the current directory. -/
  | current
  /-- At the root. -/
  | root
  /-- At the root, written with two slashes. -/
  | doubleRoot
deriving DecidableEq, Repr, Inhabited

/-- The anchor as it is written. -/
def Anchor.render : Anchor → Text
  | .current => []
  | .root => "/"
  | .doubleRoot => "//"

/-- A path. -/
structure Path where
  anchor : Anchor
  names : List Text
deriving DecidableEq, Repr, Inhabited

namespace Path

/-! ## Reading and writing -/

/-- The slash that stands between names. -/
def slash : CodePoint := .scalar '/'

/-- How a text starts as a path. -/
def anchorOf (t : Text) : Anchor :=
  match (t.takeWhile (· = slash)).length with
  | 0 => .current
  | 2 => .doubleRoot
  | _ => .root

/-- Whether a name says something. -/
def isName (name : Text) : Bool := name ≠ [] && name ≠ ("." : Text)

/-- The path of a text. -/
def parse (t : Text) : Path :=
  { anchor := anchorOf t, names := (t.splitOn slash).filter isName }

/-- The path as a text; the current directory is `.`. -/
def render (p : Path) : Text :=
  match p.anchor, p.names with
  | .current, [] => "."
  | anchor, names => anchor.render ++ List.intercalate [slash] names

/-- Whether the path starts at the root. -/
def isAbsolute (p : Path) : Bool := p.anchor ≠ .current

/-- The path seen from a directory. -/
def under (p directory : Path) : Path :=
  if p.isAbsolute then p else { directory with names := directory.names ++ p.names }

/-- The path without its last name. -/
def parent (p : Path) : Path := { p with names := p.names.dropLast }

/-! ## Names and suffixes -/

/-- The last name; empty if there is none. -/
def name (p : Path) : Text := p.names.getLast?.getD []

/-- A name as stem and suffix. The suffix starts with the last dot of the name, if that dot is neither its first
nor its last code point; otherwise it is empty. -/
def splitSuffix (name : Text) : Text × Text :=
  let dot : CodePoint := .scalar '.'
  let ending := (name.reverse.takeWhile (· ≠ dot)).reverse
  let before := name.take (name.length - ending.length - 1)
  if ending = [] ∨ before = [] ∨ ending.length = name.length then (name, [])
  else (before, dot :: ending)

/-- The last name without its suffix. -/
def stem (p : Path) : Text := (splitSuffix p.name).1

/-- Why a path cannot get a suffix. -/
inductive SuffixFault where
  | invalid (suffix : Text)
  | emptyName (path : Path)
deriving DecidableEq, Repr

/-- The fault in words. -/
def SuffixFault.message : SuffixFault → Text
  | .invalid suffix => "Invalid suffix " ++ suffix.cited
  | .emptyName path => "PosixPath(" ++ path.render.cited ++ ") has an empty name"

/-- Whether a text may be a suffix: it is empty, or a dot and something more, without slashes. -/
def isSuffix (suffix : Text) : Bool :=
  !suffix.contains slash && (suffix = [] || (suffix.startsWith "." && suffix ≠ ("." : Text)))

/-- The path with another suffix in the place of the one that it has. -/
def withSuffix (suffix : Text) (p : Path) : Except SuffixFault Path :=
  if isSuffix suffix = false then .error (.invalid suffix)
  else if p.name = [] then .error (.emptyName p)
  else .ok { p with names := p.names.dropLast ++ [(splitSuffix p.name).1 ++ suffix] }

end Path

end Registrar
