import Registrar.Files.Error
import Registrar.Files.Name
import Registrar.Files.Path

/-!
# File systems

What a program asks of the files: a handful of operations in some monad, so that the same work can be done on
real files and on files that are only a value. What is built from the operations stands below them.

Making a directory with its parents ends because the parent of a path has one name less.
-/

namespace Registrar

/-- Why no system is asked about a path: it holds a surrogate that says nothing, or a zero. -/
def Path.untaken? (p : Path) : Option FileError :=
  match FileName.encode p.render with
  | .error fault => some (.unencodable fault)
  | .ok _ => if .scalar (Char.ofNat 0) ∈ p.render then some .zeroInPath else none

/-- Operations on files. -/
structure FileSystem (m : Type → Type) where
  /-- The directory at which relative paths start. -/
  currentDirectory : ExceptT FileError m Path
  /-- Whether the path leads to a directory; refused if it leads nowhere. -/
  isDirectory : Path → ExceptT FileError m Bool
  /-- The bytes of a file. -/
  read : Path → ExceptT FileError m Utf8.Bytes
  /-- Makes a directory in one that is there. -/
  makeDirectory : Path → ExceptT FileError m Unit
  /-- Writes a text at the end of a file, which is made if it is not there. -/
  append : Path → Text → ExceptT FileError m Unit
  /-- Makes a text the content of a file, which is made if it is not there. -/
  write : Path → Text → ExceptT FileError m Unit

namespace FileSystem

variable {m : Type → Type} [Monad m]

/-- The path seen from the root. The current directory is asked for only if it matters. -/
def absolute (fs : FileSystem m) (p : Path) : ExceptT FileError m Path :=
  if p.isAbsolute then return p else return p.under (← fs.currentDirectory)

/-- Whether a path leads to something. A path that no system accepts leads nowhere. -/
def pathExists (fs : FileSystem m) (p : Path) : ExceptT FileError m Bool :=
  tryCatch (do discard (fs.isDirectory p); return true) fun
    | .refused refusal path => if refusal.isAbsence then return false else throw (.refused refusal path)
    | _ => return false

/-- Whether a path leads to a directory. -/
def isExistingDirectory (fs : FileSystem m) (p : Path) : ExceptT FileError m Bool :=
  tryCatch (fs.isDirectory p) fun
    | .refused refusal path => if refusal.isAbsence then return false else throw (.refused refusal path)
    | _ => return false

/-- What becomes of the failure to make a directory: none if the directory is there. -/
def forgiveExisting (fs : FileSystem m) (p : Path) (error : FileError) : ExceptT FileError m Unit := do
  if ← fs.isExistingDirectory p then return else throw error

/-- Makes a directory, unless it is there, in one that is there. -/
def ensureDirectory (fs : FileSystem m) (p : Path) : ExceptT FileError m Unit :=
  tryCatch (fs.makeDirectory p) fun
    | .refused .notFound path => throw (.refused .notFound path)
    | .refused refusal path => fs.forgiveExisting p (.refused refusal path)
    | error => throw error

/-- Makes a directory, unless it is there, with the directories above it. -/
def ensureDirectories (fs : FileSystem m) (p : Path) : ExceptT FileError m Unit :=
  tryCatch (fs.makeDirectory p) fun
    | .refused .notFound path =>
      if p.names = [] then throw (.refused .notFound path)
      else do
        fs.ensureDirectories p.parent
        fs.ensureDirectory p
    | .refused refusal path => fs.forgiveExisting p (.refused refusal path)
    | error => throw error
termination_by p.names.length
decreasing_by
  have : 0 < p.names.length := List.length_pos_iff.mpr ‹_›
  simp only [Path.parent, List.length_dropLast]; omega

/-- Writes a text at the end of a file. If the path leads nowhere, the directories above it are made first and
the text becomes the content of the file: a directory that is made so may, through `..`, give the path a file to
lead to. -/
def appendEnsuring (fs : FileSystem m) (p : Path) (text : Text) : ExceptT FileError m Unit := do
  if ← fs.pathExists p then fs.append p text
  else
    fs.ensureDirectories p.parent
    fs.write p text

end FileSystem

end Registrar
