import Registrar.Text.Quoted
import Registrar.Text.Utf8

/-!
# File errors

Why files cannot be read or written. Most errors are refusals of the system, which have a number and a text of
their own and name the path, if there is one. Apart from these, a path may hold a zero, which no system accepts, and
a path or a text may hold surrogates that have no encoding.
-/

namespace Registrar

/-- Why the system refuses. -/
inductive Refusal where
  | notFound
  | alreadyExists
  | notDirectory
  | isDirectory
  | nameTooLong
  /-- Any other refusal, with its number and text. -/
  | other (number : Nat) (description : Text)
deriving DecidableEq, Repr, Inhabited

namespace Refusal

/-- The number of a refusal. -/
def number : Refusal → Nat
  | .notFound => 2
  | .alreadyExists => 17
  | .notDirectory => 20
  | .isDirectory => 21
  | .nameTooLong => 36
  | .other number _ => number

/-- The refusal in words. -/
def description : Refusal → Text
  | .notFound => "No such file or directory"
  | .alreadyExists => "File exists"
  | .notDirectory => "Not a directory"
  | .isDirectory => "Is a directory"
  | .nameTooLong => "File name too long"
  | .other _ description => description

/-- The number of a refusal and the refusal in words. -/
def message (r : Refusal) : Text := "[Errno " ++ Text.ofNat r.number ++ "] " ++ r.description

/-- Whether the refusal only says that there is no such file. -/
def isAbsence : Refusal → Bool
  | .notFound | .notDirectory => true
  | _ => false

end Refusal

/-- Why a file cannot be read or written. -/
inductive FileError where
  | refused (refusal : Refusal) (path : Text)
  /-- The system does not say which the current directory is. -/
  | noCurrent (refusal : Refusal)
  /-- The path holds a zero. -/
  | zeroInPath
  | unencodable (fault : Utf8.EncodeFault)
deriving DecidableEq, Repr

/-- The error in words. -/
def FileError.message : FileError → Text
  | .refused refusal path => refusal.message ++ ": " ++ path.cited
  | .noCurrent refusal => refusal.message
  | .zeroInPath => "embedded null byte"
  | .unencodable fault => fault.message

end Registrar
