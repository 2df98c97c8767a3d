import Registrar.Command.Run

/-!
# The program

The command on real files. What the system says when it refuses becomes a `Refusal`; all else is decided by
`Command.run`.
-/

namespace Registrar.Program

/-- The number and the text of an error of the system. -/
def codeOf : IO.Error → Nat × String
  | .alreadyExists _ code details | .noFileOrDirectory _ code details | .invalidArgument _ code details
  | .permissionDenied _ code details | .resourceExhausted _ code details | .inappropriateType _ code details
  | .noSuchThing _ code details | .interrupted _ code details | .otherError code details
  | .resourceBusy code details | .resourceVanished code details | .unsupportedOperation code details
  | .hardwareFault code details | .unsatisfiedConstraints code details | .illegalOperation code details
  | .protocolError code details | .timeExpired code details => (code.toNat, details)
  | .unexpectedEof => (0, "end of file")
  | .userError details => (0, details)

/-- The refusal that an error of the system means. Some operations give the number negated, in 32 bits. -/
def refusalOf (error : IO.Error) : Refusal :=
  let (code, details) := codeOf error
  let number := if code < 0x80000000 then code else 0x100000000 - code
  let known : List Refusal := [.notFound, .alreadyExists, .notDirectory, .isDirectory, .nameTooLong]
  (known.find? (·.number == number)).getD (.other number details)

/-- Work that the system may refuse. -/
def ask {α : Type} (refused : Refusal → FileError) (work : IO α) : ExceptT FileError IO α := ExceptT.mk do
  match ← work.toBaseIO with
  | .ok a => return .ok a
  | .error error => return .error (refused (refusalOf error))

/-- Work on the file of a path. A name that is not UTF-8 cannot be given to the system, and is not found. -/
def access {α : Type} (p : Path) (work : String → IO α) : ExceptT FileError IO α :=
  match p.untaken?, String.fromUTF8? ⟨(FileName.ofText p.render).toArray⟩ with
  | some error, _ => throw error
  | none, none => throw (.refused .notFound p.render)
  | none, some name => ask (.refused · p.render) (work name)

/-- Writes a text to a file that is opened in some mode. The file is opened before the text is looked at. -/
def writeIn (mode : IO.FS.Mode) (p : Path) (text : Text) : ExceptT FileError IO Unit := do
  access p fun name => IO.FS.withFile name mode fun _ => return
  let bytes ← ofExcept ((Utf8.encode text).mapError FileError.unencodable)
  access p fun name => IO.FS.withFile name .append fun file => file.write ⟨bytes.toArray⟩

/-- The file system of the machine. -/
def system : FileSystem IO where
  currentDirectory := ask .noCurrent do return .parse (← IO.currentDir).toString
  -- a name from the root does not depend on what it is joined to
  isDirectory p := access p fun name => return (← ((← IO.currentDir <|> IO.appPath) / name).metadata).type == .dir
  read p := access p fun name => return (← IO.FS.readBinFile name).toList
  makeDirectory p := access p fun name => IO.FS.createDir name
  append := writeIn .append
  write := writeIn .write

/-- Prints a text that has an encoding. -/
def print (stream : IO.FS.Stream) (t : Text) : IO Unit :=
  match t.toString? with
  | some s => stream.putStr s
  | none => return

end Registrar.Program

open Registrar in
/-- Carries out the command line. A build that ends without a report has exit code 1. -/
def main (args : List String) : IO UInt32 := do
  let outcome ← Command.run Program.system (args.map Text.ofString)
  Program.print (← IO.getStdout) outcome.printed.out
  Program.print (← IO.getStderr) outcome.printed.err
  match outcome.exit with
  | .ok code => return code.toUInt32
  | .error crash =>
    Program.print (← IO.getStderr) (crash.message ++ "\n")
    return 1
