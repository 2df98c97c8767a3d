import Registrar.Command.Options
import Registrar.Diagnostic
import Registrar.Json
import Registrar.Text.Utf8

/-!
# Reports

What the command prints: usage and help, and the report of a build for a reader or as JSON. Printing means
writing UTF-8, so it stops at the first text that has no encoding; what was printed before stays printed.
-/

namespace Registrar.Command

/-! ## Printing -/

/-- Where a text is printed. -/
inductive Channel where
  | out
  | err
deriving DecidableEq, Repr, Inhabited

/-- A text to be printed, with what ends it. -/
structure Print where
  channel : Channel
  text : Text
  ending : Text := "\n"
deriving DecidableEq, Repr, Inhabited

/-- What was printed on both channels. -/
structure Printed where
  out : Text := []
  err : Text := []
deriving DecidableEq, Repr, Inhabited

namespace Printed

/-- What is printed after one more text. -/
def add (p : Printed) (x : Print) : Printed :=
  match x.channel with
  | .out => { p with out := p.out ++ x.text ++ x.ending }
  | .err => { p with err := p.err ++ x.text ++ x.ending }

/-- What is printed after some texts, and why printing stopped, if it did. -/
def addAll (p : Printed) : List Print → Printed × Option Utf8.EncodeFault
  | [] => (p, none)
  | x :: xs =>
    match Utf8.encode x.text with
    | .ok _ => (p.add x).addAll xs
    | .error fault => (p, some fault)

end Printed

/-! ## Usage -/

/-- How the command is used. -/
def usageText : Text :=
  "usage: lambdagen [-h] [--module MODULE_ID] [--entry-name ENTRY_NAME]\n" ++
  "                 [-o OUTPUT] [--print-entry] [--print-unit] [--json]\n" ++
  "                 source\n"

/-- What the options mean. -/
def helpText : Text :=
  usageText ++
  "\n" ++
  "lambda handler entry-point generator\n" ++
  "\n" ++
  "positional arguments:\n" ++
  "  source                Path to the source file\n" ++
  "\n" ++
  "options:\n" ++
  "  -h, --help            show this help message and exit\n" ++
  "  --module MODULE_ID    Module id of the source as namespace/name (default:\n" ++
  "                        local/<file stem>)\n" ++
  "  --entry-name ENTRY_NAME\n" ++
  "                        Name of the synthesized entry-point function\n" ++
  "  -o OUTPUT, --output OUTPUT\n" ++
  "                        Path of the compiled output; the build trace is\n" ++
  "                        written next to it\n" ++
  "  --print-entry         Print the synthesized entry point\n" ++
  "  --print-unit          Print the whole unit after the handler pass\n" ++
  "  --json                Emit diagnostics as JSON\n" ++
  "                        (phase/message/severity/file/line/column)\n"

/-- What is printed of a command line that is not carried out, and the exit code. -/
def Stop.prints : Stop → Nat × List Print
  | .help => (0, [{ channel := .out, text := helpText, ending := [] }])
  | .usage error =>
    (2, [{ channel := .err, text := usageText ++ "lambdagen: error: " ++ error.message }])

/-! ## Builds -/

/-- The report of a build. -/
structure Report where
  exitCode : Nat
  diagnostics : List Diagnostic := []
  handlers : List Text := []
  /-- The text of the entry point. -/
  entryPoint : Option Text := none
  /-- The text of the unit, if it is to be printed. -/
  unit : Option Text := none
deriving DecidableEq, Repr, Inhabited

/-- A diagnostic as JSON. What names no file is about the source; what names no phase is of the handler pass. -/
def diagnosticJson (source : Text) (d : Diagnostic) : JsonValue :=
  let phase : Text := match d.phase with
    | none | some [] => "handlers"
    | some phase => phase
  .obj [("phase", .str phase), ("message", .str d.message), ("severity", .str d.severity),
    ("file", .str (d.span.file.getD source)), ("line", .ofOption .int d.span.line),
    ("column", .ofOption .int d.span.column), ("notes", .arr (d.notes.map .str))]

namespace Report

/-- The report as JSON. -/
def json (source : Text) (r : Report) : JsonValue :=
  .obj [("exit_code", .int r.exitCode), ("diagnostics", .arr (r.diagnostics.map (diagnosticJson source))),
    ("handlers", .arr (r.handlers.map .str)), ("entry_point", .ofOption .str r.entryPoint)]

/-- The report for a reader: the diagnostics, then the unit or the entry point if it was asked for. -/
def forReader (o : Options) (r : Report) : List Print :=
  let source := o.source.render
  let diagnostics : List Print := r.diagnostics.map fun d =>
    { channel := .err, text := { d with span := d.span.inFile (some source) }.render }
  let result : List Print := match r.unit, r.entryPoint with
    | some unit, _ => [{ channel := .out, text := unit, ending := [] }]
    | none, some entry => if o.printEntry then [{ channel := .out, text := entry }] else []
    | none, none => []
  diagnostics ++ result

/-- What is printed. -/
def prints (o : Options) (r : Report) : List Print :=
  if o.json then [{ channel := .out, text := (r.json o.source.render).render }] else r.forReader o

end Report

/-- What is printed of a failure inside the compiler. -/
def failurePrints (o : Options) (reason : Text) : List Print :=
  let source := o.source.render
  let message : Text := "internal error: " ++ reason
  if o.json then
    let diagnostic := diagnosticJson source { message }
    [{ channel := .out
       text := (JsonValue.obj [("exit_code", .int 2), ("diagnostics", .arr [diagnostic])]).render }]
  else [{ channel := .err, text := source ++ ":?:?: error: " ++ message }]

end Registrar.Command
