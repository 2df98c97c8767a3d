import Registrar.Contract
import Registrar.Files.Path
import Registrar.Text.Digits

/-!
# Options

The words of a command line. All words are first told apart: values, options, and the `--` behind which every
word is a value. Then they are taken from left to right. An option may be shortened as long as no other one
starts the same, and its value may be attached to it. With `--` attached it is given without a value, which
takes back the value that was given before.

The loop over the words ends because every step takes at least one of them; `unfold`, which takes apart several
short options behind one dash, ends because the text behind the dash gets shorter.
-/

namespace Registrar.Command

/-! ## The options -/

/-- An option. -/
inductive Flag where
  | help
  | module
  | entryName
  | output
  | printEntry
  | printUnit
  | json
deriving DecidableEq, Repr, Inhabited

namespace Flag

/-- All options. -/
def all : List Flag := [.help, .module, .entryName, .output, .printEntry, .printUnit, .json]

/-- How an option is written. -/
def spellings : Flag → List Text
  | .help => ["-h", "--help"]
  | .module => ["--module"]
  | .entryName => ["--entry-name"]
  | .output => ["-o", "--output"]
  | .printEntry => ["--print-entry"]
  | .printUnit => ["--print-unit"]
  | .json => ["--json"]

/-- Whether a value belongs to the option. -/
def takesValue : Flag → Bool
  | .module | .entryName | .output => true
  | _ => false

/-- The option as messages name it. -/
def title (f : Flag) : Text := List.intercalate ("/" : Text) f.spellings

/-- All spellings with what they mean. -/
def table : List (Text × Flag) := all.flatMap fun f => f.spellings.map fun s => (s, f)

/-- The option of a spelling. -/
def find? (spelling : Text) : Option Flag := table.lookup spelling

end Flag

/-! ## Errors -/

/-- Why a command line is not accepted. -/
inductive UsageError where
  /-- A shortened option that could be one of several. -/
  | ambiguous (word : Text) (candidates : List Text)
  /-- A value for an option that takes none. -/
  | ignoredValue (flag : Flag) (value : Text)
  | missingValue (flag : Flag)
  | badModule (fault : ModuleId.Fault)
  | missingSource
  | unrecognized (words : List Text)
deriving DecidableEq, Repr

/-- The error in words. -/
def UsageError.message : UsageError → Text
  | .ambiguous word candidates =>
    "ambiguous option: " ++ word ++ " could match " ++ List.intercalate (", " : Text) candidates
  | .ignoredValue flag value =>
    "argument " ++ flag.title ++ ": ignored explicit argument " ++ value.cited
  | .missingValue flag => "argument " ++ flag.title ++ ": expected one argument"
  | .badModule fault => "argument " ++ Flag.module.title ++ ": " ++ fault.message
  | .missingSource => "the following arguments are required: source"
  | .unrecognized words => "unrecognized arguments: " ++ List.intercalate (" " : Text) words

/-- Why a command line is not carried out: help was asked for, or it is not accepted. -/
inductive Stop where
  | help
  | usage (error : UsageError)
deriving DecidableEq, Repr

/-! ## Words -/

/-- A word of the command line. -/
inductive Word where
  | value (text : Text)
  /-- The `--` behind which every word is a value. -/
  | separator
  /-- An option with what is attached to it. -/
  | option (spelling : Text) (flag : Flag) (attached : Option Text)
  /-- A word that looks like an option and is none. -/
  | unknown (text : Text)
deriving DecidableEq, Repr, Inhabited

namespace Word

/-- The dash with which options start. -/
def dash : CodePoint := .scalar '-'

/-- The separator as it is written. -/
def separatorText : Text := [dash, dash]

/-- Whether a text is a row of digits. -/
def isDigits (t : Text) : Bool := t ≠ [] && t.all CodePoint.isDecimalDigit

/-- Whether what follows the sign is a number: digits, or a point with digits behind it and perhaps before it.
One line end may follow. -/
def isNumber (t : Text) : Bool :=
  let body : Text := if t.getLast? = some (.scalar '\n') then t.dropLast else t
  isDigits body ||
    match body.cut? (.scalar '.') with
    | none => false
    | some (whole, fraction) => whole.all CodePoint.isDecimalDigit && isDigits fraction

/-- A word that starts with a dash and is no option: a negative number and a word with a blank are values. -/
def ofOther (word : Text) : Word :=
  if isNumber word.tail || word.contains (.scalar ' ') then .value word else .unknown word

/-- The options that a word may mean which starts with two dashes: those that start like it, up to its `=`. -/
def longCandidates (word : Text) : List Word :=
  let (start, attached) : Text × Option Text := match word.cut? (.scalar '=') with
    | none => (word, none)
    | some (before, behind) => (before, some behind)
  (Flag.table.filter fun (s, _) => s.startsWith start).map fun (s, f) => .option s f attached

/-- The options that a word may mean which starts with one dash: its first two code points, with the rest
attached. -/
def shortCandidates (word : Text) : List Word :=
  (Flag.table.filter fun (s, _) => s = word.take 2).map fun (s, f) =>
    .option s f (some (word.drop 2))

/-- The option that a word spells in full, with what follows its `=`. -/
def fullySpelled? (word : Text) : Option Word :=
  match Flag.find? word with
  | some f => some (.option word f none)
  | none => do
    let (before, behind) ← word.cut? (.scalar '=')
    let f ← Flag.find? before
    return .option before f (some behind)

/-- The spelling of an option. -/
def spelling : Word → Text
  | .option s _ _ => s
  | _ => []

/-- What a word is that starts with a dash and has more behind it. -/
def ofDashed (word : Text) : Except UsageError Word :=
  match fullySpelled? word with
  | some w => .ok w
  | none =>
    match if word.startsWith separatorText then longCandidates word else shortCandidates word with
    | [] => .ok (ofOther word)
    | [w] => .ok w
    | candidates => .error (.ambiguous word (candidates.map spelling))

/-- What a word is. A lone dash is a value. -/
def ofText (word : Text) : Except UsageError Word :=
  match word with
  | c :: _ :: _ => if c = dash then ofDashed word else .ok (.value word)
  | _ => .ok (.value word)

/-- What the words are. -/
def ofTexts : List Text → Except UsageError (List Word)
  | [] => .ok []
  | word :: words =>
    if word = separatorText then .ok (.separator :: words.map .value)
    else do
      let first ← ofText word
      let others ← ofTexts words
      return first :: others

end Word

/-! ## Several options in one word -/

/-- An option with the value that is attached to it. -/
structure Asked where
  flag : Flag
  value : Option Text := none
deriving DecidableEq, Repr, Inhabited

/-- What a word asks for that gives an option and attaches a text to it. An option that takes a value takes the
text. Of another one the text must be further short options, of which the last may have a text of its own
attached; it is an error if it is empty, if a code point of it is no short option, or if the option is a long
one. -/
def unfold (flag : Flag) (isLong : Bool) (text : Text) : Except UsageError (List Asked) :=
  if flag.takesValue then .ok [{ flag, value := some text }]
  else
    match text with
    | [] => .error (.ignoredValue flag [])
    | c :: rest =>
      if isLong then .error (.ignoredValue flag text)
      else
        match Flag.find? [Word.dash, c], rest with
        | none, _ => .error (.ignoredValue flag text)
        | some next, [] => .ok [{ flag }, { flag := next }]
        | some next, d :: more => (unfold next false (d :: more)).map ({ flag } :: ·)
termination_by text.length

/-- What an option word asks for. -/
def askedBy (spelling : Text) (flag : Flag) : Option Text → Except UsageError (List Asked)
  | none => .ok [{ flag }]
  | some attached => unfold flag (spelling.startsWith Word.separatorText) attached

/-! ## Settings -/

/-- What a command line says of something. -/
inductive Setting (α : Type) where
  | unset
  /-- An option was given without a value. -/
  | emptied
  | given (value : α)
deriving DecidableEq, Repr, Inhabited

namespace Setting

/-- The value that was given. -/
def value? {α : Type} : Setting α → Option α
  | .given value => some value
  | _ => none

/-- The setting that a text makes: the separator gives no value. -/
def read {α : Type} {ε : Type} (parse : Text → Except ε α) (text : Text) : Except ε (Setting α) :=
  if text = Word.separatorText then .ok .emptied else (parse text).map .given

end Setting

/-- What has been said so far. -/
structure Settings where
  source : Option Path := none
  module : Setting ModuleId := .unset
  entryName : Setting Text := .unset
  output : Setting Path := .unset
  printEntry : Bool := false
  printUnit : Bool := false
  json : Bool := false
  /-- The words that could not be used. -/
  extras : List Text := []
deriving DecidableEq, Repr, Inhabited

/-- What a command line asks for. -/
structure Options where
  source : Path
  module : Setting ModuleId := .unset
  entryName : Setting Text := .unset
  output : Setting Path := .unset
  printEntry : Bool := false
  printUnit : Bool := false
  json : Bool := false
deriving DecidableEq, Repr, Inhabited

namespace Settings

/-- The settings after an option. -/
def take (s : Settings) (flag : Flag) (value : Text) : Except Stop Settings :=
  match flag with
  | .help => .error .help
  | .module =>
    match Setting.read ModuleId.parse value with
    | .ok module => .ok { s with module }
    | .error fault => .error (.usage (.badModule fault))
  | .entryName => (Setting.read .ok value).map ({ s with entryName := · })
  | .output => (Setting.read (fun text => .ok (.parse text)) value).map ({ s with output := · })
  | .printEntry => .ok { s with printEntry := true }
  | .printUnit => .ok { s with printUnit := true }
  | .json => .ok { s with json := true }

/-- The settings after the options of a word; `next` is the value of one that has none attached. -/
def takeAll (s : Settings) (asked : List Asked) (next : Text) : Except Stop Settings :=
  asked.foldlM (fun s a => s.take a.flag (a.value.getD next)) s

/-- The settings with one more word that cannot be used. -/
def addExtra (s : Settings) (word : Text) : Settings := { s with extras := s.extras ++ [word] }

/-- The option that waits for a value, if the last one does. -/
def waiting? (asked : List Asked) : Option Flag :=
  asked.getLast?.bind fun a => if a.flag.takesValue && a.value.isNone then some a.flag else none

/-- The settings after some words. The first value is the source; the separator right before or behind it goes
with it. -/
def consume (s : Settings) : List Word → Except Stop Settings
  | [] => .ok s
  | .unknown text :: words => (s.addExtra text).consume words
  | .value text :: words =>
    if s.source.isSome then (s.addExtra text).consume words
    else
      let s := { s with source := some (.parse text) }
      match words with
      | .separator :: rest => s.consume rest
      | rest => s.consume rest
  | .separator :: words =>
    match s.source, words with
    | none, .value text :: rest => { s with source := some (.parse text) }.consume rest
    | _, rest => (s.addExtra Word.separatorText).consume rest
  | .option spelling flag attached :: words => do
    let asked ← (askedBy spelling flag attached).mapError .usage
    match waiting? asked with
    | none => (← s.takeAll asked []).consume words
    | some flag =>
      match words with
      | .value text :: rest => (← s.takeAll asked text).consume rest
      | _ => .error (.usage (.missingValue flag))
termination_by words => words.length
decreasing_by all_goals simp only [wfParam, List.length_cons]; omega

/-- What is asked for, if a source is named and every word was used. -/
def finish (s : Settings) : Except Stop Options :=
  match s.source with
  | none => .error (.usage .missingSource)
  | some source =>
    if s.extras = [] then
      .ok { source, module := s.module, entryName := s.entryName, output := s.output
            printEntry := s.printEntry, printUnit := s.printUnit, json := s.json }
    else .error (.usage (.unrecognized s.extras))

end Settings

/-- What a command line asks for. -/
def Options.parse (words : List Text) : Except Stop Options := do
  let words ← (Word.ofTexts words).mapError .usage
  let settings ← ({} : Settings).consume words
  settings.finish

end Registrar.Command
