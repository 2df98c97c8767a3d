import Registrar.Surface.Fault
import Registrar.Surface.Parse.Items
import Registrar.Text.Literal

/-!
# From text to program

A text is scanned, parsed, and then its literals are read and the order of its parameters is checked.

Of several faults one is reported. A fault of the scanner or the parser comes before all others, and of these
two the one that stands first in the text: the parser sees the tokens before the place at which the scan
stopped. After that the items are taken in order, and in a function the defaults of the parameters from left
to right, the statements, and last the order of the parameters.
-/

namespace Registrar.Surface

/-! ## Scanning and parsing -/

/-- The token at which a parser is stuck. The end of the text counts as a token at the place of the last
one. -/
def Stuck.found (tokens : List Token) (stuck : Stuck) : Token :=
  match stuck.rest with
  | t :: _ => t
  | [] => ⟨.endOfText, [], (tokens.getLast?.map Token.position).getD .start⟩

/-- The items of a text, with literals as they are spelled. -/
def parse (source : Text) : Except SourceFault (List (Item Raw)) :=
  let scanned := scan source
  match items scanned.tokens, scanned.fault with
  | .ok parsed, none => .ok parsed
  | .ok _, some fault => .error (.lexical source scanned.tokens.getLast? fault)
  | .error stuck, some fault =>
    if stuck.rest = [] then .error (.lexical source scanned.tokens.getLast? fault)
    else .error (.unexpected (stuck.found scanned.tokens) stuck.expected)
  | .error stuck, none => .error (.unexpected (stuck.found scanned.tokens) stuck.expected)

/-! ## Literals -/

/-- The value of a literal that stands at `p`. -/
def Raw.value (p : Position) : Raw → Except ReadError Value
  | .nil => .ok .nil
  | .bool b => .ok (.bool b)
  | .int digits =>
    if integerLimit < digits.length then .error (.integerTooLong digits.length)
    else .ok (.int (Text.decimalValue digits))
  | .str spelling =>
    match Literal.decode (spelling.drop 1).dropLast with
    | .ok text => .ok (.str text)
    | .error c => .error (.fault (.badEscape c p))

mutual
/-- The expression with its literals read. -/
def Expr.read : Expr Raw → Except ReadError (Expr Value)
  | .literal raw p => do return .literal (← raw.value p) p
  | .name n => .ok (.name n)
  | .call callee args => do return .call callee (← readAll args)

/-- Expressions with their literals read, from left to right. -/
def Expr.readAll : List (Expr Raw) → Except ReadError (List (Expr Value))
  | [] => .ok []
  | e :: es => do
    let first ← Expr.read e
    let others ← Expr.readAll es
    return first :: others
end

/-- The statement with its literals read. -/
def Stmt.read : Stmt Raw → Except ReadError (Stmt Value)
  | .ret none p => .ok (.ret none p)
  | .ret (some e) p => do return .ret (some (← e.read)) p
  | .expr e p => do return .expr (← e.read) p

/-- The parameter with its literals read. -/
def Param.read (p : Param Raw) : Except ReadError (Param Value) :=
  match p.kind with
  | .required => .ok ⟨p.name, p.position, p.type, .required⟩
  | .rest => .ok ⟨p.name, p.position, p.type, .rest⟩
  | .defaultable e => do return ⟨p.name, p.position, p.type, .defaultable (← e.read)⟩

/-! ## The order of parameters -/

/-- The first parameter that stands in the wrong place: a rest parameter before another one, or a required
one behind a defaultable one. `seen` says that a defaultable one was met. -/
def orderFault? {L : Type} (seen : Bool) : List (Param L) → Option SourceFault
  | [] => none
  | p :: others =>
    match p.kind with
    | .required =>
      if seen then some (.requiredAfterDefaultable p.name p.position) else orderFault? seen others
    | .defaultable _ => orderFault? true others
    | .rest => if others.isEmpty then none else some (.restNotLast p.name p.position)

/-! ## Programs -/

/-- The function with its literals read and the order of its parameters checked. -/
def Function.read (f : Function Raw) : Except ReadError (Function Value) := do
  let params ← f.params.mapM Param.read
  let body ← f.body.mapM Stmt.read
  match orderFault? false params with
  | some fault => .error (.fault fault)
  | none => return ⟨f.name, f.position, f.tags, f.isPublic, params, f.returns, body⟩

/-- The item with its literals read. -/
def Item.read : Item Raw → Except ReadError (Item Value)
  | .use i => .ok (.use i)
  | .record r => .ok (.record r)
  | .function f => do return .function (← f.read)

/-- The program that a text says. -/
def readProgram (source : Text) : Except ReadError (Program Value) :=
  match parse source with
  | .error fault => .error (.fault fault)
  | .ok parsed => (parsed.mapM Item.read).map Program.ofItems

/-- What there is to say about the text of a file: its program and nothing more, or no program and the diagnostic of
its fault. An integer literal that is too long ends the work; the error is the number of its digits. -/
def readSource (file : Option Text) (source : Text) : Except Nat (Option (Program Value) × List Diagnostic) :=
  match readProgram source with
  | .ok program => .ok (some program, [])
  | .error (.fault fault) => .ok (none, [fault.diagnostic file])
  | .error (.integerTooLong digits) => .error digits

end Registrar.Surface
