import Registrar.Source.Span
import Registrar.Text.Quoted

/-!
# Tokens

The words of the language: what kinds there are, how messages call them, and a token with its text and place.
-/

namespace Registrar

/-- A kind of token, or the end of the text. -/
inductive Terminal where
  | endOfText
  | name
  | string
  | int
  | atSign
  | colon
  | comma
  | ellipsis
  | equals
  | lbrace
  | lparen
  | rbrace
  | rparen
  | semicolon
  | slash
  | bar
  | kwAs
  | kwFalse
  | kwFunction
  | kwImport
  | kwPublic
  | kwRecord
  | kwReturn
  | kwReturns
  | kwTrue
  | kwType
deriving DecidableEq, Repr, Inhabited

namespace Terminal

/-- What messages call the terminal. -/
def label : Terminal → Text
  | .endOfText => "$END"
  | .name => "NAME"
  | .string => "STRING"
  | .int => "INT"
  | .atSign => "AT"
  | .colon => "COLON"
  | .comma => "COMMA"
  | .ellipsis => "ELLIPSIS"
  | .equals => "EQUAL"
  | .lbrace => "LBRACE"
  | .lparen => "LPAR"
  | .rbrace => "RBRACE"
  | .rparen => "RPAR"
  | .semicolon => "SEMICOLON"
  | .slash => "SLASH"
  | .bar => "VBAR"
  | .kwAs => "AS"
  | .kwFalse => "FALSE"
  | .kwFunction => "FUNCTION"
  | .kwImport => "IMPORT"
  | .kwPublic => "PUBLIC"
  | .kwRecord => "RECORD"
  | .kwReturn => "RETURN"
  | .kwReturns => "RETURNS"
  | .kwTrue => "TRUE"
  | .kwType => "TYPE"

/-- All terminals, in the order of their labels. -/
def all : List Terminal :=
  [.endOfText, .kwAs, .atSign, .colon, .comma, .ellipsis, .equals, .kwFalse, .kwFunction, .kwImport, .int,
    .lbrace, .lparen, .name, .kwPublic, .rbrace, .kwRecord, .kwReturn, .kwReturns, .rparen, .semicolon,
    .slash, .string, .kwTrue, .kwType, .bar]

/-- The words that are no names, with their terminals. -/
def keywords : List (Text × Terminal) :=
  [("function", .kwFunction), ("returns", .kwReturns), ("import", .kwImport), ("public", .kwPublic),
    ("record", .kwRecord), ("return", .kwReturn), ("false", .kwFalse), ("true", .kwTrue),
    ("type", .kwType), ("as", .kwAs)]

/-- The terminal of a word: a keyword's own, or that of names. -/
def ofWord (word : Text) : Terminal := (keywords.lookup word).getD .name

/-- The terminals of one character. -/
def ofPunctuation? : CodePoint → Option Terminal
  | .scalar '@' => some .atSign
  | .scalar ':' => some .colon
  | .scalar ',' => some .comma
  | .scalar '=' => some .equals
  | .scalar '\x7b' => some .lbrace
  | .scalar '(' => some .lparen
  | .scalar '\x7d' => some .rbrace
  | .scalar ')' => some .rparen
  | .scalar ';' => some .semicolon
  | .scalar '/' => some .slash
  | .scalar '|' => some .bar
  | _ => none

/-- What a message says was expected: one line for each of the terminals, in the order of their labels. -/
def expectation (expected : List Terminal) : Text :=
  "Expected one of: " ++
    ((all.filter (expected.contains ·)).map fun t => ("\n\t* " ++ t.label : Text)).flatten

end Terminal

/-- A token: its kind, its text and where it begins. -/
structure Token where
  terminal : Terminal
  text : Text
  position : Position
deriving DecidableEq, Repr, Inhabited

/-- The token as messages show it. -/
def Token.render (t : Token) : Text :=
  "Token('" ++ t.terminal.label ++ "', " ++ t.text.cited ++ ")"

end Registrar
