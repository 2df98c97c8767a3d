import Registrar.Surface.Parse.Basic

/-!
# Parsing: types and expressions

A type is a row of names between bars. An expression is a literal, a name, or a call; `args` reads the arguments of a
call behind its opening parenthesis, one at least.

Both end at a token that can follow a type or an expression in some place of the language; whether that token can follow
it here is for the caller to say. At any other token the parser is stuck, and then what could have followed is what
follows types or expressions at this place.
-/

namespace Registrar.Surface

/-! ## Types -/

/-- The terminals that end a type: they follow the type of a parameter, of a rest parameter or of a result. -/
def typeEnds : List Terminal := [.ellipsis, .lbrace, .name]

mutual
/-- Reads a type. `follow` is what follows types at this place, and `extra` what else could stand here. -/
def typeExpr (follow extra : List Terminal) (tokens : List Token) :
    Except Stuck (Parsed TypeExpr tokens) :=
  match tokens with
  | ⟨.lparen, _, p⟩ :: ⟨.rparen, _, _⟩ :: rest =>
    typeTail follow [] ⟨none, "()", p⟩ rest (length_lt_cons_cons _ _ _)
  | ⟨.lparen, _, _⟩ :: rest => .error ⟨rest, [.rparen]⟩
  | ⟨.name, q, p⟩ :: ⟨.colon, _, _⟩ :: ⟨.name, n, _⟩ :: rest =>
    typeTail follow [] ⟨some q, n, p⟩ rest (length_lt_cons_cons_cons _ _ _ _)
  | ⟨.name, _, _⟩ :: ⟨.colon, _, _⟩ :: rest => .error ⟨rest, [.name]⟩
  | ⟨.name, n, p⟩ :: rest => typeTail follow [.colon] ⟨none, n, p⟩ rest (length_lt_cons _ _)
  | rest => .error ⟨rest, [.lparen, .name] ++ extra⟩

/-- Reads what follows the first name of a type that began at `all`. `extra` is what could have gone on with
the name itself. -/
def typeTail (follow extra : List Terminal) (first : Name) {all : List Token} (tokens : List Token)
    (h : tokens.length < all.length) : Except Stuck (Parsed TypeExpr all) :=
  match tokens with
  | ⟨.bar, _, _⟩ :: rest =>
    (typeExpr follow [] rest).map fun p =>
      ⟨⟨first, p.value.members⟩, p.rest, by have := p.shorter; simp only [List.length_cons] at h; omega⟩
  | rest =>
    if terminalOf rest ∈ typeEnds then .ok ⟨⟨first, []⟩, rest, h⟩
    else .error ⟨rest, extra ++ .bar :: follow⟩
end

/-! ## Expressions -/

/-- The terminals at which an expression begins. -/
def exprStarts : List Terminal := [.kwFalse, .int, .lparen, .name, .string, .kwTrue]

/-- The terminals that end an expression: they follow an argument, a default value or a statement. -/
def exprEnds : List Terminal := [.comma, .rparen, .semicolon]

/-- An expression that began at `all` and has been read up to `rest`. `extra` is what could have gone on with
it. -/
def ended (follow extra : List Terminal) (e : Expr Raw) {all : List Token} (rest : List Token)
    (h : rest.length < all.length) : Except Stuck (Parsed (Expr Raw) all) :=
  if terminalOf rest ∈ exprEnds then .ok ⟨e, rest, h⟩ else .error ⟨rest, extra ++ follow⟩

mutual
/-- Reads an expression. `follow` is what follows expressions at this place, and `extra` what else could
stand here. -/
def expr (follow extra : List Terminal) (tokens : List Token) : Except Stuck (Parsed (Expr Raw) tokens) :=
  match tokens with
  | ⟨.string, s, p⟩ :: rest => ended follow [] (.literal (.str s) p) rest (length_lt_cons _ _)
  | ⟨.int, d, p⟩ :: rest => ended follow [] (.literal (.int d) p) rest (length_lt_cons _ _)
  | ⟨.kwTrue, _, p⟩ :: rest => ended follow [] (.literal (.bool true) p) rest (length_lt_cons _ _)
  | ⟨.kwFalse, _, p⟩ :: rest => ended follow [] (.literal (.bool false) p) rest (length_lt_cons _ _)
  | ⟨.lparen, _, p⟩ :: ⟨.rparen, _, _⟩ :: rest =>
    ended follow [] (.literal .nil p) rest (length_lt_cons_cons _ _ _)
  | ⟨.lparen, _, _⟩ :: rest => .error ⟨rest, [.rparen]⟩
  | ⟨.name, q, p⟩ :: ⟨.colon, _, _⟩ :: ⟨.name, n, _⟩ :: rest =>
    named follow [] ⟨some q, n, p⟩ rest (length_lt_cons_cons_cons _ _ _ _)
  | ⟨.name, _, _⟩ :: ⟨.colon, _, _⟩ :: rest => .error ⟨rest, [.name]⟩
  | ⟨.name, n, p⟩ :: rest => named follow [.colon] ⟨none, n, p⟩ rest (length_lt_cons _ _)
  | rest => .error ⟨rest, exprStarts ++ extra⟩
termination_by (tokens.length, 0)

/-- Reads what follows a name at the beginning of an expression: the arguments of a call, or nothing. -/
def named (follow extra : List Terminal) (n : Name) {all : List Token} (tokens : List Token)
    (h : tokens.length < all.length) : Except Stuck (Parsed (Expr Raw) all) :=
  match tokens with
  | ⟨.lparen, _, _⟩ :: ⟨.rparen, _, _⟩ :: rest =>
    ended follow [] (.call n []) rest (Nat.lt_trans (length_lt_cons_cons _ _ _) h)
  | ⟨.lparen, _, _⟩ :: rest =>
    match args [.rparen] rest with
    | .error stuck => .error stuck
    | .ok as =>
      ended follow [] (.call n as.value) as.rest
        (Nat.lt_trans as.shorter (Nat.lt_trans (length_lt_cons _ _) h))
  | rest => ended follow (.lparen :: extra) (.name n) rest h
termination_by (tokens.length, 0)

/-- Reads arguments up to the closing parenthesis. `extra` is what else could stand here. -/
def args (extra : List Terminal) (tokens : List Token) : Except Stuck (Parsed (List (Expr Raw)) tokens) :=
  match expr [.comma, .rparen] extra tokens with
  | .error stuck => .error stuck
  | .ok p =>
    match _h : p.rest with
    | ⟨.comma, _, _⟩ :: more =>
      have hm : more.length < tokens.length := p.lt_of_rest_eq _h
      match args [] more with
      | .error stuck => .error stuck
      | .ok es => .ok ⟨p.value :: es.value, es.rest, Nat.lt_trans es.shorter hm⟩
    | ⟨.rparen, _, _⟩ :: more => .ok ⟨[p.value], more, p.lt_of_rest_eq _h⟩
    | rest => .error ⟨rest, [.comma, .rparen]⟩
termination_by (tokens.length, 1)
end

end Registrar.Surface
