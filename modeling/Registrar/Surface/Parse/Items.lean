import Registrar.Surface.Parse.Expressions

/-!
# Parsing: statements, parameters and items

A module is a row of imports, records and functions. Every parser here reads one construct from its first
token to its last; `items` reads the whole text.
-/

namespace Registrar.Surface

/-! ## Statements -/

/-- Reads the statements of a block behind its opening brace, and the closing one. -/
def block (tokens : List Token) : Except Stuck (Parsed (List (Stmt Raw)) tokens) :=
  match tokens with
  | ⟨.rbrace, _, _⟩ :: rest => .ok ⟨[], rest, length_lt_cons _ _⟩
  | ⟨.kwReturn, _, p⟩ :: ⟨.semicolon, _, _⟩ :: rest =>
    match block rest with
    | .error stuck => .error stuck
    | .ok more =>
      .ok ⟨.ret none p :: more.value, more.rest,
        Nat.lt_trans more.shorter (length_lt_cons_cons _ _ _)⟩
  | ⟨.kwReturn, _, p⟩ :: rest =>
    match expr [.semicolon] [.semicolon] rest with
    | .error stuck => .error stuck
    | .ok e =>
      match _h : e.rest with
      | ⟨.semicolon, _, _⟩ :: after =>
        have ha : after.length < rest.length := e.lt_of_rest_eq _h
        match block after with
        | .error stuck => .error stuck
        | .ok more =>
          .ok ⟨.ret (some e.value) p :: more.value, more.rest,
            Nat.lt_trans more.shorter (Nat.lt_trans ha (length_lt_cons _ _))⟩
      | other => .error ⟨other, [.semicolon]⟩
  | all =>
    match expr [.semicolon] [.rbrace, .kwReturn] all with
    | .error stuck => .error stuck
    | .ok e =>
      match _h : e.rest with
      | ⟨.semicolon, _, _⟩ :: after =>
        have ha : after.length < all.length := e.lt_of_rest_eq _h
        match block after with
        | .error stuck => .error stuck
        | .ok more =>
          .ok ⟨.expr e.value ((all.head?.map Token.position).getD .start) :: more.value, more.rest,
            Nat.lt_trans more.shorter ha⟩
      | other => .error ⟨other, [.semicolon]⟩
termination_by tokens.length
decreasing_by all_goals simp_all <;> omega

/-! ## Parameters -/

/-- Reads a parameter. `extra` is what else could stand here. -/
def param (extra : List Terminal) (tokens : List Token) : Except Stuck (Parsed (Param Raw) tokens) :=
  match typeExpr [.ellipsis, .name] extra tokens with
  | .error stuck => .error stuck
  | .ok type =>
    match _h : type.rest with
    | ⟨.name, n, p⟩ :: ⟨.equals, _, _⟩ :: rest =>
      match expr [.comma, .rparen] [] rest with
      | .error stuck => .error stuck
      | .ok e =>
        .ok ⟨⟨n, p, type.value, .defaultable e.value⟩, e.rest, by
          have := type.lt_of_rest_eq _h
          have := e.shorter
          simp only [List.length_cons] at *; omega⟩
    | ⟨.name, n, p⟩ :: rest =>
      if terminalOf rest ∈ [Terminal.comma, .rparen] then
        .ok ⟨⟨n, p, type.value, .required⟩, rest, type.lt_of_rest_eq _h⟩
      else .error ⟨rest, [.comma, .equals, .rparen]⟩
    | ⟨.ellipsis, _, _⟩ :: ⟨.name, n, p⟩ :: rest =>
      .ok ⟨⟨n, p, type.value, .rest⟩, rest, by
        have := type.lt_of_rest_eq _h
        simp only [List.length_cons] at *; omega⟩
    | ⟨.ellipsis, _, _⟩ :: rest => .error ⟨rest, [.name]⟩
    | rest => .error ⟨rest, [.ellipsis, .name]⟩

/-- Reads parameters up to the closing parenthesis, one at least. `extra` is what else could stand here. -/
def params (extra : List Terminal) (tokens : List Token) :
    Except Stuck (Parsed (List (Param Raw)) tokens) :=
  match param extra tokens with
  | .error stuck => .error stuck
  | .ok first =>
    match _h : first.rest with
    | ⟨.comma, _, _⟩ :: more =>
      have hm : more.length < tokens.length := first.lt_of_rest_eq _h
      match params [] more with
      | .error stuck => .error stuck
      | .ok others => .ok ⟨first.value :: others.value, others.rest, Nat.lt_trans others.shorter hm⟩
    | ⟨.rparen, _, _⟩ :: more => .ok ⟨[first.value], more, first.lt_of_rest_eq _h⟩
    | rest => .error ⟨rest, [.comma, .rparen]⟩
termination_by tokens.length

/-- Reads a list of parameters, which may be empty, up to the closing parenthesis. -/
def paramList (tokens : List Token) : Except Stuck (Parsed (List (Param Raw)) tokens) :=
  match tokens with
  | ⟨.rparen, _, _⟩ :: rest => .ok ⟨[], rest, length_lt_cons _ _⟩
  | all => params [.rparen] all

/-! ## Functions -/

/-- Reads the result type of a function, if there is one, and its block. -/
def resultAndBlock (tokens : List Token) :
    Except Stuck (Parsed (Option TypeExpr × List (Stmt Raw)) tokens) :=
  match tokens with
  | ⟨.lbrace, _, _⟩ :: rest =>
    (block rest).map fun body => (body.map (none, ·)).within (Nat.le_succ _)
  | ⟨.kwReturns, _, _⟩ :: rest =>
    match typeExpr [.lbrace] [] rest with
    | .error stuck => .error stuck
    | .ok type =>
      match _h : type.rest with
      | ⟨.lbrace, _, _⟩ :: more =>
        (block more).map fun body => (body.map (some type.value, ·)).within (by
          have := type.lt_of_rest_eq _h
          simp only [List.length_cons]; omega)
      | other => .error ⟨other, [.lbrace]⟩
  | other => .error ⟨other, [.lbrace, .kwReturns]⟩

/-- Reads a function behind the word `function`. -/
def functionRest (isPublic : Bool) (tokens : List Token) : Except Stuck (Parsed (Function Raw) tokens) := do
  let name ← expect .name tokens
  let opening ← expect .lparen name.rest
  let params ← paramList opening.rest
  let tail ← resultAndBlock params.rest
  return ⟨{ name := name.value.text, position := name.value.position, tags := [], isPublic,
            params := params.value, returns := tail.value.1, body := tail.value.2 },
    tail.rest, by
      have := name.shorter
      have := opening.shorter
      have := params.shorter
      have := tail.shorter
      omega⟩

/-- The function with one more annotation in front of the others. -/
def Function.tagged {L : Type} (t : Tag) (f : Function L) : Function L :=
  { f with tags := t :: f.tags }

/-- Reads a function from its first annotation on. `extra` is what else could stand here. -/
def function (extra : List Terminal) (tokens : List Token) : Except Stuck (Parsed (Function Raw) tokens) :=
  match tokens with
  | ⟨.atSign, _, p⟩ :: ⟨.name, q, _⟩ :: ⟨.colon, _, _⟩ :: ⟨.name, tag, _⟩ :: rest =>
    (function [] rest).map fun f =>
      (f.map (.tagged ⟨some q, tag, p⟩)).within (by simp only [List.length_cons]; omega)
  | ⟨.atSign, _, _⟩ :: ⟨.name, _, _⟩ :: ⟨.colon, _, _⟩ :: rest => .error ⟨rest, [.name]⟩
  | ⟨.atSign, _, p⟩ :: ⟨.name, tag, _⟩ :: rest =>
    (function [.colon] rest).map fun f =>
      (f.map (.tagged ⟨none, tag, p⟩)).within (by simp only [List.length_cons]; omega)
  | ⟨.atSign, _, _⟩ :: rest => .error ⟨rest, [.name]⟩
  | ⟨.kwPublic, _, _⟩ :: ⟨.kwFunction, _, _⟩ :: rest =>
    (functionRest true rest).map (·.within (by simp only [List.length_cons]; omega))
  | ⟨.kwPublic, _, _⟩ :: rest => .error ⟨rest, [.kwFunction]⟩
  | ⟨.kwFunction, _, _⟩ :: rest => (functionRest false rest).map (·.within (Nat.le_succ _))
  | other => .error ⟨other, [.atSign, .kwFunction, .kwPublic] ++ extra⟩

/-! ## Imports and records -/

/-- Reads an import behind the word `import`. -/
def importRest (p : Position) (tokens : List Token) : Except Stuck (Parsed Import tokens) := do
  let space ← expect .name tokens
  let slash ← expect .slash space.rest
  let name ← expect .name slash.rest
  have hn : name.rest.length < tokens.length := by
    have := space.shorter
    have := slash.shorter
    have := name.shorter
    omega
  match _h : name.rest with
  | ⟨.semicolon, _, _⟩ :: rest =>
    return ⟨⟨space.value.text, name.value.text, none, p⟩, rest, by
      rw [_h, List.length_cons] at hn; omega⟩
  | ⟨.kwAs, _, _⟩ :: rest =>
    let asName ← expect .name rest
    let semicolon ← expect .semicolon asName.rest
    return ⟨⟨space.value.text, name.value.text, some asName.value.text, p⟩, semicolon.rest, by
      have := asName.shorter
      have := semicolon.shorter
      rw [_h, List.length_cons] at hn; omega⟩
  | other => .error ⟨other, [.kwAs, .semicolon]⟩

/-- The terminals at which an item begins, and the end of the text. -/
def itemStarts : List Terminal := [.endOfText, .atSign, .kwFunction, .kwImport, .kwPublic, .kwType]

/-- Reads a record behind the word `type`. A semicolon may follow it. -/
def recordRest (p : Position) (tokens : List Token) : Except Stuck (Parsed Record tokens) := do
  let name ← expect .name tokens
  let word ← expect .kwRecord name.rest
  let opening ← expect .lbrace word.rest
  let closing ← expect .rbrace opening.rest
  have hc : closing.rest.length < tokens.length := by
    have := name.shorter
    have := word.shorter
    have := opening.shorter
    have := closing.shorter
    omega
  match _h : closing.rest with
  | ⟨.semicolon, _, _⟩ :: rest =>
    return ⟨⟨name.value.text, p⟩, rest, by rw [_h, List.length_cons] at hc; omega⟩
  | rest =>
    if terminalOf rest ∈ itemStarts then return ⟨⟨name.value.text, p⟩, rest, by rw [_h] at hc; exact hc⟩
    else .error ⟨rest, .semicolon :: itemStarts⟩

/-! ## Items -/

/-- Reads one item. -/
def item (tokens : List Token) : Except Stuck (Parsed (Item Raw) tokens) :=
  match tokens with
  | ⟨.kwImport, _, p⟩ :: rest => (importRest p rest).map fun i => (i.map .use).within (Nat.le_succ _)
  | ⟨.kwType, _, p⟩ :: rest => (recordRest p rest).map fun r => (r.map .record).within (Nat.le_succ _)
  | all =>
    if terminalOf all ∈ [Terminal.atSign, .kwFunction, .kwPublic] then
      (function [] all).map (·.map .function)
    else .error ⟨all, itemStarts⟩

/-- Reads all items of a text. -/
def items (tokens : List Token) : Except Stuck (List (Item Raw)) :=
  if tokens = [] then .ok []
  else
    match item tokens with
    | .error stuck => .error stuck
    | .ok first =>
      have := first.shorter
      match items first.rest with
      | .error stuck => .error stuck
      | .ok others => .ok (first.value :: others)
termination_by tokens.length

end Registrar.Surface
