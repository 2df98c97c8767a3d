import Registrar.Surface.Tree
import Registrar.Token

/-!
# Parsing: results

A parser takes tokens off the front of a list. Its result carries what it read, the tokens that are left, and
the fact that these are fewer, which is why the parsers that call themselves end. Where no parser can go on
it is stuck: at some token, having expected one of some terminals.
-/

namespace Registrar.Surface

/-- Parsing cannot go on: the tokens that are left, and the terminals one of which was expected. -/
structure Stuck where
  rest : List Token
  expected : List Terminal
deriving Repr

/-- What was read off the front of `tokens`, and the fewer tokens that are left. -/
structure Parsed (α : Type) (tokens : List Token) where
  value : α
  rest : List Token
  shorter : rest.length < tokens.length

/-- The terminal at which a list of tokens begins. -/
def terminalOf : List Token → Terminal
  | [] => .endOfText
  | t :: _ => t.terminal

/-- A list is longer than what follows its first token. -/
theorem length_lt_cons (t : Token) (rest : List Token) : rest.length < (t :: rest).length :=
  Nat.lt_succ_self _

/-- A list is longer than what follows its first two tokens. -/
theorem length_lt_cons_cons (t u : Token) (rest : List Token) : rest.length < (t :: u :: rest).length :=
  Nat.lt_trans (length_lt_cons u rest) (length_lt_cons t _)

/-- A list is longer than what follows its first three tokens. -/
theorem length_lt_cons_cons_cons (t u v : Token) (rest : List Token) :
    rest.length < (t :: u :: v :: rest).length :=
  Nat.lt_trans (length_lt_cons_cons u v rest) (length_lt_cons t _)

namespace Parsed

/-- A function of what was read. -/
def map {α β : Type} {tokens : List Token} (f : α → β) (p : Parsed α tokens) : Parsed β tokens :=
  ⟨f p.value, p.rest, p.shorter⟩

/-- What was read off the tail of a list of tokens was read off the list. -/
def within {α : Type} {tokens all : List Token} (p : Parsed α tokens) (h : tokens.length ≤ all.length) :
    Parsed α all :=
  ⟨p.value, p.rest, Nat.lt_of_lt_of_le p.shorter h⟩

/-- What is left behind the next token is shorter still. -/
theorem lt_of_rest_eq {α : Type} {tokens : List Token} (p : Parsed α tokens) {t : Token}
    {more : List Token} (h : p.rest = t :: more) : more.length < tokens.length := by
  have hs := p.shorter
  rw [h, List.length_cons] at hs
  omega

end Parsed

/-- Reads a token of the given terminal. -/
def expect (terminal : Terminal) : (tokens : List Token) → Except Stuck (Parsed Token tokens)
  | [] => .error ⟨[], [terminal]⟩
  | t :: rest =>
    if t.terminal = terminal then .ok ⟨t, rest, length_lt_cons t rest⟩ else .error ⟨t :: rest, [terminal]⟩

end Registrar.Surface
