import Registrar.Surface.Tree
import Registrar.Token

/-!
# Productions and derivations

The grammar as a table of productions, each with what it makes of the values of its parts. A derivation is a tree of
productions. It has tokens, which are those at its leaves in their order, and it denotes a value. Where `Grammar.lean`
says of each rule which tokens make up which tree, here the trees by which a rule is derived are data, so that one can
ask how many derivations some tokens have.
-/

namespace Registrar.Surface

/-! ## Productions -/

/-- The rules of the grammar. -/
inductive Rule where
  | program
  | item
  | importDecl
  | importAlias
  | recordDef
  | functionDef
  | tag
  | params
  | param
  | returns
  | typeExpr
  | typeAtom
  | block
  | stmt
  | expr
  | nameRef
  | args
deriving DecidableEq

/-- The right side of a production, or a group in one: what comes first, and what comes after it. -/
inductive Phrase where
  | nothing
  | token (k : Terminal) (after : Phrase)
  | rule (r : Rule) (after : Phrase)
  | optional (group after : Phrase)
  | repeated (group after : Phrase)
deriving DecidableEq

/-- The productions of each rule. -/
inductive Production : Rule → Phrase → Type
  | program : Production .program (.repeated (.rule .item .nothing) .nothing)
  | importItem : Production .item (.rule .importDecl .nothing)
  | recordItem : Production .item (.rule .recordDef .nothing)
  | functionItem : Production .item (.rule .functionDef .nothing)
  | importDecl : Production .importDecl
      (.token .kwImport <| .token .name <| .token .slash <| .token .name <|
        .optional (.rule .importAlias .nothing) <| .token .semicolon .nothing)
  | importAlias : Production .importAlias (.token .kwAs <| .token .name .nothing)
  | recordDef : Production .recordDef
      (.token .kwType <| .token .name <| .token .kwRecord <| .token .lbrace <| .token .rbrace <|
        .optional (.token .semicolon .nothing) .nothing)
  | functionDef : Production .functionDef
      (.repeated (.rule .tag .nothing) <| .optional (.token .kwPublic .nothing) <| .token .kwFunction <|
        .token .name <| .token .lparen <| .optional (.rule .params .nothing) <| .token .rparen <|
        .optional (.rule .returns .nothing) <| .rule .block .nothing)
  | qualifiedTag : Production .tag
      (.token .atSign <| .token .name <| .token .colon <| .token .name .nothing)
  | localTag : Production .tag (.token .atSign <| .token .name .nothing)
  | params : Production .params
      (.rule .param <| .repeated (.token .comma <| .rule .param .nothing) .nothing)
  | requiredParam : Production .param (.rule .typeExpr <| .token .name .nothing)
  | defaultableParam : Production .param
      (.rule .typeExpr <| .token .name <| .token .equals <| .rule .expr .nothing)
  | restParam : Production .param (.rule .typeExpr <| .token .ellipsis <| .token .name .nothing)
  | returns : Production .returns (.token .kwReturns <| .rule .typeExpr .nothing)
  | typeExpr : Production .typeExpr
      (.rule .typeAtom <| .repeated (.token .bar <| .rule .typeAtom .nothing) .nothing)
  | simpleType : Production .typeAtom (.token .name .nothing)
  | qualifiedType : Production .typeAtom (.token .name <| .token .colon <| .token .name .nothing)
  | nilType : Production .typeAtom (.token .lparen <| .token .rparen .nothing)
  | block : Production .block
      (.token .lbrace <| .repeated (.rule .stmt .nothing) <| .token .rbrace .nothing)
  | returnStmt : Production .stmt
      (.token .kwReturn <| .optional (.rule .expr .nothing) <| .token .semicolon .nothing)
  | exprStmt : Production .stmt (.rule .expr <| .token .semicolon .nothing)
  | stringLit : Production .expr (.token .string .nothing)
  | intLit : Production .expr (.token .int .nothing)
  | trueLit : Production .expr (.token .kwTrue .nothing)
  | falseLit : Production .expr (.token .kwFalse .nothing)
  | nilLit : Production .expr (.token .lparen <| .token .rparen .nothing)
  | varRef : Production .expr (.rule .nameRef .nothing)
  | call : Production .expr
      (.rule .nameRef <| .token .lparen <| .optional (.rule .args .nothing) <| .token .rparen .nothing)
  | nameRef : Production .nameRef
      (.token .name <| .optional (.token .colon <| .token .name .nothing) .nothing)
  | args : Production .args (.rule .expr <| .repeated (.token .comma <| .rule .expr .nothing) .nothing)

/-! ## Values -/

/-- What a derivation from a rule denotes. -/
abbrev Rule.Value : Rule → Type
  | .program => Program Raw
  | .item => Item Raw
  | .importDecl => Import
  | .importAlias => Text
  | .recordDef => Record
  | .functionDef => Function Raw
  | .tag => Tag
  | .params => List (Param Raw)
  | .param => Param Raw
  | .returns => TypeExpr
  | .typeExpr => TypeExpr
  | .typeAtom => Name
  | .block => List (Stmt Raw)
  | .stmt => Stmt Raw
  | .expr => Expr Raw
  | .nameRef => Name
  | .args => List (Expr Raw)

/-- The values of the parts of a phrase. -/
abbrev Phrase.Values : Phrase → Type
  | .nothing => Unit
  | .token _ after => Token × after.Values
  | .rule r after => r.Value × after.Values
  | .optional group after => Option group.Values × after.Values
  | .repeated group after => List group.Values × after.Values

/-- Where an expression begins. -/
def Expr.position {L : Type} : Expr L → Position
  | .literal _ p => p
  | .name n => n.position
  | .call n _ => n.position

/-- What a production makes of the values of its parts. -/
def Production.value : {r : Rule} → {right : Phrase} → Production r right → right.Values → r.Value
  | _, _, .program, (items, _) => .ofItems (items.map Prod.fst)
  | _, _, .importItem, (i, _) => .use i
  | _, _, .recordItem, (r, _) => .record r
  | _, _, .functionItem, (f, _) => .function f
  | _, _, .importDecl, (word, space, _, name, asName, _) =>
    ⟨space.text, name.text, asName.map Prod.fst, word.position⟩
  | _, _, .importAlias, (_, name, _) => name.text
  | _, _, .recordDef, (word, name, _) => ⟨name.text, word.position⟩
  | _, _, .functionDef, (tags, visibility, _, name, _, ps, _, r, body, _) =>
    ⟨name.text, name.position, tags.map Prod.fst, visibility.isSome, (ps.map Prod.fst).getD [], r.map Prod.fst, body⟩
  | _, _, .qualifiedTag, (sign, q, _, name, _) => ⟨some q.text, name.text, sign.position⟩
  | _, _, .localTag, (sign, name, _) => ⟨none, name.text, sign.position⟩
  | _, _, .params, (first, others, _) => first :: others.map (·.2.1)
  | _, _, .requiredParam, (type, name, _) => ⟨name.text, name.position, type, .required⟩
  | _, _, .defaultableParam, (type, name, _, e, _) => ⟨name.text, name.position, type, .defaultable e⟩
  | _, _, .restParam, (type, _, name, _) => ⟨name.text, name.position, type, .rest⟩
  | _, _, .returns, (_, type, _) => type
  | _, _, .typeExpr, (first, others, _) => ⟨first, others.map (·.2.1)⟩
  | _, _, .simpleType, (name, _) => ⟨none, name.text, name.position⟩
  | _, _, .qualifiedType, (q, _, name, _) => ⟨some q.text, name.text, q.position⟩
  | _, _, .nilType, (sign, _) => ⟨none, "()", sign.position⟩
  | _, _, .block, (_, stmts, _) => stmts.map Prod.fst
  | _, _, .returnStmt, (word, e, _) => .ret (e.map Prod.fst) word.position
  | _, _, .exprStmt, (e, _) => .expr e e.position
  | _, _, .stringLit, (t, _) => .literal (.str t.text) t.position
  | _, _, .intLit, (t, _) => .literal (.int t.text) t.position
  | _, _, .trueLit, (t, _) => .literal (.bool true) t.position
  | _, _, .falseLit, (t, _) => .literal (.bool false) t.position
  | _, _, .nilLit, (sign, _) => .literal .nil sign.position
  | _, _, .varRef, (n, _) => .name n
  | _, _, .call, (n, _, es, _) => .call n ((es.map Prod.fst).getD [])
  | _, _, .nameRef, (name, none, _) => ⟨none, name.text, name.position⟩
  | _, _, .nameRef, (q, some (_, name, _), _) => ⟨some q.text, name.text, q.position⟩
  | _, _, .args, (first, others, _) => first :: others.map (·.2.1)

/-! ## Derivations -/

/-- A derivation from a phrase. A rule is derived by one of its productions, an optional group may be left out, and a
repeated one is derived any number of times. -/
inductive Derivation : Phrase → Type
  | nothing : Derivation .nothing
  | token {k : Terminal} {after : Phrase} (t : Token) (h : t.terminal = k) (rest : Derivation after) :
      Derivation (.token k after)
  | rule {r : Rule} {right after : Phrase} (p : Production r right) (parts : Derivation right)
      (rest : Derivation after) : Derivation (.rule r after)
  | absent {group after : Phrase} (rest : Derivation after) : Derivation (.optional group after)
  | present {group after : Phrase} (first : Derivation group) (rest : Derivation after) :
      Derivation (.optional group after)
  | stop {group after : Phrase} (rest : Derivation after) : Derivation (.repeated group after)
  | again {group after : Phrase} (first : Derivation group) (rest : Derivation (.repeated group after)) :
      Derivation (.repeated group after)

namespace Derivation

/-- The tokens at the leaves. -/
def tokens : {φ : Phrase} → Derivation φ → List Token
  | _, .nothing => []
  | _, .token t _ rest => t :: rest.tokens
  | _, .rule _ parts rest => parts.tokens ++ rest.tokens
  | _, .absent rest => rest.tokens
  | _, .present first rest => first.tokens ++ rest.tokens
  | _, .stop rest => rest.tokens
  | _, .again first rest => first.tokens ++ rest.tokens

/-- The values of the parts. -/
def values : {φ : Phrase} → Derivation φ → φ.Values
  | _, .nothing => ()
  | _, .token t _ rest => (t, rest.values)
  | _, .rule p parts rest => (p.value parts.values, rest.values)
  | _, .absent rest => (none, rest.values)
  | _, .present first rest => (some first.values, rest.values)
  | _, .stop rest => ([], rest.values)
  | _, .again first rest => (first.values :: rest.values.1, rest.values.2)

/-- What a derivation from a rule denotes. -/
def value {r : Rule} (d : Derivation (.rule r .nothing)) : r.Value := d.values.1

end Derivation

end Registrar.Surface
