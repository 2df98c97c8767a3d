import Registrar.Surface.Tree
import Registrar.Token

/-!
# The grammar

Which tokens make up which tree. Each relation is one rule of the grammar and each of its constructors one alternative.
What a token says beyond its terminal goes into the tree, or else it plays no role.
-/

namespace Registrar.Surface

/-! ## Rows -/

/-- Parts in a row, none or more. -/
inductive RowTokens {α : Type} (part : List Token → α → Prop) : List Token → List α → Prop
  | nil : RowTokens part [] []
  | cons {ts us : List Token} {a : α} {as : List α} (h : part ts a) (hs : RowTokens part us as) :
      RowTokens part (ts ++ us) (a :: as)

/-- Parts with commas between them, one or more. -/
inductive ListTokens {α : Type} (part : List Token → α → Prop) : List Token → List α → Prop
  | one {ts : List Token} {a : α} (h : part ts a) : ListTokens part ts [a]
  | more {ts us : List Token} {a : α} {as : List α} {s : Text} {p : Position} (h : part ts a)
      (hs : ListTokens part us as) : ListTokens part (ts ++ ⟨.comma, s, p⟩ :: us) (a :: as)

/-! ## Names and types -/

/-- A name with or without a qualifier. It stands where its first token stands. -/
inductive NameTokens : List Token → Name → Prop
  | plain {n : Text} {p : Position} : NameTokens [⟨.name, n, p⟩] ⟨none, n, p⟩
  | qualified {q s n : Text} {p p₁ p₂ : Position} :
      NameTokens [⟨.name, q, p⟩, ⟨.colon, s, p₁⟩, ⟨.name, n, p₂⟩] ⟨some q, n, p⟩

/-- A member of a type: a name, or the nil type. -/
inductive MemberTokens : List Token → Name → Prop
  | name {ts : List Token} {n : Name} (h : NameTokens ts n) : MemberTokens ts n
  | nil {s s₁ : Text} {p p₁ : Position} : MemberTokens [⟨.lparen, s, p⟩, ⟨.rparen, s₁, p₁⟩] ⟨none, "()", p⟩

/-- A type: members with bars between them. -/
inductive TypeTokens : List Token → TypeExpr → Prop
  | one {ts : List Token} {n : Name} (h : MemberTokens ts n) : TypeTokens ts ⟨n, []⟩
  | more {ts us : List Token} {n : Name} {t : TypeExpr} {s : Text} {p : Position} (h : MemberTokens ts n)
      (hs : TypeTokens us t) : TypeTokens (ts ++ ⟨.bar, s, p⟩ :: us) ⟨n, t.members⟩

/-! ## Expressions and statements -/

mutual
/-- An expression. -/
inductive ExprTokens : List Token → Expr Raw → Prop
  | string {s : Text} {p : Position} : ExprTokens [⟨.string, s, p⟩] (.literal (.str s) p)
  | int {s : Text} {p : Position} : ExprTokens [⟨.int, s, p⟩] (.literal (.int s) p)
  | yes {s : Text} {p : Position} : ExprTokens [⟨.kwTrue, s, p⟩] (.literal (.bool true) p)
  | no {s : Text} {p : Position} : ExprTokens [⟨.kwFalse, s, p⟩] (.literal (.bool false) p)
  | nil {s s₁ : Text} {p p₁ : Position} :
      ExprTokens [⟨.lparen, s, p⟩, ⟨.rparen, s₁, p₁⟩] (.literal .nil p)
  | name {ts : List Token} {n : Name} (h : NameTokens ts n) : ExprTokens ts (.name n)
  | callNone {ts : List Token} {n : Name} {s s₁ : Text} {p p₁ : Position} (h : NameTokens ts n) :
      ExprTokens (ts ++ [⟨.lparen, s, p⟩, ⟨.rparen, s₁, p₁⟩]) (.call n [])
  | call {ts us : List Token} {n : Name} {es : List (Expr Raw)} {s s₁ : Text} {p p₁ : Position}
      (h : NameTokens ts n) (hs : ArgsTokens us es) :
      ExprTokens (ts ++ ⟨.lparen, s, p⟩ :: (us ++ [⟨.rparen, s₁, p₁⟩])) (.call n es)

/-- Arguments with commas between them, one or more. -/
inductive ArgsTokens : List Token → List (Expr Raw) → Prop
  | one {ts : List Token} {e : Expr Raw} (h : ExprTokens ts e) : ArgsTokens ts [e]
  | more {ts us : List Token} {e : Expr Raw} {es : List (Expr Raw)} {s : Text} {p : Position} (h : ExprTokens ts e)
      (hs : ArgsTokens us es) : ArgsTokens (ts ++ ⟨.comma, s, p⟩ :: us) (e :: es)
end

theorem argsTokens_of_list {ts : List Token} {es : List (Expr Raw)} (h : ListTokens ExprTokens ts es) :
    ArgsTokens ts es := by
  induction h with
  | one h => exact .one h
  | more h _ ih => exact .more h ih

/-- A statement. An expression as a statement stands where its first token stands. -/
inductive StmtTokens : List Token → Stmt Raw → Prop
  | retNone {s s₁ : Text} {p p₁ : Position} :
      StmtTokens [⟨.kwReturn, s, p⟩, ⟨.semicolon, s₁, p₁⟩] (.ret none p)
  | ret {ts : List Token} {e : Expr Raw} {s s₁ : Text} {p p₁ : Position} (h : ExprTokens ts e) :
      StmtTokens (⟨.kwReturn, s, p⟩ :: (ts ++ [⟨.semicolon, s₁, p₁⟩])) (.ret (some e) p)
  | expr {t : Token} {ts : List Token} {e : Expr Raw} {s : Text} {p : Position} (h : ExprTokens (t :: ts) e) :
      StmtTokens (t :: (ts ++ [⟨.semicolon, s, p⟩])) (.expr e t.position)

/-- A block: statements between braces. -/
inductive BlockTokens : List Token → List (Stmt Raw) → Prop
  | mk {ts : List Token} {body : List (Stmt Raw)} {s s₁ : Text} {p p₁ : Position} (h : RowTokens StmtTokens ts body) :
      BlockTokens (⟨.lbrace, s, p⟩ :: (ts ++ [⟨.rbrace, s₁, p₁⟩])) body

/-! ## Functions -/

/-- A parameter. It stands where its name stands. -/
inductive ParamTokens : List Token → Param Raw → Prop
  | required {ts : List Token} {t : TypeExpr} {n : Text} {p : Position} (h : TypeTokens ts t) :
      ParamTokens (ts ++ [⟨.name, n, p⟩]) ⟨n, p, t, .required⟩
  | defaultable {ts us : List Token} {t : TypeExpr} {e : Expr Raw} {n s : Text} {p p₁ : Position} (h : TypeTokens ts t)
      (he : ExprTokens us e) :
      ParamTokens (ts ++ ⟨.name, n, p⟩ :: ⟨.equals, s, p₁⟩ :: us) ⟨n, p, t, .defaultable e⟩
  | rest {ts : List Token} {t : TypeExpr} {n s : Text} {p p₁ : Position} (h : TypeTokens ts t) :
      ParamTokens (ts ++ [⟨.ellipsis, s, p₁⟩, ⟨.name, n, p⟩]) ⟨n, p, t, .rest⟩

/-- The parameters of a function, if there are any. -/
inductive ParamsTokens : List Token → List (Param Raw) → Prop
  | none : ParamsTokens [] []
  | some {ts : List Token} {ps : List (Param Raw)} (h : ListTokens ParamTokens ts ps) : ParamsTokens ts ps

/-- The result type of a function, if it has one. -/
inductive ReturnsTokens : List Token → Option TypeExpr → Prop
  | none : ReturnsTokens [] none
  | some {ts : List Token} {t : TypeExpr} {s : Text} {p : Position} (h : TypeTokens ts t) :
      ReturnsTokens (⟨.kwReturns, s, p⟩ :: ts) (some t)

/-- An annotation. -/
inductive TagTokens : List Token → Tag → Prop
  | plain {s n : Text} {p p₁ : Position} : TagTokens [⟨.atSign, s, p⟩, ⟨.name, n, p₁⟩] ⟨none, n, p⟩
  | qualified {s q s₁ n : Text} {p p₁ p₂ p₃ : Position} :
      TagTokens [⟨.atSign, s, p⟩, ⟨.name, q, p₁⟩, ⟨.colon, s₁, p₂⟩, ⟨.name, n, p₃⟩] ⟨some q, n, p⟩

/-- The word `public`, or nothing. -/
inductive PublicTokens : List Token → Bool → Prop
  | no : PublicTokens [] false
  | yes {s : Text} {p : Position} : PublicTokens [⟨.kwPublic, s, p⟩] true

/-- A function without its annotations, from the word `function` on. It stands where its name stands. -/
inductive BareTokens (isPublic : Bool) : List Token → Function Raw → Prop
  | mk {params returns block : List Token} {ps : List (Param Raw)} {r : Option TypeExpr} {body : List (Stmt Raw)}
      {s n s₁ s₂ : Text} {p p₁ p₂ p₃ : Position} (hp : ParamsTokens params ps) (hr : ReturnsTokens returns r)
      (hb : BlockTokens block body) :
      BareTokens isPublic
        (⟨.kwFunction, s, p₁⟩ :: ⟨.name, n, p⟩ :: ⟨.lparen, s₁, p₂⟩ ::
          (params ++ ⟨.rparen, s₂, p₃⟩ :: (returns ++ block)))
        ⟨n, p, [], isPublic, ps, r, body⟩

/-- A function with its annotations. -/
inductive FunctionTokens : List Token → Function Raw → Prop
  | mk {tags visibility ts : List Token} {as : List Tag} {isPublic : Bool} {f : Function Raw}
      (ht : RowTokens TagTokens tags as) (hv : PublicTokens visibility isPublic) (hf : BareTokens isPublic ts f) :
      FunctionTokens (tags ++ (visibility ++ ts)) { f with tags := as }

/-! ## Items -/

/-- An import. It stands where the word `import` stands. -/
inductive ImportTokens : List Token → Import → Prop
  | plain {s space s₁ name s₂ : Text} {p p₁ p₂ p₃ p₄ : Position} :
      ImportTokens
        [⟨.kwImport, s, p⟩, ⟨.name, space, p₁⟩, ⟨.slash, s₁, p₂⟩, ⟨.name, name, p₃⟩, ⟨.semicolon, s₂, p₄⟩]
        ⟨space, name, none, p⟩
  | asName {s space s₁ name s₂ asName s₃ : Text} {p p₁ p₂ p₃ p₄ p₅ p₆ : Position} :
      ImportTokens
        [⟨.kwImport, s, p⟩, ⟨.name, space, p₁⟩, ⟨.slash, s₁, p₂⟩, ⟨.name, name, p₃⟩, ⟨.kwAs, s₂, p₄⟩,
          ⟨.name, asName, p₅⟩, ⟨.semicolon, s₃, p₆⟩]
        ⟨space, name, some asName, p⟩

/-- A semicolon, or nothing. -/
inductive OptionalSemicolon : List Token → Prop
  | none : OptionalSemicolon []
  | some {s : Text} {p : Position} : OptionalSemicolon [⟨.semicolon, s, p⟩]

/-- A record. It stands where the word `type` stands. -/
inductive RecordTokens : List Token → Record → Prop
  | mk {semicolon : List Token} {s n s₁ s₂ s₃ : Text} {p p₁ p₂ p₃ p₄ : Position} (h : OptionalSemicolon semicolon) :
      RecordTokens
        (⟨.kwType, s, p⟩ :: ⟨.name, n, p₁⟩ :: ⟨.kwRecord, s₁, p₂⟩ :: ⟨.lbrace, s₂, p₃⟩ :: ⟨.rbrace, s₃, p₄⟩ ::
          semicolon)
        ⟨n, p⟩

/-- What stands at the top level. -/
inductive ItemTokens : List Token → Item Raw → Prop
  | use {ts : List Token} {i : Import} (h : ImportTokens ts i) : ItemTokens ts (.use i)
  | record {ts : List Token} {r : Record} (h : RecordTokens ts r) : ItemTokens ts (.record r)
  | function {ts : List Token} {f : Function Raw} (h : FunctionTokens ts f) : ItemTokens ts (.function f)

end Registrar.Surface
