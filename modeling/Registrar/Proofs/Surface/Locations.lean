import Registrar.Proofs.Surface.Productions
import Registrar.Proofs.Unit.Source

/-!
# Where the parts of a program stand

Every part of a program that has a place stands where its first word begins in the text (`readProgram_locations`).
Which word that is depends on the part: a function and a parameter stand at their names, and everything else at the
first token that it is made up of.
-/

namespace Registrar

/-! ## Lines and columns -/

/-- A word begins at a line and a column of a text. The line is counted by the line ends before the word, and the column
by what follows the last of them. -/
def Text.HasAt (source : Text) (p : Position) (word : Text) : Prop :=
  ∃ before after, source = before ++ (word ++ after) ∧ p.line = 1 + before.count (.scalar '\n') ∧
    p.column = 1 + (before.reverse.takeWhile (· ≠ .scalar '\n')).length

theorem Text.hasAt_of_mem_scan {source : Text} {t : Token} (h : t ∈ (scan source).tokens) :
    source.HasAt t.position t.text := by
  obtain ⟨after, before, heq, hposition⟩ := (readsAt_scanFrom .start source).1 t h
  rw [Position.start_advance] at hposition
  rw [hposition]
  exact ⟨before, after, heq, rfl, rfl⟩

/-! ## First words -/

/-- What a literal begins with. Of a number and of a string that is all of it. -/
def Value.BeginsWith : Value → Text → Prop
  | .nil, word => word = "("
  | .bool b, word => word = if b then "true" else "false"
  | .int n, word => word.isNumeral = true ∧ n = Text.decimalValue word
  | .str t, word => ∃ body, Quoted body ∧ word = .scalar '"' :: (body ++ [.scalar '"']) ∧ Literal.decode body = .ok t

namespace Surface

/-- A name begins with its qualifier, if it has one. -/
def Name.firstWord (n : Name) : Text := n.qualifier.getD n.ident

/-- A member of a type begins as its name does, and the nil type with a parenthesis. -/
def Name.firstWordOfType (n : Name) : Text := if n.ident = "()" then "(" else n.firstWord

def Expr.BeginsWith : Expr Value → Text → Prop
  | .literal v _, word => v.BeginsWith word
  | .name n, word => word = n.firstWord
  | .call n _, word => word = n.firstWord

/-- A part of a program that has a place. -/
inductive Node where
  | use (i : Import)
  | record (r : Record)
  | tag (t : Tag)
  | function (f : Function Value)
  | param (p : Param Value)
  | type (t : TypeExpr)
  | member (n : Name)
  | stmt (s : Stmt Value)
  | expr (e : Expr Value)

namespace Node

/-- Where the part stands. A type stands where the first of its members does. -/
def position : Node → Position
  | .use i => i.position
  | .record r => r.position
  | .tag t => t.position
  | .function f => f.position
  | .param p => p.position
  | .type t => t.first.position
  | .member n => n.position
  | .stmt (.ret _ p) => p
  | .stmt (.expr _ p) => p
  | .expr e => e.position

/-- What the text reads where the part stands. -/
def BeginsWith : Node → Text → Prop
  | .use _, word => word = "import"
  | .record _, word => word = "type"
  | .tag _, word => word = "@"
  | .function f, word => word = f.name
  | .param p, word => word = p.name
  | .type t, word => word = t.first.firstWordOfType
  | .member n, word => word = n.firstWordOfType
  | .stmt (.ret _ _), word => word = "return"
  | .stmt (.expr e _), word => e.BeginsWith word
  | .expr e, word => e.BeginsWith word

/-- A token of the text stands where the part stands, and the part begins with it. -/
def StandsIn (source : Text) (node : Node) : Prop :=
  ∃ t ∈ (scan source).tokens, t.position = node.position ∧ node.BeginsWith t.text

end Node

/-! ## The parts of a program -/

mutual
/-- The expression and all that it is made up of. The callee of a call has a place of its own. -/
def Expr.nodes : Expr Value → List Node
  | .literal v p => [.expr (.literal v p)]
  | .name n => [.expr (.name n)]
  | .call n args => .expr (.call n args) :: .expr (.name n) :: nodesAll args

def Expr.nodesAll : List (Expr Value) → List Node
  | [] => []
  | e :: es => Expr.nodes e ++ Expr.nodesAll es
end

def TypeExpr.nodes (t : TypeExpr) : List Node := .type t :: t.members.map .member

def Stmt.nodes (s : Stmt Value) : List Node := .stmt s :: s.expr?.toList.flatMap Expr.nodes

def ParamKind.nodes : ParamKind Value → List Node
  | .required => []
  | .defaultable e => e.nodes
  | .rest => []

def Param.nodes (p : Param Value) : List Node := .param p :: (p.type.nodes ++ p.kind.nodes)

def Function.nodes (f : Function Value) : List Node :=
  .function f :: (f.tags.map .tag ++ f.params.flatMap Param.nodes ++ f.returns.toList.flatMap TypeExpr.nodes ++
    f.body.flatMap Stmt.nodes)

def Item.nodes : Item Value → List Node
  | .use i => [.use i]
  | .record r => [.record r]
  | .function f => f.nodes

/-- All parts of a program that have places. -/
def Program.nodes (program : Program Value) : List Node :=
  program.imports.map .use ++ program.records.map .record ++ program.functions.flatMap Function.nodes

theorem Program.exists_item_of_mem_nodes {items : List (Item Value)} {node : Node}
    (h : node ∈ (Program.ofItems items).nodes) : ∃ item ∈ items, node ∈ item.nodes := by
  rcases List.mem_append.mp h with h | h
  · rcases List.mem_append.mp h with h | h
    · obtain ⟨i, hi, rfl⟩ := List.mem_map.mp h
      obtain ⟨item, hitem, hi⟩ := List.mem_filterMap.mp hi
      cases item with
      | use j =>
        obtain rfl := Option.some.inj hi
        exact ⟨_, hitem, List.mem_cons_self⟩
      | _ => simp at hi
    · obtain ⟨r, hr, rfl⟩ := List.mem_map.mp h
      obtain ⟨item, hitem, hr⟩ := List.mem_filterMap.mp hr
      cases item with
      | record q =>
        obtain rfl := Option.some.inj hr
        exact ⟨_, hitem, List.mem_cons_self⟩
      | _ => simp at hr
  · obtain ⟨f, hf, hnode⟩ := List.mem_flatMap.mp h
    obtain ⟨item, hitem, hf⟩ := List.mem_filterMap.mp hf
    cases item with
    | function g =>
      obtain rfl := Option.some.inj hf
      exact ⟨_, hitem, hnode⟩
    | _ => simp at hf

/-! ## Names and types -/

variable {source : Text} {ts : List Token}

/-- A keyword or a sign of a text is spelled as its terminal says. -/
theorem text_of_fixed {k : Terminal} {s w : Text} {p : Position} (h : ⟨k, s, p⟩ ∈ (scan source).tokens)
    (hk : (w, k) ∈ Terminal.fixedWords) : s = w := (spelledBy_of_mem_scanFrom h).eq_of_fixed hk

/-- A part that begins with a keyword or a sign stands at it. -/
theorem Node.standsIn_of_fixed {node : Node} {k : Terminal} {s : Text} {p : Position} (w : Text)
    (hk : (w, k) ∈ Terminal.fixedWords) (hts : ⟨k, s, p⟩ :: ts ⊆ (scan source).tokens) (hposition : p = node.position)
    (hw : node.BeginsWith w) : node.StandsIn source := by
  obtain rfl := text_of_fixed (hts List.mem_cons_self) hk
  exact ⟨_, hts List.mem_cons_self, hposition, hw⟩

theorem NameTokens.begins {n : Name} (h : NameTokens ts n) :
    ∃ us, ts = ⟨.name, n.firstWord, n.position⟩ :: us := by
  cases h <;> exact ⟨_, rfl⟩

theorem MemberTokens.standsIn {n : Name} (h : MemberTokens ts n) (hts : ts ⊆ (scan source).tokens) :
    (Node.member n).StandsIn source := by
  cases h with
  | name h =>
    have hident : n.ident ≠ "()" := by
      intro hident
      have hname := (h.spelled fun t ht => spelled_of_mem_scanFrom (hts ht)).1
      rw [hident] at hname
      exact absurd hname (by decide)
    obtain ⟨us, rfl⟩ := h.begins
    exact ⟨_, hts List.mem_cons_self, rfl, (if_neg hident).symm⟩
  | nil => exact Node.standsIn_of_fixed "(" (by decide) hts rfl rfl

theorem TypeTokens.member_standsIn {t : TypeExpr} (h : TypeTokens ts t) (hts : ts ⊆ (scan source).tokens) :
    ∀ n ∈ t.members, (Node.member n).StandsIn source := by
  induction h with
  | one h =>
    intro n hn
    obtain rfl := List.mem_singleton.mp hn
    exact h.standsIn hts
  | @more ts us m t s p h _ ih =>
    intro n hn
    rcases List.mem_cons.mp hn with rfl | hn
    · exact h.standsIn fun x hx => hts (List.mem_append_left _ hx)
    · exact ih (fun x hx => hts (List.mem_append_right ts (List.mem_cons_of_mem _ hx))) n hn

theorem TypeTokens.standsIn {t : TypeExpr} (h : TypeTokens ts t) (hts : ts ⊆ (scan source).tokens) :
    ∀ node ∈ t.nodes, node.StandsIn source := by
  have hmembers := h.member_standsIn hts
  rw [TypeExpr.nodes, List.forall_mem_cons, List.forall_mem_map]
  exact ⟨hmembers t.first List.mem_cons_self, hmembers⟩

/-! ## Expressions and statements -/

theorem Expr.read_literal {raw : Raw} {p : Position} {e : Expr Value} (h : (Expr.literal raw p).read = .ok e) :
    ∃ v, raw.value p = .ok v ∧ e = .literal v p := by
  rw [Expr.read, bind_eq_ok] at h
  obtain ⟨v, hv, h⟩ := h
  exact ⟨v, hv, (Except.ok.inj h).symm⟩

/-- An integer that was read is the value of its token. -/
theorem Raw.value_int {digits : Text} {p : Position} {v : Value} (h : (Raw.int digits).value p = .ok v)
    (hdigits : Terminal.int.SpelledBy digits) : v.BeginsWith digits := by
  rw [Raw.value] at h
  split at h
  · simp at h
  · obtain rfl := Except.ok.inj h
    exact ⟨hdigits.isNumeral, rfl⟩

/-- A text that was read is what stands between the quotes of its token. -/
theorem Raw.value_str {s : Text} {p : Position} {v : Value} (h : (Raw.str s).value p = .ok v)
    (hs : Terminal.string.SpelledBy s) : v.BeginsWith s := by
  obtain ⟨body, hbody, rfl⟩ := hs.quoted
  rw [Raw.value, List.drop_one, List.tail_cons, List.dropLast_concat] at h
  split at h
  · next hdecode =>
    obtain rfl := Except.ok.inj h
    exact ⟨body, hbody, rfl, hdecode⟩
  · simp at h

/-- An expression that was read begins with the first of its tokens. -/
theorem ExprTokens.begins {raw : Expr Raw} (h : ExprTokens ts raw) (hts : ts ⊆ (scan source).tokens)
    {e : Expr Value} (hread : raw.read = .ok e) :
    ∃ t us, ts = t :: us ∧ t.position = e.position ∧ e.BeginsWith t.text := by
  cases h with
  | string =>
    obtain ⟨v, hv, rfl⟩ := Expr.read_literal hread
    exact ⟨_, _, rfl, rfl, Raw.value_str hv (spelledBy_of_mem_scanFrom (hts List.mem_cons_self))⟩
  | int =>
    obtain ⟨v, hv, rfl⟩ := Expr.read_literal hread
    exact ⟨_, _, rfl, rfl, Raw.value_int hv (spelledBy_of_mem_scanFrom (hts List.mem_cons_self))⟩
  | yes | no | nil =>
    obtain ⟨v, hv, rfl⟩ := Expr.read_literal hread
    obtain rfl := Except.ok.inj hv
    exact ⟨_, _, rfl, rfl, text_of_fixed (hts List.mem_cons_self) (by decide)⟩
  | name h =>
    obtain ⟨us, rfl⟩ := h.begins
    rw [Expr.read] at hread
    obtain rfl := Except.ok.inj hread
    exact ⟨_, us, rfl, rfl, rfl⟩
  | callNone h | call h =>
    obtain ⟨us, rfl⟩ := h.begins
    rw [Expr.read, bind_eq_ok] at hread
    obtain ⟨es, -, hread⟩ := hread
    obtain rfl := Except.ok.inj hread
    exact ⟨_, _, List.cons_append, rfl, rfl⟩

theorem ExprTokens.expr_standsIn {raw : Expr Raw} (h : ExprTokens ts raw) (hts : ts ⊆ (scan source).tokens)
    {e : Expr Value} (hread : raw.read = .ok e) : (Node.expr e).StandsIn source := by
  obtain ⟨t, us, rfl, hposition, hbegins⟩ := h.begins hts hread
  exact ⟨t, hts List.mem_cons_self, hposition, hbegins⟩

theorem ExprTokens.literal_standsIn {raw : Raw} {p : Position} (h : ExprTokens ts (.literal raw p))
    (hts : ts ⊆ (scan source).tokens) {e : Expr Value} (hread : (Expr.literal raw p).read = .ok e) :
    ∀ node ∈ e.nodes, node.StandsIn source := by
  have hstands := h.expr_standsIn hts hread
  obtain ⟨v, -, rfl⟩ := Expr.read_literal hread
  rwa [Expr.nodes, List.forall_mem_singleton]

mutual
theorem ExprTokens.standsIn : {ts : List Token} → {raw : Expr Raw} → ExprTokens ts raw → ts ⊆ (scan source).tokens →
    {e : Expr Value} → raw.read = .ok e → ∀ node ∈ e.nodes, node.StandsIn source
  | _, _, h@.string, hts, _, hread => h.literal_standsIn hts hread
  | _, _, h@.int, hts, _, hread => h.literal_standsIn hts hread
  | _, _, h@.yes, hts, _, hread => h.literal_standsIn hts hread
  | _, _, h@.no, hts, _, hread => h.literal_standsIn hts hread
  | _, _, h@.nil, hts, _, hread => h.literal_standsIn hts hread
  | _, _, h@(.name _), hts, _, hread => by
    have hstands := h.expr_standsIn hts hread
    rw [Expr.read] at hread
    obtain rfl := Except.ok.inj hread
    rwa [Expr.nodes, List.forall_mem_singleton]
  | _, _, h@(.callNone _), hts, _, hread => by
    have hstands := h.expr_standsIn hts hread
    rw [Expr.read, Expr.readAll] at hread
    obtain rfl := Except.ok.inj hread
    rw [Expr.nodes, Expr.nodesAll, List.forall_mem_cons, List.forall_mem_singleton]
    exact ⟨hstands, hstands⟩
  | _, _, h@(.call _ hs), hts, _, hread => by
    have hstands := h.expr_standsIn hts hread
    rw [Expr.read, bind_eq_ok] at hread
    obtain ⟨es, hes, hread⟩ := hread
    obtain rfl := Except.ok.inj hread
    rw [Expr.nodes, List.forall_mem_cons, List.forall_mem_cons]
    exact ⟨hstands, hstands, ArgsTokens.standsIn hs (fun t ht => hts (by simp [ht])) hes⟩

theorem ArgsTokens.standsIn : {ts : List Token} → {raws : List (Expr Raw)} → ArgsTokens ts raws →
    ts ⊆ (scan source).tokens → {es : List (Expr Value)} → Expr.readAll raws = .ok es →
    ∀ node ∈ Expr.nodesAll es, node.StandsIn source
  | _, _, .one h, hts, _, hread => by
    rw [Expr.readAll, bind_eq_ok] at hread
    obtain ⟨e, he, hread⟩ := hread
    rw [Expr.readAll] at hread
    obtain rfl := Except.ok.inj hread
    rw [Expr.nodesAll, Expr.nodesAll, List.append_nil]
    exact ExprTokens.standsIn h hts he
  | _, _, .more h hs, hts, _, hread => by
    rw [Expr.readAll, bind_eq_ok] at hread
    obtain ⟨e, he, hread⟩ := hread
    obtain ⟨es, hes, hread⟩ := bind_eq_ok.mp hread
    obtain rfl := Except.ok.inj hread
    rw [Expr.nodesAll, List.forall_mem_append]
    exact ⟨ExprTokens.standsIn h (fun t ht => hts (by simp [ht])) he,
      ArgsTokens.standsIn hs (fun t ht => hts (by simp [ht])) hes⟩
end

theorem StmtTokens.standsIn {raw : Stmt Raw} (h : StmtTokens ts raw) (hts : ts ⊆ (scan source).tokens)
    {s : Stmt Value} (hread : raw.read = .ok s) : ∀ node ∈ s.nodes, node.StandsIn source := by
  cases h with
  | retNone =>
    obtain rfl := Except.ok.inj hread
    rw [Stmt.nodes, Stmt.expr?, Option.toList_none, List.flatMap_nil, List.forall_mem_singleton]
    exact Node.standsIn_of_fixed "return" (by decide) hts rfl rfl
  | ret h =>
    obtain ⟨e, he, hread⟩ := bind_eq_ok.mp hread
    obtain rfl := Except.ok.inj hread
    rw [Stmt.nodes, Stmt.expr?, Option.toList_some, List.flatMap_singleton, List.forall_mem_cons]
    exact ⟨Node.standsIn_of_fixed "return" (by decide) hts rfl rfl, h.standsIn (fun t ht => hts (by simp [ht])) he⟩
  | @expr t ts raw s p h =>
    have hts : t :: ts ⊆ (scan source).tokens := fun x hx => hts (List.mem_append_left [_] hx)
    obtain ⟨e, he, hread⟩ := bind_eq_ok.mp hread
    obtain rfl := Except.ok.inj hread
    rw [Stmt.nodes, Stmt.expr?, Option.toList_some, List.flatMap_singleton, List.forall_mem_cons]
    obtain ⟨_, _, heq, -, hbegins⟩ := h.begins hts he
    obtain ⟨rfl, -⟩ := List.cons.inj heq
    exact ⟨⟨t, hts List.mem_cons_self, rfl, hbegins⟩, h.standsIn hts he⟩

/-! ## Functions and items -/

theorem ParamTokens.standsIn {raw : Param Raw} (h : ParamTokens ts raw) (hts : ts ⊆ (scan source).tokens)
    {p : Param Value} (hread : raw.read = .ok p) : ∀ node ∈ p.nodes, node.StandsIn source := by
  cases h with
  | @required ts t n p h =>
    obtain rfl := Except.ok.inj hread
    rw [Param.nodes, ParamKind.nodes, List.append_nil, List.forall_mem_cons]
    exact ⟨⟨⟨.name, n, p⟩, hts (by simp), rfl, rfl⟩, h.standsIn fun t ht => hts (by simp [ht])⟩
  | @rest ts t n s p p₁ h =>
    obtain rfl := Except.ok.inj hread
    rw [Param.nodes, ParamKind.nodes, List.append_nil, List.forall_mem_cons]
    exact ⟨⟨⟨.name, n, p⟩, hts (by simp), rfl, rfl⟩, h.standsIn fun t ht => hts (by simp [ht])⟩
  | @defaultable ts us t e n s p p₁ h he =>
    obtain ⟨e', he', hread⟩ := bind_eq_ok.mp hread
    obtain rfl := Except.ok.inj hread
    rw [Param.nodes, ParamKind.nodes, List.forall_mem_cons, List.forall_mem_append]
    exact ⟨⟨⟨.name, n, p⟩, hts (by simp), rfl, rfl⟩, h.standsIn fun t ht => hts (by simp [ht]),
      he.standsIn (fun t ht => hts (by simp [ht])) he'⟩

theorem TagTokens.standsIn {t : Tag} (h : TagTokens ts t) (hts : ts ⊆ (scan source).tokens) :
    (Node.tag t).StandsIn source := by
  cases h <;> exact Node.standsIn_of_fixed "@" (by decide) hts rfl rfl

theorem FunctionTokens.standsIn {raw : Function Raw} (h : FunctionTokens ts raw) (hts : ts ⊆ (scan source).tokens)
    {f : Function Value} (hread : raw.read = .ok f) : ∀ node ∈ f.nodes, node.StandsIn source := by
  obtain ⟨hname, hposition, htags, hreturns, hparams, hbody, -⟩ := Function.read_parts hread
  obtain ⟨hmem, htag, hparam, htype, hstmt⟩ := h.parts
  rw [Function.nodes, List.forall_mem_cons, List.forall_mem_append, List.forall_mem_append, List.forall_mem_append,
    List.forall_mem_map, List.forall_mem_flatMap, List.forall_mem_flatMap, List.forall_mem_flatMap]
  refine ⟨⟨_, hts hmem, hposition.symm, hname.symm⟩, ⟨⟨fun t ht => ?_, fun p hp => ?_⟩, fun t ht => ?_⟩, fun s hs => ?_⟩
  · obtain ⟨us, hus, htokens⟩ := htag t (htags ▸ ht)
    exact htokens.standsIn fun x hx => hts (hus hx)
  · obtain ⟨q, hq, hqread⟩ := exists_of_mem_right hparams hp
    obtain ⟨us, hus, htokens⟩ := hparam q hq
    exact htokens.standsIn (fun x hx => hts (hus hx)) hqread
  · obtain ⟨us, hus, htokens⟩ := htype t (hreturns ▸ Option.mem_toList.mp ht)
    exact htokens.standsIn fun x hx => hts (hus hx)
  · obtain ⟨q, hq, hqread⟩ := exists_of_mem_right hbody hs
    obtain ⟨us, hus, htokens⟩ := hstmt q hq
    exact htokens.standsIn (fun x hx => hts (hus hx)) hqread

theorem ItemTokens.standsIn {raw : Item Raw} (h : ItemTokens ts raw) (hts : ts ⊆ (scan source).tokens)
    {item : Item Value} (hread : raw.read = .ok item) : ∀ node ∈ item.nodes, node.StandsIn source := by
  cases h with
  | use h =>
    obtain rfl := Except.ok.inj hread
    rw [Item.nodes, List.forall_mem_singleton]
    cases h <;> exact Node.standsIn_of_fixed "import" (by decide) hts rfl rfl
  | record h =>
    obtain rfl := Except.ok.inj hread
    rw [Item.nodes, List.forall_mem_singleton]
    cases h
    exact Node.standsIn_of_fixed "type" (by decide) hts rfl rfl
  | function h =>
    obtain ⟨f, hf, hread⟩ := bind_eq_ok.mp hread
    obtain rfl := Except.ok.inj hread
    exact h.standsIn hts hf

/-! ## Programs -/

/-- Each part of a program that has a place stands at a token of the text that the program was read from. The part
begins with that token, and at the line and the column of the part the text goes on with it. -/
theorem readProgram_locations {program : Program Value} (h : readProgram source = .ok program) :
    ∀ node ∈ program.nodes, ∃ t ∈ (scan source).tokens,
      t.position = node.position ∧ node.BeginsWith t.text ∧ source.HasAt node.position t.text := by
  obtain ⟨raws, items, hparse, hitems, rfl⟩ := readProgram_eq_ok.mp h
  intro node hnode
  obtain ⟨item, hitem, hnode⟩ := Program.exists_item_of_mem_nodes hnode
  obtain ⟨raw, hraw, hread⟩ := exists_of_mem_right (mapM_eq_ok.mp hitems) hitem
  obtain ⟨us, hus, htokens⟩ := (parse_sound hparse).exists_of_mem hraw
  obtain ⟨t, ht, hposition, hbegins⟩ := htokens.standsIn hus hread node hnode
  exact ⟨t, ht, hposition, hbegins, hposition ▸ Text.hasAt_of_mem_scan ht⟩

/-- A text over several lines, with a comment, with a string that goes over a line end, and with names of all kinds. -/
def severalLinesText : Text :=
  ("import ballerinax/awslambda as aws; // first\ntype T record \x7b \x7d\n@aws:Function\n" : Text) ++
    ("function f(aws:Context|() c,\n  string s = \"a\n b\", int... n) \x7b\n" : Text) ++
      ("  aws:log(s,\n    f(7)); return\n c; \x7d" : Text)

/-- Comments, line ends inside strings and statements over several lines do not shift what is counted. -/
theorem readProgram_locations_severalLines :
    let places : List Position :=
      [⟨1, 1⟩, ⟨2, 1⟩, ⟨4, 10⟩, ⟨3, 1⟩, ⟨4, 27⟩, ⟨4, 12⟩, ⟨4, 12⟩, ⟨4, 24⟩, ⟨5, 10⟩, ⟨5, 3⟩, ⟨5, 3⟩, ⟨5, 14⟩, ⟨6, 13⟩,
        ⟨6, 6⟩, ⟨6, 6⟩, ⟨7, 3⟩, ⟨7, 3⟩, ⟨7, 3⟩, ⟨7, 11⟩, ⟨8, 5⟩, ⟨8, 5⟩, ⟨8, 7⟩, ⟨8, 12⟩, ⟨9, 2⟩]
    ∃ program, readProgram severalLinesText = .ok program ∧ program.nodes.map Node.position = places ∧
      ∀ node ∈ program.nodes, ∃ t ∈ (scan severalLinesText).tokens,
        t.position = node.position ∧ node.BeginsWith t.text ∧ severalLinesText.HasAt node.position t.text := by
  intro places
  have h : (readProgram severalLinesText).map (fun program => program.nodes.map Node.position) = .ok places := by
    cbv
  obtain ⟨program, hread, hplaces⟩ := map_eq_ok.mp h
  exact ⟨program, hread, hplaces, readProgram_locations hread⟩

end Surface

end Registrar
