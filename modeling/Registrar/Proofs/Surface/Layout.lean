import Registrar.Proofs.Resolve.Layout
import Registrar.Proofs.Surface.Derivations
import Registrar.Proofs.Token.Words
import Registrar.Proofs.Unit.Source

/-!
# Programs and layout

Where tokens stand says nothing about how they are parsed: a derivation goes over to tokens that stand elsewhere, and
what it denotes there is the same, but for positions (`Derivation.moved`). Reading literals and checking the order of
parameters come to the same there (`Oblivious`). So texts that differ in nothing but their layout say the same program,
but for positions (`Word.layout_insensitive`).
-/

namespace Registrar

/-- The token without its position. -/
def Token.unplaced (t : Token) : Token := { t with position := .start }

theorem Token.terminal_unplaced (t : Token) : t.unplaced.terminal = t.terminal := rfl

namespace Surface

theorem Expr.unplacedAll_eq_map {L : Type} (es : List (Expr L)) : Expr.unplacedAll es = es.map Expr.unplaced := by
  induction es with
  | nil => rfl
  | cons e es ih => rw [unplacedAll, ih, List.map_cons]

/-! ## Derivations -/

/-- What a rule denotes, without positions. -/
def Rule.unplaced : (r : Rule) → r.Value → r.Value
  | .program => fun program =>
    ⟨program.imports.map Import.unplaced, program.records.map Record.unplaced, program.functions.map Function.unplaced⟩
  | .item => Item.unplaced
  | .importDecl => Import.unplaced
  | .importAlias => id
  | .recordDef => Record.unplaced
  | .functionDef => Function.unplaced
  | .tag => Tag.unplaced
  | .params => List.map Param.unplaced
  | .param => Param.unplaced
  | .returns => TypeExpr.unplaced
  | .typeExpr => TypeExpr.unplaced
  | .typeAtom => Name.unplaced
  | .block => List.map Stmt.unplaced
  | .stmt => Stmt.unplaced
  | .expr => Expr.unplaced
  | .nameRef => Name.unplaced
  | .args => List.map Expr.unplaced

/-- The values of the parts of a phrase, without positions. -/
def Phrase.unplaced : (φ : Phrase) → φ.Values → φ.Values
  | .nothing, _ => ()
  | .token _ after, (t, vs) => (t.unplaced, after.unplaced vs)
  | .rule r after, (v, vs) => (r.unplaced v, after.unplaced vs)
  | .optional group after, (v, vs) => (v.map group.unplaced, after.unplaced vs)
  | .repeated group after, (vs, ws) => (vs.map group.unplaced, after.unplaced ws)

theorem Phrase.map_unplaced_rule {r : Rule} (vs : List (Phrase.rule r .nothing).Values) :
    (vs.map (Phrase.rule r .nothing).unplaced).map Prod.fst = (vs.map Prod.fst).map r.unplaced := by
  rw [List.map_map, List.map_map]
  rfl

theorem Phrase.map_unplaced_separated {r : Rule} {k : Terminal} (vs : List (Phrase.token k (.rule r .nothing)).Values) :
    (vs.map (Phrase.token k (.rule r .nothing)).unplaced).map (·.2.1) = (vs.map (·.2.1)).map r.unplaced := by
  rw [List.map_map, List.map_map]
  rfl

theorem Expr.position_unplaced {L : Type} (e : Expr L) : e.unplaced.position = .start := by
  cases e <;> rfl

/-- A production makes of parts without positions what it makes of the parts, without positions. -/
theorem Production.value_unplaced {r : Rule} {right : Phrase} (p : Production r right) (vs : right.Values) :
    p.value (right.unplaced vs) = r.unplaced (p.value vs) := by
  cases p with
  | program =>
    obtain ⟨items, _⟩ := vs
    exact (congrArg Program.ofItems (Phrase.map_unplaced_rule items)).trans (Program.ofItems_unplaced _)
  | importDecl =>
    obtain ⟨word, space, _, name, _ | asName, _⟩ := vs <;> rfl
  | functionDef =>
    obtain ⟨tags, visibility, _, name, _, ps, _, r, body, _⟩ := vs
    cases visibility <;> cases ps <;> cases r <;>
      exact congrArg (Function.mk name.text .start · _ _ _ _) (Phrase.map_unplaced_rule tags)
  | params =>
    obtain ⟨first, others, _⟩ := vs
    exact congrArg (first.unplaced :: ·) (Phrase.map_unplaced_separated others)
  | typeExpr =>
    obtain ⟨first, others, _⟩ := vs
    exact congrArg (TypeExpr.mk first.unplaced) (Phrase.map_unplaced_separated others)
  | block =>
    obtain ⟨_, stmts, _⟩ := vs
    exact Phrase.map_unplaced_rule stmts
  | returnStmt =>
    obtain ⟨word, _ | e, _⟩ := vs <;> rfl
  | exprStmt =>
    obtain ⟨e, _⟩ := vs
    exact congrArg (Stmt.expr e.unplaced) e.position_unplaced
  | call =>
    obtain ⟨n, _, _ | es, _⟩ := vs
    · rfl
    · exact congrArg (Expr.call n.unplaced) (Expr.unplacedAll_eq_map es.1).symm
  | nameRef =>
    obtain ⟨name, _ | q, _⟩ := vs <;> rfl
  | args =>
    obtain ⟨first, others, _⟩ := vs
    exact congrArg (first.unplaced :: ·) (Phrase.map_unplaced_separated others)
  | _ => rfl

/-- A derivation goes over to tokens that stand elsewhere. What it denotes there is the same, but for positions. -/
theorem Derivation.moved {φ : Phrase} (d : Derivation φ) {ts : List Token}
    (h : ts.map Token.unplaced = d.tokens.map Token.unplaced) :
    ∃ d' : Derivation φ, d'.tokens = ts ∧ φ.unplaced d'.values = φ.unplaced d.values := by
  induction d generalizing ts with
  | nothing => exact ⟨.nothing, (List.map_eq_nil_iff.mp h).symm, rfl⟩
  | token t hk rest ih =>
    obtain ⟨t', us, rfl, ht, hus⟩ := List.map_eq_cons_iff.mp h
    obtain ⟨rest', rfl, hrest⟩ := ih hus
    have hk' : t'.terminal = t.terminal := by rw [← t'.terminal_unplaced, ht, t.terminal_unplaced]
    exact ⟨.token t' (hk'.trans hk) rest', rfl, Prod.ext ht hrest⟩
  | rule p parts rest ihp ih =>
    rw [tokens, List.map_append] at h
    obtain ⟨us, vs, rfl, hus, hvs⟩ := List.map_eq_append_iff.mp h
    obtain ⟨parts', rfl, hparts⟩ := ihp hus
    obtain ⟨rest', rfl, hrest⟩ := ih hvs
    refine ⟨.rule p parts' rest', rfl, Prod.ext ?_ hrest⟩
    show Rule.unplaced _ (p.value parts'.values) = Rule.unplaced _ (p.value parts.values)
    rw [← p.value_unplaced, ← p.value_unplaced, hparts]
  | absent rest ih =>
    obtain ⟨rest', rfl, hrest⟩ := ih h
    exact ⟨.absent rest', rfl, Prod.ext rfl hrest⟩
  | present first rest ihf ih =>
    rw [tokens, List.map_append] at h
    obtain ⟨us, vs, rfl, hus, hvs⟩ := List.map_eq_append_iff.mp h
    obtain ⟨first', rfl, hfirst⟩ := ihf hus
    obtain ⟨rest', rfl, hrest⟩ := ih hvs
    exact ⟨.present first' rest', rfl, Prod.ext (congrArg some hfirst) hrest⟩
  | stop rest ih =>
    obtain ⟨rest', rfl, hrest⟩ := ih h
    exact ⟨.stop rest', rfl, Prod.ext rfl hrest⟩
  | again first rest ihf ih =>
    rw [tokens, List.map_append] at h
    obtain ⟨us, vs, rfl, hus, hvs⟩ := List.map_eq_append_iff.mp h
    obtain ⟨first', rfl, hfirst⟩ := ihf hus
    obtain ⟨rest', rfl, hrest⟩ := ih hvs
    obtain ⟨hothers, hafter⟩ := Prod.ext_iff.mp hrest
    exact ⟨.again first' rest', rfl, Prod.ext (congrArg₂ List.cons hfirst hothers) hafter⟩

/-- The items of tokens that stand elsewhere are the same, but for positions. -/
theorem items_moved {ts us : List Token} (h : us.map Token.unplaced = ts.map Token.unplaced) {parsed : List (Item Raw)}
    (hparsed : items ts = .ok parsed) :
    ∃ parsed', items us = .ok parsed' ∧ parsed'.map Item.unplaced = parsed.map Item.unplaced := by
  obtain ⟨vs, rfl, d, hd, hvs⟩ := (items_iff.mp hparsed).derives ItemTokens.derives .nothing
  rw [List.append_nil] at hd
  obtain ⟨d', rfl, hsame⟩ := d.moved (hd ▸ h)
  rw [hvs] at hsame
  obtain ⟨us, _, htokens, hrow, rfl⟩ := d'.sound
  rw [List.append_nil] at htokens
  refine ⟨d'.values.1.map Prod.fst, items_iff.mpr (htokens ▸ hrow.of_rule), ?_⟩
  have hitems := congrArg (List.map Prod.fst) (congrArg Prod.fst hsame)
  exact (Phrase.map_unplaced_rule d'.values.1).symm.trans (hitems.trans (Phrase.map_unplaced_rule vs))

/-! ## Reading -/

section

variable {ε α β : Type}

/-- Reading comes to the same before and after the positions are taken out: it fails at the same parts, and otherwise
gives the same without positions. -/
def Oblivious (read : α → Except ε β) (u : α → α) (v : β → β) : Prop :=
  ∀ a, (read (u a)).toOption = (read a).toOption.map v

theorem Oblivious.mapM {read : α → Except ε β} {u : α → α} {v : β → β} (h : Oblivious read u v) :
    Oblivious (List.mapM read) (List.map u) (List.map v) := by
  intro as
  induction as with
  | nil => rfl
  | cons a as ih =>
    rw [List.map_cons, List.mapM_cons, List.mapM_cons, toOption_bind, toOption_bind, h a]
    simp only [toOption_bind, ih]
    cases (read a).toOption with
    | none => rfl
    | some b =>
      cases (List.mapM read as).toOption <;> rfl

end

theorem Raw.toOption_value (raw : Raw) (p : Position) : (raw.value p).toOption = (raw.value .start).toOption := by
  cases raw with
  | str spelling =>
    rw [value, value]
    cases Literal.decode (spelling.drop 1).dropLast <;> rfl
  | _ => rfl

mutual
theorem Expr.oblivious_read : Oblivious Expr.read Expr.unplaced Expr.unplaced
  | .literal raw p => by
    rw [unplaced, read, read, toOption_bind, toOption_bind, raw.toOption_value p]
    cases (raw.value .start).toOption <;> rfl
  | .name n => by rw [unplaced, read, read]; rfl
  | .call callee args => by
    rw [unplaced, read, read, toOption_bind, toOption_bind, Expr.oblivious_readAll args]
    cases (Expr.readAll args).toOption <;> rfl

theorem Expr.oblivious_readAll : Oblivious Expr.readAll Expr.unplacedAll Expr.unplacedAll
  | [] => by rw [unplacedAll, readAll]; rfl
  | e :: es => by
    rw [unplacedAll, readAll, readAll, toOption_bind, toOption_bind, Expr.oblivious_read e]
    simp only [toOption_bind, Expr.oblivious_readAll es]
    cases e.read.toOption with
    | none => rfl
    | some v => cases (Expr.readAll es).toOption <;> rfl
end

theorem Stmt.oblivious_read : Oblivious Stmt.read Stmt.unplaced Stmt.unplaced
  | .ret none p => rfl
  | .ret (some e) p => by
    rw [unplaced, Option.map_some, read, read, toOption_bind, toOption_bind, Expr.oblivious_read e]
    cases e.read.toOption <;> rfl
  | .expr e p => by
    rw [unplaced, read, read, toOption_bind, toOption_bind, Expr.oblivious_read e]
    cases e.read.toOption <;> rfl

theorem Param.oblivious_read : Oblivious Param.read Param.unplaced Param.unplaced
  | ⟨_, _, _, .required⟩ => rfl
  | ⟨_, _, _, .rest⟩ => rfl
  | ⟨n, p, t, .defaultable e⟩ => by
    simp only [unplaced, ParamKind.unplaced, read, toOption_bind, Expr.oblivious_read e]
    cases e.read.toOption <;> rfl

/-- Whether parameters are in order does not depend on where they stand. -/
theorem isNone_orderFault?_unplaced {L : Type} (ps : List (Param L)) (seen : Bool) :
    (orderFault? seen (ps.map Param.unplaced)).isNone = (orderFault? seen ps).isNone := by
  induction ps generalizing seen with
  | nil => rfl
  | cons p ps ih =>
    obtain ⟨n, position, t, k⟩ := p
    rw [List.map_cons, orderFault?, orderFault?, Param.unplaced]
    cases k with
    | required =>
      cases seen with
      | false => exact ih false
      | true => rfl
    | defaultable e => exact ih true
    | rest => cases ps <;> rfl

theorem Function.oblivious_read : Oblivious Function.read Function.unplaced Function.unplaced := by
  intro f
  simp only [unplaced, read, toOption_bind, Param.oblivious_read.mapM f.params, Stmt.oblivious_read.mapM f.body]
  cases (f.params.mapM Param.read).toOption with
  | none => rfl
  | some ps =>
    cases (f.body.mapM Stmt.read).toOption with
    | none => rfl
    | some body =>
      have horder := isNone_orderFault?_unplaced ps false
      simp only [Option.map_some, Option.bind_some]
      cases hps : orderFault? false ps with
      | none =>
        rw [hps, Option.isNone_none, Option.isNone_iff_eq_none] at horder
        rw [horder]
        rfl
      | some fault =>
        cases hus : orderFault? false (ps.map Param.unplaced) with
        | none => rw [hps, hus] at horder; cases horder
        | some fault' => rfl

theorem Item.oblivious_read : Oblivious Item.read Item.unplaced Item.unplaced
  | .use i => rfl
  | .record r => rfl
  | .function f => by
    rw [unplaced, read, read, toOption_bind, toOption_bind, Function.oblivious_read f]
    cases f.read.toOption <;> rfl

/-! ## Programs -/

/-- Two texts with the same tokens, but for positions, say the same program, but for positions. -/
theorem readProgram_moved {s s' : Text} {ts ts' : List Token} (hs : scan s = ⟨ts, none⟩) (hs' : scan s' = ⟨ts', none⟩)
    (h : ts'.map Token.unplaced = ts.map Token.unplaced) {program : Program Value}
    (hread : readProgram s = .ok program) :
    ∃ program', readProgram s' = .ok program' ∧ program'.unplaced = program.unplaced := by
  obtain ⟨raws, its, hparse, hits, rfl⟩ := readProgram_eq_ok.mp hread
  have hraws : items ts = .ok raws := by
    have hrow := parse_sound hparse
    rw [hs] at hrow
    exact items_iff.mpr hrow
  obtain ⟨raws', hraws', hsame⟩ := items_moved h hraws
  have hits' : (raws'.mapM Item.read).toOption.map (List.map Item.unplaced) = some (its.map Item.unplaced) := by
    rw [← Item.oblivious_read.mapM raws', hsame, Item.oblivious_read.mapM raws, hits]
    rfl
  obtain ⟨its', hsome, heq⟩ := Option.map_eq_some_iff.mp hits'
  refine ⟨.ofItems its', readProgram_eq_ok.mpr ⟨raws', its', ?_, toOption_eq_some.mp hsome, rfl⟩, ?_⟩
  · exact parse_complete hs' (items_iff.mp hraws')
  · rw [Program.unplaced, Program.unplaced, ← Program.ofItems_unplaced, ← Program.ofItems_unplaced, heq]

end Surface

/-! ## Layout -/

namespace Word

open Surface (readProgram)

theorem map_unplaced_tokens (ws : List Word) (p : Position) :
    (tokens p ws).map Token.unplaced = ws.map fun w => ⟨w.terminal, w.text, .start⟩ := by
  induction ws generalizing p with
  | nil => rfl
  | cons w ws ih => rw [tokens, List.map_cons, ih, List.map_cons]; rfl

theorem LaidOut.read_of_same {ws ws' : List Word} {tail tail' : Text} (h : LaidOut ws tail) (h' : LaidOut ws' tail')
    (hsame : ws'.map (fun w => (w.terminal, w.text)) = ws.map fun w => (w.terminal, w.text))
    {program : Surface.Program Value} (hread : readProgram (source ws ++ tail) = .ok program) :
    ∃ program', readProgram (source ws' ++ tail') = .ok program' ∧ program'.unplaced = program.unplaced := by
  refine Surface.readProgram_moved h.scan_eq h'.scan_eq ?_ hread
  have htokens := congrArg (List.map fun k : Terminal × Text => Token.mk k.1 k.2 .start) hsame
  rw [List.map_map, List.map_map] at htokens
  rw [map_unplaced_tokens, map_unplaced_tokens]
  exact htokens

/-- A text of words is cut into these words, each where it begins: its line is counted by the line ends before it, its
column by the code points since the last of them. How the words are laid out makes no difference to the program that the
text says, but for positions. -/
theorem layout_insensitive {ws : List Word} {tail : Text} (h : LaidOut ws tail) :
    (∃ tokens, scan (source ws ++ tail) = ⟨tokens, none⟩ ∧ tokens.length = ws.length ∧
      ∀ before w after, ws = before ++ w :: after →
        tokens[before.length]? = some ⟨w.terminal, w.text,
          ⟨1 + (source before ++ w.gap).count (.scalar '\n'),
            1 + ((source before ++ w.gap).reverse.takeWhile (· ≠ .scalar '\n')).length⟩⟩) ∧
      ∀ {ws' : List Word} {tail' : Text}, LaidOut ws' tail' →
        ws'.map (fun w => (w.terminal, w.text)) = ws.map (fun w => (w.terminal, w.text)) →
          (readProgram (source ws' ++ tail')).toOption.map Surface.Program.unplaced =
            (readProgram (source ws ++ tail)).toOption.map Surface.Program.unplaced := by
  refine ⟨⟨tokens .start ws, h.scan_eq, length_tokens ws .start, ?_⟩, ?_⟩
  · rintro before w after rfl
    rw [getElem?_tokens, Position.start_advance]
  · intro ws' tail' h' hsame
    cases hread : readProgram (source ws ++ tail) with
    | ok program =>
      obtain ⟨program', hread', heq⟩ := h.read_of_same h' hsame hread
      rw [hread']
      exact congrArg some heq
    | error e =>
      cases hread' : readProgram (source ws' ++ tail') with
      | ok program' =>
        obtain ⟨program, hok, -⟩ := h'.read_of_same h hsame.symm hread'
        rw [hread] at hok
        cases hok
      | error e' => rfl

/-- The words of a function that returns a text with a line end and a quote in it, behind one and the same gap each. -/
def returningWords (gap : Text) : List Word :=
  [⟨gap, .kwFunction, "function"⟩, ⟨gap, .name, "functions"⟩, ⟨gap, .lparen, "("⟩, ⟨gap, .rparen, ")"⟩,
    ⟨gap, .kwReturns, "returns"⟩, ⟨gap, .name, "string"⟩, ⟨gap, .lbrace, "\x7b"⟩, ⟨gap, .kwReturn, "return"⟩,
    ⟨gap, .string, [.scalar '"', .scalar '\n', .scalar '\\', .scalar '"', .scalar '"']⟩, ⟨gap, .semicolon, ";"⟩,
    ⟨gap, .rbrace, "\x7d"⟩]

theorem laidOut_returningWords {gap : Text} (h : Separates gap) : LaidOut (returningWords gap) [] where
  spelled := by
    have hstring : Quoted [.scalar '\n', .scalar '\\', .scalar '"'] :=
      .plain (by decide) (by decide) (.escape (by decide) .nil)
    simp only [returningWords, List.forall_mem_cons]
    exact ⟨.keyword (by decide), .name (by decide), .sign rfl, .sign rfl, .keyword (by decide), .name (by decide),
      .sign rfl, .keyword (by decide), .string hstring, .sign rfl, .sign rfl, by simp⟩
  first := by
    rintro w ⟨⟩
    exact h.layout
  others := by
    simp only [returningWords, List.tail_cons, List.forall_mem_cons]
    exact ⟨h, h, h, h, h, h, h, h, h, h, by simp⟩
  tail := .inl rfl

/-- On one line with the line end of its text, and with a comment behind each word. -/
theorem layout_insensitive_commented :
    let note : Text := "\t// f(\"\n"
    LaidOut (returningWords " ") [] ∧ LaidOut (returningWords note) [] ∧
      (scan (source (returningWords note) ++ [])).tokens[9]? = some ⟨.semicolon, ";", ⟨12, 1⟩⟩ ∧
      ∃ program program', readProgram (source (returningWords " ") ++ []) = .ok program ∧
        readProgram (source (returningWords note) ++ []) = .ok program' ∧ program'.unplaced = program.unplaced ∧
        program.functions.map Surface.Function.name = ["functions"] ∧
        program'.functions.map Surface.Function.name = ["functions"] := by
  intro note
  have hspace : LaidOut (returningWords " ") [] := laidOut_returningWords ⟨.scalar ' ', [], rfl, rfl, .nil⟩
  have hnote : LaidOut (returningWords note) [] := by
    refine laidOut_returningWords ⟨.scalar '\t', "// f(\"\n", rfl, rfl, ?_⟩
    exact @Layout.comment " f(\"" [] (by decide) .nil
  refine ⟨hspace, hnote, ?_, ?_⟩
  · obtain ⟨⟨tokens, hscan, -, htokens⟩, -⟩ := layout_insensitive hnote
    rw [hscan]
    exact htokens ((returningWords note).take 9) ⟨note, .semicolon, ";"⟩ [⟨note, .rbrace, "\x7d"⟩] rfl
  · have hok : (readProgram (source (returningWords " ") ++ [])).map
        (fun program => program.functions.map Surface.Function.name) = .ok ["functions"] := by cbv
    obtain ⟨program, hread, hnames⟩ := map_eq_ok.mp hok
    have hsame := (layout_insensitive hspace).2 hnote rfl
    rw [hread] at hsame
    obtain ⟨program', hsome, heq⟩ := Option.map_eq_some_iff.mp hsame
    have hfunctions : program'.functions.map Surface.Function.unplaced = program.functions.map Surface.Function.unplaced :=
      congrArg Surface.Program.functions heq
    have hnames' := congrArg (List.map Surface.Function.name) hfunctions
    rw [List.map_map, List.map_map] at hnames'
    exact ⟨program, program', hread, toOption_eq_some.mp hsome, heq, hnames, hnames'.trans hnames⟩

end Word

end Registrar
