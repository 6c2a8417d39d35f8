import GrammarText.Proofs.Expr.Dump
import GrammarText.Proofs.Grammar.Spelling

/-!
The dump of a grammar is made of nested blocks.

- `Definition.describe_nests`, `TemplateDef.describe_nests`: the dump of a definition nests those of
  its tokens.
- `Grammar.describe_nests`: the dump of a grammar nests those of all that it holds, with an empty
  line between every two.
- `Grammar.describe_shownAt`: what stands anywhere inside is shown whole, at the indentation of its
  depth.
- `dumps_nest`: all of it together.
-/

namespace GrammarText

open Text

/-! ## Items -/

theorem nests_tokens (name : String) (tokens : List Expr) :
    Nests name [] (tokens.map Expr.describe)
      (dumpEntry name (joinLines (Expr.describeAll tokens))) := by
  rw [Expr.describeAll_eq]
  refine nests_dumpEntry rfl nofun fun d hd => ?_
  obtain ⟨x, -, rfl⟩ := List.mem_map.mp hd
  exact Expr.describe_ne_empty x

theorem Definition.describe_nests (d : Definition) :
    Nests (kindWord d.kind ++ ":" ++ d.name) [] (d.tokens.map Expr.describe) d.describe :=
  nests_tokens _ d.tokens

theorem TemplateDef.describe_nests (t : TemplateDef) :
    Nests ("TemplateDef:" ++ t.name) [] (t.tokens.map Expr.describe) t.describe :=
  nests_tokens _ t.tokens

/-- The dump of a directive has its node between its parentheses. -/
theorem Directive.describe_nests {d : Directive} {e : Expr} (h : d.content = .node e) :
    Nests ("DirectiveDef:" ++ d.name) [] [e.describe] d.describe := by
  rw [Directive.describe, h]
  exact nests_tokens _ [e]

namespace Item

theorem describe_ne_empty (i : Item) : i.describe ≠ "" := by
  cases i <;> exact dumpEntry_ne_empty _ _

theorem describe_shownAt {i : Item} {e : Expr} (he : e ∈ i.body) :
    ShownAt 1 e.describe i.describe := by
  cases i with
  | definition d => exact d.describe_nests.shownAt (List.mem_map_of_mem he)
  | template t => exact t.describe_nests.shownAt (List.mem_map_of_mem he)
  | directive d =>
    cases hc : d.content with
    | raw text => simp [body, hc] at he
    | node x =>
      simp only [body, hc, List.mem_singleton] at he
      subst he
      exact (Directive.describe_nests hc).shownAt List.mem_cons_self

end Item

namespace Grammar

/-! ## Grammars -/

/-- What a grammar holds, in the order of its dump. -/
def dumped (g : Grammar) : List Item :=
  g.rules.values.map .definition ++ g.terminals.values.map .definition
    ++ g.directives.map .directive ++ g.templates.values.map .template

theorem describe_nests (g : Grammar) :
    Nests "Grammar" [[]] (g.dumped.map Item.describe) g.describe := by
  have hdump : g.describe
      = dumpEntry "Grammar" (String.intercalate "\n\n" (g.dumped.map Item.describe)) := by
    simp only [describe, dumped, List.map_append, List.map_map]
    rfl
  rw [hdump]
  refine nests_dumpEntry rfl (by simp) fun d hd => ?_
  obtain ⟨i, -, rfl⟩ := List.mem_map.mp hd
  exact i.describe_ne_empty

theorem mem_dumped {g : Grammar} {i : Item} : i ∈ g.dumped ↔ i ∈ g.items := by
  simp only [mem_items, dumped, List.mem_append, List.mem_map]
  rw [or_assoc, or_assoc, or_left_comm]

theorem dumped_eq_nil {g : Grammar} : g.dumped = [] ↔ g.isEmpty = true := by
  simp [dumped, isEmpty, Entries.values, and_assoc, and_comm, and_left_comm]

/-- What is below an expression of the grammar is shown whole, as deep as it stands. -/
theorem describe_shownAt {g : Grammar} {i : Item} (hi : i ∈ g.items) {e x : Expr} (he : e ∈ i.body)
    {p : Position} (hx : follow Expr.blockItems p e = some x) :
    ShownAt (p.length + 2) x.describe g.describe := by
  have hitem : ShownAt 1 i.describe g.describe :=
    g.describe_nests.shownAt (List.mem_map_of_mem (mem_dumped.mpr hi))
  rw [Nat.add_comm]
  exact (Expr.describe_shownAt hx).trans ((Item.describe_shownAt he).trans hitem)

end Grammar

/-- The lines of a block are an empty one, the lines of its text behind four spaces, and an empty
one, and the text can be read off them. So the dump of an expression with children is its name and,
between parentheses, the dumps of its children, in order, whatever lines they come to; so is the
dump of a definition with its tokens, and that of a grammar with all that it holds, an empty line
between every two. The parentheses are empty exactly if there is nothing to hold. At any depth, what
stands inside of a grammar is shown whole, four spaces further in for each level. -/
theorem dumps_nest :
    (∀ s : String, s ≠ "" →
      lines (indentBlock s) = [] :: ((lines s).map (margin ++ ·) ++ [[]])) ∧
    (∀ s : String, outdented (indentBlock s) = s) ∧
    (∀ (e : Expr) (name : String), e.blockName? = some name →
      Nests name [] (e.children.map Expr.describe) e.describe) ∧
    (∀ d : Definition, Nests (Definition.kindWord d.kind ++ ":" ++ d.name) []
      (d.tokens.map Expr.describe) d.describe) ∧
    (∀ t : TemplateDef,
      Nests ("TemplateDef:" ++ t.name) [] (t.tokens.map Expr.describe) t.describe) ∧
    ∀ g : Grammar,
      Nests "Grammar" [[]] (g.rules.values.map (·.describe) ++ g.terminals.values.map (·.describe)
        ++ g.directives.map (·.describe) ++ g.templates.values.map (·.describe)) g.describe ∧
      (g.describe = "Grammar()" ↔ g.isEmpty = true) ∧
      ∀ i ∈ g.items, ∀ e ∈ i.body, ∀ p x, follow Expr.blockItems p e = some x →
        ShownAt (p.length + 2) x.describe g.describe := by
  refine ⟨fun s hs => lines_indentBlock hs, outdented_indentBlock,
    fun e name h => e.describe_nests h, Definition.describe_nests, TemplateDef.describe_nests,
    fun g => ⟨?_, ?_, ?_⟩⟩
  · have hnests := g.describe_nests
    simpa only [Grammar.dumped, List.map_append, List.map_map, Function.comp_def,
      Item.describe] using hnests
  · exact g.describe_nests.empty_iff.trans (List.map_eq_nil_iff.trans Grammar.dumped_eq_nil)
  · exact fun i hi e he p x hx => Grammar.describe_shownAt hi he hx

/-- A group around a text of two lines. -/
def brokenText : Expr := .group [.verbatim "a\nb"]

def brokenTextRule : Grammar := (Grammar.new 0).runAll [.define "start" { tokens := [brokenText] }]

/-- Both lines of the text are indented as deep as it stands. -/
theorem brokenText_shown :
    ("a\nb" ≠ "" ∧
      lines (indentBlock "a\nb") = [[], "    a".toList, "    b".toList, []]) ∧
    (brokenText.blockName? = some "Group" ∧
      lines brokenText.describe = ["Group(".toList, "    Prerendered(".toList, "        a".toList,
        "        b".toList, "    )".toList, ")".toList]) ∧
    ∃ i ∈ brokenTextRule.items, brokenText ∈ i.body ∧
      follow Expr.blockItems [0] brokenText = some (.verbatim "a\nb") ∧
      ["            Prerendered(".toList, "                a".toList, "                b".toList,
        "            )".toList] <:+: lines brokenTextRule.describe := by
  obtain ⟨hblock, -, hexpr, -, -, hgrammar⟩ := dumps_nest
  have hne : "a\nb" ≠ "" := by decide
  have hname : brokenText.blockName? = some "Group" := rfl
  have hnests := hexpr brokenText "Group" hname
  have hitems : brokenTextRule.items = [.definition ⟨.rule, "start", [brokenText], .none, 1⟩] := rfl
  have hitem : .definition ⟨.rule, "start", [brokenText], .none, 1⟩ ∈ brokenTextRule.items :=
    hitems ▸ List.mem_cons_self
  have hbody : brokenText ∈
      (Item.definition ⟨.rule, "start", [brokenText], .none, 1⟩).body := List.mem_cons_self
  have hat : follow Expr.blockItems [0] brokenText = some (.verbatim "a\nb") := rfl
  have hshown := (hgrammar brokenTextRule).2.2 _ hitem _ hbody _ _ hat
  exact ⟨⟨hne, (hblock _ hne).trans (by decide)⟩,
    ⟨hname, (hnests.lines_eq (List.cons_ne_nil _ _)).trans (by decide)⟩,
    _, hitem, hbody, hat, hshown⟩

end GrammarText
