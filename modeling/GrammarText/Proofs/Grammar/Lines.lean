import GrammarText.Grammar.Generate
import GrammarText.Proofs.Expr.Failure
import GrammarText.Proofs.Grammar.Registry
import GrammarText.Proofs.Text.Lines

/-!
The lines of a grammar's text.

- `Item`: what stands on a line of its own. `Grammar.parts` are the items of a grammar in the order
  of its text, an empty line behind each part (`Grammar.lines`).
- `Item.BreakFree`: no text that the item writes as it is holds a line feed. `Item.HandlesIssued`: its
  handles are ones that some grammar gave out, so that their names are names.
- `Item.render_reports`, `Grammar.render_reports`: an item, and a grammar, fail with the first error
  of a variable on their lines.
- `render_writes_lines`, `succeeds_of_generate`, `generate_of_succeeds`: the text of a grammar is its
  lines, and a grammar renders exactly if each of its items does.
- `one_line_each`: the text, cut at its line feeds, is one line for each definition.
-/

namespace GrammarText

open Text Emission

/-! ## Items -/

inductive Item where
  | definition (d : Definition)
  | directive (d : Directive)
  | template (t : TemplateDef)

namespace TemplateDef

def written (ctx : Context) (t : TemplateDef) : List Char :=
  t.modifier.symbol.toList ++ (t.name.toList ++ '\x7b' :: (Expr.writtenItems ctx [',', ' '] t.params
    ++ '\x7d' :: ':' :: ' ' :: Expr.writtenItems ctx [' '] t.tokens))

theorem render_writes (ctx : Context) (t : TemplateDef) : Writes (t.render ctx) (t.written ctx) := by
  have hparams : Writes (Expr.renderWrapped ctx "\x7b" "\x7d" t.params ", ") _ :=
    Expr.writes_enclosed (Expr.renderSeparated_writes ctx ", " t.params)
  have h : Writes (t.render ctx) _ :=
    (writes_emit t.modifier.symbol).seq ((writes_emit t.name).seq (hparams.seq
      ((writes_emit ": ").seq (Expr.renderSeparated_writes ctx " " t.tokens))))
  simpa [written] using h

end TemplateDef

namespace Directive

def writtenContent (ctx : Context) : DirectiveContent → List Char
  | .raw text => text.toList
  | .node e => e.written ctx

def written (ctx : Context) (d : Directive) : List Char :=
  '%' :: (d.name.toList ++ ' ' :: writtenContent ctx d.content)

theorem render_writes (ctx : Context) (d : Directive) : Writes (d.render ctx) (d.written ctx) := by
  obtain ⟨name, content⟩ := d
  cases content with
  | raw text => exact (writes_emit "%").seq ((writes_emit name).seq ((writes_emit " ").seq
      (writes_emit text)))
  | node e => exact (writes_emit "%").seq ((writes_emit name).seq ((writes_emit " ").seq
      (Expr.render_writes ctx e)))

end Directive

namespace Item

def render (ctx : Context) : Item → Emission
  | definition d => d.render ctx
  | directive d => d.render ctx
  | template t => t.render ctx

/-- The line of the item. -/
def written (ctx : Context) : Item → List Char
  | definition d => d.written ctx
  | directive d => d.written ctx
  | template t => t.written ctx

def name : Item → String
  | definition d => d.name
  | directive d => d.name
  | template t => t.name

/-- The expressions on the line of the item. -/
def expressions : Item → List Expr
  | definition d => d.tokens
  | directive d => match d.content with
    | .raw _ => []
    | .node e => [e]
  | template t => t.params ++ t.tokens

theorem render_writes (ctx : Context) (i : Item) : Writes (i.render ctx) (i.written ctx) := by
  cases i with
  | definition d => exact d.render_writes ctx
  | directive d => exact d.render_writes ctx
  | template t => exact t.render_writes ctx

/-- The errors of the variables on the line, in order. -/
def failures (ctx : Context) (i : Item) : List GrammarError :=
  i.expressions.flatMap (Expr.failures ctx)

/-- The item fails with the first error of a variable on its line. -/
theorem render_reports (ctx : Context) (i : Item) : (i.render ctx).Reports (i.failures ctx) := by
  have hrow : ∀ sep items, (Expr.renderSeparated ctx sep items).Reports
      (items.flatMap (Expr.failures ctx)) := fun sep items =>
    Expr.renderSeparated_reports sep fun e _ => Expr.render_reports ctx e
  cases i with
  | definition d => exact (hrow " " d.tokens).after d.head_succeeds
  | directive d =>
    obtain ⟨name, content⟩ := d
    cases content with
    | raw text =>
      have hline : Succeeds (do emit "%"; emit name; emit " "; emit text) :=
        (succeeds_emit "%").seq ((succeeds_emit name).seq ((succeeds_emit " ").seq
          (succeeds_emit text)))
      exact hline
    | node e =>
      rw [failures, expressions, List.flatMap_singleton]
      have hcontent := Expr.render_reports ctx e
      exact ((hcontent.after (succeeds_emit " ")).after (succeeds_emit name)).after
        (succeeds_emit "%")
  | template t =>
    have hparams : (Expr.renderWrapped ctx "\x7b" "\x7d" t.params ", ").Reports _ :=
      (hrow ", " t.params).enclosed
    rw [failures, expressions, List.flatMap_append]
    exact ((hparams.seq ((hrow " " t.tokens).after (succeeds_emit ": "))).after
      (succeeds_emit t.name)).after (succeeds_emit t.modifier.symbol)

end Item

/-! ## Lines without line feeds -/

/-- Some grammar gave out the handle, by its class or by its name alone. -/
def Handle.IsIssued (h : Handle) : Prop :=
  ∃ g : Grammar, g.handle h.kind h.name = .ok h ∨ g.lookup h.name = .ok h

theorem Handle.IsIssued.admits {h : Handle} (hi : h.IsIssued) : h.kind.admits h.name = true := by
  obtain ⟨g, hg | hg⟩ := hi
  · unfold Grammar.handle checkName at hg
    split at hg
    · cases hg
    · rename_i hp
      exact nameProblem?_eq_none.mp hp
  · unfold Grammar.lookup at hg
    cases hc : classify h.name with
    | error e => rw [hc] at hg; cases hg
    | ok kind =>
      rw [hc] at hg
      have hk : kind = h.kind := congrArg Handle.kind (Except.ok.inj hg)
      exact hk ▸ admits_of_classify hc

namespace Item

/-- No text that the item writes as it is holds a line feed: the raw text of a directive, and what
`Expr.bareTexts` lists, as far as the context leads into the item's expressions. -/
structure BreakFree (ctx : Context) (i : Item) : Prop where
  raw : ∀ d text, i = directive d → d.content = .raw text → '\n' ∉ text.toList
  bare : ∀ e ∈ i.expressions, ∀ x, Expr.Within ctx x e → ∀ s ∈ x.bareTexts, '\n' ∉ s.toList

/-- The handles that the item writes in the context are ones that grammars gave out. -/
def HandlesIssued (ctx : Context) (i : Item) : Prop :=
  ∀ e ∈ i.expressions, ∀ h, Expr.Within ctx (.handle h) e → h.IsIssued

variable {ctx : Context} {i : Item}

theorem break_not_mem_expression (hb : i.BreakFree ctx) (hi : i.HandlesIssued ctx) {e : Expr}
    (he : e ∈ i.expressions) : '\n' ∉ e.written ctx :=
  Expr.break_not_mem_written ctx e (hb.bare e he) fun h hw => (hi e he h hw).admits

theorem break_not_mem_symbol (m : Modifier) : '\n' ∉ m.symbol.toList := by cases m <;> decide

theorem break_not_mem_priority (n : Int) : '\n' ∉ Definition.writtenPriority n := by
  unfold Definition.writtenPriority
  split
  · exact List.not_mem_cons_of_ne_of_not_mem (by decide) (Expr.break_not_mem_number n)
  · exact List.not_mem_nil

/-- The line of an item has no line feed: none is in its head, nor in its expressions. -/
theorem break_not_mem_written (hn : ∃ k : NameClass, k.admits i.name = true)
    (hb : i.BreakFree ctx) (hi : i.HandlesIssued ctx) : '\n' ∉ i.written ctx := by
  obtain ⟨k, hk⟩ := hn
  have hname := Expr.break_not_mem_name hk
  have hexpr := fun e => break_not_mem_expression (e := e) hb hi
  have hspace : '\n' ∉ [' '] := by decide
  cases i with
  | definition d =>
    have hrow : '\n' ∉ Expr.writtenItems ctx [' '] d.tokens :=
      Expr.break_not_mem_items hspace hexpr
    simpa [written, name, Definition.written, Definition.writtenHead, break_not_mem_symbol,
      break_not_mem_priority, hrow] using hname
  | directive d =>
    have hcontent : '\n' ∉ Directive.writtenContent ctx d.content := by
      cases hc : d.content with
      | raw text => exact hb.raw d text rfl hc
      | node e => exact hexpr e (by simp [expressions, hc])
    simpa [written, name, Directive.written, hcontent] using hname
  | template t =>
    have hparams : '\n' ∉ Expr.writtenItems ctx [',', ' '] t.params :=
      Expr.break_not_mem_items (by decide) fun e he => hexpr e (List.mem_append_left _ he)
    have htokens : '\n' ∉ Expr.writtenItems ctx [' '] t.tokens :=
      Expr.break_not_mem_items hspace fun e he => hexpr e (List.mem_append_right _ he)
    simpa [written, name, TemplateDef.written, break_not_mem_symbol, hparams, htokens] using hname

/-! ## Lines begin with a name or a mark -/

theorem nameStart_not_blank {c : Char} (h : isNameStart c = true) : isBlank c = false := by
  obtain ⟨hl, hu⟩ := nameStart_bounds h
  exact not_blank_of_bounds (by omega) (by omega)

/-- Behind a mark or none, a name begins the line of a definition. -/
theorem marked_name_head (m : Modifier) {k : NameClass} {name : String}
    (hk : k.admits name = true) (rest : List Char) :
    ∃ c cs, m.symbol.toList ++ (name.toList ++ rest) = c :: cs ∧ isBlank c = false := by
  obtain ⟨c, cs, hcs, hc⟩ := (admits_chars hk).1
  rw [hcs]
  cases m with
  | none => exact ⟨c, cs ++ rest, rfl, nameStart_not_blank hc⟩
  | inline => exact ⟨'_', _, rfl, by decide⟩
  | inlineSingle => exact ⟨'?', _, rfl, by decide⟩
  | keepTerminals => exact ⟨'!', _, rfl, by decide⟩

theorem written_head (ctx : Context) (hn : ∃ k : NameClass, k.admits i.name = true) :
    ∃ c cs, i.written ctx = c :: cs ∧ isBlank c = false := by
  obtain ⟨k, hk⟩ := hn
  cases i with
  | definition d =>
    rw [written, Definition.written, Definition.writtenHead, List.append_assoc, List.append_assoc]
    exact marked_name_head d.modifier hk _
  | directive d => exact ⟨'%', _, rfl, by decide⟩
  | template t => exact marked_name_head t.modifier hk _

end Item

/-! ## The text of a grammar -/

namespace Grammar

/-- The items in the order of the text. -/
def parts (g : Grammar) : List (List Item) :=
  [g.terminals.values.map .definition, g.rules.values.map .definition,
    g.directives.map .directive, g.templates.values.map .template]

def items (g : Grammar) : List Item := g.parts.flatten

/-- The lines of a part, and an empty line. -/
def partLines (ctx : Context) (items : List Item) : List (List Char) :=
  items.map (·.written ctx) ++ [[]]

/-- The lines of the text. -/
def lines (ctx : Context) (g : Grammar) : List (List Char) := g.parts.flatMap (partLines ctx)

variable {ctx : Context} {g : Grammar}

theorem mem_items {i : Item} : i ∈ g.items ↔
    (∃ d ∈ g.terminals.values, .definition d = i) ∨ (∃ d ∈ g.rules.values, .definition d = i) ∨
      (∃ d ∈ g.directives, .directive d = i) ∨ ∃ t ∈ g.templates.values, .template t = i := by
  simp [items, parts]

theorem renderPart_writes (ctx : Context) (items : List Item) :
    Writes (renderPart (items.map (·.render ctx))) (terminated (partLines ctx items)) := by
  induction items with
  | nil => exact writes_emit "\n"
  | cons i items ih =>
    have h : Writes (renderPart ((i :: items).map (·.render ctx))) _ :=
      (i.render_writes ctx).seq ((writes_emit "\n").seq ih)
    simpa [partLines, terminated] using h

theorem render_eq_parts (ctx : Context) (g : Grammar) : g.render ctx = (do
    renderPart ((g.terminals.values.map Item.definition).map (·.render ctx))
    renderPart ((g.rules.values.map Item.definition).map (·.render ctx))
    renderPart ((g.directives.map Item.directive).map (·.render ctx))
    renderPart ((g.templates.values.map Item.template).map (·.render ctx))) := by
  simp only [List.map_map]
  rfl

theorem render_writes_lines (ctx : Context) (g : Grammar) :
    Writes (g.render ctx) (terminated (g.lines ctx)) := by
  rw [render_eq_parts]
  have h := (renderPart_writes ctx (g.terminals.values.map .definition)).seq
    ((renderPart_writes ctx (g.rules.values.map .definition)).seq
      ((renderPart_writes ctx (g.directives.map .directive)).seq
        (renderPart_writes ctx (g.templates.values.map .template))))
  simpa only [lines, parts, List.flatMap_cons, List.flatMap_nil, List.append_nil,
    terminated_append] using h

theorem renderPart_reports (ctx : Context) (items : List Item) :
    (renderPart (items.map (·.render ctx))).Reports (items.flatMap (Item.failures ctx)) := by
  induction items with
  | nil => exact succeeds_emit "\n"
  | cons i items ih =>
    rw [List.flatMap_cons]
    exact (i.render_reports ctx).seq (ih.after (succeeds_emit "\n"))

theorem render_reports (ctx : Context) (g : Grammar) :
    (g.render ctx).Reports (g.items.flatMap (Item.failures ctx)) := by
  rw [render_eq_parts]
  have h := (renderPart_reports ctx (g.terminals.values.map .definition)).seq
    ((renderPart_reports ctx (g.rules.values.map .definition)).seq
      ((renderPart_reports ctx (g.directives.map .directive)).seq
        (renderPart_reports ctx (g.templates.values.map .template))))
  simpa only [items, parts, List.flatten_cons, List.flatten_nil, List.flatMap_append,
    List.append_nil] using h

/-- If every item can be written, so can the grammar. -/
theorem render_succeeds_of_items (h : ∀ i ∈ g.items, Succeeds (i.render ctx)) :
    Succeeds (g.render ctx) := by
  rw [(g.render_reports ctx).succeeds_iff, List.flatMap_eq_nil_iff]
  intro i hi
  exact (i.render_reports ctx).succeeds_iff.mp (h i hi)

theorem succeeds_of_render {out out' : Emitter} (h : g.render ctx out = .ok () out') :
    ∀ i ∈ g.items, (i.render ctx).Succeeds := by
  have hnone := ((g.render_reports ctx).ok_iff out).mp ⟨out', h⟩
  rw [List.flatMap_eq_nil_iff] at hnone
  intro i hi
  exact (i.render_reports ctx).succeeds_iff.mpr (hnone i hi)

theorem generate_of_succeeds (h : ∀ i ∈ g.items, Succeeds (i.render ctx)) :
    g.generate ctx = .ok (Text.trim (String.ofList (terminated (g.lines ctx)))) := by
  rw [generate, text_eq (render_succeeds_of_items h) (render_writes_lines ctx g)]
  rfl

theorem succeeds_of_generate {text : String} (h : g.generate ctx = .ok text) :
    ∀ i ∈ g.items, Succeeds (i.render ctx) := by
  unfold generate at h
  cases hr : (g.render ctx).text with
  | error e =>
    rw [hr] at h
    cases h
  | ok s =>
    obtain ⟨out, hout, -⟩ := ok_of_text hr
    exact succeeds_of_render hout

theorem values_filed {α : Type} {name : α → String} {Ok : α → Prop} {es : Entries α}
    (h : Entries.Filed name Ok es) {v : α} (hv : v ∈ es.values) : Ok v := by
  obtain ⟨e, he, rfl⟩ := List.mem_map.mp hv
  exact (h.each e he).2

/-- In a grammar that operations reach, every item has a name. -/
theorem Consistent.admits_item (hg : g.Consistent) {i : Item} (hi : i ∈ g.items) :
    ∃ k : NameClass, k.admits i.name = true := by
  rcases mem_items.mp hi with ⟨d, hd, rfl⟩ | ⟨d, hd, rfl⟩ | ⟨d, hd, rfl⟩ | ⟨t, ht, rfl⟩
  · exact ⟨.terminal, nameProblem?_eq_none.mp (values_filed (hg.definitions .terminal) hd).2⟩
  · exact ⟨.rule, nameProblem?_eq_none.mp (values_filed (hg.definitions .rule) hd).2⟩
  · exact ⟨.rule, isRuleName_of_problem (hg.directives d hd)⟩
  · exact ⟨.rule, isRuleName_of_problem (values_filed hg.templates ht).1⟩

end Grammar

/-! ## One line for each definition -/

theorem Item.isFlush_written {i : Item} (ctx : Context)
    (hn : ∃ k : NameClass, k.admits i.name = true) : IsFlush (i.written ctx) := by
  obtain ⟨c, cs, hcs, hc⟩ := i.written_head ctx hn
  rw [hcs]
  intro d hd
  cases hd
  exact hc

theorem Item.text_eq {ctx : Context} {i : Item} (h : (i.render ctx).Succeeds) :
    (i.render ctx).text = .ok (String.ofList (i.written ctx)) :=
  Emission.text_eq h (i.render_writes ctx)

namespace Grammar

variable {ctx : Context} {g : Grammar}

theorem lines_not_break (hg : g.Consistent) (hb : ∀ i ∈ g.items, i.BreakFree ctx)
    (hi : ∀ i ∈ g.items, i.HandlesIssued ctx) : ∀ l ∈ g.lines ctx, '\n' ∉ l := by
  intro l hl
  obtain ⟨part, hpart, hl⟩ := List.mem_flatMap.mp hl
  rcases List.mem_append.mp hl with hl | hl
  · obtain ⟨i, him, rfl⟩ := List.mem_map.mp hl
    have hitem : i ∈ g.items := List.mem_flatten_of_mem hpart him
    exact Item.break_not_mem_written (hg.admits_item hitem) (hb i hitem) (hi i hitem)
  · rw [List.mem_singleton.mp hl]
    exact List.not_mem_nil

theorem lines_flush (hg : g.Consistent) : ∀ l ∈ g.lines ctx, IsFlush l := by
  intro l hl
  obtain ⟨part, hpart, hl⟩ := List.mem_flatMap.mp hl
  rcases List.mem_append.mp hl with hl | hl
  · obtain ⟨i, him, rfl⟩ := List.mem_map.mp hl
    exact i.isFlush_written ctx (hg.admits_item (List.mem_flatten_of_mem hpart him))
  · rw [List.mem_singleton.mp hl]
    exact fun c hc => nomatch hc

/-- The lines that are not empty are those of the items. -/
theorem filter_lines (hg : g.Consistent) :
    (g.lines ctx).filter (!·.isEmpty) = g.items.map (·.written ctx) := by
  have hpart : ∀ part ∈ g.parts,
      (partLines ctx part).filter (!·.isEmpty) = part.map (·.written ctx) := by
    intro part hpart
    have hall : ∀ l ∈ part.map (·.written ctx), (!l.isEmpty) = true := by
      intro l hl
      obtain ⟨i, him, rfl⟩ := List.mem_map.mp hl
      obtain ⟨c, cs, hcs, -⟩ :=
        i.written_head ctx (hg.admits_item (List.mem_flatten_of_mem hpart him))
      rw [hcs]
      rfl
    rw [partLines, List.filter_append, List.filter_eq_self.mpr hall]
    simp
  rw [lines, List.filter_flatMap, List.flatMap_congr hpart, items, List.map_flatten,
    List.flatMap_def]

theorem texts_alone {α : Type} {vs : List α} (f : α → Item)
    (h : ∀ v ∈ vs, ((f v).render ctx).Succeeds) :
    (vs.map fun v => ((f v).render ctx).text)
      = (vs.map fun v => String.ofList ((f v).written ctx)).map .ok := by
  rw [List.map_map]
  exact List.map_congr_left fun v hv => Item.text_eq (h v hv)

/-- A grammar that operations reach renders to one line for each definition. Cut at its line feeds,
the text is the line of every terminal, every rule, every directive and every template, in the order
in which they were filed, with an empty line behind each of the four and an empty rest. Each line is
the definition rendered alone. Of the trimmed text the lines that are not blank are the same lines,
where the last one may lose blanks at its end.

It takes that no text that is written as it is holds a line feed; the handles of the grammar have to
come from grammars. Texts, literals and the ends of ranges may hold any character. -/
theorem one_line_each (hg : g.IsReachable) (hb : ∀ i ∈ g.items, i.BreakFree ctx)
    (hi : ∀ i ∈ g.items, i.HandlesIssued ctx) {text : String}
    (hr : (g.render ctx).text = .ok text) :
    ∃ (terminals rules directives templates : List String) (generated : String),
      (g.terminals.values.map fun d => (d.render ctx).text) = terminals.map .ok ∧
      (g.rules.values.map fun d => (d.render ctx).text) = rules.map .ok ∧
      (g.directives.map fun d => (d.render ctx).text) = directives.map .ok ∧
      (g.templates.values.map fun t => (t.render ctx).text) = templates.map .ok ∧
      cutLines text.toList = (terminals ++ [""] ++ rules ++ [""] ++ directives ++ [""] ++ templates
        ++ [""] ++ [""]).map String.toList ∧
      g.generate ctx = .ok generated ∧
      (cutLines generated.toList).filter (!·.all isBlank)
        = trimLast ((terminals ++ rules ++ directives ++ templates).map String.toList) := by
  have hc := hg.consistent
  obtain ⟨out, hout, rfl⟩ := ok_of_text hr
  have hall := succeeds_of_render hout
  have htext : out.text.toList = terminated (g.lines ctx) := render_writes_lines ctx g _ _ hout
  have hbreak := lines_not_break hc hb hi
  refine ⟨g.terminals.values.map fun d => String.ofList ((Item.definition d).written ctx),
    g.rules.values.map fun d => String.ofList ((Item.definition d).written ctx),
    g.directives.map fun d => String.ofList ((Item.directive d).written ctx),
    g.templates.values.map fun t => String.ofList ((Item.template t).written ctx),
    Text.trim out.text,
    texts_alone Item.definition fun d hd => hall _ (mem_items.mpr (Or.inl ⟨d, hd, rfl⟩)),
    texts_alone Item.definition fun d hd => hall _ (mem_items.mpr (Or.inr (Or.inl ⟨d, hd, rfl⟩))),
    texts_alone Item.directive fun d hd =>
      hall _ (mem_items.mpr (Or.inr (Or.inr (Or.inl ⟨d, hd, rfl⟩)))),
    texts_alone Item.template fun t ht =>
      hall _ (mem_items.mpr (Or.inr (Or.inr (Or.inr ⟨t, ht, rfl⟩)))), ?_, ?_, ?_⟩
  · have hcut : cutLines (terminated (g.lines ctx) ++ []) = g.lines ctx ++ [[]] :=
      cutLines_terminated hbreak List.not_mem_nil
    rw [htext, ← List.append_nil (terminated _), hcut]
    simp [lines, parts, partLines, Function.comp_def]
  · rw [generate, hr]
    rfl
  · rw [Text.trim, String.toList_ofList, htext, cutLines_trimChars hbreak (lines_flush hc),
      filter_lines hc]
    simp [items, parts, Function.comp_def]

/-- A rule with a line feed inside of a literal, and a directive with a blank at its end. -/
def wordsAndIgnore : Grammar := (Grammar.new 0).runAll
  [.define "words" { tokens := [.text "a\nb", .handle ⟨.rule, "words", 0⟩] },
    .appendDirective "ignore" (.raw "WS ")]

theorem wordsAndIgnore_lines :
    wordsAndIgnore.IsReachable ∧ (∀ i ∈ wordsAndIgnore.items, i.BreakFree {}) ∧
      (∀ i ∈ wordsAndIgnore.items, i.HandlesIssued {}) ∧
      (wordsAndIgnore.render {}).text = .ok "\nwords: \"a\\nb\" words\n\n%ignore WS \n\n\n" ∧
      ∃ generated, wordsAndIgnore.generate {} = .ok generated ∧
        (cutLines generated.toList).filter (!·.all isBlank)
          = ["words: \"a\\nb\" words".toList, "%ignore WS".toList] := by
  have hitems : wordsAndIgnore.items =
      [.definition ⟨.rule, "words", [.text "a\nb", .handle ⟨.rule, "words", 0⟩], .none, 1⟩,
        .directive ⟨"ignore", .raw "WS "⟩] := rfl
  have hreach : wordsAndIgnore.IsReachable := ⟨0, _, rfl⟩
  have hb : ∀ i ∈ wordsAndIgnore.items, i.BreakFree {} := by
    rw [hitems]
    refine List.forall_mem_cons.mpr ⟨⟨nofun, ?_⟩, List.forall_mem_singleton.mpr ⟨?_, nofun⟩⟩
    · refine List.forall_mem_cons.mpr ⟨fun x hx => ?_, List.forall_mem_singleton.mpr fun x hx => ?_⟩
      all_goals
        rw [hx.of_leaf rfl]
        exact fun _ h => nomatch h
    · rintro d text ⟨⟩ ⟨⟩
      decide
  have hi : ∀ i ∈ wordsAndIgnore.items, i.HandlesIssued {} := by
    rw [hitems]
    refine List.forall_mem_cons.mpr ⟨?_, List.forall_mem_singleton.mpr nofun⟩
    refine List.forall_mem_cons.mpr ⟨fun h hh => ?_, List.forall_mem_singleton.mpr fun h hh => ?_⟩
    · exact nomatch hh.of_leaf rfl
    · cases hh.of_leaf rfl
      exact ⟨Grammar.new 0, Or.inl rfl⟩
  have hr : (wordsAndIgnore.render {}).text
      = .ok "\nwords: \"a\\nb\" words\n\n%ignore WS \n\n\n" := rfl
  obtain ⟨terminals, rules, directives, templates, generated, ht, hrules, hd, htemplates, -, hgen,
    hlines⟩ := one_line_each hreach hb hi hr
  refine ⟨hreach, hb, hi, hr, generated, hgen, ?_⟩
  have hok : Function.Injective (List.map (.ok : String → Except GrammarError String)) :=
    List.map_injective_iff.mpr fun _ _ => Except.ok.inj
  have hterminals : terminals = [] := hok ht.symm
  have hrules : rules = ["words: \"a\\nb\" words"] := hok hrules.symm
  have hdirectives : directives = ["%ignore WS "] := hok hd.symm
  have htemplates : templates = [] := hok htemplates.symm
  rw [hlines, hterminals, hrules, hdirectives, htemplates]
  rfl

end Grammar

end GrammarText
