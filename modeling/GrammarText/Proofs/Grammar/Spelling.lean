import GrammarText.Proofs.Expr.Rewrite

/-!
The short forms of expressions may be written out anywhere.

- `Item.mapExprs`, `Grammar.mapExprs`: a change made to every expression that an item, or a grammar,
  holds. What the change keeps of each expression, it keeps of the item and of the grammar
  (`render_mapExprs`, `scope_mapExprs`, `describe_mapExprs`).
- `Expr.grouped`: a `group` for a `tuple` and an `optional` for a `list`. `Expr.spelledOut` puts a
  literal for a text, too.
- `short_forms_written_out`: at every depth either change leaves the text and the references, and the
  first one the dump.
-/

namespace GrammarText

variable {ctx : Context} {f : Expr → Expr}

/-! ## Every expression of an item -/

def Definition.mapExprs (f : Expr → Expr) (d : Definition) : Definition :=
  { d with tokens := d.tokens.map f }

def TemplateDef.mapExprs (f : Expr → Expr) (t : TemplateDef) : TemplateDef :=
  { t with params := t.params.map f, tokens := t.tokens.map f }

/-- A raw text holds no expression. -/
def DirectiveContent.mapExprs (f : Expr → Expr) : DirectiveContent → DirectiveContent
  | raw text => raw text
  | node e => node (f e)

def Directive.mapExprs (f : Expr → Expr) (d : Directive) : Directive :=
  { d with content := d.content.mapExprs f }

namespace Item

def mapExprs (f : Expr → Expr) : Item → Item
  | definition d => definition (d.mapExprs f)
  | directive d => directive (d.mapExprs f)
  | template t => template (t.mapExprs f)

def describe : Item → String
  | definition d => d.describe
  | directive d => d.describe
  | template t => t.describe

theorem render_mapExprs (h : ∀ e, Expr.render ctx (f e) = Expr.render ctx e) (i : Item) :
    (i.mapExprs f).render ctx = i.render ctx := by
  have hrow : ∀ sep items, Expr.renderSeparated ctx sep (items.map f)
      = Expr.renderSeparated ctx sep items := fun sep _ => Expr.renderSeparated_map sep fun x _ => h x
  cases i with
  | definition d =>
    show (do d.renderHead; Expr.renderSeparated ctx " " (d.tokens.map f)) = d.render ctx
    rw [hrow, Definition.render]
  | directive d =>
    obtain ⟨name, content⟩ := d
    cases content with
    | raw text => rfl
    | node e => simp only [mapExprs, render, Directive.mapExprs, DirectiveContent.mapExprs,
        Directive.render, h]
  | template t =>
    simp only [mapExprs, render, TemplateDef.mapExprs, TemplateDef.render, Expr.renderWrapped, hrow]

theorem scope_mapExprs (h : ∀ e, Expr.references (f e) = Expr.references e) (i : Item) :
    (i.mapExprs f).scope = i.scope := by
  have hrow : ∀ items, Expr.referencesAll (items.map f) = Expr.referencesAll items := by
    intro items
    rw [Expr.referencesAll_eq, Expr.referencesAll_eq, List.flatMap_map]
    exact List.flatMap_congr fun e _ => h e
  cases i with
  | definition d => simp only [mapExprs, scope, Definition.mapExprs, Definition.references, hrow]
  | directive d =>
    obtain ⟨name, content⟩ := d
    cases content with
    | raw text => rfl
    | node e => simp only [mapExprs, scope, Directive.mapExprs, DirectiveContent.mapExprs,
        Directive.references, h]
  | template t => simp only [mapExprs, scope, TemplateDef.mapExprs, TemplateDef.references, hrow]

theorem describe_mapExprs (h : ∀ e, Expr.describe (f e) = Expr.describe e) (i : Item) :
    (i.mapExprs f).describe = i.describe := by
  have hrow : ∀ items, Expr.describeAll (items.map f) = Expr.describeAll items := by
    intro items
    rw [Expr.describeAll_eq, Expr.describeAll_eq, List.map_map]
    exact List.map_congr_left fun e _ => h e
  cases i with
  | definition d => simp only [mapExprs, describe, Definition.mapExprs, Definition.describe, hrow]
  | directive d =>
    obtain ⟨name, content⟩ := d
    cases content with
    | raw text => rfl
    | node e => simp only [mapExprs, describe, Directive.mapExprs, DirectiveContent.mapExprs,
        Directive.describe, h]
  | template t => simp only [mapExprs, describe, TemplateDef.mapExprs, TemplateDef.describe, hrow]

end Item

/-! ## Every expression of a grammar -/

namespace Entries

variable {α : Type}

/-- The entries with each value changed at its place. -/
def mapValues (change : α → α) (es : Entries α) : Entries α := es.map fun e => (e.1, change e.2)

theorem values_mapValues (change : α → α) (es : Entries α) :
    (es.mapValues change).values = es.values.map change := by
  simp [mapValues, values]

theorem has_mapValues (change : α → α) (es : Entries α) (key : String) :
    (es.mapValues change).has key = es.has key := by
  have hkeys : (es.mapValues change).keys = es.keys := by simp [mapValues, keys]
  rw [Bool.eq_iff_iff, has_iff, has_iff, hkeys]

end Entries

namespace Grammar

/-- The grammar with `f` applied to every token, parameter and node that it holds. -/
def mapExprs (f : Expr → Expr) (g : Grammar) : Grammar :=
  { g with
    rules := g.rules.mapValues (·.mapExprs f)
    terminals := g.terminals.mapValues (·.mapExprs f)
    templates := g.templates.mapValues (·.mapExprs f)
    directives := g.directives.map (·.mapExprs f) }

theorem items_mapExprs (f : Expr → Expr) (g : Grammar) :
    (g.mapExprs f).items = g.items.map (Item.mapExprs f) := by
  simp only [items, parts, mapExprs, Entries.values_mapValues, List.map_flatten, List.map_cons,
    List.map_nil, List.map_map]
  rfl

theorem render_mapExprs (h : ∀ e, Expr.render ctx (f e) = Expr.render ctx e) (g : Grammar) :
    (g.mapExprs f).render ctx = g.render ctx := by
  have hitem := Item.render_mapExprs h
  have hdefinition := fun d => hitem (.definition d)
  have hdirective := fun d => hitem (.directive d)
  have htemplate := fun t => hitem (.template t)
  simp only [Item.mapExprs, Item.render] at hdefinition hdirective htemplate
  simp only [render, mapExprs, Entries.values_mapValues, List.map_map, Function.comp_def,
    hdefinition, hdirective, htemplate]

theorem generate_mapExprs (h : ∀ e, Expr.render ctx (f e) = Expr.render ctx e) (g : Grammar) :
    (g.mapExprs f).generate ctx = g.generate ctx := by
  rw [generate, render_mapExprs h, generate]

theorem describe_mapExprs (h : ∀ e, Expr.describe (f e) = Expr.describe e) (g : Grammar) :
    (g.mapExprs f).describe = g.describe := by
  have hitem := Item.describe_mapExprs h
  have hdefinition := fun d => hitem (.definition d)
  have hdirective := fun d => hitem (.directive d)
  have htemplate := fun t => hitem (.template t)
  simp only [Item.mapExprs, Item.describe] at hdefinition hdirective htemplate
  simp only [describe, mapExprs, Entries.values_mapValues, List.map_map, Function.comp_def,
    hdefinition, hdirective, htemplate]

theorem isDefined_mapExprs (f : Expr → Expr) (g : Grammar) (name : String) :
    (g.mapExprs f).isDefined name = g.isDefined name := by
  simp only [isDefined, mapExprs, Entries.has_mapValues]

theorem declaredNames_mapExprs (f : Expr → Expr) (d : Directive) :
    (d.mapExprs f).declaredNames = d.declaredNames := by
  obtain ⟨name, content⟩ := d
  cases content <;> rfl

/-- The check looks at the names under which definitions are filed, at raw texts, and at references. -/
theorem undefinedReferences_mapExprs (h : ∀ e, Expr.references (f e) = Expr.references e)
    (g : Grammar) : (g.mapExprs f).undefinedReferences = g.undefinedReferences := by
  have hscopes : (g.mapExprs f).scopes = g.scopes := by
    rw [scopes_eq, scopes_eq, items_mapExprs, List.map_map]
    exact List.map_congr_left fun i _ => Item.scope_mapExprs h i
  have hdeclared : (g.mapExprs f).directives.flatMap (·.declaredNames)
      = g.directives.flatMap (·.declaredNames) := by
    simp only [mapExprs, List.flatMap_map, declaredNames_mapExprs]
  simp only [undefinedReferences, hscopes, hdeclared, isDefined_mapExprs]

end Grammar

/-! ## Short forms -/

namespace Expr

/-- The long form of a `tuple` or a `list`. -/
def grouped : Expr → Expr
  | tuple items => group items
  | list items => optional items
  | e => e

theorem render_grouped (ctx : Context) (e : Expr) : render ctx (grouped e) = render ctx e := by
  cases e with
  | tuple | list => rw [grouped, render, render]
  | _ => rfl

theorem references_grouped (e : Expr) : references (grouped e) = references e := by
  cases e with
  | tuple | list => rw [grouped, references, references]
  | _ => rfl

theorem describe_grouped (e : Expr) : describe (grouped e) = describe e := by
  cases e with
  | tuple | list => rw [grouped, describe, describe]
  | _ => rfl

theorem render_spelledOut (ctx : Context) (e : Expr) :
    render ctx (spelledOut e) = render ctx e := by
  cases e with
  | text s => rw [spelledOut, render, render, writtenLiteral, String.append_empty]
  | tuple | list => rw [spelledOut, render, render]
  | _ => rfl

theorem references_spelledOut (e : Expr) : references (spelledOut e) = references e := by
  cases e with
  | text | tuple | list => rw [spelledOut, references, references]
  | _ => rfl

end Expr

open GrammarText.Expr (rewrite grouped spelledOut)

/-- The short forms and the long ones are interchangeable. A `group` for every `tuple` and an
`optional` for every `list`, at every depth of an expression but in what variables resolve to, leave
the fragments or the error, the references, and the dump. With a literal for every text, too, the
fragments or the error stay, and the references. The same holds of the line, the references and the
dump of an item, whose every token, parameter or node is changed so, and of the text, the undefined
references and the dump of a grammar. -/
theorem short_forms_written_out (ctx : Context) :
    (∀ t : Expr, (rewrite grouped t).render ctx = t.render ctx ∧
      (rewrite grouped t).references = t.references ∧
      (rewrite grouped t).describe = t.describe ∧
      (rewrite spelledOut t).render ctx = t.render ctx ∧
      (rewrite spelledOut t).references = t.references) ∧
    (∀ i : Item, (i.mapExprs (rewrite grouped)).render ctx = i.render ctx ∧
      (i.mapExprs (rewrite grouped)).scope = i.scope ∧
      (i.mapExprs (rewrite grouped)).describe = i.describe ∧
      (i.mapExprs (rewrite spelledOut)).render ctx = i.render ctx ∧
      (i.mapExprs (rewrite spelledOut)).scope = i.scope) ∧
    ∀ g : Grammar, (g.mapExprs (rewrite grouped)).generate ctx = g.generate ctx ∧
      (g.mapExprs (rewrite grouped)).undefinedReferences = g.undefinedReferences ∧
      (g.mapExprs (rewrite grouped)).describe = g.describe ∧
      (g.mapExprs (rewrite spelledOut)).generate ctx = g.generate ctx ∧
      (g.mapExprs (rewrite spelledOut)).undefinedReferences = g.undefinedReferences := by
  have hgrouped := Expr.render_rewrite (Expr.render_grouped ctx)
  have hgroupedNames := Expr.references_rewrite Expr.references_grouped
  have hgroupedDump := Expr.describe_rewrite Expr.describe_grouped
  have hspelled := Expr.render_rewrite (Expr.render_spelledOut ctx)
  have hspelledNames := Expr.references_rewrite Expr.references_spelledOut
  refine ⟨fun t => ?_, fun i => ?_, fun g => ?_⟩
  · exact ⟨hgrouped t, hgroupedNames t, hgroupedDump t, hspelled t, hspelledNames t⟩
  · exact ⟨i.render_mapExprs hgrouped, i.scope_mapExprs hgroupedNames,
      i.describe_mapExprs hgroupedDump, i.render_mapExprs hspelled, i.scope_mapExprs hspelledNames⟩
  · exact ⟨g.generate_mapExprs hgrouped, g.undefinedReferences_mapExprs hgroupedNames,
      g.describe_mapExprs hgroupedDump, g.generate_mapExprs hspelled,
      g.undefinedReferences_mapExprs hspelledNames⟩

/-- In a dump a text and a literal differ. -/
example : (rewrite spelledOut (.text "a")).describe ≠ (Expr.text "a").describe := by decide

end GrammarText
