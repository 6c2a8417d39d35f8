import GrammarText.Proofs.Grammar.Undefined

/-!
What a grammar asks its context.

- `Expr.questions`: the keys of all branches of an expression, each with the answer for an absent key.
  Both sides of a branch count.
- `Context.AgreeOn`: two contexts answer the same questions alike.
- `Expr.render_congr`: an expression without a variable is written alike under two contexts that agree
  on its questions. `Grammar.render_congr`: so is a grammar.
-/

namespace GrammarText

/-- The contexts give the same answers. -/
def Context.AgreeOn (c₁ c₂ : Context) (questions : List (String × Bool)) : Prop :=
  ∀ q ∈ questions, c₁.getBool q.1 q.2 = c₂.getBool q.1 q.2

theorem Context.AgreeOn.of_subset {c₁ c₂ : Context} {qs all : List (String × Bool)}
    (h : c₁.AgreeOn c₂ all) (hsub : ∀ q ∈ qs, q ∈ all) : c₁.AgreeOn c₂ qs :=
  fun q hq => h q (hsub q hq)

theorem Context.AgreeOn.append {c₁ c₂ : Context} {ps qs : List (String × Bool)}
    (h : c₁.AgreeOn c₂ (ps ++ qs)) : c₁.AgreeOn c₂ ps ∧ c₁.AgreeOn c₂ qs :=
  List.forall_mem_append.mp h

/-! ## Expressions -/

namespace Expr

mutual

/-- The keys that branches ask for, with what counts where there is no value. -/
def questions : Expr → List (String × Bool)
  | branch key default yes no => (key, default) :: (questions yes ++ questions no)
  | tuple items | list items | group items | optional items | choice items => questionsAll items
  | repetition _ items | aliased _ items | template _ items => questionsAll items
  | bounded content _ => questions content
  | text _ | literal .. | regexp .. | verbatim _ | handle _ | range .. | deferred .. => []

def questionsAll : List Expr → List (String × Bool)
  | [] => []
  | e :: rest => questions e ++ questionsAll rest

end

theorem mem_questionsAll {q : String × Bool} {items : List Expr} :
    q ∈ questionsAll items ↔ ∃ e ∈ items, q ∈ questions e := by
  induction items with
  | nil => simp [questionsAll]
  | cons e rest ih => simp [questionsAll, ih]

variable {c₁ c₂ : Context}

mutual

/-- Of the context an expression without a variable sees the answers alone. -/
theorem render_congr : ∀ e, holdsVariable e = false → c₁.AgreeOn c₂ (questions e) →
    render c₁ e = render c₂ e
  | text _, _, _ => by rw [render, render]
  | literal .., _, _ => by rw [render, render]
  | regexp .., _, _ => by rw [render, render]
  | verbatim _, _, _ => by rw [render, render]
  | handle _, _, _ => by rw [render, render]
  | range .., _, _ => by rw [render, render]
  | tuple items, hv, h => by rw [render, render, renderSeparated_congr " " items hv h]
  | list items, hv, h => by rw [render, render, renderSeparated_congr " " items hv h]
  | group items, hv, h => by rw [render, render, renderSeparated_congr " " items hv h]
  | optional items, hv, h => by rw [render, render, renderSeparated_congr " " items hv h]
  | choice items, hv, h => by rw [render, render, renderSeparated_congr " | " items hv h]
  | repetition _ items, hv, h => by rw [render, render, renderSeparated_congr " " items hv h]
  | aliased _ items, hv, h => by rw [render, render, renderSeparated_congr " " items hv h]
  | template _ args, hv, h => by rw [render, render, renderSeparated_congr ", " args hv h]
  | bounded content _, hv, h => by rw [render, render, render_congr content hv h]
  | branch key default yes no, hv, h => by
    rw [holdsVariable, Bool.or_eq_false_iff] at hv
    rw [questions] at h
    have hkey : c₁.getBool key default = c₂.getBool key default := h _ List.mem_cons_self
    have hsides := (h.of_subset fun q hq => List.mem_cons_of_mem _ hq).append
    -- both contexts pick the same side
    rw [render, render, hkey, render_congr yes hv.1 hsides.1, render_congr no hv.2 hsides.2]

theorem renderSeparated_congr (sep : String) : ∀ items, anyHoldsVariable items = false →
    c₁.AgreeOn c₂ (questionsAll items) → renderSeparated c₁ sep items = renderSeparated c₂ sep items
  | [], _, _ => by rw [renderSeparated, renderSeparated]
  | [e], hv, h => by
    rw [anyHoldsVariable, Bool.or_eq_false_iff] at hv
    rw [renderSeparated, renderSeparated, render_congr e hv.1 h.append.1]
  | e :: f :: rest, hv, h => by
    rw [anyHoldsVariable, Bool.or_eq_false_iff] at hv
    rw [renderSeparated, renderSeparated, render_congr e hv.1 h.append.1,
      renderSeparated_congr sep (f :: rest) hv.2 h.append.2]

end

end Expr

/-! ## Items -/

namespace Item

def questions (i : Item) : List (String × Bool) := Expr.questionsAll i.expressions

variable {c₁ c₂ : Context}

theorem render_congr {i : Item} (hv : Expr.anyHoldsVariable i.expressions = false)
    (h : c₁.AgreeOn c₂ i.questions) : i.render c₁ = i.render c₂ := by
  have hrow : ∀ sep items, (∀ x ∈ items, x ∈ i.expressions) →
      Expr.renderSeparated c₁ sep items = Expr.renderSeparated c₂ sep items := by
    intro sep items hsub
    refine Expr.renderSeparated_congr sep items (Expr.anyHoldsVariable_of_subset hsub hv)
      (h.of_subset fun q hq => ?_)
    obtain ⟨e, he, hq⟩ := Expr.mem_questionsAll.mp hq
    exact Expr.mem_questionsAll.mpr ⟨e, hsub e he, hq⟩
  cases i with
  | definition d =>
    have htokens := hrow " " d.tokens fun _ hx => hx
    simp only [render, Definition.render, htokens]
  | directive d =>
    obtain ⟨name, content⟩ := d
    cases content with
    | raw text => rfl
    | node e =>
      have hcontent := hrow "" [e] fun _ hx => hx
      simp only [Expr.renderSeparated] at hcontent
      simp only [render, Directive.render, hcontent]
  | template t =>
    have hparams := hrow ", " t.params fun _ hx => List.mem_append_left _ hx
    have htokens := hrow " " t.tokens fun _ hx => List.mem_append_right _ hx
    simp only [render, TemplateDef.render, Expr.renderWrapped, hparams, htokens]

end Item

/-! ## Grammars -/

namespace Grammar

/-- The questions of all definitions, directives and templates. -/
def questions (g : Grammar) : List (String × Bool) := g.items.flatMap Item.questions

variable {c₁ c₂ : Context} {g : Grammar}

theorem item_render_congr (hv : ∀ i ∈ g.items, Expr.anyHoldsVariable i.expressions = false)
    (h : c₁.AgreeOn c₂ g.questions) : ∀ i ∈ g.items, i.render c₁ = i.render c₂ :=
  fun i hi => i.render_congr (hv i hi)
    (h.of_subset fun _ hq => List.mem_flatMap.mpr ⟨i, hi, hq⟩)

theorem render_congr (hv : ∀ i ∈ g.items, Expr.anyHoldsVariable i.expressions = false)
    (h : c₁.AgreeOn c₂ g.questions) : g.render c₁ = g.render c₂ := by
  have hpart : ∀ part ∈ g.parts, part.map (·.render c₁) = part.map (·.render c₂) := by
    intro part hpart
    refine List.map_congr_left fun i hi => ?_
    exact item_render_congr hv h i (List.mem_flatten_of_mem hpart hi)
  simp only [parts, List.forall_mem_cons] at hpart
  obtain ⟨hterminals, hrules, hdirectives, htemplates, -⟩ := hpart
  rw [render_eq_parts, render_eq_parts, hterminals, hrules, hdirectives, htemplates]

end Grammar

end GrammarText
