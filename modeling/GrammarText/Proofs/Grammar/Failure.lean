import GrammarText.Expr.Variable
import GrammarText.Proofs.Expr.Failure
import GrammarText.Proofs.Grammar.Commutation
import GrammarText.Proofs.Grammar.Undefined

/-!
When the text of a grammar is refused, and with which error.

- `Item.FailsAt`: the variables on the line of an item that fail, each at its position.
- `Grammar.generate_eq`: the lines of a grammar and the errors of its variables decide its text.
- `Grammar.generate_outcome`: a grammar has a text, or the error of its first item that fails.
- `fails_exactly_at_first`: expressions, items and grammars fail exactly where a variable to which
  rendering comes does, with the error of the first one.
-/

namespace GrammarText

open Emission

/-! ## Items -/

namespace Item

variable {ctx : Context}

/-- On the line of the item, behind the index of the expression, stands a variable that fails. -/
def FailsAt (ctx : Context) (i : Item) : Position → GrammarError → Prop :=
  Row (Expr.FailsAt ctx) i.expressions

theorem listed_failures (ctx : Context) (i : Item) : Listed (i.FailsAt ctx) (i.failures ctx) :=
  Listed.row fun e _ => Expr.listed_failures ctx e

end Item

/-! ## Grammars -/

namespace Grammar

variable {ctx : Context} {g : Grammar}

theorem generate_eq_error {err : GrammarError} :
    g.generate ctx = .error err ↔ (g.render ctx).text = .error err := by
  unfold generate
  cases (g.render ctx).text <;> simp [Except.map]

/-- The first error of a variable on the lines of the grammar is that of the text. Without one the
lines are the text. -/
theorem generate_eq (ctx : Context) (g : Grammar) :
    g.generate ctx = match g.items.flatMap (Item.failures ctx) with
      | err :: _ => .error err
      | [] => .ok (Text.trim (String.ofList (Text.terminated (g.lines ctx)))) := by
  have hreports := g.render_reports ctx
  cases herrs : g.items.flatMap (Item.failures ctx) with
  | cons err errs =>
    rw [herrs] at hreports
    exact generate_eq_error.mpr (text_eq_error.mpr (hreports _))
  | nil =>
    refine generate_of_succeeds fun i hi => ?_
    exact (i.render_reports ctx).succeeds_iff.mpr (List.flatMap_eq_nil_iff.mp herrs i hi)

/-- Of some items either none fails, or one is the first to fail and gives the first error. -/
theorem all_succeed_or_first_fails (ctx : Context) (items : List Item) :
    (∀ i ∈ items, (i.render ctx).Succeeds) ∨
      ∃ front i back err, items = front ++ i :: back ∧ (∀ j ∈ front, (j.render ctx).Succeeds) ∧
        (i.render ctx).text = .error err ∧
        (items.flatMap (Item.failures ctx)).head? = some err := by
  induction items with
  | nil => exact Or.inl fun _ h => nomatch h
  | cons i items ih =>
    have hi := i.render_reports ctx
    cases hf : i.failures ctx with
    | cons err errs =>
      refine Or.inr ⟨[], i, items, err, rfl, (fun _ h => nomatch h), ?_, by simp [hf]⟩
      exact text_eq_error.mpr ((hi.error_iff _).mpr (by rw [hf]; rfl))
    | nil =>
      have hs : (i.render ctx).Succeeds := by rwa [hf] at hi
      rcases ih with hall | ⟨front, j, back, err, rfl, hfront, hj, hhead⟩
      · exact Or.inl (List.forall_mem_cons.mpr ⟨hs, hall⟩)
      · exact Or.inr ⟨i :: front, j, back, err, rfl, List.forall_mem_cons.mpr ⟨hs, hfront⟩, hj,
          by rwa [List.flatMap_cons, hf, List.nil_append]⟩

/-- A grammar has a text, or is refused with the error of its first item that is. -/
theorem generate_outcome (ctx : Context) (g : Grammar) :
    (∀ i ∈ g.items, (i.render ctx).Succeeds) ∧ g.PrintsLines ctx ∨
      ∃ front i back err, g.items = front ++ i :: back ∧ (∀ j ∈ front, (j.render ctx).Succeeds) ∧
        (i.render ctx).text = .error err ∧ g.generate ctx = .error err := by
  rcases all_succeed_or_first_fails ctx g.items with
    hall | ⟨front, i, back, err, hitems, hfront, hi, hhead⟩
  · exact Or.inl ⟨hall, printsLines_of_succeeds hall⟩
  · refine Or.inr ⟨front, i, back, err, hitems, hfront, hi, generate_eq_error.mpr ?_⟩
    exact text_eq_error.mpr (((g.render_reports ctx).error_iff _).mpr hhead)

end Grammar

/-- Rendering fails exactly with the error of the first failing variable to which it comes.

Rendering comes to what stands at a position that goes through the picked sides of branches and
through what variables resolve to. An expression, on whatever emitter, fails with an error exactly
if that is the error of a variable at the first position where one fails, and succeeds exactly if
none fails; so does the line of a definition, directive or template. A grammar has its complete
text, or the error of the first item that fails. Without variables nothing fails, and what stands on
the sides that are not picked, be it a failing variable, has no effect. -/
theorem fails_exactly_at_first (ctx : Context) :
    (∀ (e : Expr) (out : Emitter),
      (∀ err, (∃ out', e.render ctx out = .error err out') ↔ IsFirst (e.FailsAt ctx) err) ∧
        ((∃ out', e.render ctx out = .ok () out') ↔ ∀ p err, ¬ e.FailsAt ctx p err)) ∧
    (∀ (i : Item) (out : Emitter),
      (∀ err, (∃ out', i.render ctx out = .error err out') ↔ IsFirst (i.FailsAt ctx) err) ∧
        ((∃ out', i.render ctx out = .ok () out') ↔ ∀ p err, ¬ i.FailsAt ctx p err)) ∧
    (∀ g : Grammar,
      (∀ i ∈ g.items, (i.render ctx).Succeeds) ∧ g.PrintsLines ctx ∨
        ∃ front i back err, g.items = front ++ i :: back ∧
          (∀ j ∈ front, (j.render ctx).Succeeds) ∧
          (i.render ctx).text = .error err ∧ g.generate ctx = .error err) ∧
    (∀ e : Expr, e.holdsVariable = false → (e.render ctx).Succeeds) ∧
    ∀ filler e : Expr, (Expr.refilled ctx filler e).render ctx = e.render ctx := by
  refine ⟨fun e out => ?_, fun i out => ?_, Grammar.generate_outcome ctx, Expr.render_succeeds ctx,
    Expr.render_refilled ctx⟩
  · have hreports := Expr.render_reports ctx e
    have hlisted := Expr.listed_failures ctx e
    exact ⟨fun err => (hreports.error_iff out).trans hlisted.isFirst_iff.symm,
      (hreports.ok_iff out).trans hlisted.eq_nil_iff⟩
  · have hreports := i.render_reports ctx
    have hlisted := i.listed_failures ctx
    exact ⟨fun err => (hreports.error_iff out).trans hlisted.isFirst_iff.symm,
      (hreports.ok_iff out).trans hlisted.eq_nil_iff⟩

/-- A failing variable on a side that is not picked, then one inside of what a variable resolves to,
then another. -/
def threeMissing : Expr := .group
  [.branch "strict" false (.verbatimVariable none "unpicked") (.text "a"),
    .constantVariable none (.choice [.text "b", .verbatimVariable none "first"]),
    .verbatimVariable none "second"]

theorem threeMissing_fails :
    (∃ out, threeMissing.render {} .empty = .error (.missingContext "first") out) ∧
      IsFirst (threeMissing.FailsAt {}) (.missingContext "first") ∧
      (Expr.text "a").holdsVariable = false ∧ ((Expr.text "a").render {}).Succeeds := by
  have hfails : ∃ out, threeMissing.render {} .empty = .error (.missingContext "first") out :=
    ⟨_, rfl⟩
  obtain ⟨hexpr, -, -, hplain, -⟩ := fails_exactly_at_first {}
  exact ⟨hfails, ((hexpr threeMissing .empty).1 _).mp hfails, rfl, hplain _ rfl⟩

end GrammarText
