import GrammarText.Proofs.Expr.Trace
import GrammarText.Proofs.Grammar.FirstReference
import Mathlib.Data.List.Flatten

/-!
Expressions changed at every depth.

- `Expr.child_induct`: the induction over the expressions one level down, whatever the context.
- `Expr.mapChildren`: an expression with others one level down. Its text, its references and its dump
  are made of theirs (`render_mapChildren`, `references_mapChildren`, `describe_mapChildren`).
- `Expr.rewrite`: an expression with a change made at every position, from the leaves up. A variable
  is a leaf.
- `render_rewrite`, `references_rewrite`, `describe_rewrite`: what a change keeps where it is made, it
  keeps at every depth.
-/

namespace GrammarText.Expr

/-! ## One level down -/

mutual

/-- A property that passes from the children of an expression to it holds of every expression. -/
theorem child_induct {motive : Expr → Prop} (step : ∀ e, (∀ x ∈ children e, motive x) → motive e) :
    ∀ e, motive e
  | text _ | literal .. | regexp .. | verbatim _ | handle _ | range .. | deferred .. =>
    step _ fun _ h => nomatch h
  | tuple items => step _ (child_induct_items step items)
  | list items => step _ (child_induct_items step items)
  | group items => step _ (child_induct_items step items)
  | optional items => step _ (child_induct_items step items)
  | choice items => step _ (child_induct_items step items)
  | repetition _ items => step _ (child_induct_items step items)
  | aliased _ items => step _ (child_induct_items step items)
  | template _ items => step _ (child_induct_items step items)
  | bounded content _ => step _ (List.forall_mem_singleton.mpr (child_induct step content))
  | branch _ _ yes no => step _ (List.forall_mem_cons.mpr
    ⟨child_induct step yes, List.forall_mem_singleton.mpr (child_induct step no)⟩)

theorem child_induct_items {motive : Expr → Prop}
    (step : ∀ e, (∀ x ∈ children e, motive x) → motive e) :
    ∀ items : List Expr, ∀ x ∈ items, motive x
  | [] => fun _ h => nomatch h
  | e :: rest => List.forall_mem_cons.mpr ⟨child_induct step e, child_induct_items step rest⟩

end

/-- The same expression with other children. -/
def mapChildren (f : Expr → Expr) : Expr → Expr
  | tuple items => tuple (items.map f)
  | list items => list (items.map f)
  | template name args => template name (args.map f)
  | group items => group (items.map f)
  | optional items => optional (items.map f)
  | choice items => choice (items.map f)
  | repetition op items => repetition op (items.map f)
  | bounded content bound => bounded (f content) bound
  | aliased name items => aliased name (items.map f)
  | branch key default yes no => branch key default (f yes) (f no)
  | e@(text _) | e@(literal ..) | e@(regexp ..) | e@(verbatim _) | e@(handle _) | e@(range ..)
  | e@(deferred ..) => e

variable {ctx : Context} {f : Expr → Expr} {items : List Expr}

theorem children_mapChildren (f : Expr → Expr) (e : Expr) :
    children (mapChildren f e) = (children e).map f := by
  cases e <;> rfl

theorem ownNames_mapChildren (f : Expr → Expr) (e : Expr) :
    ownNames (mapChildren f e) = ownNames e := by
  cases e <;> rfl

theorem renderSeparated_map (sep : String) (h : ∀ x ∈ items, render ctx (f x) = render ctx x) :
    renderSeparated ctx sep (items.map f) = renderSeparated ctx sep items := by
  rw [renderSeparated_eq, renderSeparated_eq, List.map_map]
  exact congrArg _ (List.map_congr_left h)

/-- The text of an expression is made of those of its active items. -/
theorem render_mapChildren {e : Expr}
    (h : ∀ x ∈ activeItems ctx e, render ctx (f x) = render ctx x) :
    render ctx (mapChildren f e) = render ctx e := by
  cases e with
  | text | literal | regexp | verbatim | handle | range | deferred => rfl
  | tuple | list | group | optional | choice | template | repetition | aliased =>
    rw [activeItems] at h
    simp only [mapChildren, render, renderSeparated_map _ h]
  | bounded content bound => rw [mapChildren, render, render, h content List.mem_cons_self]
  | branch key default yes no =>
    have hside := h _ List.mem_cons_self
    rw [mapChildren, render, render]
    split
    · rename_i hb; rwa [if_pos hb] at hside
    · rename_i hb; rwa [if_neg hb] at hside

theorem referencesAll_eq (items : List Expr) : referencesAll items = items.flatMap references := by
  induction items with
  | nil => rw [referencesAll, List.flatMap_nil]
  | cons e rest ih => rw [referencesAll, List.flatMap_cons, ih]

/-- An expression refers to names by itself or through its children. -/
theorem references_eq (e : Expr) :
    references e = ownNames e ++ (children e).flatMap references := by
  cases e <;> simp [references, ownNames, children, referencesAll_eq]

theorem references_mapChildren (f : Expr → Expr) (e : Expr) :
    references (mapChildren f e) = ownNames e ++ (children e).flatMap fun x => references (f x) := by
  rw [references_eq, ownNames_mapChildren, children_mapChildren, List.flatMap_map]

theorem describeAll_eq (items : List Expr) : describeAll items = items.map describe := by
  induction items with
  | nil => rw [describeAll, List.map_nil]
  | cons e rest ih => rw [describeAll, List.map_cons, ih]

/-- The dump of an expression is made of those of its children. -/
theorem describe_mapChildren {e : Expr} (h : ∀ x ∈ children e, describe (f x) = describe x) :
    describe (mapChildren f e) = describe e := by
  cases e with
  | text | literal | regexp | verbatim | handle | range | deferred => rfl
  | tuple | list | group | optional | choice | template | repetition | aliased =>
    rw [children] at h
    have hrow := List.map_congr_left h
    simp only [mapChildren, describe, describeAll_eq, List.map_map, Function.comp_def, hrow]
  | bounded content bound => rw [mapChildren, describe, describe, h content List.mem_cons_self]
  | branch key default yes no =>
    rw [children, List.forall_mem_cons, List.forall_mem_singleton] at h
    rw [mapChildren, describe, describe, h.1, h.2]

/-! ## Every depth -/

mutual

/-- The expression with `f` applied at every position, from the leaves up. What a variable resolves
to is not looked at. -/
def rewrite (f : Expr → Expr) : Expr → Expr
  | tuple items => f (tuple (rewriteAll f items))
  | list items => f (list (rewriteAll f items))
  | template name args => f (template name (rewriteAll f args))
  | group items => f (group (rewriteAll f items))
  | optional items => f (optional (rewriteAll f items))
  | choice items => f (choice (rewriteAll f items))
  | repetition op items => f (repetition op (rewriteAll f items))
  | bounded content bound => f (bounded (rewrite f content) bound)
  | aliased name items => f (aliased name (rewriteAll f items))
  | branch key default yes no => f (branch key default (rewrite f yes) (rewrite f no))
  | e@(text _) | e@(literal ..) | e@(regexp ..) | e@(verbatim _) | e@(handle _) | e@(range ..)
  | e@(deferred ..) => f e

def rewriteAll (f : Expr → Expr) : List Expr → List Expr
  | [] => []
  | e :: rest => rewrite f e :: rewriteAll f rest

end

theorem rewriteAll_eq (f : Expr → Expr) (items : List Expr) :
    rewriteAll f items = items.map (rewrite f) := by
  induction items with
  | nil => rw [rewriteAll, List.map_nil]
  | cons e rest ih => rw [rewriteAll, List.map_cons, ih]

/-- The children are changed first, then the expression itself. -/
theorem rewrite_eq (f : Expr → Expr) (e : Expr) :
    rewrite f e = f (mapChildren (rewrite f) e) := by
  cases e <;> simp [rewrite, mapChildren, rewriteAll_eq]

theorem render_rewrite (h : ∀ e, render ctx (f e) = render ctx e) (e : Expr) :
    render ctx (rewrite f e) = render ctx e := by
  induction e using active_induct ctx with
  | step e ih => rw [rewrite_eq, h, render_mapChildren ih]

theorem references_rewrite (h : ∀ e, references (f e) = references e) (e : Expr) :
    references (rewrite f e) = references e := by
  induction e using child_induct with
  | step e ih => rw [rewrite_eq, h, references_mapChildren, references_eq e, List.flatMap_congr ih]

/-- A change that only drops references does so at every depth. -/
theorem references_rewrite_sublist (h : ∀ e, (references (f e)).Sublist (references e)) (e : Expr) :
    (references (rewrite f e)).Sublist (references e) := by
  induction e using child_induct with
  | step e ih =>
    rw [rewrite_eq]
    refine (h _).trans ?_
    rw [references_mapChildren, references_eq e]
    exact (List.Sublist.refl _).append (List.Sublist.flatMap_right _ ih)

theorem describe_rewrite (h : ∀ e, describe (f e) = describe e) (e : Expr) :
    describe (rewrite f e) = describe e := by
  induction e using child_induct with
  | step e ih => rw [rewrite_eq, h, describe_mapChildren ih]

end GrammarText.Expr
