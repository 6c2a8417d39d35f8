import GrammarText.Proofs.Expr.Active

/-!
Rendering as the active items of an expression with texts around them.

- `Expr.enclosure`: the texts in front of the active items, between every two of them, and behind
  them.
- `Expr.render_cases`: rendering writes these and the active items, unless the expression is a variable
  that the context does not resolve.
- `Emission.Gathers`: a relation between steps and lists, in which steps that follow each other belong
  to their lists one behind the other. It passes from the active items to the expression
  (`Gathers.enclosed`).
-/

namespace GrammarText

namespace Emission

/-- Writes one text after another. -/
def emitAll : List String → Emission
  | [] => pure ()
  | s :: rest => do emit s; emitAll rest

/-- A text belongs to the empty list, and a sequence to the lists of its steps, one behind the
other. -/
structure Gathers {α : Type} (R : Emission → List α → Prop) : Prop where
  nothing : R (pure ()) []
  text : ∀ s, R (emit s) []
  seq : ∀ {a b : Emission} {xs ys : List α}, R a xs → R b ys → R (a >>= fun _ => b) (xs ++ ys)

end Emission

namespace Expr

open Emission

structure Enclosure where
  opening : List String := []
  sep : String := " "
  closing : List String := []

/-- The texts that the expression itself writes. Those without items write all in front. -/
def enclosure : Expr → Enclosure
  | text s => { opening := [Text.quote s] }
  | literal value flags => { opening := [writtenLiteral value flags] }
  | regexp pattern flags => { opening := [writtenRegexp pattern flags] }
  | verbatim s => { opening := [s] }
  | handle h => { opening := [h.name] }
  | range first last => { opening := [writtenRange first last] }
  | tuple _ | group _ => { opening := ["("], closing := [")"] }
  | list _ | optional _ => { opening := ["["], closing := ["]"] }
  | choice _ => { sep := " | " }
  | template name _ => { opening := [name, "\x7b"], sep := ", ", closing := ["\x7d"] }
  | repetition op _ => { opening := ["("], closing := [")", op.symbol] }
  | bounded _ bound => { opening := ["("], closing := [")", " ~ ", bound.text] }
  | aliased name _ => { closing := [" -> ", name] }
  | deferred .. | branch .. => {}

/-- Writes the active items, with the texts around them. -/
def renderEnclosed (ctx : Context) (e : Expr) : Emission := do
  emitAll e.enclosure.opening
  renderSeparated ctx e.enclosure.sep (activeItems ctx e)
  emitAll e.enclosure.closing

/-- What the expression itself fails with, if it is a variable. -/
def ownFailures (ctx : Context) : Expr → List GrammarError
  | deferred _ resolve => match resolve ctx with
    | .ok _ => []
    | .error err => [err]
  | _ => []

/-- Only a variable can fail by itself, and then it writes nothing. -/
theorem render_cases (ctx : Context) (e : Expr) :
    (ownFailures ctx e = [] ∧ render ctx e = renderEnclosed ctx e) ∨
      ∃ err, ownFailures ctx e = [err] ∧ render ctx e = throw err := by
  cases e with
  | deferred label resolve =>
    rw [ownFailures, render, renderEnclosed, activeItems]
    cases resolve ctx with
    | ok x =>
      refine Or.inl ⟨rfl, ?_⟩
      simp [renderResolved, enclosure, emitAll, renderSeparated]
    | error err => exact Or.inr ⟨err, rfl, by rw [renderResolved]⟩
  | branch key default yes no =>
    refine Or.inl ⟨rfl, ?_⟩
    rw [renderEnclosed, activeItems, render]
    split <;> simp [enclosure, emitAll, renderSeparated]
  | _ =>
    refine Or.inl ⟨rfl, ?_⟩
    simp [render, renderEnclosed, enclosure, emitAll, activeItems, renderSeparated]

end Expr

namespace Emission.Gathers

variable {α : Type} {R : Emission → List α → Prop} {ctx : Context} {of : Expr → List α}

theorem texts (hR : Gathers R) (texts : List String) : R (emitAll texts) [] := by
  induction texts with
  | nil => exact hR.nothing
  | cons s rest ih => exact hR.seq (hR.text s) ih

theorem separated (hR : Gathers R) (sep : String) {items : List Expr}
    (h : ∀ x ∈ items, R (x.render ctx) (of x)) :
    R (Expr.renderSeparated ctx sep items) (items.flatMap of) := by
  induction items with
  | nil => rw [Expr.renderSeparated]; exact hR.nothing
  | cons x rest ih =>
    rw [List.forall_mem_cons] at h
    rw [List.flatMap_cons]
    cases rest with
    | nil =>
      rw [Expr.renderSeparated, List.flatMap_nil, List.append_nil]
      exact h.1
    | cons y rest =>
      have htail := hR.seq (hR.text sep) (ih h.2)
      rw [Expr.renderSeparated]
      exact hR.seq h.1 htail

/-- What belongs to the texts in front comes first. -/
theorem enclosed (hR : Gathers R) {e : Expr} {own : List α}
    (hown : R (emitAll e.enclosure.opening) own)
    (h : ∀ x ∈ e.activeItems ctx, R (x.render ctx) (of x)) :
    R (e.renderEnclosed ctx) (own ++ (e.activeItems ctx).flatMap of) := by
  have hrest := hR.seq (hR.separated e.enclosure.sep h) (hR.texts e.enclosure.closing)
  rw [List.append_nil] at hrest
  exact hR.seq hown hrest

end Emission.Gathers

end GrammarText
