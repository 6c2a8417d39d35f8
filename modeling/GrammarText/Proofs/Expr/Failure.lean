import GrammarText.Proofs.Expr.Enclosure
import GrammarText.Proofs.Position

/-!
When an expression cannot be written, and with which error.

- `Emission.Reports`: of a list of errors a step fails with the first one; without any it succeeds.
- `Expr.FailsAt`: at a position to which rendering comes stands a variable that the context does not
  resolve. `Expr.failures`: the errors of all such variables, in order (`Expr.listed_failures`).
- `Expr.render_reports`: rendering fails exactly with the first of them, whatever it writes to.
- `Expr.refilled`: another expression stands wherever the context does not pick a side of a branch.
  `Expr.render_refilled`: that makes no difference.
-/

namespace GrammarText

namespace Emission

/-! ## Steps that fail with the first of some errors -/

/-- With no error the step succeeds on every emitter, otherwise it fails on every one, with the
first. -/
def Reports (step : Emission) : List GrammarError → Prop
  | [] => step.Succeeds
  | err :: _ => ∀ out, ∃ out', step out = .error err out'

variable {a b step : Emission} {errs later : List GrammarError} {err : GrammarError}

/-- What comes after a failure does not count. -/
theorem Reports.seq (ha : a.Reports errs) (hb : b.Reports later) :
    Reports (a >>= fun _ => b) (errs ++ later) := by
  cases errs with
  | cons err errs =>
    intro out
    obtain ⟨out', hout⟩ := ha out
    exact ⟨out', by simp only [bind, EStateM.bind, hout]⟩
  | nil =>
    cases later with
    | nil => exact Succeeds.seq ha hb
    | cons err later =>
      intro out
      obtain ⟨mid, hmid⟩ := ha out
      obtain ⟨out', hout⟩ := hb mid
      exact ⟨out', by simp only [bind, EStateM.bind, hmid, hout]⟩

theorem Reports.after (hb : b.Reports errs) (ha : a.Succeeds) :
    Reports (a >>= fun _ => b) errs := by
  have hnone : a.Reports [] := ha
  exact hnone.seq hb

theorem Reports.before (ha : a.Reports errs) (hb : b.Succeeds) :
    Reports (a >>= fun _ => b) errs := by
  have hnone : b.Reports [] := hb
  rw [← List.append_nil errs]
  exact ha.seq hnone

theorem Reports.enclosed {opening closing : String} (h : step.Reports errs) :
    Reports (do emit opening; step; emit closing) errs :=
  (h.before (succeeds_emit closing)).after (succeeds_emit opening)

theorem reports_gathers : Gathers Reports where
  nothing := succeeds_pure
  text := succeeds_emit
  seq := Reports.seq

theorem Reports.error_iff (h : step.Reports errs) (out : Emitter) :
    (∃ out', step out = .error err out') ↔ errs.head? = some err := by
  cases errs with
  | nil =>
    obtain ⟨out', hout⟩ := h out
    simp [hout]
  | cons first errs =>
    obtain ⟨out', hout⟩ := h out
    simp [hout]

theorem Reports.ok_iff (h : step.Reports errs) (out : Emitter) :
    (∃ out', step out = .ok () out') ↔ errs = [] := by
  cases errs with
  | nil =>
    obtain ⟨out', hout⟩ := h out
    simp [hout]
  | cons first errs =>
    obtain ⟨out', hout⟩ := h out
    simp [hout]

theorem Reports.succeeds_iff (h : step.Reports errs) : step.Succeeds ↔ errs = [] := by
  constructor
  · intro hs
    exact (h.ok_iff .empty).mp (hs .empty)
  · rintro rfl
    exact h

theorem text_eq_error : step.text = .error err ↔ ∃ out', step .empty = .error err out' := by
  unfold text EStateM.run
  cases step .empty with
  | ok u out => simp
  | error e out => simp

end Emission

namespace Expr

open Emission

variable {ctx : Context}

/-! ## The variables that rendering comes to -/

/-- At the position, which goes through the picked sides of branches and through what variables
resolve to, stands a variable that fails. -/
def FailsAt (ctx : Context) (e : Expr) (p : Position) (err : GrammarError) : Prop :=
  ∃ label resolve, follow (activeItems ctx) p e = some (.deferred label resolve) ∧
    resolve ctx = .error err

theorem mem_ownFailures {e : Expr} {err : GrammarError} : err ∈ ownFailures ctx e ↔
    ∃ label resolve, e = .deferred label resolve ∧ resolve ctx = .error err := by
  cases e with
  | deferred label resolve =>
    rw [ownFailures]
    cases hr : resolve ctx with
    | ok x => simp [hr]
    | error first => simp [hr, eq_comm]
  | _ => simp [ownFailures]

theorem failsAt_iff {e : Expr} {p : Position} {err : GrammarError} :
    NodeHolds (activeItems ctx) (ownFailures ctx) e p err ↔ FailsAt ctx e p err := by
  simp only [NodeHolds, mem_ownFailures, FailsAt]
  constructor
  · rintro ⟨x, hx, label, resolve, rfl, hr⟩
    exact ⟨label, resolve, hx, hr⟩
  · rintro ⟨label, resolve, hx, hr⟩
    exact ⟨_, hx, label, resolve, rfl, hr⟩

mutual

/-- The errors of the variables that rendering would come to if none of them stopped it. -/
def failures (ctx : Context) : Expr → List GrammarError
  | tuple items | list items | group items | optional items | choice items => failuresAll ctx items
  | repetition _ items | aliased _ items | template _ items => failuresAll ctx items
  | bounded content _ => failures ctx content
  | deferred _ resolve => failuresResolved ctx (resolve ctx)
  | branch key default yes no =>
    if ctx.getBool key default then failures ctx yes else failures ctx no
  | text _ | literal .. | regexp .. | verbatim _ | handle _ | range .. => []

def failuresAll (ctx : Context) : List Expr → List GrammarError
  | [] => []
  | e :: rest => failures ctx e ++ failuresAll ctx rest

def failuresResolved (ctx : Context) : Except GrammarError Expr → List GrammarError
  | .ok e => failures ctx e
  | .error err => [err]

end

theorem failuresAll_eq (ctx : Context) (items : List Expr) :
    failuresAll ctx items = items.flatMap (failures ctx) := by
  induction items with
  | nil => rw [failuresAll, List.flatMap_nil]
  | cons e rest ih => rw [failuresAll, List.flatMap_cons, ih]

/-- An expression fails by itself, if it is a variable, or through what it has one level down. -/
theorem failures_eq (ctx : Context) (e : Expr) :
    failures ctx e = ownFailures ctx e ++ (activeItems ctx e).flatMap (failures ctx) := by
  cases e with
  | deferred label resolve =>
    rw [failures, ownFailures, activeItems]
    cases resolve ctx <;> simp [failuresResolved]
  | branch key default yes no =>
    rw [failures, activeItems, List.flatMap_singleton]
    split <;> rfl
  | _ => simp [failures, ownFailures, activeItems, failuresAll_eq]

/-- The failures stand in the order of their positions. -/
theorem listed_failures (ctx : Context) (e : Expr) : Listed (FailsAt ctx e) (failures ctx e) := by
  suffices h : Listed (NodeHolds (activeItems ctx) (ownFailures ctx) e) (failures ctx e) from
    h.congr fun p err => failsAt_iff
  induction e using active_induct ctx with
  | step e ih =>
    have hown : (ownFailures ctx e).length ≤ 1 := by
      unfold ownFailures
      split
      · split <;> simp
      · simp
    rw [failures_eq]
    exact Listed.node hown (Listed.row ih)

/-! ## Rendering stops at the first one -/

theorem renderSeparated_reports (sep : String) {items : List Expr}
    (h : ∀ x ∈ items, (render ctx x).Reports (failures ctx x)) :
    (renderSeparated ctx sep items).Reports (items.flatMap (failures ctx)) :=
  reports_gathers.separated sep h

/-- Rendering an expression fails with the first of its failures. -/
theorem render_reports (ctx : Context) (e : Expr) : (render ctx e).Reports (failures ctx e) := by
  induction e using active_induct ctx with
  | step e ih =>
    rw [failures_eq]
    obtain ⟨hown, h⟩ | ⟨err, hown, h⟩ := render_cases ctx e
    · rw [hown, h]
      exact reports_gathers.enclosed (reports_gathers.texts e.enclosure.opening) ih
    · rw [hown, h]
      exact fun out => ⟨out, rfl⟩

/-! ## Sides that are not picked -/

mutual

/-- The expression with `filler` on every side of a branch that the context does not pick, also in
what variables resolve to. -/
def refilled (ctx : Context) (filler : Expr) : Expr → Expr
  | tuple items => tuple (refilledAll ctx filler items)
  | list items => list (refilledAll ctx filler items)
  | template name args => template name (refilledAll ctx filler args)
  | group items => group (refilledAll ctx filler items)
  | optional items => optional (refilledAll ctx filler items)
  | choice items => choice (refilledAll ctx filler items)
  | repetition op items => repetition op (refilledAll ctx filler items)
  | bounded content bound => bounded (refilled ctx filler content) bound
  | aliased name items => aliased name (refilledAll ctx filler items)
  | deferred label resolve => deferred label fun c => refilledResolved ctx filler (resolve c)
  | branch key default yes no =>
    if ctx.getBool key default then branch key default (refilled ctx filler yes) filler
    else branch key default filler (refilled ctx filler no)
  | e@(text _) | e@(literal ..) | e@(regexp ..) | e@(verbatim _) | e@(handle _) | e@(range ..) => e

def refilledAll (ctx : Context) (filler : Expr) : List Expr → List Expr
  | [] => []
  | e :: rest => refilled ctx filler e :: refilledAll ctx filler rest

def refilledResolved (ctx : Context) (filler : Expr) :
    Except GrammarError Expr → Except GrammarError Expr
  | .ok e => .ok (refilled ctx filler e)
  | .error err => .error err

end

variable {filler : Expr}

theorem renderSeparated_refilledAll (sep : String) {items : List Expr}
    (h : ∀ x ∈ items, render ctx (refilled ctx filler x) = render ctx x) :
    renderSeparated ctx sep (refilledAll ctx filler items) = renderSeparated ctx sep items := by
  induction items with
  | nil => rw [refilledAll]
  | cons e rest ih =>
    rw [List.forall_mem_cons] at h
    rw [refilledAll]
    cases rest with
    | nil => rw [refilledAll, renderSeparated, renderSeparated, h.1]
    | cons f rest =>
      have hrest := ih h.2
      rw [refilledAll] at hrest ⊢
      rw [renderSeparated, renderSeparated, h.1, hrest]

/-- What stands on the sides that the context does not pick has no effect. -/
theorem render_refilled (ctx : Context) (filler e : Expr) :
    render ctx (refilled ctx filler e) = render ctx e := by
  induction e using active_induct ctx with
  | step e ih =>
  cases e with
  | text | literal | regexp | verbatim | handle | range => rw [refilled]
  | tuple items | list items | group items | optional items | choice items | template name items
  | repetition op items | aliased name items =>
    rw [activeItems] at ih
    simp only [refilled, render, renderSeparated_refilledAll _ ih]
  | bounded content bound => rw [refilled, render, render, ih content List.mem_cons_self]
  | deferred label resolve =>
    rw [activeItems] at ih
    rw [refilled, render, render]
    cases hr : resolve ctx with
    | ok e =>
      rw [hr] at ih
      rw [refilledResolved, renderResolved, renderResolved, ih e List.mem_cons_self]
    | error err => rw [refilledResolved]
  | branch key default yes no =>
    have h := ih _ List.mem_cons_self
    rw [refilled]
    split
    · rename_i hb
      rw [if_pos hb] at h
      rw [render, render, if_pos hb, if_pos hb, h]
    · rename_i hb
      rw [if_neg hb] at h
      rw [render, render, if_neg hb, if_neg hb, h]

end Expr

end GrammarText
