import GrammarText.Proofs.Expr.Rewrite
import GrammarText.Proofs.Grammar.Questions

/-!
The references of an expression, and the fragments that it is written as.

- `Expr.picked`: the expression with the side that the context picks in place of every branch.
- `Emission.Shows`: a step succeeds, and some names are among its fragments, in their order.
- `Expr.render_shows`: an expression without a variable shows the references of its picked form.
- `Expr.picked_references_shown`: the picked form is written alike, refers to names that the
  expression refers to, and its references are fragments, each of its own.
-/

namespace GrammarText

/-! ## Steps that show names -/

namespace Emission

/-- On every emitter the step succeeds, and the names are, in their order, among the fragments that
it leaves. -/
def Shows (step : Emission) (names : List String) : Prop :=
  ∃ fs, step.Leaves ⟨fs, none⟩ ∧ names.Sublist fs

variable {a b step : Emission} {names later : List String}

theorem Shows.seq (ha : a.Shows names) (hb : b.Shows later) :
    Shows (a >>= fun _ => b) (names ++ later) := by
  obtain ⟨fs, hfs, hnames⟩ := ha
  obtain ⟨gs, hgs, hlater⟩ := hb
  exact ⟨fs ++ gs, hfs.seq_of_ok hgs rfl, hnames.append hlater⟩

theorem shows_emit (s : String) : Shows (emit s) [] := ⟨kept s, leaves_emit s, List.nil_sublist _⟩

theorem shows_name {s : String} (h : s ≠ "") : Shows (emit s) [s] := by
  have hkept : kept s = [s] := if_neg h
  exact ⟨kept s, leaves_emit s, by rw [hkept]⟩

theorem shows_gathers : Gathers Shows where
  nothing := ⟨[], leaves_pure, List.nil_sublist _⟩
  text := shows_emit
  seq := Shows.seq

/-- Texts show any of them, in their order, of which none is empty. -/
theorem shows_emitAll {texts : List String} (hn : "" ∉ names) (h : names.Sublist texts) :
    Shows (emitAll texts) names := by
  induction h with
  | slnil => exact shows_gathers.nothing
  | cons s _ ih => exact (shows_emit s).seq (ih hn)
  | cons_cons s _ ih =>
    rw [List.mem_cons, not_or] at hn
    exact (shows_name (Ne.symm hn.1)).seq (ih hn.2)

end Emission

namespace Expr

open Emission

variable {ctx : Context} {e : Expr}

/-! ## The picked form -/

/-- The side that the context picks, in place of a branch. -/
def pickSide (ctx : Context) : Expr → Expr
  | branch key default yes no => if ctx.getBool key default then yes else no
  | e => e

/-- The expression with the side that the context picks in place of every branch. -/
def picked (ctx : Context) : Expr → Expr := rewrite (pickSide ctx)

theorem render_pickSide (ctx : Context) (e : Expr) :
    render ctx (pickSide ctx e) = render ctx e := by
  cases e with
  | branch key default yes no =>
    rw [pickSide, render]
    split <;> rfl
  | _ => rfl

theorem references_pickSide (ctx : Context) (e : Expr) :
    (references (pickSide ctx e)).Sublist (references e) := by
  cases e with
  | branch key default yes no =>
    rw [pickSide, references]
    split
    · exact List.sublist_append_left _ _
    · exact List.sublist_append_right _ _
  | _ => exact List.Sublist.refl _

theorem questionsAll_eq (items : List Expr) : questionsAll items = items.flatMap questions := by
  induction items with
  | nil => rw [questionsAll, List.flatMap_nil]
  | cons e rest ih => rw [questionsAll, List.flatMap_cons, ih]

/-- In the picked form no branch is left. -/
theorem questions_picked (ctx : Context) (e : Expr) : questions (picked ctx e) = [] := by
  induction e using child_induct with
  | step e ih =>
  rw [picked, rewrite_eq, ← picked]
  cases e with
  | text | literal | regexp | verbatim | handle | range | deferred => rfl
  | tuple | list | group | optional | choice | template | repetition | aliased =>
    rw [children] at ih
    simpa [mapChildren, pickSide, questions, questionsAll_eq, List.flatMap_map] using ih
  | bounded content bound => exact ih content List.mem_cons_self
  | branch key default yes no =>
    rw [children, List.forall_mem_cons, List.forall_mem_singleton] at ih
    rw [mapChildren, pickSide]
    split
    · exact ih.1
    · exact ih.2

/-- Without a variable, the picked form refers to what the expression itself refers to, and to what
the picked forms of its active items do. -/
theorem references_picked (hv : e.holdsVariable = false) :
    references (picked ctx e)
      = ownNames e ++ (activeItems ctx e).flatMap fun x => references (picked ctx x) := by
  have hchildren := references_mapChildren (picked ctx) e
  rw [picked, rewrite_eq, ← picked]
  cases e with
  | deferred => cases hv
  | branch key default yes no =>
    rw [mapChildren, pickSide, activeItems, List.flatMap_singleton]
    split <;> rfl
  | _ => exact hchildren

/-! ## Names among the fragments -/

/-- The names that an expression itself refers to are written in front of its items. -/
theorem ownNames_sublist_opening (e : Expr) : (ownNames e).Sublist e.enclosure.opening := by
  cases e with
  | handle h => exact List.Sublist.refl _
  | template name args => exact List.sublist_append_left [name] _
  | _ => exact List.nil_sublist _

/-- Every name that the picked form refers to is a fragment of its own, unless it is empty. -/
theorem render_shows (ctx : Context) (e : Expr) (hv : e.holdsVariable = false)
    (hn : ∀ x, Within ctx x e → "" ∉ ownNames x) :
    (render ctx e).Shows (references (picked ctx e)) := by
  induction e using active_induct ctx with
  | step e ih =>
    have hitems : ∀ x ∈ activeItems ctx e, (render ctx x).Shows (references (picked ctx x)) :=
      fun x hx => ih x hx (active_no_variable hv x hx) fun y hy => hn y (.inside hx hy)
    rw [references_picked hv]
    obtain ⟨-, h⟩ | ⟨err, hown, -⟩ := render_cases ctx e
    · rw [h]
      exact shows_gathers.enclosed
        (shows_emitAll (hn e (.refl e)) (ownNames_sublist_opening e)) hitems
    · -- only a variable fails by itself
      cases e with
      | deferred => cases hv
      | _ => cases hown

/-- The references of an expression without a variable agree with what is written. In its picked form
every branch has made way, at every depth, for the side that the context picks. That form is written
as the same fragments and refers, in the same order, to some of the names that the expression refers
to. Its references are fragments, each of its own and in the same order, if the handles that the
context leads to have names that their class admits, and no instantiation has an empty name. -/
theorem picked_references_shown {t : Expr} (hv : t.holdsVariable = false) (ctx : Context)
    (hh : ∀ h, Within ctx (handle h) t → h.kind.admits h.name = true) :
    ∃ fs, (t.render ctx).fragments = .ok fs ∧ ((picked ctx t).render ctx).fragments = .ok fs ∧
      questions (picked ctx t) = [] ∧ (picked ctx t).references.Sublist t.references ∧
      ((∀ name args, Within ctx (template name args) t → name ≠ "") →
        (picked ctx t).references.Sublist fs) := by
  have hsame : (picked ctx t).render ctx = t.render ctx := render_rewrite (render_pickSide ctx) t
  obtain ⟨out, hout⟩ := render_succeeds ctx t hv .empty
  have hfs : (t.render ctx).fragments = .ok out.toList := by
    unfold fragments EStateM.run
    rw [hout]
  refine ⟨out.toList, hfs, by rw [hsame, hfs], questions_picked ctx t,
    references_rewrite_sublist (references_pickSide ctx) t, fun ht => ?_⟩
  have hn : ∀ x, Within ctx x t → "" ∉ ownNames x := by
    intro x hx hempty
    cases x with
    | handle h =>
      obtain ⟨c, cs, hcs, -⟩ := (admits_chars (hh h hx)).1
      rw [ownNames, List.mem_singleton] at hempty
      rw [← hempty] at hcs
      cases hcs
    | template name args => exact ht name args hx (List.mem_singleton.mp hempty).symm
    | _ => cases hempty
  obtain ⟨fs, hleaves, hnames⟩ := render_shows ctx t hv hn
  rw [fragments_eq_outcome, hleaves.trace_eq, Trace.outcome, Except.ok.injEq] at hfs
  rwa [← hfs]

/-- A branch inside of a branch, and an instantiation. -/
def nestedBranches : Expr := .group
  [.branch "strict" true
      (.branch "long" false (.handle ⟨.rule, "word", 0⟩) (.handle ⟨.rule, "letter", 0⟩))
      (.handle ⟨.rule, "any", 0⟩),
    .template "pair" [.handle ⟨.terminal, "WS", 0⟩]]

/-- The context picks one name of the three. -/
theorem nestedBranches_shown :
    nestedBranches.holdsVariable = false ∧
      (∀ h, Within {} (handle h) nestedBranches → h.kind.admits h.name = true) ∧
      (∀ name args, Within {} (template name args) nestedBranches → name ≠ "") ∧
      nestedBranches.references = ["word", "letter", "any", "pair", "WS"] ∧
      (picked {} nestedBranches).references = ["letter", "pair", "WS"] ∧
      ∃ fs, (nestedBranches.render {}).fragments = .ok fs ∧
        (picked {} nestedBranches).references.Sublist fs := by
  have hnamed : ∀ x, Within {} x nestedBranches →
      (∀ h, x = handle h → h.kind.admits h.name = true) ∧
        ∀ name args, x = template name args → name ≠ "" := by
    refine forall_within ⟨nofun, nofun⟩ (List.forall_mem_cons.mpr
      ⟨forall_within ⟨nofun, nofun⟩ (List.forall_mem_singleton.mpr
        (forall_within ⟨nofun, nofun⟩ (List.forall_mem_singleton.mpr ?_))),
      List.forall_mem_singleton.mpr (forall_within ⟨nofun, ?_⟩ (List.forall_mem_singleton.mpr ?_))⟩)
    · exact forall_within ⟨by rintro h ⟨⟩; decide, nofun⟩ fun _ h => nomatch h
    · rintro name args ⟨⟩
      decide
    · exact forall_within ⟨by rintro h ⟨⟩; decide, nofun⟩ fun _ h => nomatch h
  have hh := fun h hw => (hnamed (handle h) hw).1 h rfl
  have ht := fun name args hw => (hnamed (template name args) hw).2 name args rfl
  obtain ⟨fs, hfs, -, -, -, hshown⟩ := picked_references_shown (t := nestedBranches) rfl {} hh
  exact ⟨rfl, hh, ht, rfl, rfl, fs, hfs, hshown ht⟩

end Expr

end GrammarText
