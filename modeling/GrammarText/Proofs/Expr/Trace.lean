import GrammarText.Proofs.Expr.Enclosure

/-!
What a step leaves in an emitter.

- `Trace`: the fragments in the emitter after a run, and the error that ended the run, if any.
- `Emission.Leaves`: whatever an emitter holds, the step leaves the trace behind it. The traces of
  steps that follow each other are one behind the other, up to the first error (`Leaves.seq`).
- `Emission.Appends`: the step leaves, behind what an emitter holds, what it leaves in an empty one.
- `Emission.joined`, `Emission.wrapped`: steps with a text between every two, and with a text at
  either end. `leaves_joined`, `leaves_joined_until`: what they leave if no step fails, and if
  one does.
- `Expr.render_appends`: rendering an expression only appends.
-/

namespace GrammarText

/-! ## Traces -/

/-- What is left of a run: the fragments in the emitter, and the error that ended it, if any. -/
structure Trace where
  fragments : List String
  error? : Option GrammarError := none
  deriving DecidableEq, Repr

namespace Trace

/-- The trace behind fragments that were there before. -/
def behind (t : Trace) (held : List String) : Trace := { t with fragments := held ++ t.fragments }

/-- The trace of two runs, of which an error in the first one prevents the second. -/
def andThen (s t : Trace) : Trace :=
  match s.error? with
  | none => t.behind s.fragments
  | some _ => s

/-- The fragments, or the error. -/
def outcome (t : Trace) : Except GrammarError (List String) :=
  match t.error? with
  | none => .ok t.fragments
  | some err => .error err

end Trace

/-- What a text adds to the fragments. -/
def kept (s : String) : List String := if s = "" then [] else [s]

theorem toList_push (out : Emitter) (s : String) : (out.push s).toList = out.toList ++ kept s := by
  unfold Emitter.push kept
  split <;> simp [Emitter.toList]

theorem not_mem_kept (s : String) : "" ∉ kept s := by
  unfold kept
  split
  · exact List.not_mem_nil
  · rename_i h
    rw [List.mem_singleton]
    exact Ne.symm h

namespace Emission

/-- The run of the step on an emitter. -/
def runOn (step : Emission) (out : Emitter) : Trace :=
  match step out with
  | .ok _ left => ⟨left.toList, none⟩
  | .error err left => ⟨left.toList, some err⟩

/-- The run of the step on an empty emitter. -/
def trace (step : Emission) : Trace := step.runOn .empty

/-- Behind what an emitter holds, the step leaves the trace, in which no fragment is empty. -/
structure Leaves (step : Emission) (t : Trace) : Prop where
  run : ∀ out, step.runOn out = t.behind out.toList
  none_empty : "" ∉ t.fragments

/-- Behind what an emitter holds, the step leaves what it leaves in an empty one. -/
def Appends (step : Emission) : Prop := step.Leaves step.trace

variable {a b step : Emission} {s t : Trace} {err : GrammarError}

theorem Leaves.trace_eq (h : step.Leaves t) : step.trace = t := h.run .empty

theorem Leaves.appends (h : step.Leaves t) : step.Appends := by
  rwa [Appends, h.trace_eq]

theorem fragments_eq_outcome (step : Emission) : step.fragments = step.trace.outcome := by
  unfold fragments trace runOn EStateM.run
  cases step .empty <;> rfl

theorem text_eq_outcome (step : Emission) : step.text = step.trace.outcome.map String.join := by
  unfold text trace runOn EStateM.run
  cases step .empty <;> rfl

/-! ## Sequences -/

theorem leaves_emit (s : String) : Leaves (emit s) ⟨kept s, none⟩ where
  run out := by
    show Trace.mk (out.push s).toList none = _
    rw [toList_push]
    rfl
  none_empty := not_mem_kept s

theorem leaves_pure : Leaves (pure ()) ⟨[], none⟩ where
  run out := by
    show Trace.mk out.toList none = ⟨out.toList ++ [], none⟩
    rw [List.append_nil]
  none_empty := List.not_mem_nil

theorem leaves_throw (err : GrammarError) : Leaves (throw err) ⟨[], some err⟩ where
  run out := by
    show Trace.mk out.toList (some err) = ⟨out.toList ++ [], some err⟩
    rw [List.append_nil]
  none_empty := List.not_mem_nil

theorem runOn_bind (a b : Emission) (out : Emitter) : runOn (a >>= fun _ => b) out =
    match a out with
    | .ok _ mid => b.runOn mid
    | .error err left => ⟨left.toList, some err⟩ := by
  unfold runOn
  simp only [bind, EStateM.bind]
  cases a out <;> rfl

/-- What follows an error leaves nothing. -/
theorem Leaves.seq_of_error (ha : a.Leaves s) (hs : s.error? = some err) :
    Leaves (a >>= fun _ => b) s := by
  refine ⟨fun out => ?_, ha.none_empty⟩
  have hrun := ha.run out
  rw [runOn_bind]
  unfold runOn at hrun
  split at hrun
  · have herr := congrArg Trace.error? hrun
    rw [Trace.behind, hs] at herr
    cases herr
  · exact hrun

theorem Leaves.seq_of_ok (ha : a.Leaves s) (hb : b.Leaves t) (hs : s.error? = none) :
    Leaves (a >>= fun _ => b) (t.behind s.fragments) := by
  refine ⟨fun out => ?_, ?_⟩
  · have hrun := ha.run out
    rw [runOn_bind]
    unfold runOn at hrun
    split at hrun
    · rename_i u mid hout
      have hmid : mid.toList = out.toList ++ s.fragments := congrArg Trace.fragments hrun
      simp only [hb.run mid, hmid, Trace.behind, List.append_assoc]
    · have herr := congrArg Trace.error? hrun
      rw [Trace.behind, hs] at herr
      cases herr
  · exact fun h => (List.mem_append.mp h).elim ha.none_empty hb.none_empty

theorem Leaves.seq (ha : a.Leaves s) (hb : b.Leaves t) :
    Leaves (a >>= fun _ => b) (s.andThen t) := by
  unfold Trace.andThen
  split
  · rename_i hs; exact ha.seq_of_ok hb hs
  · rename_i err hs; exact ha.seq_of_error hs

theorem appends_emit (s : String) : Appends (emit s) := (leaves_emit s).appends

theorem appends_pure : Appends (pure ()) := leaves_pure.appends

theorem Appends.seq (ha : a.Appends) (hb : b.Appends) : Appends (a >>= fun _ => b) :=
  (Leaves.seq ha hb).appends

theorem Appends.enclosed {opening closing : String} (h : step.Appends) :
    Appends (do emit opening; step; emit closing) :=
  (appends_emit opening).seq (h.seq (appends_emit closing))

theorem appends_emitAll (texts : List String) : Appends (emitAll texts) := by
  induction texts with
  | nil => exact appends_pure
  | cons s rest ih => exact (appends_emit s).seq ih

/-! ## Steps in a row -/

/-- The steps with a text between every two. -/
def joined (sep : String) : List Emission → Emission
  | [] => pure ()
  | [step] => step
  | step :: next :: rest => do step; emit sep; joined sep (next :: rest)

/-- The steps with a text between every two, and a text at either end. -/
def wrapped (opening closing : String) (steps : List Emission) (sep : String) : Emission := do
  emit opening; joined sep steps; emit closing

/-- What the steps leave by themselves, with what the separator adds between every two. -/
def rowOf (sep : String) (steps : List Emission) : List String :=
  (kept sep).intercalate (steps.map (·.trace.fragments))

variable {sep : String} (opening closing : String) {steps front back : List Emission} {fs : List String}
  {err? : Option GrammarError}

theorem joined_cons (h : steps ≠ []) :
    joined sep (step :: steps) = (do step; emit sep; joined sep steps) := by
  cases steps with
  | nil => exact absurd rfl h
  | cons next rest => rfl

theorem rowOf_singleton (sep : String) (step : Emission) : rowOf sep [step] = step.trace.fragments :=
  List.intercalate_singleton

theorem rowOf_cons (h : steps ≠ []) :
    rowOf sep (step :: steps) = step.trace.fragments ++ (kept sep ++ rowOf sep steps) := by
  have hmap : steps.map (·.trace.fragments) ≠ [] := by simpa using h
  rw [rowOf, List.map_cons, List.intercalate_cons_of_ne_nil hmap, List.append_assoc]
  rfl

theorem appends_joined (h : ∀ s ∈ steps, s.Appends) : Appends (joined sep steps) := by
  induction steps with
  | nil => exact appends_pure
  | cons step steps ih =>
    rw [List.forall_mem_cons] at h
    by_cases hne : steps = []
    · subst hne
      exact h.1
    · rw [joined_cons hne]
      exact h.1.seq ((appends_emit sep).seq (ih h.2))

/-- A step that succeeds, with a separator and more steps behind it. -/
theorem leaves_joined_cons (hstep : step.Appends) (hok : step.trace.error? = none)
    (hne : steps ≠ []) (hrest : Leaves (joined sep steps) ⟨fs, err?⟩) :
    Leaves (joined sep (step :: steps)) ⟨step.trace.fragments ++ (kept sep ++ fs), err?⟩ := by
  rw [joined_cons hne]
  exact Leaves.seq_of_ok hstep ((leaves_emit sep).seq_of_ok hrest rfl) hok

/-- Steps that all succeed leave their fragments, with the separator between every two. -/
theorem leaves_joined (sep : String) (h : ∀ s ∈ steps, s.Appends)
    (hok : ∀ s ∈ steps, s.trace.error? = none) :
    Leaves (joined sep steps) ⟨rowOf sep steps, none⟩ := by
  induction steps with
  | nil => exact leaves_pure
  | cons step steps ih =>
    rw [List.forall_mem_cons] at h hok
    by_cases hne : steps = []
    · subst hne
      rw [rowOf_singleton, ← hok.1]
      exact h.1
    · rw [rowOf_cons hne]
      exact leaves_joined_cons h.1 hok.1 hne (ih h.2 hok.2)

/-- Behind the first step that fails nothing is left, be it a separator or another step. -/
theorem leaves_joined_until (sep : String) (h : ∀ s ∈ front, s.Appends)
    (hok : ∀ s ∈ front, s.trace.error? = none) (hstep : step.Appends)
    (herr : step.trace.error? = some err) (back : List Emission) :
    Leaves (joined sep (front ++ step :: back)) ⟨rowOf sep (front ++ [step]), some err⟩ := by
  induction front with
  | nil =>
    rw [List.nil_append, List.nil_append, rowOf_singleton, ← herr]
    cases back with
    | nil => exact hstep
    | cons next back => exact Leaves.seq_of_error hstep herr
  | cons first front ih =>
    rw [List.forall_mem_cons] at h hok
    rw [List.cons_append, List.cons_append, rowOf_cons (by simp)]
    exact leaves_joined_cons h.1 hok.1 (by simp) (ih h.2 hok.2)

theorem leaves_wrapped (h : Leaves (joined sep steps) ⟨fs, none⟩) :
    Leaves (wrapped opening closing steps sep) ⟨kept opening ++ (fs ++ kept closing), none⟩ :=
  (leaves_emit opening).seq_of_ok (h.seq_of_ok (leaves_emit closing) rfl) rfl

theorem leaves_wrapped_until (h : Leaves (joined sep steps) ⟨fs, some err⟩) :
    Leaves (wrapped opening closing steps sep) ⟨kept opening ++ fs, some err⟩ :=
  (leaves_emit opening).seq_of_ok (h.seq_of_error rfl) rfl

end Emission

/-! ## Expressions -/

namespace Expr

open Emission

theorem renderSeparated_eq (ctx : Context) (sep : String) (items : List Expr) :
    renderSeparated ctx sep items = joined sep (items.map (render ctx)) := by
  induction items with
  | nil => rw [renderSeparated]; rfl
  | cons e rest ih =>
    cases rest with
    | nil => rw [renderSeparated]; rfl
    | cons f rest => rw [renderSeparated, ih]; rfl

theorem renderSeparated_appends {ctx : Context} (sep : String) {items : List Expr}
    (h : ∀ x ∈ items, (render ctx x).Appends) : (renderSeparated ctx sep items).Appends := by
  rw [renderSeparated_eq]
  exact appends_joined (List.forall_mem_map.mpr h)

/-- Rendering an expression only appends, whether it fails or not. -/
theorem render_appends (ctx : Context) (e : Expr) : (render ctx e).Appends := by
  induction e using active_induct ctx with
  | step e ih =>
    obtain ⟨-, h⟩ | ⟨err, -, h⟩ := render_cases ctx e
    · have hrow := renderSeparated_appends e.enclosure.sep ih
      rw [h]
      exact (appends_emitAll _).seq (hrow.seq (appends_emitAll _))
    · rw [h]
      exact (leaves_throw err).appends

end Expr

end GrammarText
