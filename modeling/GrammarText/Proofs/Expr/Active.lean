import GrammarText.Proofs.Definition

/-!
The part of an expression that a context looks at.

- `Expr.activeItems`: the expressions that rendering goes on to, one level down: of a branch the side
  that the context picks, of a variable what it resolves to. `Expr.active_induct` is the induction
  over them, and `Expr.Within` says that an expression is reached so.
- `Expr.bareTexts`: the texts that an expression itself writes as they are.
- `Expr.break_not_mem_written`: where none of these holds a line feed, the text of the expression
  holds none, whatever its literals and ranges hold.
-/

namespace GrammarText.Expr

/-! ## What rendering goes on to -/

def activeItems (ctx : Context) : Expr → List Expr
  | tuple items | list items | group items | optional items | choice items => items
  | repetition _ items | aliased _ items | template _ items => items
  | bounded content _ => [content]
  | branch key default yes no => [if ctx.getBool key default then yes else no]
  | deferred _ resolve => match resolve ctx with
    | .ok e => [e]
    | .error _ => []
  | text _ | literal .. | regexp .. | verbatim _ | handle _ | range .. => []

mutual

/-- A property that passes from the active items of an expression to it holds of every
expression. -/
theorem active_induct (ctx : Context) {motive : Expr → Prop}
    (step : ∀ e, (∀ x ∈ activeItems ctx e, motive x) → motive e) :
    ∀ e, motive e
  | text _ | literal .. | regexp .. | verbatim _ | handle _ | range .. => step _ fun _ h => nomatch h
  | tuple items => step _ (active_induct_items ctx step items)
  | list items => step _ (active_induct_items ctx step items)
  | group items => step _ (active_induct_items ctx step items)
  | optional items => step _ (active_induct_items ctx step items)
  | choice items => step _ (active_induct_items ctx step items)
  | repetition _ items => step _ (active_induct_items ctx step items)
  | aliased _ items => step _ (active_induct_items ctx step items)
  | template _ items => step _ (active_induct_items ctx step items)
  | bounded content _ => step _ (List.forall_mem_singleton.mpr (active_induct ctx step content))
  | branch key default yes no => by
    refine step _ (List.forall_mem_singleton.mpr ?_)
    split
    · exact active_induct ctx step yes
    · exact active_induct ctx step no
  | deferred _ resolve => step _ (active_induct_resolved ctx step (resolve ctx))

theorem active_induct_items (ctx : Context) {motive : Expr → Prop}
    (step : ∀ e, (∀ x ∈ activeItems ctx e, motive x) → motive e) :
    ∀ items : List Expr, ∀ x ∈ items, motive x
  | [] => fun _ h => nomatch h
  | e :: rest => List.forall_mem_cons.mpr ⟨active_induct ctx step e, active_induct_items ctx step rest⟩

theorem active_induct_resolved (ctx : Context) {motive : Expr → Prop}
    (step : ∀ e, (∀ x ∈ activeItems ctx e, motive x) → motive e) :
    ∀ r : Except GrammarError Expr,
      ∀ x ∈ (match r with | .ok e => [e] | .error _ => []), motive x
  | .ok e => List.forall_mem_singleton.mpr (active_induct ctx step e)
  | .error _ => fun _ h => nomatch h

end

theorem active_no_variable {ctx : Context} {e : Expr} (hv : e.holdsVariable = false) :
    ∀ x ∈ activeItems ctx e, x.holdsVariable = false := by
  cases e with
  | text | literal | regexp | verbatim | handle | range => exact fun _ h => nomatch h
  | tuple | list | group | optional | choice | template | repetition | aliased =>
    exact anyHoldsVariable_eq_false.mp hv
  | bounded content bound => exact List.forall_mem_singleton.mpr hv
  | deferred => cases hv
  | branch key default yes no =>
    rw [holdsVariable, Bool.or_eq_false_iff] at hv
    refine List.forall_mem_singleton.mpr ?_
    split
    · exact hv.1
    · exact hv.2

/-- Rendering the second expression in the context comes to the first one. -/
inductive Within (ctx : Context) : Expr → Expr → Prop
  | refl (e : Expr) : Within ctx e e
  | inside {x y e : Expr} : y ∈ activeItems ctx e → Within ctx x y → Within ctx x e

theorem Within.of_leaf {ctx : Context} {x e : Expr} (h : Within ctx x e)
    (hleaf : activeItems ctx e = []) : x = e := by
  cases h with
  | refl => rfl
  | inside hy => rw [hleaf] at hy; exact absurd hy List.not_mem_nil

/-- What holds of an expression, and of all that the context leads to in its active items, holds of
all that the context leads to in the expression. -/
theorem forall_within {ctx : Context} {motive : Expr → Prop} {e : Expr} (he : motive e)
    (hitems : ∀ y ∈ activeItems ctx e, ∀ x, Within ctx x y → motive x) :
    ∀ x, Within ctx x e → motive x := by
  intro x hx
  cases hx with
  | refl => exact he
  | inside hy hx => exact hitems _ hy x hx

/-! ## Line feeds -/

/-- The texts that the expression itself writes as they are, without those of its items. -/
def bareTexts : Expr → List String
  | literal _ flags => [flags]
  | regexp pattern flags => [pattern, flags]
  | verbatim s => [s]
  | template name _ => [name]
  | aliased name _ => [name]
  | _ => []

theorem break_not_mem_quote (s : String) : '\n' ∉ (Text.quote s).toList := fun h =>
  absurd (Text.quote_printable s _ h) (by decide)

theorem break_not_mem_name {k : NameClass} {name : String} (h : k.admits name = true) :
    '\n' ∉ name.toList := fun hm => absurd ((admits_chars h).2 _ hm) (by decide)

theorem break_not_mem_number (n : Int) : '\n' ∉ (toString n).toList := fun h =>
  absurd (Text.mem_number h) (by decide)

theorem break_not_mem_bound (bound : Bound) : '\n' ∉ bound.text.toList := by
  cases bound with
  | exactly n => exact break_not_mem_number n
  | between least most =>
    simp only [Bound.text, String.toList_append, List.mem_append, not_or]
    exact ⟨⟨break_not_mem_number least, by decide⟩, break_not_mem_number most⟩

theorem break_not_mem_end (last : RangeEnd) : '\n' ∉ last.written.toList := by
  cases last with
  | number n => exact break_not_mem_number n
  | char c => exact break_not_mem_quote _

theorem break_not_mem_tail {ctx : Context} {sep : List Char} {items : List Expr}
    (hsep : '\n' ∉ sep) (h : ∀ x ∈ items, '\n' ∉ written ctx x) :
    '\n' ∉ writtenTail ctx sep items := by
  induction items with
  | nil => rw [writtenTail]; exact List.not_mem_nil
  | cons x items ih =>
    rw [List.forall_mem_cons] at h
    simp [writtenTail, hsep, h.1, ih h.2]

theorem break_not_mem_items {ctx : Context} {sep : List Char} {items : List Expr}
    (hsep : '\n' ∉ sep) (h : ∀ x ∈ items, '\n' ∉ written ctx x) :
    '\n' ∉ writtenItems ctx sep items := by
  cases items with
  | nil => rw [writtenItems]; exact List.not_mem_nil
  | cons x items =>
    rw [List.forall_mem_cons] at h
    simp [writtenItems, h.1, break_not_mem_tail hsep h.2]

/-- No line feed comes from a literal or a range, nor from the frame of an expression. -/
theorem break_not_mem_written (ctx : Context) (e : Expr)
    (hbare : ∀ x, Within ctx x e → ∀ s ∈ bareTexts x, '\n' ∉ s.toList)
    (hnames : ∀ h, Within ctx (handle h) e → h.kind.admits h.name = true) :
    '\n' ∉ written ctx e := by
  induction e using active_induct ctx with
  | step e ih =>
  have hitems : ∀ x ∈ activeItems ctx e, '\n' ∉ written ctx x := fun x hx =>
    ih x hx (fun y hy => hbare y (.inside hx hy)) fun h hh => hnames h (.inside hx hh)
  have hown := hbare e (.refl e)
  have hspace : '\n' ∉ [' '] := by decide
  cases e with
  | text s => rw [written]; exact break_not_mem_quote s
  | literal value flags =>
    rw [bareTexts, List.forall_mem_singleton] at hown
    simp only [written, writtenLiteral, String.toList_append, List.mem_append, not_or]
    exact ⟨break_not_mem_quote value, hown⟩
  | regexp pattern flags =>
    simp only [bareTexts, List.forall_mem_cons] at hown
    simp [written, writtenRegexp, hown.1, hown.2.1]
  | verbatim s => rw [written]; exact hown s List.mem_cons_self
  | handle h => rw [written]; exact break_not_mem_name (hnames h (.refl _))
  | range first last =>
    simp [written, writtenRange, break_not_mem_end]
  | tuple | list | group | optional =>
    rw [activeItems] at hitems
    simp [written, break_not_mem_items hspace hitems]
  | choice =>
    rw [written]
    exact break_not_mem_items (by decide) hitems
  | template name args =>
    rw [activeItems] at hitems
    have hrow := break_not_mem_items (by decide : '\n' ∉ [',', ' ']) hitems
    simp [written, hown name List.mem_cons_self, hrow]
  | repetition op items =>
    rw [activeItems] at hitems
    have hop : '\n' ∉ op.symbol.toList := by cases op <;> decide
    simp [written, hop, break_not_mem_items hspace hitems]
  | bounded content bound =>
    simp [written, break_not_mem_bound bound, hitems content List.mem_cons_self]
  | aliased name items =>
    rw [activeItems] at hitems
    simp [written, hown name List.mem_cons_self, break_not_mem_items hspace hitems]
  | deferred label resolve =>
    rw [written]
    rw [activeItems] at hitems
    cases hr : resolve ctx with
    | ok e =>
      rw [hr] at hitems
      rw [writtenResolved]
      exact hitems e List.mem_cons_self
    | error err => rw [writtenResolved]; exact List.not_mem_nil
  | branch key default yes no =>
    have h := hitems _ List.mem_cons_self
    rw [written]
    split
    · rename_i hb; rwa [if_pos hb] at h
    · rename_i hb; rwa [if_neg hb] at h

end GrammarText.Expr
