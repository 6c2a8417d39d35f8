import GrammarText.Proofs.Expr.Canonical
import GrammarText.Proofs.Name
import GrammarText.Proofs.Text.Literal
import GrammarText.Proofs.Text.Token

/-!
Expressions that say by their text alone what they are.

- `Expr.IsElement`, `Expr.IsContent`: which ones these are. What encloses others is a `Frame` around
  them, so that sequences, options and repetitions are treated as one.
- `IsElement.written_congr`: an element comes to the same text in every context.
- `IsElement.form`: an element, one level deep. The first character of its text tells which `Form`
  it has (`Form.lead`, `lead_unique`).
-/

namespace GrammarText.Expr

/-! ## Elements -/

/-- What stands around the items of an enclosing expression. -/
inductive Frame where
  | group
  | optional
  | repetition (op : Repetition)
  | bounded (bound : Bound)
  deriving DecidableEq, Repr

def Frame.opening : Frame → Char
  | .optional => '['
  | .group | .repetition _ | .bounded _ => '('

def Frame.closing : Frame → List Char
  | .group => [')']
  | .optional => [']']
  | .repetition op => ')' :: op.symbol.toList
  | .bounded bound => ')' :: ' ' :: '~' :: ' ' :: bound.text.toList

/-- The expression, spelled out, that the frame makes of items; a bound takes a single one. -/
def Frame.enclose : Frame → List Expr → Expr
  | .group, items => Expr.group items
  | .optional, items => Expr.optional items
  | .repetition op, items => Expr.repetition op items
  | .bounded bound, items => Expr.bounded (items.headD empty) bound

/-- The frame and the items of an expression that encloses some. -/
def enclosed? : Expr → Option (Frame × List Expr)
  | tuple items | group items => some (.group, items)
  | list items | optional items => some (.optional, items)
  | repetition op items => some (.repetition op, items)
  | bounded content bound => some (.bounded bound, [content])
  | _ => none

/-- An expression that says by its text alone what it is. Alternatives are not elements themselves:
they must be all that a frame encloses. -/
inductive IsElement : Expr → Prop
  | text (s : String) : IsElement (text s)
  | literal (value : String) : IsElement (literal value "")
  | handle {h : Handle} : h.kind.admits h.name = true → IsElement (handle h)
  | range (first last : RangeEnd) : IsElement (range first last)
  | template {name : String} {args : List Expr} : isRuleName name = true →
      (∀ x ∈ args, IsElement x) → IsElement (template name args)
  | sequence {e : Expr} {frame : Frame} {items : List Expr} : e.enclosed? = some (frame, items) →
      (∀ x ∈ items, IsElement x) → IsElement e
  | alternatives {e : Expr} {frame : Frame} {branches : List Expr} :
      e.enclosed? = some (frame, [choice branches]) → 2 ≤ branches.length →
      (∀ x ∈ branches, IsElement x) → IsElement e

/-- Expressions with `P` in a row, or a single choice between two at least. Of elements, this is
what may stand inside a frame or behind the head of a definition. -/
inductive IsContent (P : Expr → Prop) : List Expr → Prop
  | sequence {items : List Expr} : (∀ x ∈ items, P x) → IsContent P items
  | alternatives {branches : List Expr} : 2 ≤ branches.length → (∀ x ∈ branches, P x) →
      IsContent P [choice branches]

theorem IsContent.mono {P Q : Expr → Prop} {items : List Expr} (h : IsContent P items)
    (hPQ : ∀ x, P x → Q x) : IsContent Q items := by
  cases h with
  | sequence hx => exact .sequence fun x hm => hPQ x (hx x hm)
  | alternatives hlen hx => exact .alternatives hlen fun x hm => hPQ x (hx x hm)

/-- Induction over elements, with one case for all that enclose others. -/
theorem IsElement.induct {motive : ∀ e, IsElement e → Prop}
    (text : ∀ s, motive (Expr.text s) (.text s))
    (literal : ∀ value, motive (Expr.literal value "") (.literal value))
    (handle : ∀ {h : Handle} (hv : h.kind.admits h.name = true), motive (Expr.handle h) (.handle hv))
    (range : ∀ first last, motive (Expr.range first last) (.range first last))
    (template : ∀ {name args} (hn : isRuleName name = true) (ha : ∀ x ∈ args, IsElement x),
      (∀ x (hx : x ∈ args), motive x (ha x hx)) → motive (Expr.template name args) (.template hn ha))
    (enclosed : ∀ {e : Expr} {frame items} {he : IsElement e}, e.enclosed? = some (frame, items) →
      IsContent (fun x => ∃ hx, motive x hx) items → motive e he) (e : Expr) (he : IsElement e) :
    motive e he := by
  induction he with
  | text s => exact text s
  | literal value => exact literal value
  | handle hv => exact handle hv
  | range first last => exact range first last
  | template hn ha ih => exact template hn ha ih
  | sequence h hx ih => exact enclosed h (.sequence fun x hm => ⟨hx x hm, ih x hm⟩)
  | alternatives h hlen hx ih =>
    exact enclosed h (.alternatives hlen fun x hm => ⟨hx x hm, ih x hm⟩)

theorem written_enclosed (ctx : Context) {e : Expr} {frame : Frame} {items : List Expr}
    (h : e.enclosed? = some (frame, items)) :
    written ctx e = frame.opening :: (writtenItems ctx [' '] items ++ frame.closing) := by
  cases e <;> simp only [enclosed?, Option.some.injEq, Prod.mk.injEq, reduceCtorEq] at h <;>
    obtain ⟨rfl, rfl⟩ := h <;> rw [written]
  all_goals try rfl
  rw [writtenItems, writtenTail, List.append_nil, String.toList_append]
  rfl

theorem canonical_enclosed {e : Expr} {frame : Frame} {items : List Expr}
    (h : e.enclosed? = some (frame, items)) :
    canonical e = frame.enclose (canonicalAll items) := by
  cases e <;> simp only [enclosed?, Option.some.injEq, Prod.mk.injEq, reduceCtorEq] at h <;>
    obtain ⟨rfl, rfl⟩ := h <;> rw [canonical] <;> rfl

/-! ## Elements do not wait for a context -/

theorem holdsVariable_enclosed {e : Expr} {frame : Frame} {items : List Expr}
    (h : e.enclosed? = some (frame, items)) : holdsVariable e = anyHoldsVariable items := by
  cases e <;> simp only [enclosed?, Option.some.injEq, Prod.mk.injEq, reduceCtorEq] at h <;>
    obtain ⟨rfl, rfl⟩ := h <;> simp [holdsVariable, anyHoldsVariable]

theorem IsContent.holds_no_variable {items : List Expr}
    (h : IsContent (fun x => holdsVariable x = false) items) : anyHoldsVariable items = false := by
  cases h with
  | sequence hx => exact anyHoldsVariable_eq_false.mpr hx
  | alternatives hlen hx =>
    rw [anyHoldsVariable, anyHoldsVariable, holdsVariable, Bool.or_false]
    exact anyHoldsVariable_eq_false.mpr hx

theorem IsElement.holds_no_variable {e : Expr} (he : IsElement e) : holdsVariable e = false := by
  induction e, he using IsElement.induct with
  | text | literal | handle | range => rw [holdsVariable]
  | template hn ha ih => rw [holdsVariable]; exact anyHoldsVariable_eq_false.mpr ih
  | enclosed h hc =>
    rw [holdsVariable_enclosed h]
    exact (hc.mono fun _ ⟨_, ih⟩ => ih).holds_no_variable

theorem writtenTail_cons (ctx : Context) (sep : List Char) (x : Expr) (items : List Expr) :
    writtenTail ctx sep (x :: items) = sep ++ writtenItems ctx sep (x :: items) := by
  rw [writtenTail, writtenItems]

theorem writtenTail_congr {c₁ c₂ : Context} (sep : List Char) {items : List Expr}
    (h : ∀ x ∈ items, written c₁ x = written c₂ x) :
    writtenTail c₁ sep items = writtenTail c₂ sep items := by
  induction items with
  | nil => rfl
  | cons x items ih =>
    rw [List.forall_mem_cons] at h
    rw [writtenTail, writtenTail, h.1, ih h.2]

theorem writtenItems_congr {c₁ c₂ : Context} (sep : List Char) {items : List Expr}
    (h : ∀ x ∈ items, written c₁ x = written c₂ x) :
    writtenItems c₁ sep items = writtenItems c₂ sep items := by
  cases items with
  | nil => rfl
  | cons x items =>
    rw [List.forall_mem_cons] at h
    rw [writtenItems, writtenItems, h.1, writtenTail_congr sep h.2]

theorem written_choice (ctx : Context) (branches : List Expr) :
    writtenItems ctx [' '] [choice branches] = writtenItems ctx [' ', '|', ' '] branches := by
  rw [writtenItems, writtenTail, written, List.append_nil]

theorem IsContent.written_congr {c₁ c₂ : Context} {items : List Expr}
    (h : IsContent (fun x => written c₁ x = written c₂ x) items) :
    writtenItems c₁ [' '] items = writtenItems c₂ [' '] items := by
  cases h with
  | sequence hx => exact writtenItems_congr _ hx
  | alternatives hlen hx => rw [written_choice, written_choice]; exact writtenItems_congr _ hx

/-- An element comes to the same text in every context. -/
theorem IsElement.written_congr {e : Expr} (he : IsElement e) (c₁ c₂ : Context) :
    written c₁ e = written c₂ e := by
  induction e, he using IsElement.induct with
  | text | literal | handle | range => rw [written, written]
  | template hn ha ih => rw [written, written, writtenItems_congr _ ih]
  | enclosed h hc =>
    rw [written_enclosed c₁ h, written_enclosed c₂ h, (hc.mono fun _ ⟨_, ih⟩ => ih).written_congr]

/-! ## What an element begins with -/

/-- The kinds of characters that begin an element. -/
inductive Lead where
  | quote
  | word
  | number
  | bracket
  deriving DecidableEq, Repr

def Lead.of? (c : Char) : Option Lead :=
  if c = '"' then some .quote
  else if isNameStart c then some .word
  else if Text.isNumberChar c then some .number
  else if c = '(' ∨ c = '[' then some .bracket
  else none

/-- An element, seen one level deep, and what it begins with. -/
inductive Form : Lead → Expr → Prop
  | quoted {e : Expr} (s : String) : canonical e = literal s "" →
      (∀ ctx, written ctx e = (Text.quote s).toList) → Form .quote e
  | charRange (c : Char) (last : RangeEnd) : Form .quote (range (.char c) last)
  | numberRange (n : Int) (last : RangeEnd) : Form .number (range (.number n) last)
  | handle {h : Handle} : h.kind.admits h.name = true → Form .word (handle h)
  | template {name : String} {args : List Expr} : isRuleName name = true →
      (∀ x ∈ args, IsElement x) → Form .word (template name args)
  | enclosed {e : Expr} {frame : Frame} {items : List Expr} : e.enclosed? = some (frame, items) →
      IsContent IsElement items → Form .bracket e

theorem form_text (s : String) : Form .quote (text s) :=
  .quoted s (by rw [canonical]) fun _ => by rw [written]

theorem form_literal (s : String) : Form .quote (literal s "") :=
  .quoted s (by rw [canonical]) fun _ => by rw [written, writtenLiteral, String.append_empty]

theorem IsElement.form {e : Expr} (h : IsElement e) : ∃ lead, Form lead e := by
  induction e, h using IsElement.induct with
  | text s => exact ⟨_, form_text s⟩
  | literal value => exact ⟨_, form_literal value⟩
  | handle hv => exact ⟨_, .handle hv⟩
  | range first last =>
    cases first with
    | number n => exact ⟨_, .numberRange n last⟩
    | char c => exact ⟨_, .charRange c last⟩
  | template hn ha ih => exact ⟨_, .template hn ha⟩
  | enclosed h hc => exact ⟨_, .enclosed h (hc.mono fun _ ⟨hx, _⟩ => hx)⟩

theorem of?_nameStart {c : Char} (h : isNameStart c = true) : Lead.of? c = some .word := by
  have hq : c ≠ '"' := by rintro rfl; exact absurd h (by decide)
  rw [Lead.of?, if_neg hq, if_pos h]

theorem of?_number {c : Char} (h : Text.isNumberChar c = true) : Lead.of? c = some .number := by
  have hq : c ≠ '"' := by rintro rfl; exact absurd h (by decide)
  have hs : isNameStart c ≠ true := fun hs => by
    rw [Text.isNumberChar, Bool.or_eq_true, beq_iff_eq] at h
    rcases h with h | rfl
    · exact digit_not_start h hs
    · exact absurd hs (by decide)
  rw [Lead.of?, if_neg hq, if_neg hs, if_pos h]

theorem written_range (ctx : Context) (first last : RangeEnd) :
    written ctx (range first last) = first.written.toList ++ '.' :: '.' :: last.written.toList := by
  rw [written, writtenRange, String.toList_append, String.toList_append, List.append_assoc]
  rfl

theorem toList_char (c : Char) : (RangeEnd.char c).written.toList =
    '"' :: (Text.escapeChars (String.singleton c).toList ++ ['"']) := Text.toList_quote _

theorem Form.lead {lead : Lead} {e : Expr} (h : Form lead e) (ctx : Context) :
    ∃ c cs, written ctx e = c :: cs ∧ Lead.of? c = some lead := by
  cases h with
  | quoted s hc hw => exact ⟨'"', _, by rw [hw, Text.toList_quote], rfl⟩
  | charRange c last =>
    rw [written_range, toList_char]
    exact ⟨'"', _, rfl, rfl⟩
  | numberRange n last =>
    obtain ⟨c, cs, hcs, hc⟩ := Text.number_head n
    refine ⟨c, cs ++ '.' :: '.' :: last.written.toList, ?_, of?_number hc⟩
    rw [written_range, RangeEnd.written, hcs, List.cons_append]
  | handle hv =>
    obtain ⟨c, cs, hcs, hc⟩ := (admits_chars hv).1
    exact ⟨c, cs, by rw [written, hcs], of?_nameStart hc⟩
  | template hn ha =>
    obtain ⟨c, cs, hcs, hc⟩ := (admits_chars (k := .rule) hn).1
    exact ⟨c, _, by rw [written, hcs]; rfl, of?_nameStart hc⟩
  | enclosed h hc =>
    rename_i frame items
    exact ⟨frame.opening, _, written_enclosed ctx h, by cases frame <;> rfl⟩

theorem lead_unique {l₁ l₂ : Lead} {e₁ e₂ : Expr} {c₁ c₂ : Context} {r₁ r₂ : List Char}
    (h₁ : Form l₁ e₁) (h₂ : Form l₂ e₂) (h : written c₁ e₁ ++ r₁ = written c₂ e₂ ++ r₂) :
    l₁ = l₂ := by
  obtain ⟨a, as, ha, hla⟩ := h₁.lead c₁
  obtain ⟨b, bs, hb, hlb⟩ := h₂.lead c₂
  rw [ha, hb, List.cons_append, List.cons_append, List.cons.injEq] at h
  rw [h.1, hlb, Option.some.injEq] at hla
  exact hla.symm

end GrammarText.Expr
