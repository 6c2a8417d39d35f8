import GrammarText.Proofs.Expr.Element

/-!
Elements can be read off their text.

Each lemma compares two texts with something behind them: where the texts are equal as a whole, the
first parts come from the same thing and what is behind them is the same. That needs a rest that
does not go on with the first part (`Follow`). It is kept inside of a frame: behind an item comes a
separator with the next item, or the closing of the frame (`Separator.follow_tail`).

- `closing_append_inj`: a frame is told from its closing.
- `content_append_inj`: what stands in a frame is told from its text, if its parts are.
- `IsElement.determined`: every element is told from its text, up to its canonical form.
- `content_unique`: the same for what a definition holds.
-/

namespace GrammarText.Expr

open Text

/-! ## What may stand behind an element -/

/-- The end of the text, or of what a frame or an instantiation holds. -/
def Closed (rest : List Char) : Prop := ∀ c ∈ rest.head?, c = ')' ∨ c = ']' ∨ c = '\x7d'

/-- A rest of a text that does not go on with the element before it. -/
inductive Follow : List Char → Prop
  | closed {rest : List Char} : Closed rest → Follow rest
  | comma (rest : List Char) : Follow (',' :: rest)
  | space {c : Char} (rest : List Char) : c ≠ '~' → Follow (' ' :: c :: rest)

theorem Follow.head {rest : List Char} (h : Follow rest) :
    ∀ c ∈ rest.head?, c ∈ [')', ']', '\x7d', ',', ' '] := by
  cases h with
  | closed h =>
    intro c hc
    rcases h c hc with rfl | rfl | rfl <;> decide
  | comma rest => intro c hc; cases hc; decide
  | space rest hne => intro c hc; cases hc; decide

theorem Follow.endsClass {p : Char → Bool} {rest : List Char} (h : Follow rest)
    (hp : [')', ']', '\x7d', ',', ' '].any p = false) : EndsClass p rest :=
  fun c hc => Bool.eq_false_iff.mpr (List.any_eq_false.mp hp c (h.head c hc))

theorem Follow.endsNumber {rest : List Char} (h : Follow rest) : EndsClass isNumberChar rest :=
  h.endsClass rfl

theorem Follow.endsName {rest : List Char} (h : Follow rest) : EndsClass isNameChar rest :=
  h.endsClass rfl

theorem Follow.not_cons {c : Char} {rest : List Char} (hc : c ∉ [')', ']', '\x7d', ',', ' ']) :
    ¬ Follow (c :: rest) := fun h => hc (h.head c rfl)

theorem Follow.not_tilde {rest : List Char} : ¬ Follow (' ' :: '~' :: rest) := by
  intro h
  cases h with
  | closed h => rcases h ' ' rfl with h | h | h <;> cases h
  | space rest hne => exact hne rfl

/-! ## Ranges, bounds and frames -/

theorem endsClass_dots {p : Char → Bool} (hp : p '.' = false) (rest : List Char) :
    EndsClass p ('.' :: rest) := by
  intro c hc; cases hc; exact hp

/-- A number is no quoted literal. -/
theorem number_ne_quoted (n : Int) (c : Char) (r s : List Char) :
    (RangeEnd.number n).written.toList ++ r ≠ (RangeEnd.char c).written.toList ++ s := by
  intro h
  obtain ⟨d, ds, hds, hd⟩ := number_head n
  rw [RangeEnd.written, hds, toList_char, List.cons_append, List.cons_append, List.cons.injEq] at h
  rw [h.1] at hd
  exact absurd hd (by decide)

theorem rangeEnd_append_inj {a b : RangeEnd} {r s : List Char} (hr : EndsClass isNumberChar r)
    (hs : EndsClass isNumberChar s) (h : a.written.toList ++ r = b.written.toList ++ s) :
    a = b ∧ r = s := by
  cases a with
  | number m =>
    cases b with
    | number n =>
      obtain ⟨hmn, hrs⟩ := number_append_inj hr hs h
      exact ⟨by rw [hmn], hrs⟩
    | char d => exact absurd h (number_ne_quoted m d r s)
  | char c =>
    cases b with
    | number n => exact absurd h.symm (number_ne_quoted n c s r)
    | char d =>
      obtain ⟨hcd, hrs⟩ := quoted_append_inj h
      have : (String.singleton c).toList = (String.singleton d).toList := by rw [hcd]
      rw [String.toList_singleton, String.toList_singleton, List.cons.injEq] at this
      exact ⟨by rw [this.1], hrs⟩

/-- The second end of a range, once the first is read. -/
theorem range_tail_inj {a b : RangeEnd} {r s : List Char} (hr : Follow r) (hs : Follow s)
    (h : '.' :: '.' :: a.written.toList ++ r = '.' :: '.' :: b.written.toList ++ s) :
    a = b ∧ r = s := by
  simp only [List.cons_append, List.cons.injEq, true_and] at h
  exact rangeEnd_append_inj hr.endsNumber hs.endsNumber h

theorem toList_exactly (n : Int) : (Bound.exactly n).text.toList = (toString n).toList := rfl

theorem toList_between (least most : Int) : (Bound.between least most).text.toList =
    (toString least).toList ++ '.' :: '.' :: (toString most).toList := by
  rw [Bound.text, String.toList_append, String.toList_append, List.append_assoc]
  rfl

/-- Behind a single number no dot follows, so it is not the least one of two. -/
theorem exactly_ne_between {n least most : Int} {r s : List Char} (hr : Follow r) :
    (Bound.exactly n).text.toList ++ r ≠ (Bound.between least most).text.toList ++ s := by
  intro h
  rw [toList_exactly, toList_between, List.append_assoc] at h
  obtain ⟨-, rfl⟩ := number_append_inj hr.endsNumber (endsClass_dots rfl _) h
  exact Follow.not_cons (by decide) hr

theorem bound_append_inj {a b : Bound} {r s : List Char} (hr : Follow r) (hs : Follow s)
    (h : a.text.toList ++ r = b.text.toList ++ s) : a = b ∧ r = s := by
  cases a with
  | exactly m =>
    cases b with
    | exactly n =>
      rw [toList_exactly, toList_exactly] at h
      obtain ⟨rfl, rfl⟩ := number_append_inj hr.endsNumber hs.endsNumber h
      exact ⟨rfl, rfl⟩
    | between least most => exact absurd h (exactly_ne_between hr)
  | between least most =>
    cases b with
    | exactly n => exact absurd h.symm (exactly_ne_between hs)
    | between least' most' =>
      simp only [toList_between, List.append_assoc, List.cons_append] at h
      obtain ⟨rfl, htail⟩ := number_append_inj (endsClass_dots rfl _) (endsClass_dots rfl _) h
      simp only [List.cons.injEq, true_and] at htail
      obtain ⟨rfl, rfl⟩ := number_append_inj hr.endsNumber hs.endsNumber htail
      exact ⟨rfl, rfl⟩

theorem not_follow_symbol (op : Repetition) (s : List Char) :
    ¬ Follow (op.symbol.toList ++ s) := by
  cases op <;> exact Follow.not_cons (by decide)

theorem symbol_append_inj {a b : Repetition} {r s : List Char}
    (h : a.symbol.toList ++ r = b.symbol.toList ++ s) : a = b ∧ r = s := by
  cases a <;> cases b <;> simp [Repetition.symbol] at h ⊢ <;> exact h

theorem symbol_ne_space (op : Repetition) (r s : List Char) :
    op.symbol.toList ++ r ≠ ' ' :: s := by
  cases op <;> simp [Repetition.symbol]

theorem closing_append_inj {f g : Frame} {r s : List Char} (hr : Follow r) (hs : Follow s)
    (h : f.closing ++ r = g.closing ++ s) : f = g ∧ r = s := by
  cases f <;> cases g <;>
    simp only [Frame.closing, List.cons_append, List.nil_append, List.cons.injEq, true_and,
      Char.reduceEq, false_and] at h
  case group.group | optional.optional => exact ⟨rfl, h⟩
  case group.repetition op => exact absurd (h ▸ hr) (not_follow_symbol op s)
  case repetition.group op => exact absurd (h ▸ hs) (not_follow_symbol op r)
  case group.bounded bound => exact absurd (h ▸ hr) Follow.not_tilde
  case bounded.group bound => exact absurd (h ▸ hs) Follow.not_tilde
  case repetition.repetition =>
    obtain ⟨rfl, rfl⟩ := symbol_append_inj h
    exact ⟨rfl, rfl⟩
  case repetition.bounded op bound => exact absurd h (symbol_ne_space op _ _)
  case bounded.repetition bound op => exact absurd h.symm (symbol_ne_space op _ _)
  case bounded.bounded =>
    obtain ⟨rfl, rfl⟩ := bound_append_inj hr hs h
    exact ⟨rfl, rfl⟩

/-! ## Items -/

/-- What stands between two items. -/
inductive Separator : List Char → Prop
  | sequence : Separator [' ']
  | alternatives : Separator [' ', '|', ' ']
  | arguments : Separator [',', ' ']

variable {c₁ c₂ ctx : Context} {sep r s : List Char} {e : Expr} {xs ys : List Expr}

theorem IsElement.head (he : IsElement e) (ctx : Context) :
    ∃ c cs, written ctx e = c :: cs ∧ Lead.of? c ≠ none := by
  obtain ⟨lead, hf⟩ := he.form
  obtain ⟨c, cs, hcs, hc⟩ := hf.lead ctx
  exact ⟨c, cs, hcs, by rw [hc]; exact Option.some_ne_none lead⟩

theorem IsElement.not_cons (he : IsElement e) {c : Char} (hc : Lead.of? c = none) :
    written ctx e ++ r ≠ c :: s := by
  obtain ⟨d, ds, hds, hd⟩ := he.head ctx
  intro h
  rw [hds, List.cons_append, List.cons.injEq] at h
  exact hd (h.1 ▸ hc)

theorem Closed.not_separated (hr : Closed r) (hsep : Separator sep) : r ≠ sep ++ s := by
  rintro rfl
  cases hsep <;> rcases hr _ rfl with h | h | h <;> cases h

theorem Closed.not_element (hr : Closed r) (he : IsElement e) : written ctx e ++ s ≠ r := by
  obtain ⟨d, ds, hds, hd⟩ := he.head ctx
  rintro rfl
  rw [hds] at hr
  rcases hr d rfl with rfl | rfl | rfl <;> exact hd rfl

theorem Separator.follow (hsep : Separator sep) (he : IsElement e) (rest : List Char) :
    Follow (sep ++ (written ctx e ++ rest)) := by
  cases hsep with
  | sequence =>
    obtain ⟨c, cs, hcs, hc⟩ := he.head ctx
    rw [hcs]
    exact .space _ (by rintro rfl; exact hc rfl)
  | alternatives => exact .space _ (by decide)
  | arguments => exact .comma _

theorem Separator.follow_tail (hsep : Separator sep) (hx : ∀ x ∈ xs, IsElement x)
    (hr : Closed r) : Follow (writtenTail ctx sep xs ++ r) := by
  cases xs with
  | nil => exact .closed hr
  | cons x xs =>
    rw [writtenTail, List.append_assoc, List.append_assoc]
    exact hsep.follow (hx x List.mem_cons_self) _

/-- The expression can be read off what it is written as, up to its canonical form, whatever
follows. -/
def Determined (e : Expr) : Prop :=
  ∀ ⦃c₁ c₂ : Context⦄ ⦃e₂ : Expr⦄ ⦃r s : List Char⦄, IsElement e₂ → Follow r → Follow s →
    written c₁ e ++ r = written c₂ e₂ ++ s → canonical e = canonical e₂ ∧ r = s

theorem tail_append_inj (hsep : Separator sep) (hr : Closed r) (hs : Closed s)
    (hx : ∀ x ∈ xs, IsElement x ∧ Determined x) (hy : ∀ y ∈ ys, IsElement y)
    (h : writtenTail c₁ sep xs ++ r = writtenTail c₂ sep ys ++ s) :
    canonicalAll xs = canonicalAll ys ∧ r = s := by
  induction xs generalizing ys with
  | nil =>
    cases ys with
    | nil => exact ⟨rfl, h⟩
    | cons y ys =>
      rw [writtenTail, writtenTail, List.append_assoc] at h
      exact absurd h (hr.not_separated hsep)
  | cons x xs ih =>
    cases ys with
    | nil =>
      rw [writtenTail, writtenTail, List.append_assoc] at h
      exact absurd h.symm (hs.not_separated hsep)
    | cons y ys =>
      rw [List.forall_mem_cons] at hx hy
      simp only [writtenTail, List.append_assoc, List.append_cancel_left_eq] at h
      obtain ⟨hxy, htail⟩ := hx.1.2 hy.1 (hsep.follow_tail (fun z hz => (hx.2 z hz).1) hr)
        (hsep.follow_tail hy.2 hs) h
      obtain ⟨hall, hrs⟩ := ih hx.2 hy.2 htail
      exact ⟨by rw [canonicalAll, canonicalAll, hxy, hall], hrs⟩

theorem items_append_inj (hsep : Separator sep) (hr : Closed r) (hs : Closed s)
    (hx : ∀ x ∈ xs, IsElement x ∧ Determined x) (hy : ∀ y ∈ ys, IsElement y)
    (h : writtenItems c₁ sep xs ++ r = writtenItems c₂ sep ys ++ s) :
    canonicalAll xs = canonicalAll ys ∧ r = s := by
  cases xs with
  | nil =>
    cases ys with
    | nil => exact ⟨rfl, h⟩
    | cons y ys =>
      rw [writtenItems, writtenItems, List.append_assoc] at h
      exact absurd h.symm (hr.not_element (hy y List.mem_cons_self))
  | cons x xs =>
    cases ys with
    | nil =>
      rw [writtenItems, writtenItems, List.append_assoc] at h
      exact absurd h (hs.not_element (hx x List.mem_cons_self).1)
    | cons y ys =>
      have htail : writtenTail c₁ sep (x :: xs) ++ r = writtenTail c₂ sep (y :: ys) ++ s := by
        rw [writtenTail_cons, writtenTail_cons, List.append_assoc, List.append_assoc, h]
      exact tail_append_inj hsep hr hs hx hy htail

/-- Items in a row have no bar between them. -/
theorem tail_not_alternatives (hx : ∀ x ∈ xs, IsElement x) (hr : Closed r) :
    writtenTail ctx [' '] xs ++ r ≠ ' ' :: '|' :: s := by
  cases xs with
  | nil => exact hr.not_separated .sequence
  | cons x xs =>
    intro h
    rw [writtenTail, List.append_assoc, List.append_assoc] at h
    exact (hx x List.mem_cons_self).not_cons rfl (List.cons.inj h).2

/-- A row of items is never written as two alternatives or more are, if one of the two first items
can be read off. -/
theorem row_ne_alternatives (hr : Closed r) (hs : Closed s) (hx : ∀ x ∈ xs, IsElement x)
    (hy : ∀ y ∈ ys, IsElement y) (hlen : 2 ≤ ys.length)
    (hd : (∀ x ∈ xs, Determined x) ∨ ∀ y ∈ ys, Determined y) :
    writtenItems c₁ [' '] xs ++ r ≠ writtenItems c₂ [' ', '|', ' '] ys ++ s := by
  intro h
  match xs, ys, hlen with
  | [], y :: y' :: ys, _ =>
    rw [writtenItems, writtenItems, List.append_assoc] at h
    exact hr.not_element (hy y List.mem_cons_self) h.symm
  | x :: xs, y :: y' :: ys, _ =>
    rw [List.forall_mem_cons] at hx hy
    rw [writtenItems, writtenItems, List.append_assoc, List.append_assoc] at h
    have hfx : Follow (writtenTail c₁ [' '] xs ++ r) := Separator.sequence.follow_tail hx.2 hr
    have hfy : Follow (writtenTail c₂ [' ', '|', ' '] (y' :: ys) ++ s) :=
      Separator.alternatives.follow_tail hy.2 hs
    have htail : writtenTail c₁ [' '] xs ++ r = writtenTail c₂ [' ', '|', ' '] (y' :: ys) ++ s := by
      rcases hd with hd | hd
      · exact (hd x List.mem_cons_self hy.1 hfx hfy h).2
      · exact (hd y List.mem_cons_self hx.1 hfy hfx h.symm).2.symm
    rw [writtenTail, List.append_assoc] at htail
    exact tail_not_alternatives hx.2 hr htail

theorem content_append_inj (hx : IsContent (fun x => IsElement x ∧ Determined x) xs)
    (hy : IsContent IsElement ys) (hr : Closed r) (hs : Closed s)
    (h : writtenItems c₁ [' '] xs ++ r = writtenItems c₂ [' '] ys ++ s) :
    canonicalAll xs = canonicalAll ys ∧ r = s := by
  cases hx with
  | sequence hx =>
    cases hy with
    | sequence hy => exact items_append_inj .sequence hr hs hx hy h
    | alternatives hlen hy =>
      rw [written_choice] at h
      exact absurd h (row_ne_alternatives hr hs (fun x hm => (hx x hm).1) hy hlen
        (Or.inl fun x hm => (hx x hm).2))
  | alternatives hlen hx =>
    cases hy with
    | sequence hy =>
      rw [written_choice] at h
      exact absurd h.symm (row_ne_alternatives hs hr hy (fun x hm => (hx x hm).1) hlen
        (Or.inr fun x hm => (hx x hm).2))
    | alternatives hlen' hy =>
      rw [written_choice, written_choice] at h
      obtain ⟨hall, hrs⟩ := items_append_inj .alternatives hr hs hx hy h
      exact ⟨by simp only [canonicalAll, canonical, hall], hrs⟩

/-! ## Elements -/

theorem determined_of_form {lead : Lead} (hf : Form lead e)
    (h : ∀ ⦃c₁ c₂ : Context⦄ ⦃e₂ : Expr⦄ ⦃r s : List Char⦄, Form lead e₂ → Follow r → Follow s →
      written c₁ e ++ r = written c₂ e₂ ++ s → canonical e = canonical e₂ ∧ r = s) :
    Determined e := by
  intro c₁ c₂ e₂ r s he hr hs heq
  obtain ⟨lead₂, hf₂⟩ := he.form
  obtain rfl := lead_unique hf hf₂ heq
  exact h hf₂ hr hs heq

/-- Two dots behind a quoted literal make it the first end of a range. -/
theorem quoted_ne_range {t : String} {c : Char} {last : RangeEnd} (hr : Follow r) :
    (Text.quote t).toList ++ r ≠ written ctx (range (.char c) last) ++ s := by
  intro h
  rw [written_range, List.append_assoc] at h
  obtain ⟨-, rfl⟩ := quoted_append_inj h
  exact Follow.not_cons (by decide) hr

theorem determined_quoted {t : String} (hc : canonical e = literal t "")
    (hw : ∀ ctx, written ctx e = (Text.quote t).toList) : Determined e := by
  refine determined_of_form (.quoted t hc hw) fun c₁ c₂ e₂ r s hf hr hs h => ?_
  rw [hw] at h
  cases hf with
  | quoted t' hc' hw' =>
    rw [hw'] at h
    obtain ⟨rfl, rfl⟩ := quoted_append_inj h
    exact ⟨by rw [hc, hc'], rfl⟩
  | charRange c last => exact absurd h (quoted_ne_range hr)

theorem range_append_inj {a b a' b' : RangeEnd} (hr : Follow r) (hs : Follow s)
    (h : written c₁ (range a b) ++ r = written c₂ (range a' b') ++ s) :
    range a b = range a' b' ∧ r = s := by
  simp only [written_range, List.append_assoc, List.cons_append] at h
  obtain ⟨rfl, htail⟩ := rangeEnd_append_inj (endsClass_dots rfl _) (endsClass_dots rfl _) h
  obtain ⟨rfl, rfl⟩ := range_tail_inj hr hs htail
  exact ⟨rfl, rfl⟩

theorem determined_range (first last : RangeEnd) : Determined (range first last) := by
  cases first with
  | number n =>
    refine determined_of_form (.numberRange n last) fun c₁ c₂ e₂ r s hf hr hs h => ?_
    cases hf with
    | numberRange n' last' =>
      obtain ⟨hrange, hrs⟩ := range_append_inj hr hs h
      exact ⟨by rw [hrange], hrs⟩
  | char c =>
    refine determined_of_form (.charRange c last) fun c₁ c₂ e₂ r s hf hr hs h => ?_
    cases hf with
    | quoted t hc hw =>
      rw [hw] at h
      exact absurd h.symm (quoted_ne_range hs)
    | charRange c' last' =>
      obtain ⟨hrange, hrs⟩ := range_append_inj hr hs h
      exact ⟨by rw [hrange], hrs⟩

theorem name_append_inj {k l : NameClass} {a b : String} (ha : k.admits a = true)
    (hb : l.admits b = true) (hr : EndsClass isNameChar r) (hs : EndsClass isNameChar s)
    (h : a.toList ++ r = b.toList ++ s) : a = b ∧ r = s := by
  obtain ⟨hab, hrs⟩ := append_inj_of_class (admits_chars ha).2 (admits_chars hb).2 hr hs h
  exact ⟨String.toList_inj.mp hab, hrs⟩

theorem endsName_brace (rest : List Char) : EndsClass isNameChar ('\x7b' :: rest) := by
  intro c hc; cases hc; decide

/-- A brace behind a name opens the arguments of an instantiation. -/
theorem handle_ne_template {hd : Handle} {name : String} {args : List Expr}
    (hv : hd.kind.admits hd.name = true) (hn : isRuleName name = true) (hr : Follow r) :
    written c₁ (handle hd) ++ r ≠ written c₂ (template name args) ++ s := by
  intro h
  simp only [written, List.append_assoc, List.cons_append] at h
  obtain ⟨-, rfl⟩ := name_append_inj (l := .rule) hv hn hr.endsName (endsName_brace _) h
  exact Follow.not_cons (by decide) hr

theorem determined_handle {hd : Handle} (hv : hd.kind.admits hd.name = true) :
    Determined (handle hd) := by
  refine determined_of_form (.handle hv) fun c₁ c₂ e₂ r s hf hr hs h => ?_
  cases hf with
  | template hn ha => exact absurd h (handle_ne_template hv hn hr)
  | handle hv' =>
    rename_i hd'
    rw [written, written] at h
    obtain ⟨hname, rfl⟩ := name_append_inj hv hv' hr.endsName hs.endsName h
    -- The class of a handle is not written: its name tells it.
    have hkind : hd.kind = hd'.kind := admits_unique (hname ▸ hv) hv'
    exact ⟨by rw [canonical, canonical, hname, hkind], rfl⟩

theorem closed_brace (rest : List Char) : Closed ('\x7d' :: rest) := by
  intro c hc; cases hc; exact Or.inr (Or.inr rfl)

theorem determined_template {name : String} {args : List Expr} (hn : isRuleName name = true)
    (ha : ∀ x ∈ args, IsElement x ∧ Determined x) : Determined (template name args) := by
  refine determined_of_form (.template hn fun x hx => (ha x hx).1)
    fun c₁ c₂ e₂ r s hf hr hs h => ?_
  cases hf with
  | handle hv => exact absurd h.symm (handle_ne_template hv hn hs)
  | template hn' ha' =>
    simp only [written, List.append_assoc, List.cons_append, List.nil_append] at h
    obtain ⟨rfl, hargs⟩ := name_append_inj (k := .rule) (l := .rule) hn hn' (endsName_brace _)
      (endsName_brace _) h
    rw [List.cons.injEq] at hargs
    obtain ⟨hall, hrs⟩ := items_append_inj .arguments (closed_brace r) (closed_brace s) ha ha'
      hargs.2
    exact ⟨by rw [canonical, canonical, hall], (List.cons.inj hrs).2⟩

theorem Frame.closed (frame : Frame) (rest : List Char) : Closed (frame.closing ++ rest) := by
  cases frame <;> intro c hc <;> cases hc <;> decide

theorem determined_enclosed {frame : Frame} {items : List Expr}
    (h : e.enclosed? = some (frame, items))
    (hx : IsContent (fun x => IsElement x ∧ Determined x) items) : Determined e := by
  refine determined_of_form (.enclosed h (hx.mono fun x hx => hx.1))
    fun c₁ c₂ e₂ r s hf hr hs heq => ?_
  cases hf with
  | enclosed h' hy =>
    rw [written_enclosed c₁ h, written_enclosed c₂ h', List.cons_append, List.cons_append,
      List.cons.injEq, List.append_assoc, List.append_assoc] at heq
    obtain ⟨hall, hclosing⟩ := content_append_inj hx hy (frame.closed r) (Frame.closed _ s) heq.2
    obtain ⟨rfl, rfl⟩ := closing_append_inj hr hs hclosing
    exact ⟨by rw [canonical_enclosed h, canonical_enclosed h', hall], rfl⟩

/-- No two elements that differ in their canonical forms are written alike before something that
does not go on with them. -/
theorem IsElement.determined (he : IsElement e) : Determined e := by
  induction e, he using IsElement.induct with
  | text t => exact determined_quoted (by rw [canonical]) fun ctx => by rw [written]
  | literal t =>
    exact determined_quoted (by rw [canonical]) fun ctx => by
      rw [written, writtenLiteral, String.append_empty]
  | handle hv => exact determined_handle hv
  | range first last => exact determined_range first last
  | template hn ha ih => exact determined_template hn fun x hx => ⟨ha x hx, ih x hx⟩
  | enclosed h hc => exact determined_enclosed h (hc.mono fun _ ⟨hx, ih⟩ => ⟨hx, ih⟩)

/-- What a frame holds, or a definition behind its head, is read off its text. -/
theorem content_unique (hx : IsContent IsElement xs) (hy : IsContent IsElement ys)
    (h : writtenItems c₁ [' '] xs = writtenItems c₂ [' '] ys) :
    canonicalAll xs = canonicalAll ys := by
  have hnil : Closed [] := fun c hc => nomatch hc
  have hx' : IsContent (fun x => IsElement x ∧ Determined x) xs :=
    hx.mono fun x he => ⟨he, he.determined⟩
  have h' : writtenItems c₁ [' '] xs ++ [] = writtenItems c₂ [' '] ys ++ [] := by rw [h]
  exact (content_append_inj hx' hy hnil hnil h').1

end GrammarText.Expr
