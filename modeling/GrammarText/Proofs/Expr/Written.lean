import GrammarText.Definition

/-!
The text of an expression, as a function of the expression and the context.

- `Emission.Writes`: whenever the step succeeds, it appends these characters to the text that was
  there. `Emission.Succeeds`: it does, on every emitter.
- `Expr.written`: the characters that an expression comes to, read off the tree alone.
- `Expr.render_writes`: rendering writes exactly these, for every expression and every context.
-/

namespace GrammarText

/-! ## Steps -/

namespace Emission

/-- A success of the step appends `cs`. -/
def Writes (step : Emission) (cs : List Char) : Prop :=
  ∀ out out', step out = .ok () out' → out'.text.toList = out.text.toList ++ cs

def Succeeds (step : Emission) : Prop := ∀ out, ∃ out', step out = .ok () out'

theorem toList_text_push (out : Emitter) (s : String) :
    (out.push s).text.toList = out.text.toList ++ s.toList := by
  unfold Emitter.push
  split
  · rename_i h; simp [h]
  · simp [Emitter.text, Emitter.toList]

theorem writes_emit (s : String) : Writes (emit s) s.toList := by
  intro out out' h
  cases h
  exact toList_text_push out s

theorem writes_pure : Writes (pure ()) [] := by
  intro out out' h
  cases h
  rw [List.append_nil]

theorem writes_throw (e : GrammarError) (cs : List Char) : Writes (throw e) cs :=
  fun _ _ h => nomatch h

theorem Writes.seq {a b : Emission} {cs ds : List Char} (ha : a.Writes cs) (hb : b.Writes ds) :
    Writes (a >>= fun _ => b) (cs ++ ds) := by
  intro out out' h
  simp only [bind, EStateM.bind] at h
  split at h
  · rename_i mid hmid
    rw [hb mid out' h, ha out mid hmid, List.append_assoc]
  · cases h

theorem succeeds_emit (s : String) : Succeeds (emit s) := fun out => ⟨out.push s, rfl⟩

theorem succeeds_pure : Succeeds (pure ()) := fun out => ⟨out, rfl⟩

theorem Succeeds.seq {a b : Emission} (ha : a.Succeeds) (hb : b.Succeeds) :
    Succeeds (a >>= fun _ => b) := by
  intro out
  obtain ⟨mid, hmid⟩ := ha out
  obtain ⟨out', hout⟩ := hb mid
  exact ⟨out', by simp only [bind, EStateM.bind, hmid, hout]⟩

/-- A step that has a text succeeds, and the text is what it writes. -/
theorem ok_of_text {step : Emission} {s : String} (h : step.text = .ok s) :
    ∃ out, step .empty = .ok () out ∧ s = out.text := by
  unfold Emission.text EStateM.run at h
  split at h
  · rename_i out hout
    exact ⟨out, hout, (Except.ok.inj h).symm⟩
  · cases h

/-- The text of a step that succeeds is what the step writes. -/
theorem text_eq {step : Emission} {cs : List Char} (hs : step.Succeeds) (hw : step.Writes cs) :
    step.text = .ok (String.ofList cs) := by
  obtain ⟨out, hout⟩ := hs .empty
  have hcs : out.text.toList = cs := hw _ _ hout
  unfold Emission.text EStateM.run
  rw [hout, ← hcs, String.ofList_toList]

end Emission

/-! ## Expressions -/

namespace Expr

mutual

/-- The characters that the expression comes to. A variable comes to what it resolves to; one that
cannot be resolved writes nothing. -/
def written (ctx : Context) : Expr → List Char
  | text s => (Text.quote s).toList
  | tuple items => '(' :: (writtenItems ctx [' '] items ++ [')'])
  | list items => '[' :: (writtenItems ctx [' '] items ++ [']'])
  | literal value flags => (writtenLiteral value flags).toList
  | regexp pattern flags => (writtenRegexp pattern flags).toList
  | verbatim s => s.toList
  | handle h => h.name.toList
  | template name args =>
    name.toList ++ '\x7b' :: (writtenItems ctx [',', ' '] args ++ ['\x7d'])
  | group items => '(' :: (writtenItems ctx [' '] items ++ [')'])
  | optional items => '[' :: (writtenItems ctx [' '] items ++ [']'])
  | choice items => writtenItems ctx [' ', '|', ' '] items
  | repetition op items => '(' :: (writtenItems ctx [' '] items ++ ')' :: op.symbol.toList)
  | bounded content bound => '(' :: (written ctx content ++ (") ~ " ++ bound.text).toList)
  | range first last => (writtenRange first last).toList
  | aliased name items => writtenItems ctx [' '] items ++ (" -> " ++ name).toList
  | deferred _ resolve => writtenResolved ctx (resolve ctx)
  | branch key default yes no =>
    if ctx.getBool key default then written ctx yes else written ctx no

/-- Items with `sep` between every two. -/
def writtenItems (ctx : Context) (sep : List Char) : List Expr → List Char
  | [] => []
  | e :: rest => written ctx e ++ writtenTail ctx sep rest

/-- Items with `sep` in front of each. -/
def writtenTail (ctx : Context) (sep : List Char) : List Expr → List Char
  | [] => []
  | e :: rest => sep ++ (written ctx e ++ writtenTail ctx sep rest)

def writtenResolved (ctx : Context) : Except GrammarError Expr → List Char
  | .ok e => written ctx e
  | .error _ => []

end

open Emission

theorem writes_enclosed {opening closing : String} {step : Emission} {cs : List Char}
    (h : step.Writes cs) :
    Writes (do emit opening; step; emit closing) (opening.toList ++ (cs ++ closing.toList)) :=
  (writes_emit opening).seq (h.seq (writes_emit closing))

mutual

theorem render_writes (ctx : Context) : ∀ e, Writes (render ctx e) (written ctx e)
  | text s => by rw [render, written]; exact writes_emit _
  | tuple items => by
    rw [render, written]
    exact writes_enclosed (renderSeparated_writes ctx " " items)
  | list items => by
    rw [render, written]
    exact writes_enclosed (renderSeparated_writes ctx " " items)
  | literal value flags => by rw [render, written]; exact writes_emit _
  | regexp pattern flags => by rw [render, written]; exact writes_emit _
  | verbatim s => by rw [render, written]; exact writes_emit _
  | handle h => by rw [render, written]; exact writes_emit _
  | template name args => by
    rw [render, written]
    exact (writes_emit name).seq (writes_enclosed (renderSeparated_writes ctx ", " args))
  | group items => by
    rw [render, written]
    exact writes_enclosed (renderSeparated_writes ctx " " items)
  | optional items => by
    rw [render, written]
    exact writes_enclosed (renderSeparated_writes ctx " " items)
  | choice items => by
    rw [render, written]
    exact renderSeparated_writes ctx " | " items
  | repetition op items => by
    rw [render, written]
    exact (writes_emit "(").seq ((renderSeparated_writes ctx " " items).seq
      ((writes_emit ")").seq (writes_emit op.symbol)))
  | bounded content bound => by
    rw [render, written]
    have h := (writes_emit "(").seq ((render_writes ctx content).seq
      ((writes_emit ")").seq ((writes_emit " ~ ").seq (writes_emit bound.text))))
    simpa using h
  | range first last => by rw [render, written]; exact writes_emit _
  | aliased name items => by
    rw [render, written]
    have h := (renderSeparated_writes ctx " " items).seq
      ((writes_emit " -> ").seq (writes_emit name))
    simpa using h
  | deferred _ resolve => by
    rw [render, written]
    exact renderResolved_writes ctx (resolve ctx)
  | branch key default yes no => by
    rw [render, written]
    split
    · exact render_writes ctx yes
    · exact render_writes ctx no

theorem renderSeparated_writes (ctx : Context) (sep : String) :
    ∀ items, Writes (renderSeparated ctx sep items) (writtenItems ctx sep.toList items)
  | [] => by rw [renderSeparated, writtenItems]; exact writes_pure
  | [e] => by
    rw [renderSeparated, writtenItems, writtenTail, List.append_nil]
    exact render_writes ctx e
  | e :: f :: rest => by
    rw [renderSeparated, writtenItems, writtenTail]
    exact (render_writes ctx e).seq ((writes_emit sep).seq
      (renderSeparated_writes ctx sep (f :: rest)))

theorem renderResolved_writes (ctx : Context) :
    ∀ r, Writes (renderResolved ctx r) (writtenResolved ctx r)
  | .ok e => by rw [renderResolved, writtenResolved]; exact render_writes ctx e
  | .error err => by rw [renderResolved]; exact writes_throw err _

end

/-! ## Expressions without variables -/

mutual

/-- Whether a variable stands somewhere in the expression, on either side of a branch. -/
def holdsVariable : Expr → Bool
  | deferred .. => true
  | tuple items | list items | group items | optional items | choice items => anyHoldsVariable items
  | repetition _ items | aliased _ items | template _ items => anyHoldsVariable items
  | bounded content _ => holdsVariable content
  | branch _ _ yes no => holdsVariable yes || holdsVariable no
  | text _ | literal .. | regexp .. | verbatim _ | handle _ | range .. => false

def anyHoldsVariable : List Expr → Bool
  | [] => false
  | e :: rest => holdsVariable e || anyHoldsVariable rest

end

theorem anyHoldsVariable_eq_false {items : List Expr} :
    anyHoldsVariable items = false ↔ ∀ e ∈ items, holdsVariable e = false := by
  induction items with
  | nil => simp [anyHoldsVariable]
  | cons e rest ih => simp [anyHoldsVariable, ih]

theorem anyHoldsVariable_of_subset {items all : List Expr} (h : ∀ e ∈ items, e ∈ all)
    (hv : anyHoldsVariable all = false) : anyHoldsVariable items = false :=
  anyHoldsVariable_eq_false.mpr fun e he => anyHoldsVariable_eq_false.mp hv e (h e he)

theorem succeeds_enclosed {opening closing : String} {step : Emission} (h : step.Succeeds) :
    Succeeds (do emit opening; step; emit closing) :=
  (succeeds_emit opening).seq (h.seq (succeeds_emit closing))

mutual

/-- Without a variable nothing can fail. -/
theorem render_succeeds (ctx : Context) :
    ∀ e, holdsVariable e = false → Succeeds (render ctx e)
  | text s, _ => by rw [render]; exact succeeds_emit _
  | tuple items, h => by
    rw [render]; exact succeeds_enclosed (renderSeparated_succeeds ctx " " items h)
  | list items, h => by
    rw [render]; exact succeeds_enclosed (renderSeparated_succeeds ctx " " items h)
  | literal value flags, _ => by rw [render]; exact succeeds_emit _
  | regexp pattern flags, _ => by rw [render]; exact succeeds_emit _
  | verbatim s, _ => by rw [render]; exact succeeds_emit _
  | handle h, _ => by rw [render]; exact succeeds_emit _
  | template name args, h => by
    rw [render]
    exact (succeeds_emit name).seq (succeeds_enclosed (renderSeparated_succeeds ctx ", " args h))
  | group items, h => by
    rw [render]; exact succeeds_enclosed (renderSeparated_succeeds ctx " " items h)
  | optional items, h => by
    rw [render]; exact succeeds_enclosed (renderSeparated_succeeds ctx " " items h)
  | choice items, h => by
    rw [render]; exact renderSeparated_succeeds ctx " | " items h
  | repetition op items, h => by
    rw [render]
    exact (succeeds_emit "(").seq ((renderSeparated_succeeds ctx " " items h).seq
      ((succeeds_emit ")").seq (succeeds_emit op.symbol)))
  | bounded content bound, h => by
    rw [render]
    exact (succeeds_emit "(").seq ((render_succeeds ctx content h).seq
      ((succeeds_emit ")").seq ((succeeds_emit " ~ ").seq (succeeds_emit bound.text))))
  | range first last, _ => by rw [render]; exact succeeds_emit _
  | aliased name items, h => by
    rw [render]
    exact (renderSeparated_succeeds ctx " " items h).seq
      ((succeeds_emit " -> ").seq (succeeds_emit name))
  | branch key default yes no, h => by
    rw [holdsVariable, Bool.or_eq_false_iff] at h
    rw [render]
    split
    · exact render_succeeds ctx yes h.1
    · exact render_succeeds ctx no h.2

theorem renderSeparated_succeeds (ctx : Context) (sep : String) :
    ∀ items, anyHoldsVariable items = false → Succeeds (renderSeparated ctx sep items)
  | [], _ => by rw [renderSeparated]; exact succeeds_pure
  | [e], h => by
    rw [anyHoldsVariable, Bool.or_eq_false_iff] at h
    rw [renderSeparated]
    exact render_succeeds ctx e h.1
  | e :: f :: rest, h => by
    rw [anyHoldsVariable, Bool.or_eq_false_iff] at h
    rw [renderSeparated]
    exact (render_succeeds ctx e h.1).seq ((succeeds_emit sep).seq
      (renderSeparated_succeeds ctx sep (f :: rest) h.2))

end

end Expr

end GrammarText
