import GrammarText.Proofs.Expr.Unambiguous

/-!
Rules and terminals can be read off their text.

- `Definition.written`, `Definition.render_writes`: the line that a definition comes to.
- `Definition.IsPlain`: a definition whose tokens are elements and whose mark is none that a name
  may begin with.
- `Definition.text_eq_iff`: two plain definitions come to the same line exactly if they agree in all
  but how their tokens are spelled. The contexts play no part.
-/

namespace GrammarText.Definition

open Text GrammarText.Expr

/-! ## The line of a definition -/

def writtenPriority (n : Int) : List Char :=
  if n ≠ defaultPriority then '.' :: (toString n).toList else []

def writtenHead (d : Definition) : List Char :=
  d.modifier.symbol.toList ++ (d.name.toList ++ (writtenPriority d.priority ++ [':', ' ']))

def written (ctx : Context) (d : Definition) : List Char :=
  d.writtenHead ++ writtenItems ctx [' '] d.tokens

def renderPriority (n : Int) : Emission := do
  if n ≠ defaultPriority then do emit "."; emit (toString n)

theorem renderHead_eq (d : Definition) : d.renderHead = (do
    emit d.modifier.symbol; emit d.name; renderPriority d.priority; emit ": ") := by
  unfold renderHead renderPriority
  split <;> rfl

open Emission

theorem priority_writes (n : Int) : Writes (renderPriority n) (writtenPriority n) := by
  unfold renderPriority writtenPriority
  split
  · exact (writes_emit ".").seq (writes_emit (toString n))
  · exact writes_pure

theorem priority_succeeds (n : Int) : Succeeds (renderPriority n) := by
  unfold renderPriority
  split
  · exact (succeeds_emit ".").seq (succeeds_emit (toString n))
  · exact succeeds_pure

theorem head_writes (d : Definition) : Writes d.renderHead d.writtenHead := by
  rw [renderHead_eq]
  exact (writes_emit _).seq ((writes_emit _).seq ((priority_writes _).seq (writes_emit ": ")))

theorem head_succeeds (d : Definition) : Succeeds d.renderHead := by
  rw [renderHead_eq]
  exact (succeeds_emit _).seq ((succeeds_emit _).seq ((priority_succeeds _).seq (succeeds_emit _)))

theorem render_writes (ctx : Context) (d : Definition) : Writes (d.render ctx) (d.written ctx) :=
  d.head_writes.seq (renderSeparated_writes ctx " " d.tokens)

theorem render_succeeds (ctx : Context) {d : Definition} (h : anyHoldsVariable d.tokens = false) :
    Succeeds (d.render ctx) := d.head_succeeds.seq (renderSeparated_succeeds ctx " " d.tokens h)

/-- Without a variable the line is never refused. -/
theorem render_text (ctx : Context) {d : Definition} (h : anyHoldsVariable d.tokens = false) :
    (d.render ctx).text = .ok (String.ofList (d.written ctx)) :=
  text_eq (render_succeeds ctx h) (d.render_writes ctx)

/-! ## What stands before the tokens -/

variable {c₁ c₂ : Context} {d₁ d₂ : Definition} {r s : List Char}

theorem name_not_mark {k : NameClass} {a : String} (ha : k.admits a = true) {c : Char}
    (hc : isNameStart c = false) : a.toList ++ r ≠ c :: s := by
  obtain ⟨d, ds, hds, hd⟩ := (admits_chars ha).1
  intro h
  rw [hds, List.cons_append, List.cons.injEq] at h
  rw [h.1, hc] at hd
  cases hd

/-- An underscore might as well begin the name; the other marks may not. -/
theorem mark_append_inj {k l : NameClass} {a b : String} (ha : k.admits a = true)
    (hb : l.admits b = true) {m n : Modifier} (hm : m ≠ .inline) (hn : n ≠ .inline)
    (h : m.symbol.toList ++ (a.toList ++ r) = n.symbol.toList ++ (b.toList ++ s)) :
    m = n ∧ a.toList ++ r = b.toList ++ s := by
  have htext : Modifier.none.symbol.toList = [] ∧ Modifier.inlineSingle.symbol.toList = ['?'] ∧
      Modifier.keepTerminals.symbol.toList = ['!'] := ⟨rfl, rfl, rfl⟩
  cases m <;> cases n <;> try contradiction
  all_goals simp only [htext, List.nil_append, List.cons_append, List.cons.injEq, Char.reduceEq,
    true_and, false_and] at h
  case none.none | inlineSingle.inlineSingle | keepTerminals.keepTerminals => exact ⟨rfl, h⟩
  case none.inlineSingle | none.keepTerminals => exact absurd h (name_not_mark ha rfl)
  case inlineSingle.none | keepTerminals.none => exact absurd h.symm (name_not_mark hb rfl)

theorem colon_ends {p : Char → Bool} (hp : p ':' = false) (rest : List Char) :
    EndsClass p (':' :: rest) := by
  intro c hc; cases hc; exact hp

/-- Before a colon the default priority, which is not written, is told from any other. -/
theorem priority_append_inj {m n : Int}
    (h : writtenPriority m ++ ':' :: r = writtenPriority n ++ ':' :: s) : m = n ∧ r = s := by
  unfold writtenPriority at h
  split at h <;> split at h <;> simp only [List.cons_append, List.nil_append, List.cons.injEq,
    Char.reduceEq, true_and, false_and] at h
  · obtain ⟨hmn, hrs⟩ := number_append_inj (colon_ends rfl r) (colon_ends rfl s) h
    exact ⟨hmn, (List.cons.inj hrs).2⟩
  · rename_i hm hn
    rw [ne_eq, Decidable.not_not] at hm hn
    exact ⟨hm.trans hn.symm, h⟩

theorem priority_ends (n : Int) (rest : List Char) :
    EndsClass isNameChar (writtenPriority n ++ ':' :: rest) := by
  unfold writtenPriority
  split <;> intro c hc <;> cases hc <;> decide

/-- A definition of elements, with a mark that no name begins with. -/
structure IsPlain (d : Definition) : Prop where
  name : d.kind.admits d.name = true
  modifier : d.modifier ≠ .inline
  tokens : IsContent IsElement d.tokens

theorem head_append_inj (h₁ : d₁.IsPlain) (h₂ : d₂.IsPlain)
    (h : d₁.writtenHead ++ r = d₂.writtenHead ++ s) :
    (d₁.kind = d₂.kind ∧ d₁.name = d₂.name ∧ d₁.modifier = d₂.modifier ∧
      d₁.priority = d₂.priority) ∧ r = s := by
  simp only [writtenHead, List.append_assoc, List.cons_append, List.nil_append] at h
  obtain ⟨hmodifier, hrest⟩ := mark_append_inj h₁.name h₂.name h₁.modifier h₂.modifier h
  obtain ⟨hname, hrest⟩ := name_append_inj h₁.name h₂.name (priority_ends _ _)
    (priority_ends _ _) hrest
  obtain ⟨hpriority, hrest⟩ := priority_append_inj hrest
  have hkind : d₁.kind = d₂.kind := admits_unique (hname ▸ h₁.name) h₂.name
  exact ⟨⟨hkind, hname, hmodifier, hpriority⟩, (List.cons.inj hrest).2⟩

/-! ## Reading a definition off its line -/

theorem IsPlain.text (h : d₁.IsPlain) (ctx : Context) :
    (d₁.render ctx).text = .ok (String.ofList (d₁.written ctx)) :=
  render_text ctx (h.tokens.mono fun _ he => he.holds_no_variable).holds_no_variable

/-- Tokens with the same canonical forms are written alike, whatever the contexts. -/
theorem written_eq_of_canonical {xs ys : List Expr} (hy : IsContent IsElement ys)
    (h : canonicalAll xs = canonicalAll ys) :
    writtenItems c₁ [' '] xs = writtenItems c₂ [' '] ys := by
  calc writtenItems c₁ [' '] xs
      = writtenItems c₁ [' '] (canonicalAll xs) := (writtenItems_canonical c₁ _ xs).symm
    _ = writtenItems c₁ [' '] ys := by rw [h, writtenItems_canonical]
    _ = writtenItems c₂ [' '] ys := (hy.mono fun _ he => he.written_congr c₁ c₂).written_congr

/-- In whatever contexts, two plain definitions come to the same line exactly if they agree in their
class, name, mark and priority, and their tokens in their canonical forms. -/
theorem text_eq_iff (h₁ : d₁.IsPlain) (h₂ : d₂.IsPlain) (c₁ c₂ : Context) :
    (d₁.render c₁).text = (d₂.render c₂).text ↔
      (d₁.kind = d₂.kind ∧ d₁.name = d₂.name ∧ d₁.modifier = d₂.modifier ∧
        d₁.priority = d₂.priority) ∧ canonicalAll d₁.tokens = canonicalAll d₂.tokens := by
  rw [h₁.text c₁, h₂.text c₂, Except.ok.injEq, String.ofList_inj]
  constructor
  · intro h
    obtain ⟨hhead, htokens⟩ := head_append_inj h₁ h₂ h
    exact ⟨hhead, content_unique h₁.tokens h₂.tokens htokens⟩
  · rintro ⟨⟨-, hname, hmodifier, hpriority⟩, htokens⟩
    rw [written, written, writtenHead, writtenHead, hname, hmodifier, hpriority,
      written_eq_of_canonical h₂.tokens htokens]

/-- A rule of the given tokens. -/
def wordsRule (tokens : List Expr) : Definition where
  kind := .rule
  name := "words"
  tokens := tokens
  modifier := .inlineSingle
  priority := 2

theorem wordsRule_plain {tokens : List Expr} (h : ∀ x ∈ tokens, IsElement x) :
    (wordsRule tokens).IsPlain where
  name := (by decide : isRuleName "words" = true)
  modifier := (by decide : Modifier.inlineSingle ≠ .inline)
  tokens := .sequence h

/-- Short forms make no difference. A quote and a blank inside of a text do. -/
theorem words_text_eq_and_ne :
    ((wordsRule [.text "a", .tuple [.text "b"]]).render {}).text =
        ((wordsRule [.literal "a" "", .group [.text "b"]]).render {}).text ∧
      ((wordsRule [.text "a", .text "b"]).render {}).text ≠
        ((wordsRule [.text "a\" \"b"]).render {}).text := by
  have htext : ∀ t, ∀ x ∈ [Expr.text t], IsElement x := fun t =>
    List.forall_mem_singleton.mpr (.text t)
  have htuple : ∀ x ∈ [Expr.tuple [.text "b"]], IsElement x :=
    List.forall_mem_singleton.mpr (.sequence rfl (htext "b"))
  have hgroup : ∀ x ∈ [Expr.group [.text "b"]], IsElement x :=
    List.forall_mem_singleton.mpr (.sequence rfl (htext "b"))
  have hshort := wordsRule_plain (List.forall_mem_cons.mpr ⟨.text "a", htuple⟩)
  have hspelled := wordsRule_plain (List.forall_mem_cons.mpr ⟨.literal "a", hgroup⟩)
  have htwo := wordsRule_plain (List.forall_mem_cons.mpr ⟨.text "a", htext "b"⟩)
  have hone := wordsRule_plain (htext "a\" \"b")
  refine ⟨(text_eq_iff hshort hspelled {} {}).mpr ?_, ?_⟩
  · exact ⟨⟨rfl, rfl, rfl, rfl⟩, rfl⟩
  · intro h
    have htokens := ((text_eq_iff htwo hone {} {}).mp h).2
    simp [wordsRule, canonicalAll, canonical] at htokens

end GrammarText.Definition
