import GrammarText.Expr.Variable
import GrammarText.Proofs.Expr.Trace
import GrammarText.Proofs.Grammar.Lines

/-!
Writing only appends.

- `Item.render_appends`, `Grammar.render_appends`: an item, and a grammar, leave in every emitter the
  same fragments behind what it holds, whether they fail or not.
- `rendering_only_appends`: the same for expressions, with what rows of steps leave.
-/

namespace GrammarText

open Emission

/-! ## Definitions and directives -/

namespace Definition

theorem head_appends (d : Definition) : d.renderHead.Appends := by
  have hpriority : (renderPriority d.priority).Appends := by
    unfold renderPriority
    split
    · exact (appends_emit ".").seq (appends_emit _)
    · exact appends_pure
  rw [renderHead_eq]
  exact (appends_emit _).seq ((appends_emit _).seq (hpriority.seq (appends_emit ": ")))

end Definition

theorem Item.render_appends (ctx : Context) (i : Item) : (i.render ctx).Appends := by
  have hrow : ∀ sep items, (Expr.renderSeparated ctx sep items).Appends := fun sep items =>
    Expr.renderSeparated_appends sep fun e _ => Expr.render_appends ctx e
  cases i with
  | definition d => exact d.head_appends.seq (hrow " " d.tokens)
  | directive d =>
    obtain ⟨name, content⟩ := d
    refine (appends_emit "%").seq ((appends_emit name).seq ((appends_emit " ").seq ?_))
    cases content with
    | raw text => exact appends_emit text
    | node e => exact Expr.render_appends ctx e
  | template t =>
    have hparams : (Expr.renderWrapped ctx "\x7b" "\x7d" t.params ", ").Appends :=
      (hrow ", " t.params).enclosed
    exact (appends_emit _).seq ((appends_emit _).seq (hparams.seq ((appends_emit ": ").seq
      (hrow " " t.tokens))))

/-! ## Grammars -/

namespace Grammar

theorem renderPart_appends (ctx : Context) (items : List Item) :
    (renderPart (items.map (·.render ctx))).Appends := by
  induction items with
  | nil => exact appends_emit "\n"
  | cons i items ih => exact (i.render_appends ctx).seq ((appends_emit "\n").seq ih)

theorem render_appends (ctx : Context) (g : Grammar) : (g.render ctx).Appends := by
  rw [render_eq_parts]
  exact (renderPart_appends ctx _).seq ((renderPart_appends ctx _).seq
    ((renderPart_appends ctx _).seq (renderPart_appends ctx _)))

end Grammar

/-- Rendering only appends and does not look at what is there: an expression, an item and a grammar
leave in every emitter, behind what it holds, the fragments that they leave in an empty one, of which
none is empty, and they succeed, or fail with the same error, as they do there. The fragments and the
text of a rendering that succeeds are what it leaves in an empty emitter.

Steps in a row that all succeed leave their own fragments, with the separator between every two, be
it that a step leaves nothing; a text at either end stands before and behind them. If one fails, what
was left up to the failure stays, and nothing is left behind it. An empty separator or end adds
nothing. -/
theorem rendering_only_appends (ctx : Context) :
    ((∀ e : Expr, (e.render ctx).Appends) ∧ (∀ i : Item, (i.render ctx).Appends) ∧
      ∀ g : Grammar, (g.render ctx).Appends) ∧
    (∀ step : Emission, step.fragments = step.trace.outcome ∧
      step.text = step.trace.outcome.map String.join) ∧
    (∀ (sep opening closing : String) (items : List Expr),
      Expr.renderSeparated ctx sep items = joined sep (items.map (Expr.render ctx)) ∧
        Expr.renderWrapped ctx opening closing items sep
          = wrapped opening closing (items.map (Expr.render ctx)) sep) ∧
    ∀ (sep opening closing : String) (front : List Emission), (∀ s ∈ front, s.Appends) →
      (∀ s ∈ front, s.trace.error? = none) →
      ((joined sep front).Leaves ⟨rowOf sep front, none⟩ ∧
        (wrapped opening closing front sep).Leaves
          ⟨kept opening ++ (rowOf sep front ++ kept closing), none⟩) ∧
      ∀ (step : Emission) (back : List Emission) (err : GrammarError), step.Appends →
        step.trace.error? = some err →
        (joined sep (front ++ step :: back)).Leaves ⟨rowOf sep (front ++ [step]), some err⟩ ∧
          (wrapped opening closing (front ++ step :: back) sep).Leaves
            ⟨kept opening ++ rowOf sep (front ++ [step]), some err⟩ := by
  refine ⟨⟨Expr.render_appends ctx, Item.render_appends ctx, Grammar.render_appends ctx⟩,
    fun step => ⟨fragments_eq_outcome step, text_eq_outcome step⟩,
    fun sep opening closing items => ?_, fun sep opening closing front h hok => ⟨?_, ?_⟩⟩
  · have hrow := Expr.renderSeparated_eq ctx sep items
    exact ⟨hrow, by rw [Expr.renderWrapped, hrow]; rfl⟩
  · have hrow := leaves_joined sep h hok
    exact ⟨hrow, leaves_wrapped opening closing hrow⟩
  · intro step back err hstep herr
    have hrow := leaves_joined_until sep h hok hstep herr back
    exact ⟨hrow, leaves_wrapped_until opening closing hrow⟩

/-- Behind a step that leaves nothing there is a separator all the same. A group that fails inside
leaves its beginning. -/
theorem failingGroup_leaves :
    let front := [Expr.text "a", Expr.empty].map (Expr.render {})
    let step := (Expr.group [.text "b", .failingVariable none "no"]).render {}
    (∀ s ∈ front, s.Appends) ∧ (∀ s ∈ front, s.trace.error? = none) ∧ step.Appends ∧
      step.trace.error? = some (.unresolved "no") ∧
      (joined " | " (front ++ step :: [(Expr.text "c").render {}])).Leaves
        ⟨["\"a\"", " | ", " | ", "(", "\"b\"", " "], some (.unresolved "no")⟩ := by
  intro front step
  obtain ⟨⟨hexpr, -, -⟩, -, -, hrows⟩ := rendering_only_appends {}
  have h : ∀ s ∈ front, s.Appends := List.forall_mem_map.mpr fun e _ => hexpr e
  have hok : ∀ s ∈ front, s.trace.error? = none :=
    List.forall_mem_cons.mpr ⟨rfl, List.forall_mem_singleton.mpr rfl⟩
  have herr : step.trace.error? = some (.unresolved "no") := rfl
  exact ⟨h, hok, hexpr _, herr, ((hrows " | " "" "" front h hok).2 step _ _ (hexpr _) herr).1⟩

end GrammarText
