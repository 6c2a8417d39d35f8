import GrammarText.Proofs.Expr.Rewrite
import GrammarText.Proofs.Grammar.Registration

/-!
Alternatives inside alternatives are written flat.

A choice has no parentheses around it, so a choice that is one of the alternatives of another adds
its own alternatives to those of the other, as long as it has one. Without any it leaves nothing
between two separators.

- `Emission.joined_append`, `Emission.joined_flatten`: steps in a row, of which one is itself a row
  with the same separator.
- `Bracketing`: operands combined two at a time.
- `Grammar.runAll_extend`: a run of `extend` on one name. Each `extend` puts the choice of the one
  before it into a new one (`extended`), so the choices are as deep as the run is long.
- `alternation_flattens`: nested choices, bracketings, and runs of `extend` come to one choice.
-/

namespace GrammarText

variable {ctx : Context} {sep : String}

/-! ## A row inside a row -/

namespace Emission

variable {front steps back : List Emission}

theorem joined_append (hf : front ≠ []) (hs : steps ≠ []) : joined sep (front ++ steps) =
    (do joined sep front; emit sep; joined sep steps) := by
  induction front with
  | nil => exact absurd rfl hf
  | cons step front ih =>
    rw [List.cons_append]
    by_cases hne : front = []
    · subst hne
      exact joined_cons hs
    · rw [joined_cons hne, joined_cons (List.append_ne_nil_of_left_ne_nil hne _), ih hne]
      simp only [bind_assoc]

theorem joined_flatten (front back : List Emission) (hs : steps ≠ []) :
    joined sep (front ++ [joined sep steps] ++ back) = joined sep (front ++ steps ++ back) := by
  induction front with
  | nil =>
    rw [List.nil_append, List.nil_append]
    by_cases hne : back = []
    · subst hne
      rw [List.append_nil, List.append_nil]
      rfl
    · rw [joined_append hs hne, List.singleton_append, joined_cons hne]
  | cons step front ih =>
    simp only [List.cons_append]
    rw [joined_cons (by simp), joined_cons (by simp [hs]), ih]

end Emission

/-! ## A choice inside a choice -/

namespace Expr

open Emission

theorem render_choice (ctx : Context) (items : List Expr) :
    render ctx (choice items) = joined " | " (items.map (render ctx)) := by
  rw [render, renderSeparated_eq]

theorem references_choice (items : List Expr) :
    references (choice items) = items.flatMap references := by
  rw [references, referencesAll_eq]

theorem render_choice_flatten (ctx : Context) (xs zs : List Expr) {ys : List Expr} (h : ys ≠ []) :
    render ctx (choice (xs ++ [choice ys] ++ zs)) = render ctx (choice (xs ++ ys ++ zs)) := by
  have hys : ys.map (render ctx) ≠ [] := by simpa using h
  simp only [render_choice, List.map_append, List.map_cons, List.map_nil]
  exact joined_flatten _ _ hys

theorem references_choice_flatten (xs ys zs : List Expr) :
    references (choice (xs ++ [choice ys] ++ zs)) = references (choice (xs ++ ys ++ zs)) := by
  simp only [references_choice, List.flatMap_append, List.flatMap_singleton]

/-- Nothing stands behind the separator in front of a choice without alternatives. -/
example : ((choice [.text "a", choice []]).render {}).fragments = .ok ["\"a\"", " | "] := by rfl

/-- A way to combine operands two at a time. -/
inductive Bracketing where
  | operand (e : Expr)
  | either (left right : Bracketing)

namespace Bracketing

/-- The operands, from the left. -/
def operands : Bracketing → List Expr
  | operand e => [e]
  | either left right => left.operands ++ right.operands

/-- The binary choices that the brackets stand for. -/
def expr : Bracketing → Expr
  | operand e => e
  | either left right => Expr.either left.expr right.expr

theorem operands_ne_nil (b : Bracketing) : b.operands ≠ [] := by
  induction b with
  | operand e => exact List.cons_ne_nil e []
  | either left right hleft _ => exact List.append_ne_nil_of_left_ne_nil hleft _

theorem render_expr (ctx : Context) (b : Bracketing) :
    b.expr.render ctx = (choice b.operands).render ctx := by
  rw [render_choice]
  induction b with
  | operand e => rfl
  | either left right hleft hright =>
    have hl : left.operands.map (render ctx) ≠ [] := by simpa using left.operands_ne_nil
    have hr : right.operands.map (render ctx) ≠ [] := by simpa using right.operands_ne_nil
    rw [expr, Expr.either, render_choice, operands, List.map_append, joined_append hl hr, ← hleft,
      ← hright]
    rfl

theorem references_expr (b : Bracketing) : b.expr.references = (choice b.operands).references := by
  rw [references_choice]
  induction b with
  | operand e => simp [expr, operands]
  | either left right hleft hright =>
    simp [expr, Expr.either, references_choice, operands, hleft, hright]

/-- Operands joined from the left are a bracketing. -/
theorem exists_orElseAll (b : Bracketing) (rest : List Expr) :
    ∃ chain : Bracketing, chain.expr = orElseAll b.expr rest ∧
      chain.operands = b.operands ++ rest := by
  induction rest generalizing b with
  | nil => exact ⟨b, rfl, (List.append_nil _).symm⟩
  | cons e rest ih =>
    obtain ⟨chain, hexpr, hoperands⟩ := ih (either b (operand e))
    exact ⟨chain, hexpr, by rw [hoperands, operands, List.append_assoc]; rfl⟩

end Bracketing

/-! ## Extensions -/

/-- The tokens after an `extend`. -/
def extended (tokens alternatives : List Expr) : List Expr := [choice (tokens ++ alternatives)]

/-- However deep the choices are, the tokens and all the alternatives are written in a row. Only the
first choice could have no alternative. -/
theorem renderSeparated_extended (ctx : Context) {tokens first : List Expr} (h : tokens ++ first ≠ [])
    (rest : List (List Expr)) :
    renderSeparated ctx " " ((first :: rest).foldl extended tokens) =
      renderSeparated ctx " | " (tokens ++ (first :: rest).flatten) := by
  induction rest generalizing tokens first with
  | nil => simp [extended, renderSeparated, render]
  | cons second rest ih =>
    -- from here on the tokens are the first choice, so they cannot be empty
    have hflat := render_choice_flatten ctx [] (second :: rest).flatten h
    rw [render, render] at hflat
    rw [List.foldl_cons, ih (List.cons_ne_nil _ _), extended, List.flatten_cons (l := first),
      ← List.append_assoc]
    exact hflat

end Expr

namespace Grammar

open GrammarText.Expr (extended)

variable {g : Grammar} {name : String} {found : Found}

/-- What the name leads to is what was filed under it. -/
theorem find?_filed (hg : g.Consistent) (hf : g.find? name = some found) (tokens : List Expr) :
    (g.filed name (found.withTokens tokens)).find? name = some (found.withTokens tokens) := by
  unfold find? at hf
  cases hr : g.rules.get? name with
  | some d =>
    obtain rfl : Found.definition d = found := by simpa [hr] using hf
    have hkind : d.kind = .rule := (rule_entry hg (Entries.mem_of_get? hr)).2.1
    simp [Found.withTokens, Found.map, filed, hkind, find?, setDefinitions, definitions,
      Entries.get?_put_self]
  | none =>
    cases ht : g.terminals.get? name with
    | some d =>
      obtain rfl : Found.definition d = found := by simpa [hr, ht] using hf
      have hkind : d.kind = .terminal := (terminal_entry hg (Entries.mem_of_get? ht)).2.1
      simp [Found.withTokens, Found.map, filed, hkind, find?, setDefinitions, definitions, hr,
        Entries.get?_put_self]
    | none =>
      cases hm : g.templates.get? name with
      | some t =>
        obtain rfl : Found.template t = found := by simpa [hr, ht, hm] using hf
        simp [Found.withTokens, Found.map, filed, find?, hr, ht, Entries.get?_put_self]
      | none => simp [hr, ht, hm] at hf

theorem filed_filed (g : Grammar) (name : String) (found : Found) (tokens other : List Expr) :
    (g.filed name (found.withTokens tokens)).filed name (found.withTokens other) =
      g.filed name (found.withTokens other) := by
  cases found with
  | definition d =>
    cases hk : d.kind <;>
      simp [Found.withTokens, Found.map, filed, hk, setDefinitions, definitions, Entries.put_put_self]
  | template t => simp [Found.withTokens, Found.map, filed, Entries.put_put_self]

/-- The text of the grammar depends on the text of the tokens alone. -/
theorem render_filed {tokens other : List Expr}
    (h : Expr.renderSeparated ctx " " tokens = Expr.renderSeparated ctx " " other) :
    (g.filed name (found.withTokens tokens)).render ctx =
      (g.filed name (found.withTokens other)).render ctx := by
  cases found with
  | definition d =>
    obtain ⟨kind, defined, body, modifier, priority⟩ := d
    have hline : Definition.render ctx ⟨kind, defined, tokens, modifier, priority⟩ =
        Definition.render ctx ⟨kind, defined, other, modifier, priority⟩ := by
      simp only [Definition.render, h]
      rfl
    cases kind <;>
      simp only [Found.withTokens, Found.map, filed, setDefinitions, definitions, render,
        Entries.map_values_put hline]
  | template t =>
    have hline : TemplateDef.render ctx { t with tokens } =
        TemplateDef.render ctx { t with tokens := other } := by
      simp only [TemplateDef.render, h]
    simp only [Found.withTokens, Found.map, filed, render, Entries.map_values_put hline]

theorem perform_extend (hg : g.Consistent) (hf : g.find? name = some found)
    (alternatives : List Expr) : (g.perform (.extend name alternatives)).2 =
      g.filed name (found.withTokens (extended found.tokens alternatives)) := by
  have hrun : Operation.run (.extend name alternatives) g = _ :=
    updateTokens_filed hg hf fun tokens => [.choice (tokens ++ alternatives)]
  rw [perform_eq, hrun]
  rfl

/-- A run of `extend` files the definition with the tokens of the last one. -/
theorem runAll_extend (hg : g.Consistent) (hf : g.find? name = some found) (first : List Expr)
    (rest : List (List Expr)) : g.runAll ((first :: rest).map (.extend name)) =
      g.filed name (found.withTokens ((first :: rest).foldl extended found.tokens)) := by
  induction rest generalizing g found first with
  | nil => exact perform_extend hg hf first
  | cons second rest ih =>
    have hstep := perform_extend hg hf first
    have hg' := consistent_perform hg (.extend name first)
    rw [hstep] at hg'
    show runAll (g.perform (.extend name first)).2 ((second :: rest).map (.extend name)) = _
    rw [hstep, ih hg' (find?_filed hg hf _) second, Found.withTokens_withTokens, filed_filed,
      Found.tokens_withTokens]
    rfl

end Grammar

/-! ## The result -/

open GrammarText.Expr (choice orElseAll Bracketing)

/-- A choice inside a choice comes to one choice, if it has an alternative: the two leave the same
fragments, or fail alike, and refer to the same names. So operands combined two at a time, from the
left or in any other way, come to one choice between them. And so does a run of `extend` on one name,
with any number of alternatives each time: afterwards the body is written as a row of the tokens that
were there and all the alternatives, as after one `extend` with all of them, and the two grammars
have the same text. This asks for a token or an alternative at the first `extend`. -/
theorem alternation_flattens (ctx : Context) :
    (∀ xs ys zs : List Expr, ys ≠ [] →
      (choice (xs ++ [choice ys] ++ zs)).render ctx = (choice (xs ++ ys ++ zs)).render ctx ∧
      (choice (xs ++ [choice ys] ++ zs)).references = (choice (xs ++ ys ++ zs)).references) ∧
    (∀ b : Bracketing, b.expr.render ctx = (choice b.operands).render ctx ∧
      b.expr.references = (choice b.operands).references) ∧
    (∀ first rest, (orElseAll first rest).render ctx = (choice (first :: rest)).render ctx ∧
      (orElseAll first rest).references = (choice (first :: rest)).references) ∧
    ∀ (g : Grammar) (name : String) (found : Found) (first : List Expr) (rest : List (List Expr)),
      g.IsReachable → g.find? name = some found → found.tokens ++ first ≠ [] →
      let inTurn := g.runAll ((first :: rest).map (.extend name))
      let atOnce := g.runAll [.extend name (first :: rest).flatten]
      (∀ g' ∈ [inTurn, atOnce], ∃ tokens, g'.find? name = some (found.withTokens tokens) ∧
        Expr.renderSeparated ctx " " tokens =
          Expr.renderSeparated ctx " | " (found.tokens ++ (first :: rest).flatten)) ∧
      inTurn.generate ctx = atOnce.generate ctx := by
  refine ⟨fun xs ys zs h => ?_, fun b => ⟨b.render_expr ctx, b.references_expr⟩,
    fun first rest => ?_, fun g name found first rest hreach hf h => ?_⟩
  · exact ⟨Expr.render_choice_flatten ctx xs zs h, Expr.references_choice_flatten xs ys zs⟩
  · obtain ⟨chain, hexpr, hoperands⟩ := Bracketing.exists_orElseAll (.operand first) rest
    have hrender := chain.render_expr ctx
    have hnames := chain.references_expr
    rw [hexpr, hoperands] at hrender hnames
    exact ⟨hrender, hnames⟩
  · intro inTurn atOnce
    have hg := hreach.consistent
    have hinTurn : inTurn = _ := Grammar.runAll_extend hg hf first rest
    have hatOnce : atOnce = _ := Grammar.runAll_extend hg hf (first :: rest).flatten []
    have hrow := Expr.renderSeparated_extended ctx h rest
    have hall : found.tokens ++ (first :: rest).flatten ≠ [] := by
      rw [List.flatten_cons, ← List.append_assoc]
      exact List.append_ne_nil_of_left_ne_nil h _
    have hone := Expr.renderSeparated_extended ctx hall []
    rw [List.flatten_singleton] at hone
    rw [hinTurn, hatOnce]
    refine ⟨List.forall_mem_cons.mpr ⟨⟨_, Grammar.find?_filed hg hf _, hrow⟩,
      List.forall_mem_singleton.mpr ⟨_, Grammar.find?_filed hg hf _, hone⟩⟩, ?_⟩
    rw [Grammar.generate, Grammar.render_filed (hrow.trans hone.symm), Grammar.generate]

/-- A rule of two tokens. -/
def pairRule : Grammar := (Grammar.new 0).runAll
  [.define "pair" { tokens := [.text "a", .text "b"] }]

/-- The empty extension in the middle leaves no separator. -/
theorem pairRule_extended :
    let ops := [[.text "c"], [], [.text "d"]].map (Operation.extend "pair")
    let row := Expr.renderSeparated {} " | " [.text "a", .text "b", .text "c", .text "d"]
    pairRule.IsReachable ∧
      pairRule.find? "pair" =
        some (.definition ⟨.rule, "pair", [.text "a", .text "b"], .none, 1⟩) ∧
      (∃ tokens, (pairRule.runAll ops).find? "pair" =
        some (.definition ⟨.rule, "pair", tokens, .none, 1⟩) ∧
        Expr.renderSeparated {} " " tokens = row) ∧
      row.fragments = .ok ["\"a\"", " | ", "\"b\"", " | ", "\"c\"", " | ", "\"d\""] ∧
      (pairRule.runAll ops).generate {} =
        (pairRule.runAll [.extend "pair" [.text "c", .text "d"]]).generate {} ∧
      (choice ([.text "a"] ++ [choice [.text "b"]] ++ [])).render {} =
        (choice ([.text "a"] ++ [.text "b"] ++ [])).render {} := by
  intro ops row
  have hreach : pairRule.IsReachable := ⟨0, _, rfl⟩
  have hfound : pairRule.find? "pair" =
      some (.definition ⟨.rule, "pair", [.text "a", .text "b"], .none, 1⟩) := rfl
  obtain ⟨hnested, -, -, hextend⟩ := alternation_flattens {}
  obtain ⟨hbody, htext⟩ := hextend pairRule "pair" _ [.text "c"] [[], [.text "d"]] hreach hfound
    (List.cons_ne_nil _ _)
  exact ⟨hreach, hfound, hbody _ List.mem_cons_self, rfl, htext,
    (hnested [.text "a"] [.text "b"] [] (List.cons_ne_nil _ _)).1⟩

end GrammarText
