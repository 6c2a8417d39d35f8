import GrammarText.Proofs.Grammar.Questions
import GrammarText.Proofs.Manifest.Rendering

/-!
The context of a manifest with overrides laid over it, and what of it the text depends on.

- `Context.get?_merge`: a value of the upper context wins over one of the lower.
- `ManifestFile.generate_congr`: overrides that leave every answer as it is leave the text as it is.
- `output_depends_on_answers`: the text of a grammar without variables depends on the answers to its
  questions alone, and an override decides the answer under its key.
-/

namespace GrammarText

/-! ## Contexts over each other -/

namespace Context

theorem distinct_ofList (pairs : List (String × Value)) : (ofList pairs).entries.keys.Nodup :=
  Entries.nodup_putAll pairs List.nodup_nil

theorem get?_merge (c : Context) {top : Context} (hd : top.entries.keys.Nodup) (key : String) :
    (c.merge top).get? key = (top.get? key).or (c.get? key) :=
  Entries.get?_putAll hd c.entries key

theorem getBool_of_get? {c : Context} {key : String} {v : Value} (h : c.get? key = some v)
    (default : Bool) : c.getBool key default = v.truthy := by
  rw [getBool, h]

end Context

/-! ## Manifest files -/

namespace ManifestFile

variable {f : ManifestFile} {id : GrammarId} {g : Grammar}

theorem no_variable_of_grammar (h : f.grammar id = .ok g) :
    ∀ i ∈ g.items, Expr.anyHoldsVariable i.expressions = false :=
  (Manifest.gives_of_build (Manifest.build_of_buildFrom h)).no_variable

theorem generate_congr {a b : Context} (h : ∀ g, f.grammar 0 = .ok g →
    (f.context a).AgreeOn (f.context b) g.questions) : f.generate a = f.generate b := by
  unfold generate
  cases hg : f.grammar 0 with
  | error e => rfl
  | ok g =>
    have hrender := Grammar.render_congr (no_variable_of_grammar hg) (h g hg)
    show (g.generate _).mapError _ = (g.generate _).mapError _
    rw [Grammar.generate, Grammar.generate, hrender]

end ManifestFile

/-- The context reaches the output through the answers that branches ask for and no other way. Under two
contexts that agree on these, a grammar without variables has one text and the same fragments, as a
whole and item by item. Overrides of a manifest that leave the answers of its table as they are leave
its text as it is. An override wins over the table, be it falsy and the default true, and where there
is no override the table stands. -/
theorem output_depends_on_answers :
    (∀ (g : Grammar) (c₁ c₂ : Context),
      (∀ i ∈ g.items, Expr.anyHoldsVariable i.expressions = false) →
      (∀ q ∈ g.questions, c₁.getBool q.1 q.2 = c₂.getBool q.1 q.2) →
        (∃ text, g.generate c₁ = .ok text ∧ g.generate c₂ = .ok text) ∧
          (g.render c₁).fragments = (g.render c₂).fragments ∧
            ∀ i ∈ g.items, (i.render c₁).fragments = (i.render c₂).fragments) ∧
    (∀ (f : ManifestFile) (overrides : Context),
      (∀ g, f.grammar 0 = .ok g → ∀ q ∈ g.questions,
        (f.context overrides).getBool q.1 q.2 = f.manifest.context.getBool q.1 q.2) →
      f.generate overrides = f.generate {}) ∧
    ∀ (f : ManifestFile) (pairs : List (String × Value)) (key : String),
      (∀ v, (Context.ofList pairs).get? key = some v →
        (f.context (Context.ofList pairs)).get? key = some v ∧
          ∀ default, (f.context (Context.ofList pairs)).getBool key default = v.truthy) ∧
      ((Context.ofList pairs).get? key = none →
        (f.context (Context.ofList pairs)).get? key = f.manifest.context.get? key) := by
  refine ⟨fun g c₁ c₂ hv h => ⟨?_, ?_, ?_⟩, fun f overrides h => ?_, fun f pairs key => ?_⟩
  · have hgen := Grammar.generate_eq_lines c₁ hv
    refine ⟨_, hgen, ?_⟩
    rw [← hgen, Grammar.generate, Grammar.generate, Grammar.render_congr hv h]
  · rw [Grammar.render_congr hv h]
  · intro i hi
    rw [Grammar.item_render_congr hv h i hi]
  · exact ManifestFile.generate_congr h
  · have hget := f.manifest.context.get?_merge (Context.distinct_ofList pairs) key
    constructor
    · intro v hv
      rw [hv] at hget
      exact ⟨hget, Context.getBool_of_get? hget⟩
    · intro hnone
      rw [hnone] at hget
      exact hget

/-- A rule that depends on a key, where no value counts as yes. -/
def letter : Grammar := (Grammar.new 0).runAll
  [.define "letter" { tokens := [.branch "unicode" true (.text "u") (.text "a")] }]

/-- A manifest of the same rule, with a value for the key. -/
def letterFile : ManifestFile where
  path := "letter.toml"
  source := ""
  manifest := {
    rules := [⟨"letter", [.branch "unicode" true (.text "u") (.text "a")], none, 1, false⟩]
    context := .ofList [("unicode", .str "yes")] }

theorem letter_answers :
    (∃ text, letter.generate {} = .ok text ∧
      letter.generate (.ofList [("unicode", .int 7), ("other", .bool false)]) = .ok text) ∧
    letterFile.generate (.ofList [("unicode", .bool true)]) = letterFile.generate {} ∧
    (letterFile.context (.ofList [("unicode", .bool false)])).getBool "unicode" true = false ∧
    letterFile.generate (.ofList [("unicode", .bool false)]) = .ok "letter: \"a\"" := by
  obtain ⟨hanswers, hlayers, hwins⟩ := output_depends_on_answers
  refine ⟨(hanswers letter _ _ (by decide) (by decide)).1, hlayers letterFile _ ?_,
    ((hwins letterFile [("unicode", .bool false)] "unicode").1 _ rfl).2 true, rfl⟩
  intro g hg
  have hletter : letterFile.grammar 0 = .ok letter := rfl
  cases hletter.symm.trans hg
  decide

end GrammarText
