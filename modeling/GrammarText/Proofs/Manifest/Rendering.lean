import GrammarText.Proofs.Grammar.Undefined
import GrammarText.Proofs.Manifest.Build

/-!
A manifest that can be built has a text in every context.

- `Manifest.Gives.no_variable`: nothing in the grammar of a manifest has to be looked up in a context.
  What a context decides there is which side of a branch is written.
- `Manifest.build_generates`: so a grammar that is built is also written, under every context.
- `Manifest.read_ok_iff`: a text is accepted if it is a manifest that can be built.
  `Manifest.rebuilds_and_generates`: what is accepted once can be built again, with any identity.
-/

namespace GrammarText

variable {id : GrammarId} {g : Grammar}

/-! ## No variables -/

theorem Node.toExprs_no_variable {ns : List Node} {es : List Expr}
    (h : Node.toExprs g ns = .ok es) : Expr.anyHoldsVariable es = false :=
  ((Node.toExprs_outcome g ns).of_ok h).2.2

theorem Node.toExpr_no_variable {n : Node} {e : Expr} (h : n.toExpr g = .ok e) :
    e.holdsVariable = false :=
  ((Node.toExpr_outcome g n).of_ok h).2

theorem Expr.spelledOut_no_variable {e : Expr} (h : e.holdsVariable = false) :
    e.spelledOut.holdsVariable = false := by
  cases e <;> exact h

theorem DefinitionEntry.Gives.no_variable {kind : NameClass} {e : DefinitionEntry} {d : Definition}
    (h : e.Gives id kind d) : Expr.anyHoldsVariable d.tokens = false := by
  obtain ⟨tokens, htokens, rfl⟩ := h
  exact Node.toExprs_no_variable htokens

theorem TemplateEntry.Gives.no_variable {e : TemplateEntry} {t : TemplateDef} (h : e.Gives id t) :
    Expr.anyHoldsVariable (t.params ++ t.tokens) = false := by
  obtain ⟨params, tokens, hparams, htokens, rfl⟩ := h
  have hp := Expr.anyHoldsVariable_eq_false.mp (Node.toExprs_no_variable hparams)
  have ht := Expr.anyHoldsVariable_eq_false.mp (Node.toExprs_no_variable htokens)
  exact Expr.anyHoldsVariable_eq_false.mpr (List.forall_mem_append.mpr ⟨hp, ht⟩)

theorem DirectiveEntry.Gives.no_variable {e : DirectiveEntry} {d : Directive} (h : e.Gives id d) :
    Expr.anyHoldsVariable (Item.directive d).expressions = false := by
  rcases h with ⟨text, -, -, rfl⟩ | ⟨n, x, -, -, hx, rfl⟩
  · rfl
  · have hv := Expr.spelledOut_no_variable (Node.toExpr_no_variable hx)
    exact Expr.anyHoldsVariable_eq_false.mpr (List.forall_mem_singleton.mpr hv)

namespace Manifest

variable {m : Manifest} {source : String}

theorem exists_entry {entries : List DirectiveEntry} {directives : List Directive}
    (h : List.Forall₂ (DirectiveEntry.Gives id) entries directives) :
    ∀ d ∈ directives, ∃ e ∈ entries, e.Gives id d := by
  induction h with
  | nil => exact List.forall_mem_nil _
  | cons hd _ ih =>
    refine List.forall_mem_cons.mpr ⟨⟨_, List.mem_cons_self, hd⟩, fun d hmem => ?_⟩
    obtain ⟨e, he, hgives⟩ := ih d hmem
    exact ⟨e, List.mem_cons_of_mem _ he, hgives⟩

theorem Gives.no_variable (h : m.Gives id g) :
    ∀ i ∈ g.items, Expr.anyHoldsVariable i.expressions = false := by
  intro i hi
  rcases Grammar.mem_items.mp hi with ⟨d, hd, rfl⟩ | ⟨d, hd, rfl⟩ | ⟨d, hd, rfl⟩ | ⟨t, ht, rfl⟩
  · obtain ⟨e, -, hgives⟩ := h.terminals.given hd
    exact hgives.no_variable
  · obtain ⟨e, -, hgives⟩ := h.rules.given hd
    exact hgives.no_variable
  · obtain ⟨e, -, hgives⟩ := exists_entry h.directives d hd
    exact hgives.no_variable
  · obtain ⟨e, -, hgives⟩ := h.templates.given ht
    exact hgives.no_variable

/-! ## Building again -/

theorem gives_of_build (h : m.build id = .ok g) : m.Gives id g := ((m.build_outcome id).of_ok h).2

theorem build_generates (h : m.build id = .ok g) (ctx : Context) :
    ∃ text, g.generate ctx = .ok text :=
  ⟨_, Grammar.generate_eq_lines ctx (gives_of_build h).no_variable⟩

/-- Whether a manifest can be built does not depend on the identity of the grammar. -/
theorem build_again (h : m.build id = .ok g) (id' : GrammarId) : ∃ g', m.build id' = .ok g' := by
  have hnone : m.faults.head? = none := ((m.build_outcome id).of_ok h).1
  exact (m.build_outcome id').fault_eq_none.mp hnone

theorem buildFrom_of_build (h : m.build id = .ok g) (source : String) :
    m.buildFrom source id = .ok g := by
  rw [buildFrom, h]
  rfl

theorem build_of_buildFrom (h : m.buildFrom source id = .ok g) : m.build id = .ok g := by
  unfold buildFrom at h
  cases hb : m.build id with
  | error fault =>
    rw [hb] at h
    cases h
  | ok g' =>
    rw [hb] at h
    cases h
    rfl

theorem read_ok_iff [Toml.Library] :
    Manifest.read source = .ok m ↔ parse? source = some m ∧ ∃ g, m.build 0 = .ok g := by
  unfold Manifest.read
  cases hp : parse? source with
  | none => simp
  | some m' =>
    show (m'.buildFrom source 0 >>= fun _ => pure m') = .ok m ↔ _
    cases hb : m'.buildFrom source 0 with
    | error e =>
      constructor
      · intro h
        cases h
      · rintro ⟨hm, g, hg⟩
        cases hm
        rw [buildFrom_of_build hg source] at hb
        cases hb
    | ok g =>
      constructor
      · intro h
        cases h
        exact ⟨rfl, g, build_of_buildFrom hb⟩
      · rintro ⟨hm, -⟩
        cases hm
        rfl

/-- The grammar of an accepted text can be built with each identity, with or without the text, and be
written under each context. -/
theorem rebuilds_and_generates [Toml.Library] (h : Manifest.read source = .ok m) (id : GrammarId) :
    ∃ g, m.build id = .ok g ∧ m.buildFrom source id = .ok g ∧
      ∀ ctx, ∃ text, g.generate ctx = .ok text := by
  obtain ⟨-, g₀, hg₀⟩ := read_ok_iff.mp h
  obtain ⟨g, hg⟩ := build_again hg₀ id
  exact ⟨g, hg, buildFrom_of_build hg source, build_generates hg⟩

end Manifest

end GrammarText
