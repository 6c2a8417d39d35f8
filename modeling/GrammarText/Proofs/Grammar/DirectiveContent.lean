import GrammarText.Proofs.Grammar.Declared
import GrammarText.Proofs.Grammar.Failure

/-!
A directive given as a raw text and as a node.

- `Grammar.generate_directive`: directives that are written alike and fail alike can stand for each
  other in the text. `Grammar.mem_undefined_node`: what a node adds to the undefined references.
- `Grammar.content_exchanged`: a node that is written like the raw text of a directive leaves the text
  of the grammar, but not the names that the directive brings in. The list of undefined references is
  the same exactly if no reference needs these names and the node itself adds none.
- `Grammar.declaredByNode_missing`: a declaration whose name is used, and which counts only if it is
  raw.
-/

namespace GrammarText

open Emission

variable {ctx : Context}

/-- An expression that has a text is written as this text and holds no variable that fails. -/
theorem Expr.written_of_text {n : Expr} {text : String} (h : (n.render ctx).text = .ok text) :
    n.written ctx = text.toList ∧ n.failures ctx = [] := by
  obtain ⟨out, hout, rfl⟩ := ok_of_text h
  have hreports := Expr.render_reports ctx n
  refine ⟨?_, (hreports.ok_iff .empty).mp ⟨out, hout⟩⟩
  exact (Expr.render_writes ctx n .empty out hout).symm

namespace Grammar

variable {g : Grammar} {front back : List Directive} {d d' : Directive}

/-! ## The text -/

/-- Two directives that are written alike and fail alike can stand for each other in the text. -/
theorem generate_directive (g : Grammar) (front back : List Directive)
    (hwritten : d'.written ctx = d.written ctx)
    (hfailures : (Item.directive d').failures ctx = (Item.directive d).failures ctx) :
    ({ g with directives := front ++ d' :: back } : Grammar).generate ctx
      = ({ g with directives := front ++ d :: back } : Grammar).generate ctx := by
  have hlines : ({ g with directives := front ++ d' :: back } : Grammar).lines ctx
      = ({ g with directives := front ++ d :: back } : Grammar).lines ctx := by
    simp [lines, parts, partLines, Item.written, hwritten]
  have herrs : ({ g with directives := front ++ d' :: back } : Grammar).items.flatMap
        (Item.failures ctx)
      = ({ g with directives := front ++ d :: back } : Grammar).items.flatMap
        (Item.failures ctx) := by
    simp [items, parts, hfailures]
  rw [generate_eq, generate_eq, hlines, herrs]

/-! ## The list of undefined references -/

theorem mem_items_directive {i : Item} :
    i ∈ ({ g with directives := front ++ d :: back } : Grammar).items
      ↔ i = .directive d ∨ i ∈ ({ g with directives := front ++ back } : Grammar).items := by
  simp only [items, parts, List.flatten_cons, List.flatten_nil, List.append_nil, List.map_append,
    List.map_cons, List.mem_append, List.mem_cons]
  tauto

/-- A directive that is a node adds the names it refers to, as far as nothing else accounts for
them. -/
theorem mem_undefined_node (g : Grammar) (front back : List Directive) (name : String) (n : Expr)
    (x : String) :
    x ∈ ({ g with directives := front ++ ⟨name, .node n⟩ :: back } : Grammar).undefinedReferences
      ↔ x ∈ ({ g with directives := front ++ back } : Grammar).undefinedReferences ∨
        x ∈ n.references ∧ g.isDefined x = false ∧ ∀ d ∈ front ++ back, x ∉ d.declaredNames := by
  have hdeclared : (∀ d ∈ front ++ ⟨name, .node n⟩ :: back, x ∉ d.declaredNames)
      ↔ ∀ d ∈ front ++ back, x ∉ d.declaredNames := by
    simp [Directive.declaredNames, or_imp, forall_and]
  rw [mem_undefinedReferences, mem_undefinedReferences]
  constructor
  · rintro ⟨hdef, hdir, i, hi, hname, hlocal⟩
    rcases mem_items_directive.mp hi with rfl | hi
    · exact Or.inr ⟨hname, hdef, hdeclared.mp hdir⟩
    · exact Or.inl ⟨hdef, hdeclared.mp hdir, i, hi, hname, hlocal⟩
  · rintro (⟨hdef, hdir, i, hi, hname, hlocal⟩ | ⟨hname, hdef, hdir⟩)
    · exact ⟨hdef, hdeclared.mpr hdir, i, mem_items_directive.mpr (Or.inr hi), hname, hlocal⟩
    · exact ⟨hdef, hdeclared.mpr hdir, _, mem_items_directive.mpr (Or.inl rfl), hname,
        List.not_mem_nil⟩

/-- The raw text of a directive, and a node that comes to the same text in every context. In its place
the node leaves the text of the grammar. The names that the directive brings in are no longer taken
from the list of undefined references, and the names that the node refers to come to it, if nothing
else accounts for them. So the list stays the same exactly if the node adds nothing to what is
undefined without the directive, and none of the names that the directive brings in is undefined
without it. -/
theorem content_exchanged (front back : List Directive) {name text : String} {n : Expr}
    (hd : g.directives = front ++ ⟨name, .raw text⟩ :: back)
    (hn : ∀ ctx, (n.render ctx).text = .ok text) :
    let declared := (⟨name, .raw text⟩ : Directive).declaredNames
    let exchanged : Grammar := { g with directives := front ++ ⟨name, .node n⟩ :: back }
    let without : Grammar := { g with directives := front ++ back }
    (∀ ctx, exchanged.generate ctx = g.generate ctx) ∧
      g.undefinedReferences = without.undefinedReferences.filter (· ∉ declared) ∧
      (∀ x, x ∈ exchanged.undefinedReferences ↔ x ∈ without.undefinedReferences ∨
        x ∈ n.references ∧ g.isDefined x = false ∧ ∀ d ∈ front ++ back, x ∉ d.declaredNames) ∧
      (n.references = [] → exchanged.undefinedReferences = without.undefinedReferences) ∧
      (exchanged.undefinedReferences = g.undefinedReferences ↔
        exchanged.undefinedReferences = without.undefinedReferences ∧
          ∀ x ∈ declared, x ∉ without.undefinedReferences) := by
  intro declared exchanged without
  have hg : g = { g with directives := front ++ ⟨name, .raw text⟩ :: back } := by rw [← hd]
  have hraw : g.undefinedReferences = without.undefinedReferences.filter (· ∉ declared) := by
    rw [hg]
    exact undefined_directive g front back rfl
  have hnode := mem_undefined_node g front back name n
  refine ⟨fun ctx => ?_, hraw, hnode, fun hnone => ?_, ?_⟩
  · obtain ⟨hwritten, hfailures⟩ := Expr.written_of_text (hn ctx)
    have hsame : (⟨name, .node n⟩ : Directive).written ctx
        = (⟨name, .raw text⟩ : Directive).written ctx := by
      simp [Directive.written, Directive.writtenContent, hwritten]
    rw [hg]
    refine generate_directive g front back hsame ?_
    simp [Item.failures, Item.expressions, hfailures]
  · have hreferences : (⟨name, .node n⟩ : Directive).references = [] := hnone
    refine (undefined_directive g front back hreferences).trans (List.filter_eq_self.mpr ?_)
    exact fun x _ => decide_eq_true List.not_mem_nil
  · constructor
    · intro hsame
      have hfree : ∀ x ∈ declared, x ∉ without.undefinedReferences := by
        intro x hx hmem
        have hin : x ∈ g.undefinedReferences := hsame ▸ (hnode x).mpr (Or.inl hmem)
        rw [hraw, List.mem_filter] at hin
        exact of_decide_eq_true hin.2 hx
      refine ⟨?_, hfree⟩
      rw [hsame, hraw, List.filter_eq_self]
      exact fun x hmem => decide_eq_true fun hx => hfree x hx hmem
    · rintro ⟨hsame, hfree⟩
      rw [hsame, hraw, eq_comm, List.filter_eq_self]
      exact fun x hmem => decide_eq_true fun hx => hfree x hx hmem

/-- A rule, and a declaration of a terminal that it does not refer to. -/
def spareWord : Grammar := (Grammar.new 0).runAll
  [.define "start" { tokens := [.text "a"] }, .appendDirective "declare" (.raw "WORD")]

theorem spareWord_exchanged :
    (∀ ctx, ((Expr.verbatim "WORD").render ctx).text = .ok "WORD") ∧
      spareWord.directives = [⟨"declare", .raw "WORD"⟩] ∧
      ({ spareWord with directives := [⟨"declare", .node (.verbatim "WORD")⟩] } : Grammar).generate {}
        = .ok "start: \"a\"\n\n%declare WORD" ∧
      ({ spareWord with
        directives := [⟨"declare", .node (.verbatim "WORD")⟩] } : Grammar).undefinedReferences
          = spareWord.undefinedReferences := by
  have hd : spareWord.directives = [⟨"declare", .raw "WORD"⟩] := rfl
  have hn : ∀ ctx, ((Expr.verbatim "WORD").render ctx).text = .ok "WORD" := fun _ => rfl
  obtain ⟨hgenerate, -, -, hwithout, hsame⟩ := content_exchanged [] [] hd hn
  exact ⟨hn, hd, (hgenerate {}).trans rfl, hsame.mpr ⟨hwithout rfl, by decide⟩⟩

/-- A rule that refers to a terminal, and the content of a declaration that brings it in. -/
def declaredWord (content : DirectiveContent) : Grammar := (Grammar.new 0).runAll
  [.define "start" { tokens := [.handle ⟨.terminal, "WORD", 0⟩] }, .appendDirective "declare" content]

/-- The declaration as a raw text and as a node without variables that always comes to this text. Both
give the same text of the grammar, but behind the node the name counts as undefined. -/
theorem declaredByNode_missing :
    (Expr.verbatim "WORD").holdsVariable = false ∧
      (∀ ctx, ((Expr.verbatim "WORD").render ctx).text = .ok "WORD") ∧
      (declaredWord (.raw "WORD")).directives = [⟨"declare", .raw "WORD"⟩] ∧
      declaredWord (.node (.verbatim "WORD")) = { declaredWord (.raw "WORD") with
        directives := [⟨"declare", .node (.verbatim "WORD")⟩] } ∧
      (∀ ctx, (declaredWord (.node (.verbatim "WORD"))).generate ctx
        = (declaredWord (.raw "WORD")).generate ctx) ∧
      (declaredWord (.raw "WORD")).undefinedReferences = [] ∧
      (declaredWord (.node (.verbatim "WORD"))).undefinedReferences = ["WORD"] :=
  ⟨rfl, fun _ => rfl, rfl, rfl, fun _ => rfl, by decide, by decide⟩

end Grammar

end GrammarText
