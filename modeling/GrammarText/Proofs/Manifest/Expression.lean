import GrammarText.Proofs.Expr.Rewrite
import GrammarText.Proofs.Grammar.Registry
import GrammarText.Proofs.Manifest.Conversion

/-!
The conversion of a node, by what stands in the node.

- `Node.Part`: a node, or the bound of a repetition. `Part.parts` has the parts one level down in the
  order in which they are converted. `Part.IsRefused`: the name or the bound of a part is not allowed.
- `Part.FaultAt`: the errors of the parts of a node, each at its position. `Node.faults` has them in
  order (`listed_faults`).
- `Node.names`: the names in a node, as the references of its expression have them.
- `Expr.reissue`: a handle with another issuer. `Node.expr_reissued`: of the issuer, an expression
  takes the handles alone.
- `Node.converts_or_reports`: a conversion fails exactly with the first error, or comes to an expression
  that depends on the grammar by the issuer of its handles alone.
-/

namespace GrammarText

namespace Node

/-! ## Parts -/

/-- What is converted, one after another. -/
inductive Part where
  | node (n : Node)
  | bound (b : Bound)

namespace Part

/-- The parts one level down, in the order of the conversion: a separator before the item, and the item
of a repetition before its bound. -/
def parts : Part → List Part
  | node (group items) | node (optional items) | node (options items)
  | node (optionsGrouped items) => items.map node
  | node (repetition _ items) | node (aliased _ items) | node (template _ items) => items.map node
  | node (separated _ sep item) => [node sep, node item]
  | node (bounded item count) => [node item, bound count]
  | node (branch _ _ yes no) => [node yes, node no]
  | node (text _) | node (literal ..) | node (regexp ..) | node (raw _) | node (reference ..)
  | node (range ..) | bound _ => []

/-- The error of the name or the bound that the part is or begins with. -/
def ownFaults : Part → List GrammarError
  | node (reference kind name) => (nameFault? kind.space name).toList
  | node (template name _) => (nameFault? .rule name).toList
  | bound b => (boundFault? b).toList
  | node _ => []

/-- The part has a name that is none of its class, or is a bound that allows no run. -/
def IsRefused : Part → Prop
  | node (reference kind name) => kind.admits name = false
  | node (template name _) => isRuleName name = false
  | bound (.exactly n) => n < 1
  | bound (.between least most) => ¬ (0 ≤ least ∧ least ≤ most ∧ 1 ≤ most)
  | node _ => False

/-- At the position below the part stands a name or a bound with the error. -/
def FaultAt : Part → Position → GrammarError → Prop := NodeHolds parts ownFaults

theorem ownFaults_length (part : Part) : part.ownFaults.length ≤ 1 := by
  have hoption : ∀ fault : Option GrammarError, fault.toList.length ≤ 1 := by
    rintro (_ | _) <;> simp
  cases part with
  | bound b => exact hoption _
  | node n =>
    cases n with
    | reference kind name => exact hoption _
    | template name args => exact hoption _
    | _ => exact Nat.zero_le 1

theorem nameFault?_toList_ne_nil {kind : NameClass} {name : String} :
    (nameFault? kind.space name).toList ≠ [] ↔ kind.admits name = false := by
  rw [ne_eq, Option.toList_eq_nil_iff, nameFault?_eq_none, nameProblem?_eq_none, Bool.not_eq_true]

theorem isRefused_iff {part : Part} : part.IsRefused ↔ part.ownFaults ≠ [] := by
  cases part with
  | bound b =>
    rw [ownFaults, ne_eq, Option.toList_eq_nil_iff, boundFault?_eq_none]
    cases b with
    | exactly n =>
      rw [IsRefused, Bound.IsValid]
      omega
    | between least most =>
      rw [IsRefused, Bound.IsValid]
      omega
  | node n =>
    cases n with
    | reference kind name => exact nameFault?_toList_ne_nil.symm
    | template name args => exact Iff.symm (@nameFault?_toList_ne_nil .rule name)
    | _ => simp [IsRefused, ownFaults]

end Part

/-! ## Faults -/

mutual

/-- The errors of the names and bounds in the node that are not allowed, in order. -/
def faults : Node → List GrammarError
  | reference kind name => (nameFault? kind.space name).toList
  | template name args => (nameFault? .rule name).toList ++ faultsAll args
  | group items | optional items | options items | optionsGrouped items => faultsAll items
  | repetition _ items | aliased _ items => faultsAll items
  | separated _ sep item => faults sep ++ faults item
  | bounded item count => faults item ++ (boundFault? count).toList
  | branch _ _ yes no => faults yes ++ faults no
  | text _ | literal .. | regexp .. | raw _ | range .. => []

def faultsAll : List Node → List GrammarError
  | [] => []
  | node :: rest => faults node ++ faultsAll rest

end

mutual

theorem head?_faults : ∀ n, (faults n).head? = fault? n
  | text _ | literal .. | regexp .. | raw _ | range .. => rfl
  | reference kind name => Option.head?_toList
  | template name args => by
    rw [faults, fault?, List.head?_append, Option.head?_toList, head?_faultsAll args]
  | group items | optional items | options items | optionsGrouped items | repetition _ items
  | aliased _ items => head?_faultsAll items
  | separated _ sep item => by
    rw [faults, fault?, List.head?_append, head?_faults sep, head?_faults item]
  | bounded item count => by
    rw [faults, fault?, List.head?_append, head?_faults item, Option.head?_toList]
  | branch _ _ yes no => by
    rw [faults, fault?, List.head?_append, head?_faults yes, head?_faults no]

theorem head?_faultsAll : ∀ ns, (faultsAll ns).head? = firstFault? ns
  | [] => rfl
  | n :: ns => by
    rw [faultsAll, firstFault?, List.head?_append, head?_faults n, head?_faultsAll ns]

end

theorem listed_of_parts {part : Part} {errs : List GrammarError}
    (h : Listed (Row Part.FaultAt part.parts) errs) :
    Listed part.FaultAt (part.ownFaults ++ errs) := Listed.node part.ownFaults_length h

mutual

theorem listed_faults : ∀ n, Listed (Part.FaultAt (.node n)) (faults n)
  | text _ | literal .. | regexp .. | raw _ | range .. => listed_of_parts listed_row_nil
  | reference kind name => by
    rw [faults, ← List.append_nil (nameFault? kind.space name).toList]
    exact listed_of_parts listed_row_nil
  | group items | optional items | options items | optionsGrouped items | repetition _ items
  | aliased _ items => listed_of_parts (listed_faultsAll items)
  | template _ args => listed_of_parts (listed_faultsAll args)
  | separated _ sep item => by
    rw [faults, ← List.append_nil (faults item)]
    exact listed_of_parts
      ((listed_faults sep).row_cons ((listed_faults item).row_cons listed_row_nil))
  | bounded item count => by
    have hbound : Listed (Part.FaultAt (.bound count)) ((boundFault? count).toList ++ []) :=
      listed_of_parts listed_row_nil
    rw [List.append_nil] at hbound
    rw [faults, ← List.append_nil (boundFault? count).toList]
    exact listed_of_parts ((listed_faults item).row_cons (hbound.row_cons listed_row_nil))
  | branch _ _ yes no => by
    rw [faults, ← List.append_nil (faults no)]
    exact listed_of_parts
      ((listed_faults yes).row_cons ((listed_faults no).row_cons listed_row_nil))

theorem listed_faultsAll :
    ∀ ns : List Node, Listed (Row Part.FaultAt (ns.map .node)) (faultsAll ns)
  | [] => listed_row_nil
  | n :: ns => (listed_faults n).row_cons (listed_faultsAll ns)

end

/-! ## Names -/

mutual

/-- The names of the references and instantiations in the node, in order. The item of a separated
repetition is written twice, in front of the separator and behind it. -/
def names : Node → List String
  | reference _ name => [name]
  | template name args => name :: namesAll args
  | group items | optional items | options items | optionsGrouped items => namesAll items
  | repetition _ items | aliased _ items => namesAll items
  | separated _ sep item => names item ++ (names sep ++ names item)
  | bounded item _ => names item
  | branch _ _ yes no => names yes ++ names no
  | text _ | literal .. | regexp .. | raw _ | range .. => []

def namesAll : List Node → List String
  | [] => []
  | node :: rest => names node ++ namesAll rest

end

mutual

theorem references_expr (id : GrammarId) : ∀ n, (expr id n).references = names n
  | text _ | literal .. | regexp .. | raw _ | reference .. | range .. => rfl
  | group items | optional items | options items | repetition _ items | aliased _ items =>
    referencesAll_exprs id items
  | optionsGrouped items => by
    rw [names, ← List.append_nil (namesAll items), ← referencesAll_exprs id items]
    rfl
  | template name args => congrArg (name :: ·) (referencesAll_exprs id args)
  | separated _ sep item => by
    simp [expr, Expr.separated, Expr.references, Expr.referencesAll, names, references_expr id sep,
      references_expr id item]
  | bounded item _ => references_expr id item
  | branch _ _ yes no => congrArg₂ (· ++ ·) (references_expr id yes) (references_expr id no)

theorem referencesAll_exprs (id : GrammarId) :
    ∀ ns, Expr.referencesAll (exprs id ns) = namesAll ns
  | [] => rfl
  | n :: ns => congrArg₂ (· ++ ·) (references_expr id n) (referencesAll_exprs id ns)

end

end Node

/-! ## Issuers -/

namespace Expr

/-- A handle with another issuer. -/
def reissue (id : GrammarId) : Expr → Expr
  | handle h => handle { h with issuer := id }
  | e => e

theorem children_reissue (id : GrammarId) (e : Expr) : children (reissue id e) = children e := by
  cases e <;> rfl

theorem render_reissue (id : GrammarId) (ctx : Context) (e : Expr) :
    render ctx (reissue id e) = render ctx e := by
  cases e with
  | handle h => simp only [reissue, render]
  | _ => rfl

/-- After the change at every depth all handles have the issuer. -/
theorem issuer_of_reissued (id : GrammarId) (e : Expr) :
    ∀ p h, follow children p (rewrite (reissue id) e) = some (.handle h) → h.issuer = id := by
  induction e using child_induct with
  | step e ih =>
    intro p h hp
    rw [rewrite_eq] at hp
    cases p with
    | nil =>
      have he : reissue id (mapChildren (rewrite (reissue id)) e) = handle h := Option.some.inj hp
      cases e with
      | handle h' =>
        obtain rfl := Expr.handle.inj he
        rfl
      | _ => cases he
    | cons n p =>
      rw [follow, children_reissue, children_mapChildren, List.getElem?_map] at hp
      obtain ⟨x, hx, hh⟩ := Option.bind_eq_some_iff.mp hp
      obtain ⟨y, hy, rfl⟩ := Option.map_eq_some_iff.mp hx
      exact ih y (List.mem_of_getElem? hy) p h hh

end Expr

namespace Node

mutual

theorem expr_reissued (id id' : GrammarId) :
    ∀ n, (expr id n).rewrite (Expr.reissue id') = expr id' n
  | text _ | literal .. | regexp .. | raw _ | reference .. | range .. => rfl
  | group items => congrArg Expr.group (exprs_reissued id id' items)
  | optional items => congrArg Expr.optional (exprs_reissued id id' items)
  | options items => congrArg Expr.choice (exprs_reissued id id' items)
  | optionsGrouped items => congrArg Expr.choiceGroup (exprs_reissued id id' items)
  | repetition op items => congrArg (Expr.repetition op) (exprs_reissued id id' items)
  | aliased name items => congrArg (Expr.aliased name) (exprs_reissued id id' items)
  | template name args => congrArg (Expr.template name) (exprs_reissued id id' args)
  | separated op sep item =>
    congrArg₂ (Expr.separated op) (expr_reissued id id' sep) (expr_reissued id id' item)
  | bounded item count => congrArg (Expr.bounded · count) (expr_reissued id id' item)
  | branch key default yes no =>
    congrArg₂ (Expr.branch key default) (expr_reissued id id' yes) (expr_reissued id id' no)

theorem exprs_reissued (id id' : GrammarId) :
    ∀ ns, Expr.rewriteAll (Expr.reissue id') (exprs id ns) = exprs id' ns
  | [] => rfl
  | n :: ns => congrArg₂ List.cons (expr_reissued id id' n) (exprs_reissued id id' ns)

end

theorem render_expr (id id' : GrammarId) (ctx : Context) (n : Node) :
    (expr id' n).render ctx = (expr id n).render ctx := by
  rw [← expr_reissued id id' n]
  exact Expr.render_rewrite (Expr.render_reissue id' ctx) (expr id n)

theorem issuer_expr (id : GrammarId) (n : Node) {p : Position} {h : Handle}
    (hp : follow Expr.children p (expr id n) = some (.handle h)) : h.issuer = id := by
  rw [← expr_reissued id id n] at hp
  exact Expr.issuer_of_reissued id _ p h hp

/-! ## Either outcome -/

/-- A node converts, or the first fault in it is reported, whatever the grammar defines. The conversion
fails exactly if at some depth of the node stands a name that is none of its class or a bound that
allows no run, and then with the error of the first one in the order of the conversion. Otherwise it
comes to an expression without variables. All handles in this have the grammar as their issuer, its
references are the names in the node, and any other grammar gives an expression that is written the
same in every context. -/
theorem converts_or_reports (g : Grammar) (n : Node) :
    ((∃ err, n.toExpr g = .error err) ↔
      ∃ p part, follow Part.parts p (.node n) = some part ∧ part.IsRefused) ∧
    (∀ err, n.toExpr g = .error err ↔ IsFirst (Part.FaultAt (.node n)) err) ∧
    ∀ e, n.toExpr g = .ok e → e.holdsVariable = false ∧
      (∀ p h, follow Expr.children p e = some (.handle h) → h.issuer = g.id) ∧
      e.references = n.names ∧
      ∀ g' : Grammar, ∃ e', n.toExpr g' = .ok e' ∧ ∀ ctx, e'.render ctx = e.render ctx := by
  have hgives := toExpr_gives g n
  have hlisted := listed_faults n
  have herror : ∀ err, n.toExpr g = .error err ↔ IsFirst (Part.FaultAt (.node n)) err := by
    intro err
    rw [hgives.error_iff, hlisted.isFirst_iff, head?_faults]
  refine ⟨?_, herror, fun e he => ?_⟩
  · constructor
    · rintro ⟨err, herr⟩
      obtain ⟨p, ⟨part, hpart, hmem⟩, -⟩ := (herror err).mp herr
      exact ⟨p, part, hpart, Part.isRefused_iff.mpr (List.ne_nil_of_mem hmem)⟩
    · rintro ⟨p, part, hpart, hrefused⟩
      obtain ⟨err, hmem⟩ := List.exists_mem_of_ne_nil _ (Part.isRefused_iff.mp hrefused)
      have hfault : err ∈ n.faults := hlisted.mem_iff.mpr ⟨p, part, hpart, hmem⟩
      obtain ⟨first, rest, hfaults⟩ := List.exists_cons_of_ne_nil (List.ne_nil_of_mem hfault)
      have hfirst : n.faults.head? = some first := by rw [hfaults]; rfl
      exact ⟨first, (herror first).mpr (hlisted.isFirst_iff.mpr hfirst)⟩
  · obtain ⟨hnone, rfl⟩ := hgives.of_ok he
    refine ⟨expr_no_variable g.id n, fun p h => issuer_expr g.id n, references_expr g.id n,
      fun g' => ?_⟩
    have hgives' := toExpr_gives g' n
    rw [hnone] at hgives'
    obtain ⟨e', he', rfl⟩ := hgives'
    exact ⟨_, he', fun ctx => render_expr g.id g'.id ctx n⟩

/-- A list of names with a bound behind it. -/
def namesUpTo (most : Int) : Node :=
  .bounded (.separated .oneOrMore (.reference .terminal "COMMA") (.reference .rule "name"))
    (.between 0 most)

theorem namesUpTo_converts :
    (namesUpTo 0).toExpr (Grammar.new 3) = .error (.invalidBound (.between 0 0)) ∧
      (∃ p part, follow Part.parts p (.node (namesUpTo 0)) = some part ∧ part.IsRefused) ∧
      IsFirst (Part.FaultAt (.node (namesUpTo 0))) (.invalidBound (.between 0 0)) ∧
      ∃ e, (namesUpTo 2).toExpr (Grammar.new 3) = .ok e ∧ e.holdsVariable = false ∧
        e.references = ["name", "COMMA", "name"] ∧
        ∃ e', (namesUpTo 2).toExpr (Grammar.new 4) = .ok e' ∧
          ∀ ctx, e'.render ctx = e.render ctx := by
  have hrefused : (namesUpTo 0).toExpr (Grammar.new 3) = .error (.invalidBound (.between 0 0)) := rfl
  obtain ⟨hfails, hfirst, -⟩ := converts_or_reports (Grammar.new 3) (namesUpTo 0)
  obtain ⟨-, -, hvalue⟩ := converts_or_reports (Grammar.new 3) (namesUpTo 2)
  have hok : (namesUpTo 2).toExpr (Grammar.new 3) = .ok ((namesUpTo 2).expr 3) := rfl
  obtain ⟨hvariable, -, hreferences, hother⟩ := hvalue _ hok
  exact ⟨hrefused, hfails.mp ⟨_, hrefused⟩, (hfirst _).mp hrefused, _, hok, hvariable,
    hreferences.trans rfl, hother (Grammar.new 4)⟩

end Node

end GrammarText
