import GrammarText.Manifest.Node
import GrammarText.Proofs.Expr.Written
import GrammarText.Proofs.Grammar.Steps

/-!
What converting the nodes of a manifest comes to.

- `Outcome`: a check says what the error of a computation is, or that there is none.
- `Node.fault?`: the first thing in a node that a grammar refuses, read off the node alone.
- `Node.expr`: what a node is converted to where nothing is refused, with handles of a given issuer.
- `Node.toExpr_gives`: in every grammar, the one is the error of the conversion, and without an error
  the other is its value. `Node.Converts`: there is no error.
- `toExpr_outcome`: a value holds no variable. `toExpr_congr`: of the grammar, the conversion takes the
  identity alone.
-/

namespace GrammarText

/-! ## Outcomes -/

section Outcome

variable {ε α β : Type} {fault fault' : Option ε} {P : α → Prop} {Q : β → Prop} {r : Except ε α}

/-- The error is `fault`; if that is none, there is a value, which has the property. -/
def Outcome (fault : Option ε) (P : α → Prop) (r : Except ε α) : Prop :=
  match fault with
  | some e => r = .error e
  | none => ∃ a, r = .ok a ∧ P a

theorem Outcome.ok {a : α} (h : P a) : Outcome none P (.ok a : Except ε α) := ⟨a, rfl, h⟩

theorem Outcome.imp {P' : α → Prop} (h : Outcome fault P r) (hP : ∀ a, r = .ok a → P a → P' a) :
    Outcome fault P' r := by
  cases fault with
  | some e => exact h
  | none =>
    obtain ⟨a, ha, hp⟩ := h
    exact ⟨a, ha, hP a ha hp⟩

/-- The second computation counts where the first one has no error. -/
theorem Outcome.bind {k : α → Except ε β} (h : Outcome fault P r)
    (hk : ∀ a, P a → Outcome fault' Q (k a)) : Outcome (fault.or fault') Q (r >>= k) := by
  cases fault with
  | some e =>
    have hr : r = .error e := h
    rw [hr]
    exact rfl
  | none =>
    obtain ⟨a, ha, hp⟩ := h
    rw [ha]
    exact hk a hp

theorem Outcome.map {k : α → β} (h : Outcome fault P r) (hk : ∀ a, P a → Q (k a)) :
    Outcome fault Q (r >>= fun a => pure (k a)) := by
  have h' := h.bind fun a ha => Outcome.ok (ε := ε) (hk a ha)
  rwa [Option.or_none] at h'

theorem Outcome.fault_eq_none (h : Outcome fault P r) : fault = none ↔ ∃ a, r = .ok a := by
  cases fault with
  | some e =>
    have hr : r = .error e := h
    rw [hr]
    simp
  | none =>
    obtain ⟨a, ha, -⟩ := h
    simp [ha]

theorem Outcome.of_ok (h : Outcome fault P r) {a : α} (hr : r = .ok a) : fault = none ∧ P a := by
  cases fault with
  | some e =>
    have herror : r = .error e := h
    rw [hr] at herror
    cases herror
  | none =>
    obtain ⟨b, hb, hp⟩ := h
    rw [hr] at hb
    cases hb
    exact ⟨rfl, hp⟩

theorem Outcome.error_iff (h : Outcome fault P r) {e : ε} : r = .error e ↔ fault = some e := by
  cases fault with
  | some e' =>
    have hr : r = .error e' := h
    rw [hr, Except.error.injEq, Option.some.injEq]
  | none =>
    obtain ⟨a, ha, -⟩ := h
    rw [ha]
    simp

/-- Two computations with the same error, or else the same value. -/
theorem Outcome.unique {a : α} {r' : Except ε α} (h : Outcome fault (· = a) r)
    (h' : Outcome fault (· = a) r') : r = r' := by
  cases fault with
  | some e => exact Eq.trans h (Eq.symm h')
  | none =>
    obtain ⟨b, hb, rfl⟩ := h
    obtain ⟨c, hc, rfl⟩ := h'
    rw [hb, hc]

end Outcome

/-- The error of a name that is not allowed in the namespace. -/
def nameFault? (space : Namespace) (name : String) : Option GrammarError :=
  (nameProblem? space name).map (.invalidName name space)

theorem nameFault?_eq_none {space : Namespace} {name : String} :
    nameFault? space name = none ↔ nameProblem? space name = none := Option.map_eq_none_iff

theorem checkName_outcome (space : Namespace) (name : String) :
    Outcome (nameFault? space name) (fun _ => True) (checkName space name) := by
  unfold nameFault? checkName
  cases nameProblem? space name with
  | some problem => exact rfl
  | none => exact .ok trivial

namespace Node

/-! ## What a grammar refuses -/

def boundFault? (bound : Bound) : Option GrammarError :=
  if bound.IsValid then none else some (.invalidBound bound)

theorem boundFault?_eq_none {bound : Bound} : boundFault? bound = none ↔ bound.IsValid := by
  simp [boundFault?]

mutual

/-- The first name or bound in the node that is not allowed. -/
def fault? : Node → Option GrammarError
  | reference kind name => nameFault? kind.space name
  | template name args => (nameFault? .rule name).or (firstFault? args)
  | group items | optional items | options items | optionsGrouped items => firstFault? items
  | repetition _ items | aliased _ items => firstFault? items
  | separated _ sep item => (fault? sep).or (fault? item)
  | bounded item count => (fault? item).or (boundFault? count)
  | branch _ _ yes no => (fault? yes).or (fault? no)
  | text _ | literal .. | regexp .. | raw _ | range .. => none

def firstFault? : List Node → Option GrammarError
  | [] => none
  | node :: rest => (fault? node).or (firstFault? rest)

end

/-! ## What a node is converted to -/

mutual

/-- The expression of a node in which nothing is refused, with handles of the issuer. -/
def expr (id : GrammarId) : Node → Expr
  | text s => .text s
  | literal value flags => .literal value flags
  | regexp pattern flags => .regexp pattern flags
  | raw s => .verbatim s
  | reference kind name => .handle ⟨kind, name, id⟩
  | group items => .group (exprs id items)
  | optional items => .optional (exprs id items)
  | options items => .choice (exprs id items)
  | optionsGrouped items => .choiceGroup (exprs id items)
  | repetition op items => .repetition op (exprs id items)
  | separated op sep item => .separated op (expr id sep) (expr id item)
  | bounded item count => .bounded (expr id item) count
  | range first last => .range first last
  | aliased name children => .aliased name (exprs id children)
  | template name args => .template name (exprs id args)
  | branch key default yes no => .branch key default (expr id yes) (expr id no)

def exprs (id : GrammarId) : List Node → List Expr
  | [] => []
  | node :: rest => expr id node :: exprs id rest

end

theorem length_exprs (id : GrammarId) (ns : List Node) : (exprs id ns).length = ns.length := by
  induction ns with
  | nil => rfl
  | cons n ns ih => rw [exprs, List.length_cons, List.length_cons, ih]

mutual

/-- Of what nodes are converted to, nothing waits for a context but branches. -/
theorem expr_no_variable (id : GrammarId) : ∀ n, (expr id n).holdsVariable = false
  | text _ | literal .. | regexp .. | raw _ | reference .. | range .. => rfl
  | group items | optional items | options items | repetition _ items | aliased _ items
  | template _ items => exprs_no_variable id items
  | optionsGrouped items => Bool.or_eq_false_iff.mpr ⟨exprs_no_variable id items, rfl⟩
  | separated _ sep item => by
    simp [expr, Expr.separated, Expr.holdsVariable, Expr.anyHoldsVariable, expr_no_variable id sep,
      expr_no_variable id item]
  | bounded item _ => expr_no_variable id item
  | branch _ _ yes no =>
    Bool.or_eq_false_iff.mpr ⟨expr_no_variable id yes, expr_no_variable id no⟩

theorem exprs_no_variable (id : GrammarId) : ∀ ns, Expr.anyHoldsVariable (exprs id ns) = false
  | [] => rfl
  | n :: ns => Bool.or_eq_false_iff.mpr ⟨expr_no_variable id n, exprs_no_variable id ns⟩

end

/-! ## The conversion -/

theorem handle_outcome (g : Grammar) (kind : NameClass) (name : String) :
    Outcome (nameFault? kind.space name) (· = ⟨kind, name, g.id⟩) (g.handle kind name) :=
  (checkName_outcome kind.space name).map fun _ _ => rfl

theorem repeated_outcome (item : Expr) (count : Bound) :
    Outcome (boundFault? count) (· = .bounded item count) (Expr.repeated item count) := by
  unfold boundFault? Expr.repeated
  split
  · exact .ok rfl
  · exact rfl

mutual

/-- The error of a conversion and its value can be read off the node. -/
theorem toExpr_gives (g : Grammar) :
    ∀ n, Outcome (fault? n) (· = expr g.id n) (toExpr g n)
  | text _ => .ok rfl
  | literal .. => .ok rfl
  | regexp .. => .ok rfl
  | raw _ => .ok rfl
  | range .. => .ok rfl
  | reference kind name => (handle_outcome g kind name).map fun _ h => congrArg Expr.handle h
  | group items => (toExprs_gives g items).map fun _ h => congrArg Expr.group h
  | optional items => (toExprs_gives g items).map fun _ h => congrArg Expr.optional h
  | options items => (toExprs_gives g items).map fun _ h => congrArg Expr.choice h
  | optionsGrouped items => (toExprs_gives g items).map fun _ h => congrArg Expr.choiceGroup h
  | repetition op items => (toExprs_gives g items).map fun _ h => congrArg (Expr.repetition op) h
  | aliased name items => (toExprs_gives g items).map fun _ h => congrArg (Expr.aliased name) h
  | separated op sep item => (toExpr_gives g sep).bind fun _ hsep =>
    (toExpr_gives g item).map fun _ hitem => congrArg₂ (Expr.separated op) hsep hitem
  | bounded item count => (toExpr_gives g item).bind fun e h =>
    (repeated_outcome e count).imp fun _ _ hb => hb.trans (congrArg (Expr.bounded · count) h)
  | template name args => (checkName_outcome .rule name).bind fun _ _ =>
    (toExprs_gives g args).map fun _ h => congrArg (Expr.template name) h
  | branch key default yes no => (toExpr_gives g yes).bind fun _ hyes =>
    (toExpr_gives g no).map fun _ hno => congrArg₂ (Expr.branch key default) hyes hno

theorem toExprs_gives (g : Grammar) :
    ∀ ns, Outcome (firstFault? ns) (· = exprs g.id ns) (toExprs g ns)
  | [] => .ok rfl
  | n :: ns => (toExpr_gives g n).bind fun _ he =>
    (toExprs_gives g ns).map fun _ hes => congrArg₂ List.cons he hes

end

theorem toExpr_outcome (g : Grammar) (n : Node) :
    Outcome (fault? n) (fun e => e.holdsVariable = false) (toExpr g n) := by
  refine (toExpr_gives g n).imp ?_
  rintro _ - rfl
  exact expr_no_variable g.id n

theorem toExprs_outcome (g : Grammar) (ns : List Node) : Outcome (firstFault? ns)
    (fun es => es.length = ns.length ∧ Expr.anyHoldsVariable es = false) (toExprs g ns) := by
  refine (toExprs_gives g ns).imp ?_
  rintro _ - rfl
  exact ⟨length_exprs g.id ns, exprs_no_variable g.id ns⟩

/-- Every grammar takes the node. -/
def Converts (n : Node) : Prop := ∀ g : Grammar, ∃ e, n.toExpr g = .ok e

theorem fault?_eq_none {n : Node} : n.fault? = none ↔ n.Converts := by
  constructor
  · intro h g
    exact (toExpr_outcome g n).fault_eq_none.mp h
  · intro h
    exact (toExpr_outcome (Grammar.new 0) n).fault_eq_none.mpr (h _)

theorem firstFault?_eq_none {ns : List Node} : firstFault? ns = none ↔ ∀ n ∈ ns, n.Converts := by
  induction ns with
  | nil => simp [firstFault?]
  | cons n ns ih => simp [firstFault?, ih, fault?_eq_none]

/-! ## Grammars with one identity -/

variable {g g' : Grammar}

theorem toExpr_congr (h : g.id = g'.id) (n : Node) : toExpr g n = toExpr g' n := by
  have hg := toExpr_gives g n
  rw [h] at hg
  exact hg.unique (toExpr_gives g' n)

theorem toExprs_congr (h : g.id = g'.id) (ns : List Node) : toExprs g ns = toExprs g' ns := by
  have hg := toExprs_gives g ns
  rw [h] at hg
  exact hg.unique (toExprs_gives g' ns)

end Node

end GrammarText
