import GrammarText.Proofs.Entries
import Mathlib.Data.List.Lex

/-!
Positions in a tree, and lists read off them.

A position is the indices on the way from the root, so the order of positions is the one in which a
tree is read: a node before what is below it, and that from left to right.

- `follow`: the node at a position. `Row`: what stands in the items of a list, behind the index of
  the item. `NodeHolds`: what the nodes of a tree hold, each at its position.
- `IsFirst`: something stands at a position before all others.
- `Listed`: a list has what stands at the positions, in their order. `Listed.node` and `Listed.row`
  make the list of a tree and the one of a row of trees.
- `Listed.isFirst_iff`, `Listed.pairwise_eraseDups`: what comes first in the list, and the order
  that stays if each element is listed once.
-/

namespace GrammarText

/-- The indices on the way from the root of a tree. -/
abbrev Position := List Nat

section Trees

variable {α β : Type}

/-- The node at a position, where `next` has the nodes one level down. -/
def follow (next : α → List α) : Position → α → Option α
  | [], e => some e
  | n :: p, e => (next e)[n]?.bind (follow next p)

/-- What stands in the items: behind the index of an item, what stands in that item. -/
def Row (At : α → Position → β → Prop) (items : List α) : Position → β → Prop
  | [], _ => False
  | n :: p, b => ∃ x, items[n]? = some x ∧ At x p b

/-- What the nodes of a tree hold, each at its position. -/
def NodeHolds (next : α → List α) (own : α → List β) (e : α) (p : Position) (b : β) : Prop :=
  ∃ x, follow next p e = some x ∧ b ∈ own x

/-- It stands at a position that no other comes before. -/
def IsFirst (At : Position → β → Prop) (b : β) : Prop := ∃ p, At p b ∧ ∀ q c, At q c → p ≤ q

/-- The list has what stands at the positions, in their order. -/
def Listed (At : Position → β → Prop) (bs : List β) : Prop :=
  ∃ sites : List (Position × β), sites.map Prod.snd = bs ∧
    sites.Pairwise (fun a b => a.1 < b.1) ∧ ∀ p b, (p, b) ∈ sites ↔ At p b

end Trees

variable {α β : Type} {At At' : Position → β → Prop} {bs cs : List β} {b : β}

/-! ## Lists of trees and of their rows -/

theorem nodeHolds_nil {next : α → List α} {own : α → List β} {e : α} :
    NodeHolds next own e [] b ↔ b ∈ own e := by
  simp [NodeHolds, follow]

theorem nodeHolds_cons {next : α → List α} {own : α → List β} {e : α} {n : Nat} {p : Position} :
    NodeHolds next own e (n :: p) b ↔ Row (NodeHolds next own) (next e) (n :: p) b := by
  simp only [NodeHolds, follow, Row, Option.bind_eq_some_iff]
  constructor
  · rintro ⟨y, ⟨x, hx, hy⟩, hb⟩
    exact ⟨x, hx, y, hy, hb⟩
  · rintro ⟨x, hx, y, hy, hb⟩
    exact ⟨y, ⟨x, hx, hy⟩, hb⟩

theorem Listed.congr (h : Listed At bs) (hiff : ∀ p b, At p b ↔ At' p b) : Listed At' bs := by
  obtain ⟨sites, hmap, hsorted, hmem⟩ := h
  exact ⟨sites, hmap, hsorted, fun p b => (hmem p b).trans (hiff p b)⟩

theorem listed_row_nil {At : α → Position → β → Prop} : Listed (Row At []) [] := by
  refine ⟨[], rfl, .nil, fun p b => ?_⟩
  cases p <;> simp [Row]

/-- The position of the same node where one more tree stands in front. -/
def afterOne : Position → Position
  | [] => []
  | n :: p => (n + 1) :: p

theorem afterOne_lt {p q : Position} (h : p < q) : afterOne p < afterOne q := by
  cases p with
  | nil =>
    cases q with
    | nil => exact absurd h (lt_irrefl [])
    | cons m q => exact List.nil_lt_cons (m + 1) q
  | cons n p =>
    cases q with
    | nil => exact absurd h (List.not_lt_nil _)
    | cons m q =>
      rcases List.cons_lt_cons_iff.mp h with hnm | ⟨rfl, hpq⟩
      · exact List.cons_lt_cons_iff.mpr (Or.inl (Nat.succ_lt_succ hnm))
      · exact List.cons_lt_cons_iff.mpr (Or.inr ⟨rfl, hpq⟩)

/-- In a row there is nothing but in its items. -/
theorem exists_cons_of_row {At : α → Position → β → Prop} {items : List α} {p : Position}
    (h : Row At items p b) : ∃ n q, p = n :: q := by
  cases p with
  | nil => exact h.elim
  | cons n q => exact ⟨n, q, rfl⟩

theorem row_cons_iff {At : α → Position → β → Prop} {x : α} {rest : List α} {p : Position} :
    Row At (x :: rest) p b ↔
      (∃ q, p = 0 :: q ∧ At x q b) ∨ ∃ q, p = afterOne q ∧ Row At rest q b := by
  constructor
  · intro h
    obtain ⟨n, q, rfl⟩ := exists_cons_of_row h
    cases n with
    | zero =>
      obtain ⟨y, hy, hb⟩ := h
      cases hy
      exact Or.inl ⟨q, rfl, hb⟩
    | succ n => exact Or.inr ⟨n :: q, rfl, h⟩
  · rintro (⟨q, rfl, hb⟩ | ⟨q, rfl, hb⟩)
    · exact ⟨x, rfl, hb⟩
    · obtain ⟨n, q, rfl⟩ := exists_cons_of_row hb
      exact hb

theorem Listed.row_cons {At : α → Position → β → Prop} {x : α} {rest : List α}
    (hx : Listed (At x) bs) (hrest : Listed (Row At rest) cs) :
    Listed (Row At (x :: rest)) (bs ++ cs) := by
  obtain ⟨sites, rfl, hsorted, hmem⟩ := hx
  obtain ⟨later, rfl, hlater, hmem'⟩ := hrest
  refine ⟨sites.map (Prod.map (0 :: ·) id) ++ later.map (Prod.map afterOne id),
    by simp [Function.comp_def], ?_, ?_⟩
  · rw [List.pairwise_append, List.pairwise_map, List.pairwise_map]
    refine ⟨hsorted.imp fun h => List.cons_lt_cons_iff.mpr (Or.inr ⟨rfl, h⟩),
      hlater.imp afterOne_lt, ?_⟩
    intro s hs t ht
    obtain ⟨s, -, rfl⟩ := List.mem_map.mp hs
    obtain ⟨⟨q, c⟩, hq, rfl⟩ := List.mem_map.mp ht
    obtain ⟨n, q, rfl⟩ := exists_cons_of_row ((hmem' q c).mp hq)
    exact List.cons_lt_cons_iff.mpr (Or.inl (Nat.succ_pos n))
  · intro p b
    simp only [List.mem_append, List.mem_map, Prod.exists, Prod.map_apply, id_eq, Prod.mk.injEq,
      row_cons_iff, hmem, hmem']
    constructor
    · rintro (⟨q, c, hc, rfl, rfl⟩ | ⟨q, c, hc, rfl, rfl⟩)
      · exact Or.inl ⟨q, rfl, hc⟩
      · exact Or.inr ⟨q, rfl, hc⟩
    · rintro (⟨q, rfl, hc⟩ | ⟨q, rfl, hc⟩)
      · exact Or.inl ⟨q, b, hc, rfl, rfl⟩
      · exact Or.inr ⟨q, b, hc, rfl, rfl⟩

theorem Listed.row {At : α → Position → β → Prop} {f : α → List β} {items : List α}
    (h : ∀ x ∈ items, Listed (At x) (f x)) : Listed (Row At items) (items.flatMap f) := by
  induction items with
  | nil => exact listed_row_nil
  | cons x rest ih =>
    rw [List.forall_mem_cons] at h
    rw [List.flatMap_cons]
    exact h.1.row_cons (ih h.2)

/-- What a node holds itself stands before what is below it. -/
theorem Listed.node {next : α → List α} {own : α → List β} {e : α} (hown : (own e).length ≤ 1)
    (h : Listed (Row (NodeHolds next own) (next e)) bs) :
    Listed (NodeHolds next own e) (own e ++ bs) := by
  obtain ⟨sites, rfl, hsorted, hmem⟩ := h
  refine ⟨(own e).map (Prod.mk []) ++ sites, by simp [Function.comp_def], ?_, ?_⟩
  · rw [List.pairwise_append]
    refine ⟨?_, hsorted, ?_⟩
    · match own e, hown with
      | [], _ => exact .nil
      | [b], _ => exact List.pairwise_singleton _ _
    · intro s hs ⟨p, b⟩ ht
      obtain ⟨c, -, rfl⟩ := List.mem_map.mp hs
      obtain ⟨n, q, rfl⟩ := exists_cons_of_row ((hmem p b).mp ht)
      exact List.nil_lt_cons n q
  · intro p b
    rw [List.mem_append]
    cases p with
    | nil =>
      have hnot : ([], b) ∉ sites := (hmem [] b).mp
      simp [nodeHolds_nil, hnot]
    | cons n p =>
      rw [nodeHolds_cons, ← hmem]
      simp

/-! ## Reading the list -/

theorem Listed.mem_iff (h : Listed At bs) : b ∈ bs ↔ ∃ p, At p b := by
  obtain ⟨sites, rfl, -, hmem⟩ := h
  simp [hmem]

theorem Listed.filter (h : Listed At bs) (keep : β → Bool) :
    Listed (fun p b => At p b ∧ keep b = true) (bs.filter keep) := by
  obtain ⟨sites, rfl, hsorted, hmem⟩ := h
  refine ⟨sites.filter (keep ·.2), by rw [List.filter_map]; rfl, hsorted.filter _, fun p b => ?_⟩
  rw [List.mem_filter, hmem]

/-- The head of the list is what stands first. -/
theorem Listed.isFirst_iff (h : Listed At bs) : IsFirst At b ↔ bs.head? = some b := by
  obtain ⟨sites, rfl, hsorted, hmem⟩ := h
  cases sites with
  | nil =>
    simp only [List.map_nil, List.head?_nil, reduceCtorEq, iff_false]
    rintro ⟨p, hp, -⟩
    cases (hmem p b).mpr hp
  | cons s sites =>
    obtain ⟨p, c⟩ := s
    rw [List.pairwise_cons] at hsorted
    have hat : At p c := (hmem p c).mp List.mem_cons_self
    rw [List.map_cons, List.head?_cons, Option.some.injEq]
    constructor
    · rintro ⟨q, hq, hfirst⟩
      rcases List.mem_cons.mp ((hmem q b).mpr hq) with hs | hs
      · exact (congrArg Prod.snd hs).symm
      · exact absurd (hsorted.1 _ hs) (not_lt_of_ge (hfirst p c hat))
    · rintro rfl
      refine ⟨p, hat, fun q d hd => ?_⟩
      rcases List.mem_cons.mp ((hmem q d).mpr hd) with hs | hs
      · obtain ⟨rfl, -⟩ := Prod.mk.inj hs
        exact le_refl q
      · exact le_of_lt (hsorted.1 _ hs)

theorem Listed.eq_nil_iff (h : Listed At bs) : bs = [] ↔ ∀ p b, ¬ At p b := by
  rw [List.eq_nil_iff_forall_not_mem]
  simp only [h.mem_iff, not_exists]
  exact forall_comm

/-- Where each element is listed once, it stands in the order of the first positions. -/
theorem Listed.pairwise_eraseDups {At : Position → String → Prop} {bs : List String}
    (h : Listed At bs) :
    bs.eraseDups.Pairwise fun a b => ∃ p, At p a ∧ ∀ q, At q b → p < q := by
  obtain ⟨sites, rfl, hsorted, hmem⟩ := h
  simp only [← hmem]
  clear hmem
  induction sites using List.reverseRecOn with
  | nil => exact .nil
  | append_singleton sites s ih =>
    obtain ⟨r, c⟩ := s
    obtain ⟨hsites, -, hlast⟩ := List.pairwise_append.mp hsorted
    have hearlier : ∀ p a, (p, a) ∈ sites → p < r := fun p a ha =>
      hlast _ ha _ List.mem_cons_self
    -- one more occurrence of a name comes behind the first one of any name before it
    have hold : (sites.map Prod.snd).eraseDups.Pairwise fun a b =>
        ∃ p, (p, a) ∈ sites ++ [(r, c)] ∧ ∀ q, (q, b) ∈ sites ++ [(r, c)] → p < q := by
      refine (ih hsites).imp fun {a b} hab => ?_
      obtain ⟨p, hp, hbefore⟩ := hab
      refine ⟨p, List.mem_append_left _ hp, fun q hq => ?_⟩
      rcases List.mem_append.mp hq with hq | hq
      · exact hbefore q hq
      · obtain ⟨rfl, -⟩ := Prod.mk.inj (List.mem_singleton.mp hq)
        exact hearlier p a hp
    rw [List.map_append, List.map_singleton, Entries.eraseDups_concat]
    split
    · exact hold
    · rename_i hnew
      rw [List.pairwise_append]
      refine ⟨hold, List.pairwise_singleton _ _, fun a ha b hb => ?_⟩
      obtain rfl := List.mem_singleton.mp hb
      obtain ⟨⟨p, a'⟩, hp, rfl⟩ := List.mem_map.mp (List.mem_eraseDups.mp ha)
      refine ⟨p, List.mem_append_left _ hp, fun q hq => ?_⟩
      rcases List.mem_append.mp hq with hq | hq
      · exact absurd (List.mem_map_of_mem hq) hnew
      · obtain ⟨rfl, -⟩ := Prod.mk.inj (List.mem_singleton.mp hq)
        exact hearlier p a' hp

end GrammarText
