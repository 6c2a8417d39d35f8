import GrammarText.Proofs.Expr.Active

/-!
The text of an expression with its names marked.

- `Expr.pieces`: the text of an expression in pieces, the names of handles and of instantiations
  each a piece of its own. `Expr.text_pieces`: the pieces come to the text. `Expr.name_mem_of_within`:
  every handle and every instantiation that the context leads to has its piece.
- `Expr.mem_references`: without a variable, every name among the pieces is one that the expression
  refers to.
-/

namespace GrammarText

/-- A piece of a text: a name that refers to a definition, or other characters. -/
inductive Piece where
  | name (s : String)
  | chars (cs : List Char)

def Piece.text : Piece → List Char
  | name s => s.toList
  | chars cs => cs

/-- What the pieces come to. -/
def textOf (pieces : List Piece) : List Char := pieces.flatMap Piece.text

@[simp] theorem textOf_nil : textOf [] = [] := rfl

@[simp] theorem textOf_cons (p : Piece) (ps : List Piece) : textOf (p :: ps) = p.text ++ textOf ps :=
  List.flatMap_cons

@[simp] theorem textOf_append (ps qs : List Piece) : textOf (ps ++ qs) = textOf ps ++ textOf qs :=
  List.flatMap_append

namespace Expr

mutual

/-- The text of the expression, in pieces. -/
def pieces (ctx : Context) : Expr → List Piece
  | handle h => [.name h.name]
  | template name args =>
    .name name :: .chars ['\x7b'] :: (piecesItems ctx [',', ' '] args ++ [.chars ['\x7d']])
  | tuple items | group items => .chars ['('] :: (piecesItems ctx [' '] items ++ [.chars [')']])
  | list items | optional items => .chars ['['] :: (piecesItems ctx [' '] items ++ [.chars [']']])
  | choice items => piecesItems ctx [' ', '|', ' '] items
  | repetition op items =>
    .chars ['('] :: (piecesItems ctx [' '] items ++ [.chars (')' :: op.symbol.toList)])
  | bounded content bound =>
    .chars ['('] :: (pieces ctx content ++ [.chars (") ~ " ++ bound.text).toList])
  | aliased name items => piecesItems ctx [' '] items ++ [.chars (" -> " ++ name).toList]
  | deferred _ resolve => piecesResolved ctx (resolve ctx)
  | branch key default yes no => if ctx.getBool key default then pieces ctx yes else pieces ctx no
  | text s => [.chars (Text.quote s).toList]
  | literal value flags => [.chars (writtenLiteral value flags).toList]
  | regexp pattern flags => [.chars (writtenRegexp pattern flags).toList]
  | verbatim s => [.chars s.toList]
  | range first last => [.chars (writtenRange first last).toList]

/-- Items with `sep` between every two. -/
def piecesItems (ctx : Context) (sep : List Char) : List Expr → List Piece
  | [] => []
  | e :: rest => pieces ctx e ++ piecesTail ctx sep rest

/-- Items with `sep` in front of each. -/
def piecesTail (ctx : Context) (sep : List Char) : List Expr → List Piece
  | [] => []
  | e :: rest => .chars sep :: (pieces ctx e ++ piecesTail ctx sep rest)

def piecesResolved (ctx : Context) : Except GrammarError Expr → List Piece
  | .ok e => pieces ctx e
  | .error _ => []

end

variable {ctx : Context} {sep : List Char} {items : List Expr} {s : String}

/-! ## The pieces come to the text -/

theorem text_piecesTail (h : ∀ x ∈ items, textOf (pieces ctx x) = written ctx x) :
    textOf (piecesTail ctx sep items) = writtenTail ctx sep items := by
  induction items with
  | nil => rw [piecesTail, writtenTail, textOf_nil]
  | cons e rest ih =>
    rw [List.forall_mem_cons] at h
    rw [piecesTail, writtenTail, textOf_cons, textOf_append, h.1, ih h.2, Piece.text]

theorem text_piecesItems (h : ∀ x ∈ items, textOf (pieces ctx x) = written ctx x) :
    textOf (piecesItems ctx sep items) = writtenItems ctx sep items := by
  cases items with
  | nil => rw [piecesItems, writtenItems, textOf_nil]
  | cons e rest =>
    rw [List.forall_mem_cons] at h
    rw [piecesItems, writtenItems, textOf_append, h.1, text_piecesTail h.2]

theorem text_pieces (ctx : Context) (e : Expr) : textOf (pieces ctx e) = written ctx e := by
  induction e using active_induct ctx with
  | step e ih =>
  cases e with
  | text | literal | regexp | verbatim | range | handle => simp [pieces, written, Piece.text]
  | tuple items | list items | group items | optional items | choice items
  | template name items | repetition op items | aliased name items =>
    rw [activeItems] at ih
    simp [pieces, written, Piece.text, text_piecesItems ih]
  | bounded content bound => simp [pieces, written, Piece.text, ih content List.mem_cons_self]
  | deferred label resolve =>
    rw [activeItems] at ih
    rw [pieces, written]
    cases hr : resolve ctx with
    | ok e =>
      rw [hr] at ih
      rw [piecesResolved, writtenResolved]
      exact ih e List.mem_cons_self
    | error err => rw [piecesResolved, writtenResolved, textOf_nil]
  | branch key default yes no =>
    have h := ih _ List.mem_cons_self
    rw [pieces, written]
    split
    · rename_i hb; rwa [if_pos hb] at h
    · rename_i hb; rwa [if_neg hb] at h

/-! ## The names among the pieces -/

/-- The names that the expression itself refers to, without those of its items. -/
def ownNames : Expr → List String
  | handle h => [h.name]
  | template name _ => [name]
  | _ => []

theorem mem_piecesTail {p : Piece} {x : Expr} (hx : x ∈ items) (hp : p ∈ pieces ctx x) :
    p ∈ piecesTail ctx sep items := by
  induction items with
  | nil => cases hx
  | cons e rest ih =>
    rw [piecesTail]
    rcases List.mem_cons.mp hx with rfl | hx
    · exact List.mem_cons_of_mem _ (List.mem_append_left _ hp)
    · exact List.mem_cons_of_mem _ (List.mem_append_right _ (ih hx))

theorem mem_piecesItems {p : Piece} {x : Expr} (hx : x ∈ items) (hp : p ∈ pieces ctx x) :
    p ∈ piecesItems ctx sep items := by
  cases items with
  | nil => cases hx
  | cons e rest =>
    rw [piecesItems]
    rcases List.mem_cons.mp hx with rfl | hx
    · exact List.mem_append_left _ hp
    · exact List.mem_append_right _ (mem_piecesTail hx hp)

theorem mem_pieces_of_active {p : Piece} {x e : Expr} (hx : x ∈ activeItems ctx e)
    (hp : p ∈ pieces ctx x) : p ∈ pieces ctx e := by
  cases e with
  | text | literal | regexp | verbatim | range | handle => cases hx
  | tuple items | list items | group items | optional items | choice items
  | template name items | repetition op items | aliased name items =>
    rw [activeItems] at hx
    simp [pieces, mem_piecesItems hx hp]
  | bounded content bound =>
    obtain rfl := List.mem_singleton.mp hx
    simp [pieces, hp]
  | deferred label resolve =>
    rw [activeItems] at hx
    rw [pieces]
    cases hr : resolve ctx with
    | ok e =>
      rw [hr] at hx
      obtain rfl := List.mem_singleton.mp hx
      rwa [piecesResolved]
    | error err => rw [hr] at hx; cases hx
  | branch key default yes no =>
    obtain rfl := List.mem_singleton.mp hx
    rw [pieces]
    split
    · rename_i hb; rwa [if_pos hb] at hp
    · rename_i hb; rwa [if_neg hb] at hp

theorem name_mem_of_within {x e : Expr} (h : Within ctx x e) (hs : s ∈ ownNames x) :
    .name s ∈ pieces ctx e := by
  induction h with
  | refl =>
    cases x with
    | handle h =>
      obtain rfl := List.mem_singleton.mp hs
      rw [pieces]
      exact List.mem_cons_self
    | template name args =>
      obtain rfl := List.mem_singleton.mp hs
      rw [pieces]
      exact List.mem_cons_self
    | _ => cases hs
  | inside hy _ ih => exact mem_pieces_of_active hy ih

theorem mem_referencesAll : s ∈ referencesAll items ↔ ∃ x ∈ items, s ∈ references x := by
  induction items with
  | nil => simp [referencesAll]
  | cons e rest ih => simp [referencesAll, ih]

theorem name_mem_piecesTail (h : .name s ∈ piecesTail ctx sep items) :
    ∃ x ∈ items, .name s ∈ pieces ctx x := by
  induction items with
  | nil => rw [piecesTail] at h; cases h
  | cons e rest ih =>
    simp only [piecesTail, List.mem_cons, List.mem_append, reduceCtorEq, false_or] at h
    rcases h with h | h
    · exact ⟨e, List.mem_cons_self, h⟩
    · exact (ih h).imp fun x hx => ⟨List.mem_cons_of_mem _ hx.1, hx.2⟩

theorem name_mem_piecesItems (h : .name s ∈ piecesItems ctx sep items) :
    ∃ x ∈ items, .name s ∈ pieces ctx x := by
  cases items with
  | nil => rw [piecesItems] at h; cases h
  | cons e rest =>
    rw [piecesItems, List.mem_append] at h
    rcases h with h | h
    · exact ⟨e, List.mem_cons_self, h⟩
    · exact (name_mem_piecesTail h).imp fun x hx => ⟨List.mem_cons_of_mem _ hx.1, hx.2⟩

theorem mem_referencesAll_of_pieces
    (ih : ∀ x ∈ items, x.holdsVariable = false → ∀ s, .name s ∈ pieces ctx x → s ∈ references x)
    (hv : anyHoldsVariable items = false) (h : .name s ∈ piecesItems ctx sep items) :
    s ∈ referencesAll items := by
  obtain ⟨x, hx, hs⟩ := name_mem_piecesItems h
  exact mem_referencesAll.mpr ⟨x, hx, ih x hx (anyHoldsVariable_eq_false.mp hv x hx) s hs⟩

/-- Of a branch the text shows one side, and the references are those of both. -/
theorem mem_references (ctx : Context) (e : Expr) (hv : e.holdsVariable = false) (s : String)
    (h : .name s ∈ pieces ctx e) : s ∈ references e := by
  induction e using active_induct ctx generalizing s with
  | step e ih =>
  cases e with
  | text | literal | regexp | verbatim | range => simp [pieces] at h
  | handle => simpa [pieces, references] using h
  | tuple items | list items | group items | optional items | choice items
  | repetition op items | aliased name items =>
    simp only [pieces, List.mem_cons, List.mem_append, List.not_mem_nil, reduceCtorEq, false_or,
      or_false] at h
    exact mem_referencesAll_of_pieces ih hv h
  | template name items =>
    simp only [pieces, List.mem_cons, List.mem_append, List.not_mem_nil, reduceCtorEq, false_or,
      or_false, Piece.name.injEq] at h
    rw [references, List.mem_cons]
    exact h.imp_right (mem_referencesAll_of_pieces ih hv)
  | bounded content bound =>
    simp only [pieces, List.mem_cons, List.mem_append, List.not_mem_nil, reduceCtorEq, false_or,
      or_false] at h
    exact ih content List.mem_cons_self hv s h
  | deferred => cases hv
  | branch key default yes no =>
    rw [holdsVariable, Bool.or_eq_false_iff] at hv
    rw [references, List.mem_append]
    have hside := ih _ List.mem_cons_self
    rw [pieces] at h
    split at h
    · rename_i hb
      rw [if_pos hb] at hside
      exact Or.inl (hside hv.1 s h)
    · rename_i hb
      rw [if_neg hb] at hside
      exact Or.inr (hside hv.2 s h)

end Expr

end GrammarText
