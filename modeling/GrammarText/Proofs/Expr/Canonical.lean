import GrammarText.Proofs.Expr.Written

/-!
One form for expressions that are written alike by design.

- `Expr.canonical`: at every depth, a text as the literal without flags, a `tuple` as a `group`, a
  `list` as an `optional`, and a handle as if one and the same grammar had issued it. What a
  variable resolves to is left alone.
- `Expr.written_canonical`: the text stays the same.
-/

namespace GrammarText.Expr

mutual

def canonical : Expr → Expr
  | text s => literal s ""
  | tuple items => group (canonicalAll items)
  | list items => optional (canonicalAll items)
  | literal value flags => literal value flags
  | regexp pattern flags => regexp pattern flags
  | verbatim s => verbatim s
  | handle h => handle { h with issuer := 0 }
  | template name args => template name (canonicalAll args)
  | group items => group (canonicalAll items)
  | optional items => optional (canonicalAll items)
  | choice items => choice (canonicalAll items)
  | repetition op items => repetition op (canonicalAll items)
  | bounded content bound => bounded (canonical content) bound
  | range first last => range first last
  | aliased name items => aliased name (canonicalAll items)
  | deferred label resolve => deferred label resolve
  | branch key default yes no => branch key default (canonical yes) (canonical no)

def canonicalAll : List Expr → List Expr
  | [] => []
  | e :: rest => canonical e :: canonicalAll rest

end

mutual

theorem written_canonical (ctx : Context) : ∀ e, written ctx (canonical e) = written ctx e
  | text s => by simp [canonical, written, writtenLiteral]
  | tuple items => by rw [canonical, written, written, writtenItems_canonical ctx _ items]
  | list items => by rw [canonical, written, written, writtenItems_canonical ctx _ items]
  | literal .. | regexp .. | verbatim _ | range .. | deferred .. => by rw [canonical]
  | handle h => by rw [canonical, written, written]
  | template name args => by rw [canonical, written, written, writtenItems_canonical ctx _ args]
  | group items => by rw [canonical, written, written, writtenItems_canonical ctx _ items]
  | optional items => by rw [canonical, written, written, writtenItems_canonical ctx _ items]
  | choice items => by rw [canonical, written, written, writtenItems_canonical ctx _ items]
  | repetition op items => by rw [canonical, written, written, writtenItems_canonical ctx _ items]
  | bounded content bound => by rw [canonical, written, written, written_canonical ctx content]
  | aliased name items => by rw [canonical, written, written, writtenItems_canonical ctx _ items]
  | branch key default yes no => by
    rw [canonical, written, written, written_canonical ctx yes, written_canonical ctx no]

theorem writtenItems_canonical (ctx : Context) (sep : List Char) :
    ∀ items, writtenItems ctx sep (canonicalAll items) = writtenItems ctx sep items
  | [] => by rw [canonicalAll]
  | e :: rest => by
    rw [canonicalAll, writtenItems, writtenItems, written_canonical ctx e,
      writtenTail_canonical ctx sep rest]

theorem writtenTail_canonical (ctx : Context) (sep : List Char) :
    ∀ items, writtenTail ctx sep (canonicalAll items) = writtenTail ctx sep items
  | [] => by rw [canonicalAll]
  | e :: rest => by
    rw [canonicalAll, writtenTail, writtenTail, written_canonical ctx e,
      writtenTail_canonical ctx sep rest]

end

end GrammarText.Expr
