import GrammarText.Emitter
import GrammarText.Expr.Basic

/-!
Expressions written as grammar text.

`Expr.render` writes the fragments of an expression for one context. A variable is resolved first,
and what it resolves to is written in its place; of a branch only the side that the context picks
is looked at.
-/

namespace GrammarText.Expr

mutual

def render (ctx : Context) : Expr → Emission
  | text s => emit (Text.quote s)
  | tuple items => do emit "("; renderSeparated ctx " " items; emit ")"
  | list items => do emit "["; renderSeparated ctx " " items; emit "]"
  | literal value flags => emit (writtenLiteral value flags)
  | regexp pattern flags => emit (writtenRegexp pattern flags)
  | verbatim s => emit s
  | handle h => emit h.name
  | template name args => do
    emit name; emit "\x7b"; renderSeparated ctx ", " args; emit "\x7d"
  | group items => do emit "("; renderSeparated ctx " " items; emit ")"
  | optional items => do emit "["; renderSeparated ctx " " items; emit "]"
  | choice items => renderSeparated ctx " | " items
  | repetition op items => do
    emit "("; renderSeparated ctx " " items; emit ")"; emit op.symbol
  | bounded content bound => do
    emit "("; render ctx content; emit ")"; emit " ~ "; emit bound.text
  | range first last => emit (writtenRange first last)
  | aliased name items => do renderSeparated ctx " " items; emit " -> "; emit name
  | deferred _ resolve => renderResolved ctx (resolve ctx)
  | branch key default yes no => if ctx.getBool key default then render ctx yes else render ctx no

/-- Writes items with a separator between every two. -/
def renderSeparated (ctx : Context) (sep : String) : List Expr → Emission
  | [] => pure ()
  | [e] => render ctx e
  | e :: f :: rest => do render ctx e; emit sep; renderSeparated ctx sep (f :: rest)

/-- Writes what a variable resolved to. -/
def renderResolved (ctx : Context) : Except GrammarError Expr → Emission
  | .ok e => render ctx e
  | .error err => throw err

end

/-- Writes items with a separator between every two, and a text at either end. -/
def renderWrapped (ctx : Context) (opening closing : String) (items : List Expr) (sep : String) :
    Emission := do
  emit opening; renderSeparated ctx sep items; emit closing

end GrammarText.Expr
