import GrammarText.Expr.Basic

/-!
Variables that read one key of the context, or none.

- `Expr.textVariable`, `Expr.verbatimVariable`: the text under a key, as a quoted literal or as it
  is. A value that is no text counts as missing.
- `Expr.shownVariable`: any value under a key, as it is shown to a reader.
- `Expr.constantVariable`, `Expr.failingVariable`: the same expression, or the same failure, under
  every context.
- `Expr.variableSummary`: the one-line summary of a variable.
-/

namespace GrammarText.Expr

/-- The text under `key`, handed to `form`. -/
def resolveText (form : String → Expr) (key : String) (ctx : Context) : Except GrammarError Expr :=
  match (ctx.get? key).bind Value.str? with
  | some s => .ok (form s)
  | none => .error (.missingContext key)

/-- The value under `key`, as it is shown. -/
def resolveShown (key : String) (ctx : Context) : Except GrammarError Expr :=
  match ctx.get? key with
  | some v => .ok (verbatim v.shown)
  | none => .error (.missingContext key)

def textVariable (label : Option String) (key : String) : Expr :=
  deferred label (resolveText text key)

def verbatimVariable (label : Option String) (key : String) : Expr :=
  deferred label (resolveText verbatim key)

def shownVariable (label : Option String) (key : String) : Expr := deferred label (resolveShown key)

def constantVariable (label : Option String) (e : Expr) : Expr := deferred label fun _ => .ok e

def failingVariable (label : Option String) (reason : String) : Expr :=
  deferred label fun _ => .error (.unresolved reason)

/-- The label, in the quotes of a shown text; what the variable resolves to stays out of sight. -/
def variableSummary (label : Option String) : String :=
  "Variable \x7b label: " ++ Text.shown (variableLabel label) ++ ", .. \x7d"

end GrammarText.Expr
