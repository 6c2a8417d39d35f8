import GrammarText.Grammar.Basic
import GrammarText.Text.Blank

/-!
The text of a whole grammar, and its dump.

The text has four parts, the terminals, the rules, the directives and the templates, each with one
definition a line, and an empty line behind each part. `Grammar.generate` trims the blanks at the
ends.
-/

namespace GrammarText.Grammar

/-- Writes definitions, one a line, and an empty line. -/
def renderPart : List Emission → Emission
  | [] => emit "\n"
  | line :: rest => do line; emit "\n"; renderPart rest

def render (ctx : Context) (g : Grammar) : Emission := do
  renderPart (g.terminals.values.map (·.render ctx))
  renderPart (g.rules.values.map (·.render ctx))
  renderPart (g.directives.map (·.render ctx))
  renderPart (g.templates.values.map (·.render ctx))

/-- The text of the grammar, or the error of the first definition that fails. -/
def generate (g : Grammar) (ctx : Context) : Except GrammarError String :=
  (g.render ctx).text.map Text.trim

/-- The dumps of all definitions, with an empty line between every two. -/
def describe (g : Grammar) : String :=
  dumpEntry "Grammar" (String.intercalate "\n\n"
    (g.rules.values.map (·.describe) ++ g.terminals.values.map (·.describe)
      ++ g.directives.map (·.describe) ++ g.templates.values.map (·.describe)))

end GrammarText.Grammar
