import GrammarText.Error

/-!
The fragments of a text that is being generated.

`Emission` is a step that writes fragments and may fail: the fragments written before a failure
stay. `emit` writes one fragment; an empty one leaves no trace.
-/

namespace GrammarText

structure Emitter where
  fragments : Array String := #[]
  deriving DecidableEq, Repr, Inhabited

namespace Emitter

def empty : Emitter := ⟨#[]⟩

/-- Appends a fragment, unless it is empty. -/
def push (out : Emitter) (fragment : String) : Emitter :=
  if fragment = "" then out else ⟨out.fragments.push fragment⟩

def toList (out : Emitter) : List String := out.fragments.toList

/-- All fragments in one text. -/
def text (out : Emitter) : String := String.join out.toList

end Emitter

/-- A step that writes to an emitter and may fail. -/
abbrev Emission := EStateM GrammarError Emitter Unit

def emit (fragment : String) : Emission := modify (·.push fragment)

namespace Emission

/-- The fragments of a step on an empty emitter, or its error. -/
def fragments (step : Emission) : Except GrammarError (List String) :=
  match step.run .empty with
  | .ok _ out => .ok out.toList
  | .error e _ => .error e

/-- The text of a step on an empty emitter, or its error. -/
def text (step : Emission) : Except GrammarError String :=
  match step.run .empty with
  | .ok _ out => .ok out.text
  | .error e _ => .error e

end Emission

end GrammarText
