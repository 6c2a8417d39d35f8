import GrammarText.Name

/-!
What can go wrong while a grammar is put together or generated.

Each error names its cause; `GrammarError.message`, `GrammarError.code` and `GrammarError.help?` are
the texts that a reader sees.
-/

namespace GrammarText

/-- The part of a grammar that a definition lives in. -/
inductive Namespace where
  | rule
  | terminal
  | template
  | directive
  deriving DecidableEq, Repr

def Namespace.word : Namespace → String
  | .rule => "rule"
  | .terminal => "terminal"
  | .template => "template"
  | .directive => "directive"

/-- How often a bounded repetition runs. -/
inductive Bound where
  | exactly (n : Int)
  | between (least most : Int)
  deriving DecidableEq, Repr

def Bound.text : Bound → String
  | .exactly n => toString n
  | .between least most => toString least ++ ".." ++ toString most

/-- Whether the bound can be met and allows one run at least. -/
def Bound.IsValid : Bound → Prop
  | .exactly n => 0 < n
  | .between least most => 0 ≤ least ∧ 0 < most ∧ least ≤ most

instance : DecidablePred Bound.IsValid := fun b => by
  cases b <;> unfold Bound.IsValid <;> infer_instance

inductive GrammarError where
  | invalidName (name : String) (space : Namespace) (problem : NameProblem)
  | duplicateName (name : String) (space : Namespace)
  | unknownDefinition (name : String)
  /-- A handle was used on a grammar that did not issue it. -/
  | foreignHandle (name : String)
  | templatePriority (name : String)
  | noParameters (name : String)
  | terminalAsTemplate (name : String)
  /-- A directive was given both a raw text and a node, or neither. -/
  | directiveContent (name : String)
  | invalidBound (bound : Bound)
  | missingContext (key : String)
  /-- A variable could not be resolved, for a reason of its own. -/
  | unresolved (reason : String)
  deriving DecidableEq, Repr

namespace GrammarError

def directiveContentMessage (name : String) : String :=
  "directive '" ++ name ++ "' needs exactly one of `raw` or `node`"

def message : GrammarError → String
  | invalidName name space _ => "invalid " ++ space.word ++ " name '" ++ name ++ "'"
  | duplicateName name space => space.word ++ " '" ++ name ++ "' already exists"
  | unknownDefinition name => "no definition by the name '" ++ name ++ "'"
  | foreignHandle name => "handle '" ++ name ++ "' belongs to another grammar"
  | templatePriority name => "template '" ++ name ++ "' cannot carry a priority"
  | noParameters name => "template '" ++ name ++ "' needs at least one parameter"
  | terminalAsTemplate name => "terminal '" ++ name ++ "' cannot be a template"
  | directiveContent name => directiveContentMessage name
  | invalidBound bound => "invalid repetition bound " ++ bound.text
  | missingContext key => "missing context key '" ++ key ++ "'"
  | unresolved reason => reason

def code : GrammarError → String
  | invalidName .. => "larkspur::invalid_name"
  | duplicateName .. => "larkspur::duplicate_name"
  | unknownDefinition .. => "larkspur::unknown_definition"
  | foreignHandle .. | templatePriority .. | noParameters .. | terminalAsTemplate ..
  | directiveContent .. => "larkspur::invalid_operation"
  | invalidBound .. => "larkspur::invalid_bound"
  | missingContext .. => "larkspur::missing_context"
  | unresolved .. => "larkspur::resolve_error"

/-- What the reader may do about it. -/
def help? : GrammarError → Option String
  | invalidName _ _ problem =>
    some (problem.message ++ ". Rule names use [a-z0-9_], terminal names use [A-Z0-9_], "
      ++ "neither may start with a digit.")
  | duplicateName name _ =>
    some ("pass `replace` in the definition options to overwrite '" ++ name ++ "'")
  | invalidBound _ => some "a bounded repetition needs a positive count, e.g. `4` or `1..4`"
  | missingContext key => some ("pass '" ++ key ++ "' in the generation context, e.g. `--set "
      ++ key ++ "=...`")
  | _ => none

end GrammarError

end GrammarText
