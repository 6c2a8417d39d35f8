import GrammarText.Grammar.Edit

/-!
The operations on a grammar as data, so that a run is a list of them.

- `Operation.run`: one operation.
- `Grammar.runAll`: a run, in which an operation that fails is passed over.
-/

namespace GrammarText

inductive Operation where
  | define (name : String) (body : Body)
  | putDefinition (kind : NameClass) (name : String) (body : Body) (options : DefOptions)
  | putTemplate (name : String) (params : Expr) (body : Body) (options : DefOptions)
  | appendDirective (name : String) (content : DirectiveContent)
  | assign (h : Handle) (key : Grammar.Key) (body : Body)
  | change (kind : NameClass) (name : String) (c : Definition.Change)
  | extend (name : String) (alternatives : List Expr)
  | replace (name : String) (body : Body)
  | edit (name : String) (e : Edit)

def Operation.run : Operation → GrammarStep Unit
  | .define name body => Grammar.define name body
  | .putDefinition kind name body options => Grammar.putDefinition kind name body options
  | .putTemplate name params body options => Grammar.putTemplate name params body options
  | .appendDirective name content => Grammar.appendDirective name content
  | .assign h key body => Grammar.assign h key body
  | .change kind name c => Grammar.changeDefinition kind name c
  | .extend name alternatives => Grammar.extend name alternatives
  | .replace name body => Grammar.replace name body
  | .edit name e => Grammar.edit name e

namespace Grammar

/-- The outcome of an operation, and the grammar after it. -/
def perform (g : Grammar) (op : Operation) : Except GrammarError Unit × Grammar :=
  match op.run.run g with
  | .ok _ g => (.ok (), g)
  | .error e g => (.error e, g)

def runAll (g : Grammar) (ops : List Operation) : Grammar :=
  ops.foldl (fun g op => (g.perform op).2) g

end Grammar

end GrammarText
