import GrammarText.Definition

/-!
Grammars: rules, terminals and templates under their names, and directives, each in the order in
which they were first given.

An operation is a step on a grammar that may fail (`GrammarStep`). What a step did before it failed
would stay, so every operation checks first and files last.

- `Grammar.handle`, `Grammar.lookup`: a handle to a name, defined or not.
- `Grammar.putDefinition`, `Grammar.define`: files a rule or a terminal.
- `Grammar.putTemplate`, `Grammar.appendDirective`: files a template or a directive.
- `Grammar.assign`: files what a handle stands for.
- `Grammar.changeDefinition`: changes a filed definition in its place.
-/

namespace GrammarText

structure Grammar where
  id : GrammarId
  rules : Entries Definition := []
  terminals : Entries Definition := []
  templates : Entries TemplateDef := []
  directives : List Directive := []
  deriving Inhabited

/-- A step on a grammar that may fail. -/
abbrev GrammarStep := EStateM GrammarError Grammar

/-- A check is a step that leaves the grammar alone. -/
instance : MonadLift (Except GrammarError) GrammarStep where
  monadLift check := fun g => match check with
    | .ok a => .ok a g
    | .error e => .error e g

def NameClass.space : NameClass → Namespace
  | .rule => .rule
  | .terminal => .terminal

/-- What keeps `name` from being used in a namespace. Templates and directives have rule names. -/
def nameProblem? (space : Namespace) (name : String) : Option NameProblem :=
  match space with
  | .terminal => terminalProblem? name
  | .rule | .template | .directive => ruleProblem? name

def checkName (space : Namespace) (name : String) : Except GrammarError Unit :=
  match nameProblem? space name with
  | some problem => .error (.invalidName name space problem)
  | none => .ok ()

/-- The class of a name. A text that is no name is held against the class that it looks closer to:
with a lowercase letter in it the rules, otherwise the terminals. -/
def classify (name : String) : Except GrammarError NameClass :=
  match ruleProblem? name, terminalProblem? name with
  | none, _ => .ok .rule
  | _, none => .ok .terminal
  | some asRule, some asTerminal =>
    if name.toList.any Char.isLower then .error (.invalidName name .rule asRule)
    else .error (.invalidName name .terminal asTerminal)

namespace Grammar

def new (id : GrammarId) : Grammar := { id }

/-- The rules, or the terminals. -/
def definitions (g : Grammar) : NameClass → Entries Definition
  | .rule => g.rules
  | .terminal => g.terminals

def setDefinitions (g : Grammar) (kind : NameClass) (entries : Entries Definition) : Grammar :=
  match kind with
  | .rule => { g with rules := entries }
  | .terminal => { g with terminals := entries }

/-- Whether the name is taken in any namespace. -/
def isDefined (g : Grammar) (name : String) : Bool :=
  g.rules.has name || g.terminals.has name || g.templates.has name

def isEmpty (g : Grammar) : Bool :=
  g.rules.isEmpty && g.terminals.isEmpty && g.templates.isEmpty && g.directives.isEmpty

/-! ## Handles -/

def handle (g : Grammar) (kind : NameClass) (name : String) : Except GrammarError Handle := do
  checkName kind.space name
  return ⟨kind, name, g.id⟩

/-- A handle of the class that the name picks. -/
def lookup (g : Grammar) (name : String) : Except GrammarError Handle := do
  let kind ← classify name
  return ⟨kind, name, g.id⟩

/-! ## Filing -/

/-- The entries with a value filed under a name, which is refused if the name is taken and the
value is not to replace what is there. -/
def fileUnder {α : Type} (entries : Entries α) (space : Namespace) (name : String) (value : α)
    (replace : Bool) : Except GrammarError (Entries α) :=
  if entries.has name && !replace then .error (.duplicateName name space)
  else .ok (entries.put name value)

def putDefinition (kind : NameClass) (name : String) (body : Body) (options : DefOptions) :
    GrammarStep Unit := do
  checkName kind.space name
  let g ← get
  let d := Definition.ofBody kind name body options
  let entries ← fileUnder (g.definitions kind) kind.space name d options.replace
  set (g.setDefinitions kind entries)

/-- Files a rule or a terminal, as the name picks. -/
def define (name : String) (body : Body) : GrammarStep Unit := do
  let kind ← classify name
  putDefinition kind name body {}

def putTemplate (name : String) (params : Expr) (body : Body) (options : DefOptions) :
    GrammarStep Unit := do
  checkName .template name
  if options.priority ≠ defaultPriority then throw (.templatePriority name)
  if params.params.isEmpty then throw (.noParameters name)
  let g ← get
  let t := TemplateDef.ofBody name params.params body options.modifier
  let entries ← fileUnder g.templates .template name t options.replace
  set { g with templates := entries }

/-- Appends a directive; any number of them may have one name. -/
def appendDirective (name : String) (content : DirectiveContent) : GrammarStep Unit := do
  checkName .directive name
  modify fun g => { g with directives := g.directives ++ [⟨name, content⟩] }

/-- What a handle is assigned under. -/
inductive Key where
  | priority (n : Int)
  | params (items : List Expr)

/-- Files the rule or terminal of a handle with a priority, or the template of a rule handle with
parameters. -/
def assign (h : Handle) (key : Key) (body : Body) : GrammarStep Unit := do
  let g ← get
  if h.issuer ≠ g.id then throw (.foreignHandle h.name)
  match key, h.kind with
  | .priority n, kind => putDefinition kind h.name body { priority := n }
  | .params items, .rule => putTemplate h.name (.tuple items) body {}
  | .params _, .terminal => throw (.terminalAsTemplate h.name)

/-- Changes a filed rule or terminal in its place. -/
def changeDefinition (kind : NameClass) (name : String) (change : Definition.Change) :
    GrammarStep Unit :=
  modify fun g => g.setDefinitions kind ((g.definitions kind).update name (·.change change))

end Grammar

end GrammarText
