import GrammarText.Manifest.Node

/-!
Manifests: a grammar as data, in a TOML document.

The document lists terminals, rules, templates and directives, and has a table of context values. An
entry is a record: its fields have names, or stand in a list in a fixed order, of which the last
ones may be missing.

- `Manifest.ofContents?`: reads a manifest from the outermost table of a document.
- `Manifest.build`: the grammar of a manifest, or the first entry that cannot be part of it.
-/

namespace GrammarText

/-- The entry of a rule or a terminal. -/
structure DefinitionEntry where
  name : String
  body : List Node
  modifier : Option Modifier := none
  priority : Int := defaultPriority
  replace : Bool := false
  deriving Inhabited

structure TemplateEntry where
  name : String
  params : List Node
  body : List Node
  modifier : Option Modifier := none
  replace : Bool := false
  deriving Inhabited

/-- The entry of a directive. It should have a raw text or a node, and not both. -/
structure DirectiveEntry where
  name : String
  raw : Option String := none
  node : Option Node := none
  deriving Inhabited

structure Manifest where
  terminals : List DefinitionEntry := []
  rules : List DefinitionEntry := []
  templates : List TemplateEntry := []
  directives : List DirectiveEntry := []
  context : Context := {}
  deriving Inhabited

/-! ## Reading -/

namespace Manifest

/-- The fields of a record with the given field names. -/
def fields? (names : List String) : Toml.Content → Option (List (String × Toml.Content))
  | .table fields => if fields.all fun f => names.contains f.1 then some fields else none
  | .array items => some (names.zip items)
  | _ => none

/-- Reads a field that must be there. -/
def field? {α : Type} (fields : List (String × Toml.Content)) (name : String)
    (read : Toml.Content → Option α) : Option α :=
  (Entries.get? fields name).bind read

/-- Reads a field that may be missing. -/
def fieldOr? {α : Type} (fields : List (String × Toml.Content)) (name : String) (missing : α)
    (read : Toml.Content → Option α) : Option α :=
  match Entries.get? fields name with
  | none => some missing
  | some v => read v

def list? {α : Type} (read : Toml.Content → Option α) : Toml.Content → Option (List α)
  | .array items => items.mapM read
  | _ => none

def modifierNamed? (name : String) : Option Modifier :=
  match name with
  | "inline" => some .inline
  | "inline_single" => some .inlineSingle
  | "keep_terminals" => some .keepTerminals
  | "anonymous" => some .inline
  | _ => none

/-- The name of a modifier; an empty table or list may stand under it. -/
def modifier? : Toml.Content → Option Modifier
  | .string name => modifierNamed? name
  | .table [(name, .table [])] => modifierNamed? name
  | .table [(name, .array [])] => modifierNamed? name
  | _ => none

def definitionEntry? (v : Toml.Content) : Option DefinitionEntry := do
  let fields ← fields? ["name", "body", "modifier", "priority", "replace"] v
  let name ← field? fields "name" (·.string?)
  let body ← field? fields "body" (list? Node.ofContent?)
  let modifier ← fieldOr? fields "modifier" none fun v => (modifier? v).map some
  let priority ← fieldOr? fields "priority" defaultPriority (·.integer?)
  let replace ← fieldOr? fields "replace" false (·.boolean?)
  return { name, body, modifier, priority, replace }

def templateEntry? (v : Toml.Content) : Option TemplateEntry := do
  let fields ← fields? ["name", "params", "body", "modifier", "replace"] v
  let name ← field? fields "name" (·.string?)
  let params ← field? fields "params" (list? Node.ofContent?)
  let body ← field? fields "body" (list? Node.ofContent?)
  let modifier ← fieldOr? fields "modifier" none fun v => (modifier? v).map some
  let replace ← fieldOr? fields "replace" false (·.boolean?)
  return { name, params, body, modifier, replace }

def directiveEntry? (v : Toml.Content) : Option DirectiveEntry := do
  let fields ← fields? ["name", "raw", "node"] v
  let name ← field? fields "name" (·.string?)
  let raw ← fieldOr? fields "raw" none fun v => v.string?.map some
  let node ← fieldOr? fields "node" none fun v => (Node.ofContent? v).map some
  return { name, raw, node }

variable [Toml.Library]

def context? : Toml.Content → Option Context
  | .table entries => Context.ofContents? entries
  | _ => none

def ofContents? (entries : List (String × Toml.Content)) : Option Manifest := do
  let fields ← fields? ["terminals", "rules", "templates", "directives", "context"] (.table entries)
  let terminals ← fieldOr? fields "terminals" [] (list? definitionEntry?)
  let rules ← fieldOr? fields "rules" [] (list? definitionEntry?)
  let templates ← fieldOr? fields "templates" [] (list? templateEntry?)
  let directives ← fieldOr? fields "directives" [] (list? directiveEntry?)
  let context ← fieldOr? fields "context" {} context?
  return { terminals, rules, templates, directives, context }

/-- The manifest in a document. -/
def parse? (text : String) : Option Manifest := (Toml.contents? text).bind ofContents?

/-! ## Building -/

/-- What keeps an entry out of the grammar. -/
inductive Fault where
  | definition (name : String) (cause : GrammarError)
  /-- A directive has both a raw text and a node, or neither. -/
  | directiveContent (name : String)
  deriving DecidableEq, Repr

/-- The grammar after a step, or the error of the step. -/
def after (step : GrammarStep Unit) (g : Grammar) : Except GrammarError Grammar :=
  match step.run g with
  | .ok _ g => .ok g
  | .error e _ => .error e

def blame {α : Type} (name : String) : Except GrammarError α → Except Fault α
  | .ok a => .ok a
  | .error e => .error (.definition name e)

def addDefinition (kind : NameClass) (g : Grammar) (entry : DefinitionEntry) :
    Except GrammarError Grammar := do
  let tokens ← Node.toExprs g entry.body
  after (Grammar.putDefinition kind entry.name { tokens } {
    modifier := entry.modifier.getD .none, priority := entry.priority, replace := entry.replace }) g

def addTemplate (g : Grammar) (entry : TemplateEntry) : Except GrammarError Grammar := do
  let params ← Node.toExprs g entry.params
  let tokens ← Node.toExprs g entry.body
  after (Grammar.putTemplate entry.name (.tuple params) { tokens } {
    modifier := entry.modifier.getD .none, replace := entry.replace }) g

def addDirective (g : Grammar) (entry : DirectiveEntry) : Except Fault Grammar :=
  match entry.raw, entry.node with
  | some raw, none => blame entry.name (after (Grammar.appendDirective entry.name (.raw raw)) g)
  | none, some node => blame entry.name (do
      let e ← Node.toExpr g node
      after (Grammar.appendDirective entry.name (.node e.spelledOut)) g)
  | _, _ => .error (.directiveContent entry.name)

/-- The grammar with the given identity: the terminals first, then the rules, the templates and the
directives. -/
def build (m : Manifest) (id : GrammarId) : Except Fault Grammar := do
  let g ← m.terminals.foldlM (fun g entry => blame entry.name (addDefinition .terminal g entry))
    (Grammar.new id)
  let g ← m.rules.foldlM (fun g entry => blame entry.name (addDefinition .rule g entry)) g
  let g ← m.templates.foldlM (fun g entry => blame entry.name (addTemplate g entry)) g
  m.directives.foldlM addDirective g

/-- The cause of a fault, without the entry. -/
def Fault.cause : Fault → GrammarError
  | .definition _ cause => cause
  | .directiveContent name => .directiveContent name

/-- The grammar, or the error without the entry that it came from. -/
def toGrammar (m : Manifest) (id : GrammarId) : Except GrammarError Grammar :=
  (m.build id).mapError Fault.cause

end Manifest

end GrammarText
