import GrammarText.Context.Toml
import GrammarText.Grammar.Basic

/-!
Node expressions of a manifest.

In a manifest a text stands for a quoted literal. Any other expression is a table with one key, the
kind of the node. What stands under the key depends on the kind: a text, a list, or a record. The
fields of a record have names, or they stand in a list in a fixed order.

- `Node.ofContent?`: reads a node expression. The entries of a table come in the order of their keys,
  so the fields of a record are a pattern.
- `Node.toExpr`: the grammar expression, or the first name or bound in it that is not allowed.
-/

namespace GrammarText

/-- A node expression as written in a manifest. -/
inductive Node where
  | text (s : String)
  | literal (value flags : String)
  | regexp (pattern flags : String)
  | raw (s : String)
  | reference (kind : NameClass) (name : String)
  | group (items : List Node)
  | optional (items : List Node)
  | options (items : List Node)
  | optionsGrouped (items : List Node)
  | repetition (op : Repetition) (items : List Node)
  | separated (op : Repetition) (sep item : Node)
  | bounded (item : Node) (count : Bound)
  | range (first last : RangeEnd)
  | aliased (name : String) (children : List Node)
  | template (name : String) (args : List Node)
  | branch (key : String) (default : Bool) (yes no : Node)
  deriving Inhabited

namespace Node

/-! ## Reading -/

mutual

/-- Whether every integer in a value lies between two others, and every number has a value. -/
def numbersWithin (least most : Int) : Toml.Content → Bool
  | .integer n => least ≤ n && n ≤ most
  | .badNumber => false
  | .array items => allWithin least most items
  | .table entries => entriesWithin least most entries
  | _ => true

def allWithin (least most : Int) : List Toml.Content → Bool
  | [] => true
  | item :: rest => numbersWithin least most item && allWithin least most rest

def entriesWithin (least most : Int) : List (String × Toml.Content) → Bool
  | [] => true
  | (_, item) :: rest => numbersWithin least most item && entriesWithin least most rest

end

/-- A text, or a record of a text and its flags, in which other fields do no harm. -/
def flagged? : Toml.Content → Option (String × String)
  | .string value => some (value, "")
  | .table fields => match Entries.get? fields "value", Entries.get? fields "flags" with
    | some (.string value), some (.string flags) => some (value, flags)
    | _, _ => none
  | _ => none

def char? : Toml.Content → Option Char
  | .string s => match s.toList with
    | [c] => some c
    | _ => none
  | _ => none

/-- A count, or a least and a greatest count. -/
def count? : Toml.Content → Option Bound
  | .array [least, most] => match least.integer?, most.integer? with
    | some least, some most => some (.between least most)
    | _, _ => none
  | v => v.integer?.map .exactly

def range? (endOf : Toml.Content → Option RangeEnd) : Toml.Content → Option Node
  | .array [first, last] => match endOf first, endOf last with
    | some first, some last => some (range first last)
    | _, _ => none
  | _ => none

/-- A record of two parts, if both could be read. -/
def pair? (form : Node → Node → Node) : Option Node → Option Node → Option Node
  | some a, some b => some (form a b)
  | _, _ => none

/-- A bounded repetition, if both its parts could be read. -/
def boundedOf? : Option Node → Option Bound → Option Node
  | some item, some count => some (bounded item count)
  | _, _ => none

/-- The node of a kind whose content is a text. -/
def ofText? (kind s : String) : Option Node :=
  match kind with
  | "raw" => some (raw s)
  | "rule" => some (reference .rule s)
  | "terminal" => some (reference .terminal s)
  | _ => none

/-- The node of a kind whose content is a list of nodes. -/
def ofList? (kind : String) (items : List Node) : Option Node :=
  match kind with
  | "group" => some (group items)
  | "optional" => some (optional items)
  | "options" => some (options items)
  | "options_grouped" => some (optionsGrouped items)
  | "some" => some (repetition .zeroOrMore items)
  | "many" => some (repetition .oneOrMore items)
  | "maybe" => some (repetition .zeroOrOne items)
  | _ => none

/-- The node of a kind whose content holds no nodes. -/
def ofLeaf? (kind : String) (content : Toml.Content) : Option Node :=
  match kind with
  | "literal" => (flagged? content).map fun (value, flags) => literal value flags
  | "regexp" => (flagged? content).map fun (pattern, flags) => regexp pattern flags
  | "range" => range? (fun v => v.integer?.map .number) content
  | "char_range" => range? (fun v => (char? v).map .char) content
  | _ => match content with
    | .string s => ofText? kind s
    | _ => none

mutual

def shape? : Toml.Content → Option Node
  | .string s => some (text s)
  | .table [(kind, content)] => shapeOf? kind content
  | _ => none

/-- The node of the given kind, by what stands under its key. -/
def shapeOf? (kind : String) (content : Toml.Content) : Option Node :=
  match kind, content with
  | "some_separated", .table [("item", item), ("sep", sep)] =>
    pair? (separated .zeroOrMore) (shape? sep) (shape? item)
  | "some_separated", .array [sep, item] =>
    pair? (separated .zeroOrMore) (shape? sep) (shape? item)
  | "many_separated", .table [("item", item), ("sep", sep)] =>
    pair? (separated .oneOrMore) (shape? sep) (shape? item)
  | "many_separated", .array [sep, item] =>
    pair? (separated .oneOrMore) (shape? sep) (shape? item)
  | "repeat", .table [("count", count), ("item", item)] => boundedOf? (shape? item) (count? count)
  | "repeat", .array [item, count] => boundedOf? (shape? item) (count? count)
  | "alias", .table [("children", .array children), ("name", .string name)] =>
    (shapes? children).map (aliased name)
  | "alias", .table [("name", .string name)] => some (aliased name [])
  | "alias", .array [.string name, .array children] => (shapes? children).map (aliased name)
  | "alias", .array [.string name] => some (aliased name [])
  | "template", .table [("args", .array args), ("name", .string name)] =>
    (shapes? args).map (template name)
  | "template", .array [.string name, .array args] => (shapes? args).map (template name)
  | "when", .table [("default", .boolean default), ("else", no), ("key", .string key),
      ("then", yes)] => pair? (branch key default) (shape? yes) (shape? no)
  | "when", .table [("else", no), ("key", .string key), ("then", yes)] =>
    pair? (branch key false) (shape? yes) (shape? no)
  | "when", .array [.string key, .boolean default, yes, no] =>
    pair? (branch key default) (shape? yes) (shape? no)
  | kind, .array items => match ofLeaf? kind (.array items) with
    | some node => some node
    | none => (shapes? items).bind (ofList? kind)
  | kind, content => ofLeaf? kind content

def shapes? : List Toml.Content → Option (List Node)
  | [] => some []
  | item :: rest => match shape? item, shapes? rest with
    | some node, some nodes => some (node :: nodes)
    | _, _ => none

end

/-- Reads a node expression. All numbers in it have 64 bits, even those in fields that do no
harm. -/
def ofContent? (v : Toml.Content) : Option Node :=
  if numbersWithin (-Decimal.twoPow 63) (Decimal.twoPow 64 - 1) v then shape? v else none

/-- Reads the node expression under the key `node` of a document. The numbers under the other keys
have 128 bits. -/
def parse? [Toml.Library] (source : String) : Option Node :=
  match Toml.contents? source with
  | none => none
  | some entries =>
    let others := entries.filter (·.1 ≠ "node")
    if entriesWithin (-Decimal.twoPow 127) (Decimal.twoPow 128 - 1) others then
      (Entries.get? entries "node").bind ofContent?
    else none

/-! ## Conversion -/

mutual

/-- The grammar expression, with handles issued by `g`. Of several things that are not allowed the
first one is the error, where a separator counts as before the item, an item as before its bound,
and a name as before the arguments. -/
def toExpr (g : Grammar) : Node → Except GrammarError Expr
  | text s => .ok (.text s)
  | literal value flags => .ok (.literal value flags)
  | regexp pattern flags => .ok (.regexp pattern flags)
  | raw s => .ok (.verbatim s)
  | reference kind name => return .handle (← g.handle kind name)
  | group items => return .group (← toExprs g items)
  | optional items => return .optional (← toExprs g items)
  | options items => return .choice (← toExprs g items)
  | optionsGrouped items => return .choiceGroup (← toExprs g items)
  | repetition op items => return .repetition op (← toExprs g items)
  | separated op sep item => do
    let sep ← toExpr g sep
    let item ← toExpr g item
    return .separated op sep item
  | bounded item count => do
    let item ← toExpr g item
    Expr.repeated item count
  | range first last => .ok (.range first last)
  | aliased name children => return .aliased name (← toExprs g children)
  | template name args => do
    checkName .rule name
    let args ← toExprs g args
    return .template name args
  | branch key default yes no => do
    let yes ← toExpr g yes
    let no ← toExpr g no
    return .branch key default yes no

def toExprs (g : Grammar) : List Node → Except GrammarError (List Expr)
  | [] => .ok []
  | node :: rest => do
    let e ← toExpr g node
    let es ← toExprs g rest
    return e :: es

end

end Node

end GrammarText
