import GrammarText.Toml.Expression

/-!
TOML documents.

A document is a sequence of lines: a header in brackets, which names the table of the entries after
it; a header in two pairs of brackets, which begins a new table of a series; or an entry, a key and
a value. It may begin with a byte order mark.

- `Toml.parse`: the entries of the outermost table, or `none` for a text that is no document.
-/

namespace GrammarText.Toml

inductive Line where
  | table (path : List String)
  | series (path : List String)
  | entry (path : List String) (v : Value)

/-- Reads a header after its first bracket. -/
def readHeader : Reader Line
  | '[' :: cs => do
    let (path, cs) ← readKey (skipSpace cs)
    let (_, cs) ← readChar ']' (skipSpace cs)
    let (_, cs) ← readChar ']' cs
    return (.series path, cs)
  | cs => do
    let (path, cs) ← readKey (skipSpace cs)
    let (_, cs) ← readChar ']' (skipSpace cs)
    return (.table path, cs)

def readEntry : Reader Line := fun cs => do
  let (path, cs) ← readKey cs
  let (_, cs) ← readChar '=' (skipSpace cs)
  let (v, cs) ← readValue maxNesting (skipSpace cs)
  return (.entry path v, cs)

def readLine : Reader Line
  | '[' :: cs => readHeader cs
  | cs => readEntry cs

/-- A document that is being read. -/
structure Draft where
  root : Items := []
  /-- The header that the entries belong to. -/
  header : List String := []

/-- Does `change` with the last key of a path, in the table that the others lead to. -/
def atLast (change : String → Items → Option Items) (path : List String) (items : Items) :
    Option Items :=
  match path.getLast? with
  | none => none
  | some key => atHeader (change key) path.dropLast items

def Draft.add (d : Draft) : Line → Option Draft
  | .table path => (atLast openTable path d.root).map fun root => ⟨root, path⟩
  | .series path => (atLast openSeries path d.root).map fun root => ⟨root, path⟩
  | .entry path v => (atHeader (insertPath v true path) d.header d.root).map fun root =>
      { d with root := root }

/-- Whether a line may end before this text: there is none, or a break or a comment is next. -/
def atLineEnd (cs : List Char) : Bool :=
  match skipSpace cs with
  | [] => true
  | c :: _ => c == '\n' || c == '\r' || c == '#'

def readLines (d : Draft) (cs : List Char) : Option Draft :=
  match skipTrivia cs with
  | none => none
  | some [] => some d
  | some start => match readLine start with
    | none => none
    | some (line, rest) => match d.add line with
      | none => none
      | some d =>
        if atLineEnd rest && rest.length < cs.length then readLines d rest else none
termination_by cs.length
decreasing_by simp_all

/-- Leaves out a byte order mark. -/
def dropMark : List Char → List Char
  | c :: rest => if c = '\ufeff' then rest else c :: rest
  | [] => []

/-- The entries of the outermost table of a document. -/
def parse (text : String) : Option (List (String × Value)) :=
  (readLines {} (dropMark text.toList)).map fun d => entriesValue d.root

end GrammarText.Toml
