import GrammarText.Toml.Value

/-!
The tables of a TOML document while it is read.

A table says where it comes from: its own header, a longer header that leads through it, or dotted
keys. That decides what may still be added to it.

- `openTable`, `openSeries`: what a header does. A table has one header at most, and one that dotted
  keys made has none.
- `insertPath`: what a key does. A dotted key may lead through a table that has no header yet, but
  the value must come into a table that dotted keys made.
- `Item.value`: the finished value.
-/

namespace GrammarText.Toml

inductive Origin where
  /-- The table has its own header. -/
  | header
  /-- A longer header leads through the table. -/
  | implied
  | dotted
  deriving DecidableEq, Repr

/-- A part of a document that is being read. -/
inductive Item where
  /-- A value that nothing is added to any more. -/
  | leaf (v : Value)
  | table (origin : Origin) (entries : List (String × Item))
  /-- A series of tables under one key, of which the latest still grows; the ones before it, latest
  first. -/
  | series (latest : List (String × Item)) (earlier : List (List (String × Item)))

abbrev Items := Entries Item

/-- Changes the table that a path of header keys leads to from the outermost one. Tables on the way
are made where there are none, and a series is entered at its latest table. -/
def atHeader (change : Items → Option Items) : List String → Items → Option Items
  | [], items => change items
  | key :: path, items => match items.get? key with
    | none => (atHeader change path []).map fun inner =>
        insertSorted key (.table .implied inner) items
    | some (.table origin inner) => (atHeader change path inner).map fun inner =>
        items.put key (.table origin inner)
    | some (.series latest earlier) => (atHeader change path latest).map fun latest =>
        items.put key (.series latest earlier)
    | some (.leaf _) => none

/-- Gives the table under a key a header. -/
def openTable (key : String) (items : Items) : Option Items :=
  match items.get? key with
  | none => some (insertSorted key (.table .header []) items)
  | some (.table .implied inner) => some (items.put key (.table .header inner))
  | some _ => none

/-- Begins a new table of the series under a key. -/
def openSeries (key : String) (items : Items) : Option Items :=
  match items.get? key with
  | none => some (insertSorted key (.series [] []) items)
  | some (.series latest earlier) => some (items.put key (.series [] (latest :: earlier)))
  | some _ => none

/-- Inserts a value under a dotted key. `fits` says whether the table at hand may take it: the one
that the key starts from does, and on the way the tables that dotted keys made. -/
def insertPath (value : Value) (fits : Bool) : List String → Items → Option Items
  | [], _ => none
  | [key], items =>
    if fits && !items.has key then some (insertSorted key (.leaf value) items) else none
  | key :: path, items => match items.get? key with
    | none => (insertPath value true path []).map fun inner =>
        insertSorted key (.table .dotted inner) items
    | some (.table .header _) => none
    | some (.table origin inner) =>
      (insertPath value (origin == .dotted) path inner).map fun inner =>
        items.put key (.table origin inner)
    | some (.series latest earlier) => (insertPath value false path latest).map fun latest =>
        items.put key (.series latest earlier)
    | some (.leaf _) => none

mutual

/-- The value of a finished part. -/
def Item.value : Item → Value
  | .leaf v => v
  | .table _ entries => .table (entriesValue entries)
  | .series latest earlier =>
    .array ((.table (entriesValue latest) :: seriesValue earlier).reverse)

def entriesValue : List (String × Item) → List (String × Value)
  | [] => []
  | (key, item) :: rest => (key, item.value) :: entriesValue rest

def seriesValue : List (List (String × Item)) → List Value
  | [] => []
  | entries :: rest => .table (entriesValue entries) :: seriesValue rest

end

end GrammarText.Toml
