/-!
Values filed under names, in the order in which the names were first used.

- `Entries.put`: files a value. A name that is taken keeps its place and loses its value; a new one
  comes last.
- `Entries.putAll`: files the entries of another list, one after another.
- `Entries.update`: changes the value under one name.
-/

namespace GrammarText

abbrev Entries (α : Type) := List (String × α)

namespace Entries

variable {α : Type}

def keys (es : Entries α) : List String := es.map Prod.fst

def values (es : Entries α) : List α := es.map Prod.snd

def get? (es : Entries α) (key : String) : Option α :=
  match es with
  | [] => none
  | (k, v) :: rest => if k = key then some v else get? rest key

def has (es : Entries α) (key : String) : Bool := (es.get? key).isSome

def put (es : Entries α) (key : String) (value : α) : Entries α :=
  match es with
  | [] => [(key, value)]
  | (k, v) :: rest => if k = key then (k, value) :: rest else (k, v) :: put rest key value

def putAll (es other : Entries α) : Entries α := other.foldl (fun es e => es.put e.1 e.2) es

def update (es : Entries α) (key : String) (change : α → α) : Entries α :=
  match es with
  | [] => []
  | (k, v) :: rest => if k = key then (k, change v) :: rest else (k, v) :: update rest key change

end Entries

end GrammarText
