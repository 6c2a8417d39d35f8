import GrammarText.Value

/-!
The context of a generation: values under keys, in the order in which the keys were first set.

- `Context.set`, `Context.merge`: one value, or all of another context, laid over what was there.
- `Context.getBool`: the yes-or-no answer under a key, with an answer for an absent one.
-/

namespace GrammarText

structure Context where
  entries : Entries Value := []
  deriving Inhabited

namespace Context

def empty : Context := ⟨[]⟩

def get? (c : Context) (key : String) : Option Value := c.entries.get? key

def set (c : Context) (key : String) (value : Value) : Context := ⟨c.entries.put key value⟩

/-- Lays `top` over `c`: its values win, its new keys come last. -/
def merge (c top : Context) : Context := ⟨c.entries.putAll top.entries⟩

/-- Sets pairs one after another. -/
def setAll (c : Context) (pairs : List (String × Value)) : Context := ⟨c.entries.putAll pairs⟩

def ofList (pairs : List (String × Value)) : Context := empty.setAll pairs

def getBool (c : Context) (key : String) (default : Bool) : Bool :=
  match c.get? key with
  | some v => v.truthy
  | none => default

def size (c : Context) : Nat := c.entries.length

def isEmpty (c : Context) : Bool := c.entries.isEmpty

end Context

end GrammarText
