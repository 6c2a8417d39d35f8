import GrammarText.Context.Toml
import GrammarText.Proofs.Entries
import Mathlib.Data.List.Forall2

/-!
Values that are the same but for the order of entries.

- `Value.everyPart`: a property of a value and of all values inside of it. `Value.isExact`: that of
  what a context holds beside floats.
- `Value.Same`: two values are the same, where the order of entries does not count.
- `Value.same_table_iff`: tables with distinct keys are the same if the values under each key are, in
  whatever order the entries are kept.
-/

namespace GrammarText.Value

/-! ## Parts of a value -/

mutual

/-- Whether a value and all values inside of it have a property. -/
def everyPart (p : Value → Bool) : Value → Bool
  | bool b => p (bool b)
  | int n => p (int n)
  | float x => p (float x)
  | str s => p (str s)
  | list items => p (list items) && everyItem p items
  | table entries => p (table entries) && everyEntry p entries

def everyItem (p : Value → Bool) : List Value → Bool
  | [] => true
  | v :: rest => everyPart p v && everyItem p rest

def everyEntry (p : Value → Bool) : List (String × Value) → Bool
  | [] => true
  | (_, v) :: rest => everyPart p v && everyEntry p rest

end

theorem everyPart_self {p : Value → Bool} {v : Value} (h : everyPart p v = true) : p v = true := by
  cases v with
  | bool | int | float | str => exact h
  | list items => exact (Bool.and_eq_true_iff.mp h).1
  | table entries => exact (Bool.and_eq_true_iff.mp h).1

/-- A part that a context holds and that is no float: an integer has 64 bits, and a table has every
key once. -/
def isExact : Value → Bool
  | float _ => false
  | int n => fitsSigned n
  | table entries => decide (Entries.keys entries).Nodup
  | _ => true

/-! ## Equal but for the order of entries -/

mutual

/-- The values are the same, where the order of entries does not count. -/
def Same : Value → Value → Prop
  | bool a, bool b => a = b
  | int m, int n => m = n
  | float x, float y => x = y
  | str s, str t => s = t
  | list items, list others => ItemsSame items others
  | table entries, table others => entries.length = others.length ∧ EntriesSame entries others
  | _, _ => False

def ItemsSame : List Value → List Value → Prop
  | [], [] => True
  | v :: rest, w :: others => Same v w ∧ ItemsSame rest others
  | _, _ => False

/-- Every entry is among the others, under its key. -/
def EntriesSame : List (String × Value) → List (String × Value) → Prop
  | [], _ => True
  | (key, v) :: rest, others =>
    (∃ w, Entries.get? others key = some w ∧ Same v w) ∧ EntriesSame rest others

end

theorem entriesSame_iff {es others : Entries Value} :
    EntriesSame es others ↔ ∀ e ∈ es, ∃ w, others.get? e.1 = some w ∧ Same e.2 w := by
  induction es with
  | nil => simp [EntriesSame]
  | cons e rest ih =>
    obtain ⟨key, v⟩ := e
    rw [EntriesSame, ih, List.forall_mem_cons]

/-- Entries that have the same keys in the same order are the same if their values are. -/
theorem found_same_iff {es others kept : Entries Value} (hkeys : es.keys = others.keys)
    (hfound : ∀ e ∈ others, kept.get? e.1 = some e.2) :
    (∀ e ∈ es, ∃ w, kept.get? e.1 = some w ∧ Same e.2 w) ↔
      List.Forall₂ Same es.values others.values := by
  induction es generalizing others with
  | nil =>
    obtain rfl : others = [] := by simpa [Entries.keys] using hkeys.symm
    simp [Entries.values]
  | cons e rest ih =>
    cases others with
    | nil => simp [Entries.keys] at hkeys
    | cons other more =>
      obtain ⟨hkey, hkeys⟩ := List.cons.inj hkeys
      obtain ⟨hother, hfound⟩ := List.forall_mem_cons.mp hfound
      rw [← hkey] at hother
      rw [List.forall_mem_cons, ih hkeys hfound, hother]
      simp [Entries.values]

/-- Tables are compared by what stands under each key. -/
theorem same_table_iff {es others kept kept' : Entries Value} (hkeys : es.keys = others.keys)
    (hnodup : es.keys.Nodup) (hleft : es.Perm kept) (hright : others.Perm kept') :
    Same (table kept) (table kept') ↔ List.Forall₂ Same es.values others.values := by
  have hlength : kept.length = kept'.length := by
    have hcount := congrArg List.length hkeys
    simp only [Entries.keys, List.length_map] at hcount
    rw [← hleft.length_eq, ← hright.length_eq, hcount]
  have hnodup' : (Entries.keys kept').Nodup := by
    have hperm : others.keys.Perm (Entries.keys kept') := hright.map Prod.fst
    rwa [← hperm.nodup_iff, ← hkeys]
  have hfound : ∀ e ∈ others, Entries.get? kept' e.1 = some e.2 := fun e he =>
    Entries.get?_of_mem hnodup' (hright.mem_iff.mp he)
  rw [Same, entriesSame_iff, ← found_same_iff hkeys hfound]
  simp only [hlength, true_and, hleft.mem_iff]

end GrammarText.Value
