import GrammarText.Proofs.Entries
import GrammarText.Proofs.Toml.Document
import GrammarText.Proofs.Toml.Line
import GrammarText.Proofs.Toml.Scalar

/-!
Arrays and inline tables, one item or entry at a time.

- `readValue_array`, `readValue_table`: what is read behind an opening bracket or brace.
- `readItems_end`, `readItems_last`, `readItems_more`, `readItems_refused`: how an array goes on.
- `readInlineEntries_end`, `readInlineEntries_last`, `readInlineEntries_more`,
  `readInlineEntries_refused`: how an inline table goes on, where its keys have no quotes.
- `sortOnto`: entries in the order of their keys. `entriesValue_sortOnto`: what the finished table
  holds.
-/

namespace GrammarText.Toml

variable {item : Reader Value} {cs start after rest more : List Char} {v : Value}

theorem length_lt_of_comma (hitem : ',' :: more <:+ start) (hstart : skipTrivia cs = some start) :
    more.length < cs.length :=
  Nat.lt_of_lt_of_le (Nat.lt_of_succ_le hitem.length_le) (suffix_of_skipTrivia hstart).length_le

/-! ## Arrays -/

theorem readValue_array (depth : Nat) (cs : List Char) :
    readValue (depth + 1) ('[' :: cs) =
      (readItems (readValue depth) cs).map fun (vs, rest) => (.array vs, rest) := by
  rw [readValue.eq_2]
  rfl

theorem readItems_end (hstart : skipTrivia cs = some (']' :: rest)) :
    readItems item cs = some ([], rest) := by
  rw [readItems, hstart]
  rfl

/-- Where the array does not end, an item must begin. -/
theorem readItems_item (hstart : skipTrivia cs = some start) (hopen : start.head? ≠ some ']') :
    readItems item cs =
      match item start with
      | none => none
      | some (v, after) => match skipTrivia after with
        | some (']' :: rest) => some ([v], rest)
        | some (',' :: rest) =>
          if rest.length < cs.length then
            (readItems item rest).map fun (vs, rest) => (v :: vs, rest)
          else none
        | _ => none := by
  rw [readItems, hstart]
  split
  · cases ‹some start = none›
  · rename_i h
    cases h
    exact absurd rfl hopen
  · rename_i h
    cases h
    rfl

theorem readItems_refused (hstart : skipTrivia cs = some start) (hopen : start.head? ≠ some ']')
    (hitem : item start = none) : readItems item cs = none := by
  rw [readItems_item hstart hopen, hitem]

theorem readItems_last (hstart : skipTrivia cs = some start) (hopen : start.head? ≠ some ']')
    (hitem : item start = some (v, ']' :: rest)) : readItems item cs = some ([v], rest) := by
  rw [readItems_item hstart hopen, hitem]
  simp only [skipTrivia_start (c := ']') (by decide)]

theorem readItems_more (hends : LeavesEnd item) (hstart : skipTrivia cs = some start)
    (hopen : start.head? ≠ some ']') (hitem : item start = some (v, ',' :: more)) :
    readItems item cs = (readItems item more).map fun (vs, rest) => (v :: vs, rest) := by
  rw [readItems_item hstart hopen, hitem]
  simp only [skipTrivia_start (c := ',') (by decide),
    if_pos (length_lt_of_comma (hends hitem) hstart)]

/-! ## Inline tables -/

variable {items : Items} {key : String}

theorem readValue_table (depth : Nat) (cs : List Char) :
    readValue (depth + 1) ('\x7b' :: cs) =
      (readInlineEntries (readValue depth) [] cs).map fun (items, rest) =>
        (.table (entriesValue items), rest) := by
  rw [readValue.eq_2]
  rfl

theorem bare_begins (hk : IsBareKey key) (rest : List Char) :
    skipTrivia (key.toList ++ rest) = some (key.toList ++ rest) ∧
      (key.toList ++ rest).head? ≠ some '\x7d' := by
  obtain ⟨c, text, htext⟩ := List.exists_cons_of_ne_nil hk.nonempty
  have hc : isBareChar c = true := hk.bare c (htext ▸ List.mem_cons_self)
  rw [htext, List.cons_append]
  exact ⟨skipTrivia_bare hc _, by simpa using bare_ne hc (by decide)⟩

theorem readInlineEntry_bare (hk : IsBareKey key) {text : List Char}
    (htext : skipTrivia text = some text) :
    readInlineEntry item (key.toList ++ ' ' :: '=' :: ' ' :: text) =
      (item text).map fun (v, rest) => (([key], v), rest) := by
  have hsign : skipTrivia ('=' :: ' ' :: text) = some ('=' :: ' ' :: text) :=
    skipTrivia_start (by decide) _
  simp only [readInlineEntry, readKey_bare hk, Option.bind_eq_bind, Option.bind_some,
    skipTrivia_space, hsign, readChar, if_true, htext]
  cases item text <;> rfl

theorem insertPath_free (hfree : items.has key = false) :
    insertPath v true [key] items = some (insertSorted key (.leaf v) items) := by
  simp [insertPath, hfree]

theorem readInlineEntries_end (hstart : skipTrivia cs = some ('\x7d' :: rest)) :
    readInlineEntries item items cs = some (items, rest) := by
  rw [readInlineEntries, hstart]
  rfl

/-- Where the table does not end, an entry must begin. -/
theorem readInlineEntries_entry (hstart : skipTrivia cs = some start)
    (hopen : start.head? ≠ some '\x7d') :
    readInlineEntries item items cs =
      match readInlineEntry item start with
      | none => none
      | some ((path, v), after) => match insertPath v true path items with
        | none => none
        | some items => match skipTrivia after with
          | some ('\x7d' :: rest) => some (items, rest)
          | some (',' :: rest) =>
            if rest.length < cs.length then readInlineEntries item items rest else none
          | _ => none := by
  rw [readInlineEntries, hstart]
  split
  · cases ‹some start = none›
  · rename_i h
    cases h
    exact absurd rfl hopen
  · rename_i h
    cases h
    rfl

theorem readInlineEntries_refused (hstart : skipTrivia cs = some start)
    (hopen : start.head? ≠ some '\x7d') (hentry : readInlineEntry item start = none) :
    readInlineEntries item items cs = none := by
  rw [readInlineEntries_entry hstart hopen, hentry]

theorem readInlineEntries_last (hstart : skipTrivia cs = some start)
    (hopen : start.head? ≠ some '\x7d')
    (hentry : readInlineEntry item start = some (([key], v), after))
    (hfree : items.has key = false) (hafter : skipTrivia after = some ('\x7d' :: rest)) :
    readInlineEntries item items cs = some (insertSorted key (.leaf v) items, rest) := by
  rw [readInlineEntries_entry hstart hopen, hentry]
  simp only [insertPath_free hfree, hafter]

theorem readInlineEntries_more (hends : LeavesEnd item) (hstart : skipTrivia cs = some start)
    (hopen : start.head? ≠ some '\x7d')
    (hentry : readInlineEntry item start = some (([key], v), ',' :: more))
    (hfree : items.has key = false) :
    readInlineEntries item items cs =
      readInlineEntries item (insertSorted key (.leaf v) items) more := by
  rw [readInlineEntries_entry hstart hopen, hentry]
  simp only [insertPath_free hfree, skipTrivia_start (c := ',') (by decide),
    if_pos (length_lt_of_comma (leavesEnd_readInlineEntry hends hentry) hstart)]

/-! ## Entries in the order of their keys -/

/-- Puts entries, one after another, where their keys belong. -/
def sortOnto {α : Type} (sorted es : Entries α) : Entries α :=
  es.foldl (fun sorted e => insertSorted e.1 e.2 sorted) sorted

theorem perm_insertSorted {α : Type} (key : String) (value : α) (es : Entries α) :
    (insertSorted key value es).Perm ((key, value) :: es) := by
  induction es with
  | nil => exact .refl _
  | cons e rest ih =>
    rw [insertSorted]
    split
    · exact .refl _
    · exact (ih.cons e).trans (.swap _ _ _)

theorem perm_sortOnto {α : Type} (sorted es : Entries α) :
    (sortOnto sorted es).Perm (es ++ sorted) := by
  induction es generalizing sorted with
  | nil => exact .refl _
  | cons e rest ih =>
    exact (ih _).trans
      (((perm_insertSorted e.1 e.2 sorted).append_left rest).trans List.perm_middle)

theorem perm_sorted {α : Type} (es : Entries α) : (sortOnto [] es).Perm es := by
  have hperm := perm_sortOnto [] es
  rwa [List.append_nil] at hperm

theorem perm_keys_sorted {α : Type} (es : Entries α) : (sortOnto [] es).keys.Perm es.keys :=
  (perm_sorted es).map Prod.fst

theorem entriesValue_insertSorted (key : String) (item : Item) (items : Items) :
    entriesValue (insertSorted key item items) =
      insertSorted key item.value (entriesValue items) := by
  induction items with
  | nil => rfl
  | cons e rest ih =>
    obtain ⟨k, first⟩ := e
    rw [insertSorted, entriesValue, insertSorted]
    split
    · rfl
    · rw [entriesValue, ih]

theorem entriesValue_sortOnto (items : Items) (es : Entries Value) :
    entriesValue (sortOnto items (es.map fun e => (e.1, .leaf e.2))) =
      sortOnto (entriesValue items) es := by
  induction es generalizing items with
  | nil => rfl
  | cons e rest ih =>
    rw [List.map_cons]
    exact (ih _).trans (by rw [entriesValue_insertSorted]; rfl)

end GrammarText.Toml
