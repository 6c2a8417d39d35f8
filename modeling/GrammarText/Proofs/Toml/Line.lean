import GrammarText.Proofs.Text.Token
import GrammarText.Proofs.Toml.Library
import GrammarText.Proofs.Toml.Rest
import GrammarText.Proofs.Toml.Trivia
import Mathlib.Data.Bool.AllAny

/-!
Documents that begin with an entry.

- `readKey_bare`, `skipTrivia_bare`, `readLine_bare`, `readEntry_bare`: a key without quotes is taken
  for nothing else.
- `parse_first`: how a document goes on behind the entry that it begins with.
-/

namespace GrammarText.Toml

/-! ## Keys without quotes -/

theorem readKeyPart_bare {key : String} (hk : IsBareKey key) {rest : List Char}
    (hrest : Text.EndsClass isBareChar rest) :
    readKeyPart (key.toList ++ rest) = some (key, rest) := by
  have htake : (key.toList ++ rest).takeWhile isBareChar = key.toList :=
    Text.takeWhile_of_class hk.bare hrest
  have hdrop : (key.toList ++ rest).dropWhile isBareChar = rest :=
    Text.dropWhile_of_class hk.bare hrest
  have hsome : key.toList.isEmpty = false := by simpa using hk.nonempty
  obtain ⟨c, cs, hcs⟩ := List.exists_cons_of_ne_nil hk.nonempty
  have hc : isBareChar c = true := hk.bare c (hcs ▸ List.mem_cons_self)
  unfold readKeyPart
  split
  · rename_i heq
    rw [hcs, List.cons_append] at heq
    exact absurd (List.cons.inj heq).1 (bare_ne hc (by decide))
  · rename_i heq
    rw [hcs, List.cons_append] at heq
    exact absurd (List.cons.inj heq).1 (bare_ne hc (by decide))
  · simp [htake, hdrop, hsome]

theorem readKey_bare {key : String} (hk : IsBareKey key) (cs : List Char) :
    readKey (key.toList ++ ' ' :: '=' :: cs) = some ([key], ' ' :: '=' :: cs) := by
  have hends : Text.EndsClass isBareChar (' ' :: '=' :: cs) := by
    intro c hc
    cases hc
    decide
  rw [readKey, readKeyParts, readKeyPart_bare hk hends]
  rfl

theorem readEntry_bare {key : String} (hk : IsBareKey key) (cs : List Char) :
    readEntry (key.toList ++ ' ' :: '=' :: ' ' :: cs)
      = (readValue maxNesting (skipSpace cs)).map fun (v, rest) => (.entry [key] v, rest) := by
  have hspace : skipSpace (' ' :: cs) = skipSpace cs := rfl
  have hsign : readChar '=' (skipSpace (' ' :: '=' :: ' ' :: cs)) = some ((), ' ' :: cs) := rfl
  simp only [readEntry, readKey_bare hk, Option.bind_eq_bind, Option.bind_some, hsign, hspace]
  cases readValue maxNesting (skipSpace cs) <;> rfl

theorem skipTrivia_bare {c : Char} (hc : isBareChar c = true) (cs : List Char) :
    skipTrivia (c :: cs) = some (c :: cs) := by
  have hkeyless : ∀ d ∈ [' ', '\t', '\r', '\n', '#'], isBareChar d = false :=
    List.all_iff_forall_prop.mp (by decide)
  exact skipTrivia_start (fun h => bare_ne hc (hkeyless c h) rfl) cs

theorem readLine_bare {c : Char} (hc : isBareChar c = true) (cs : List Char) :
    readLine (c :: cs) = readEntry (c :: cs) := by
  unfold readLine
  split
  · rename_i heq
    exact absurd (List.cons.inj heq).1 (bare_ne hc (by decide))
  · rfl

/-! ## The first entry -/

theorem add_entry (key : String) (v : Value) :
    Draft.add {} (.entry [key] v) = some ⟨[(key, .leaf v)], []⟩ := rfl

/-- A document that begins with an entry: the value is read from what stands behind its sign, and
the lines behind the value go on with the document. -/
theorem parse_first {key : String} (hk : IsBareKey key) (text : String) :
    Toml.parse (key ++ " = " ++ text) =
      match readValue maxNesting (skipSpace text.toList) with
      | none => none
      | some (v, rest) =>
        if atLineEnd rest then
          (readLines ⟨[(key, .leaf v)], []⟩ rest).map fun d => entriesValue d.root
        else none := by
  obtain ⟨c, cs, hcs⟩ := List.exists_cons_of_ne_nil hk.nonempty
  have hc : isBareChar c = true := hk.bare c (hcs ▸ List.mem_cons_self)
  have htext : (key ++ " = " ++ text).toList = c :: (cs ++ ' ' :: '=' :: ' ' :: text.toList) := by
    simp [hcs]
  have hentry := readEntry_bare hk text.toList
  rw [hcs, List.cons_append] at hentry
  rw [parse, htext, dropMark, if_neg (bare_ne hc (by decide)), readLines, skipTrivia_bare hc]
  simp only [readLine_bare hc, hentry]
  cases hread : readValue maxNesting (skipSpace text.toList) with
  | none => rfl
  | some r =>
    obtain ⟨v, rest⟩ := r
    have hrest : rest <:+ text.toList := (leavesEnd_readValue _ hread).trans (skipSpace_suffix _)
    have hshort : rest.length < (c :: (cs ++ ' ' :: '=' :: ' ' :: text.toList)).length := by
      have hle := hrest.length_le
      simp only [List.length_cons, List.length_append]
      omega
    simp only [Option.map_some, add_entry, hshort, decide_true, Bool.and_true]
    split <;> rfl

end GrammarText.Toml
