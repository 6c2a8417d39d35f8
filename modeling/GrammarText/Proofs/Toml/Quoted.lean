import GrammarText.Proofs.Toml.Scalar

/-!
Quoted texts.

- `readBasic_quoted`: what may stand between double quotes is read as the text that it stands for.
  `readBasic_noEscape`: where an escape should be and none is, nothing is read.
- `readValue_quoted`, `readValue_noEscape`: the same of values.
-/

namespace GrammarText.Toml

theorem escape?_short {d c : Char} (h : (d, c) ∈ shortEscapes) (rest : List Char) :
    escape? (d :: rest) = some (c, 1) := by
  have hshort : ∀ e ∈ shortEscapes, shortEscape? e.1 = some e.2 := by decide
  rw [escape?, hshort (d, c) h]

theorem escape?_noEscape {cs : List Char} (h : NoEscape cs) : escape? cs = none := by
  cases h with
  | zero rest => rfl
  | brace rest =>
    have hwidth : Text.escapeWidth? 'u' = some 4 := by decide
    have hshort : shortEscape? 'u' = none := by decide
    have hdigits : numericEscape? 4 ('\x7b' :: rest) = none := by
      rw [numericEscape?]
      split <;> rfl
    simp only [escape?, hshort, hwidth, hdigits, Option.map_none]

/-- Up to where it ends, a quoted text is read as what it stands for. -/
theorem readBasic_append {written text : List Char} (h : Quoted written text) (rest : List Char) :
    readBasic (written ++ rest) = (readBasic rest).map fun (more, after) => (text ++ more, after) := by
  induction h with
  | nil => simp
  | plain hc hquote hslash _ ih =>
    rw [List.cons_append, readBasic.eq_4 _ _ hquote hslash, if_pos hc, ih]
    cases readBasic rest <;> rfl
  | escape hescape _ ih =>
    rw [List.cons_append, List.cons_append, readBasic, escape?_short hescape]
    simp only [List.drop_succ_cons, List.drop_zero, ih]
    cases readBasic rest <;> rfl

theorem readBasic_quoted {written text : List Char} (h : Quoted written text) (rest : List Char) :
    readBasic (written ++ '"' :: rest) = some (text, rest) := by
  rw [readBasic_append h, readBasic]
  simp

theorem readBasic_noEscape {written text rest : List Char} (h : Quoted written text)
    (hrest : NoEscape rest) : readBasic (written ++ '\\' :: rest) = none := by
  rw [readBasic_append h, readBasic, escape?_noEscape hrest]
  rfl

/-! ## Values -/

theorem readValue_quote (depth : Nat) (cs : List Char) :
    readValue depth ('"' :: cs) =
      (readQuoted ('"' :: cs)).map fun (s, rest) => (.string s, rest) := by
  rw [readValue_plain (by decide), readValue.eq_1]
  rfl

/-- A quote that begins a text of one line is not the first of three. -/
theorem readQuoted_line {cs : List Char} (h : ∀ after, cs ≠ '"' :: '"' :: after) :
    readQuoted ('"' :: cs) = readQuotedLine ('"' :: cs) := by
  unfold readQuoted
  split
  · exact absurd (List.cons.inj ‹_›).2 (h _)
  · rename_i hquote
    cases hquote
  · rfl

theorem readValue_line (depth : Nat) {cs : List Char} (h : ∀ after, cs ≠ '"' :: '"' :: after) :
    readValue depth ('"' :: cs) =
      (readBasic cs).map fun (text, rest) => (.string (String.ofList text), rest) := by
  rw [readValue_quote, readQuoted_line h, readQuotedLine, Option.map_map]
  rfl

/-- A quoted text goes on with a quote only where it ends. -/
theorem quoted_ne_quote {written text : List Char} (h : Quoted written text) (hne : written ≠ [])
    (rest after : List Char) : written ++ rest ≠ '"' :: after := by
  cases h with
  | nil => exact absurd rfl hne
  | plain _ hquote _ _ => simp [hquote]
  | escape _ _ => simp

theorem readValue_quoted (depth : Nat) {written text rest : List Char} (h : Quoted written text)
    (hrest : AfterValue rest) :
    readValue depth ('"' :: (written ++ '"' :: rest)) =
      some (.string (String.ofList text), rest) := by
  have hone : ∀ after, written ++ '"' :: rest ≠ '"' :: '"' :: after := by
    intro after
    by_cases hnil : written = []
    · rw [hnil, List.nil_append]
      cases hrest <;> simp
    · exact quoted_ne_quote h hnil _ _
  rw [readValue_line depth hone, readBasic_quoted h, Option.map_some]

theorem readValue_noEscape (depth : Nat) {written text rest : List Char} (h : Quoted written text)
    (hrest : NoEscape rest) : readValue depth ('"' :: (written ++ '\\' :: rest)) = none := by
  have hone : ∀ after, written ++ '\\' :: rest ≠ '"' :: '"' :: after := by
    intro after
    by_cases hnil : written = []
    · rw [hnil, List.nil_append]
      simp
    · exact quoted_ne_quote h hnil _ _
  rw [readValue_line depth hone, readBasic_noEscape h hrest, Option.map_none]

end GrammarText.Toml
